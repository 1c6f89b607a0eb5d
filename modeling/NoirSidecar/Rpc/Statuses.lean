-- SUMMARY: Statuses of signatures, the genesis hash, and the methods that are answered without the node.
import NoirSidecar.Rpc.Snapshot

/-!
# Statuses

Of the transactions the chain has taken nothing is kept, and the methods that ask about them
say so in their own ways: a status is `null`, a list is empty. Some of them do not even ask
the node.
-/

namespace Signature

def toString (signature : Signature) : String := Base58.encode signature.bytes

inductive ParseSignatureError where
  | wrongSize
  | invalid
  deriving DecidableEq, Repr

def maxBase58SignatureLen : Nat := 88

/-- `Signature::from_str`. Like a key, the text is decoded into a buffer of its size. -/
def fromStr (text : String) : Except ParseSignatureError Signature :=
  if text.utf8ByteSize > maxBase58SignatureLen then .error .wrongSize
  else
    match Base58.decode text with
    | .error _ => .error .invalid
    | .ok bytes =>
      if h : bytes.length = 64 then .ok ⟨bytes, h⟩
      else if bytes.length > 64 then .error .invalid
      else .error .wrongSize

end Signature

namespace Solana

def debugParseSignatureError : Signature.ParseSignatureError → String
  | .wrongSize => "WrongSize"
  | .invalid => "Invalid"

def verifySignature (input : String) : Except ErrorObject Signature :=
  (Signature.fromStr input).mapError fun e => invalidParams ("Invalid param: " ++ debugParseSignatureError e)

inductive TransactionConfirmationStatus where
  | processed
  | confirmed
  | finalized
  deriving DecidableEq, Repr

structure TransactionStatus where
  slot : UInt64
  confirmations : Option Nat
  status : Except TransactionError Unit
  err : Option TransactionError
  confirmationStatus : Option TransactionConfirmationStatus

def maxGetSignatureStatusesQueryItems : Nat := 256

/-- The signatures of a request, unless there are too many. -/
def verifySignatures (signatureStrs : List String) : Except ErrorObject (List Signature) :=
  if signatureStrs.length > maxGetSignatureStatusesQueryItems then
    .error (invalidParams
      s!"Too many inputs provided; max {maxGetSignatureStatusesQueryItems}")
  else signatureStrs.mapM verifySignature

/-- Nothing is looked up. -/
def getTransactionStatus (_signature : Signature) : RpcProg (Option TransactionStatus) := return none

def getSignatureStatuses (signatureStrs : List String) :
    RpcProg (RpcResponse (List (Option TransactionStatus))) := do
  let signatures ← .ofExcept (verifySignatures signatureStrs)
  let hash ← getHashWithConfig { commitment := some ⟨.processed⟩ }
  let slot ← callNode (Client.getSlot hash)
  let statuses ← signatures.mapM getTransactionStatus
  return { context := { slot := slot }, value := statuses }

/-- No status is known, whatever the node knows of it. -/
theorem mapM_getTransactionStatus (signatures : List Signature) :
    signatures.mapM getTransactionStatus = pure (List.replicate signatures.length none) := by
  induction signatures with
  | nil => rfl
  | cons signature signatures ih =>
    rw [List.mapM_cons, ih]
    rfl

def getGenesisHash : RpcProg String := callNode Client.getGenesisHash

/-! ## Without the node -/

structure RpcVersionInfo where
  solanaCore : String
  featureSet : Option UInt32
  deriving DecidableEq, Repr

structure RpcConfirmedTransactionStatusWithSignature where
  signature : String
  slot : UInt64
  err : Option TransactionError
  memo : Option String
  blockTime : Option Client.UnixTimestamp
  confirmationStatus : Option TransactionConfirmationStatus
  deriving DecidableEq, Repr

structure RpcVoteAccountInfo where
  votePubkey : String
  nodePubkey : String
  activatedStake : UInt64
  commission : UInt8
  epochVoteAccount : Bool
  epochCredits : List (UInt64 × UInt64 × UInt64)
  lastVote : UInt64
  rootSlot : UInt64
  deriving DecidableEq, Repr

structure RpcVoteAccountStatus where
  current : List RpcVoteAccountInfo
  delinquent : List RpcVoteAccountInfo
  deriving DecidableEq, Repr

def getVersion : RpcVersionInfo := ⟨"2.0.18", some 607245837⟩

def getSignaturesForAddress (_address : String) : List RpcConfirmedTransactionStatusWithSignature := []

def getVoteAccounts : RpcVoteAccountStatus := ⟨[], []⟩

def requestAirdrop (_pubkeyStr : String) (_lamports : UInt64) : RpcProg String :=
  .fail (invalidRequest "Unsupported method")

end Solana
