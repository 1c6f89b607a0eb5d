-- SUMMARY: The calls the node answers, and the readers of `client::solana` written as programs that make them.
import NoirSidecar.Base.Interaction
import NoirSidecar.Client.Loop
import NoirSidecar.Solana.Filter
import NoirSidecar.Solana.Transaction

/-!
# Node calls

What the sidecar asks the node goes through `Client::request` or
`Client::state_call`. The calls are modelled with their arguments and the values
they carry back; the wire formats in between belong to libraries and only show as
answers that do not decode.
-/

/-! ## Calls and answers -/

/-- The methods of `SolanaRuntimeApi_call`, with their parameters. -/
inductive RuntimeCall where
  | getAccountInfo (pubkey : Pubkey)
  | getMultipleAccounts (pubkeys : List Pubkey)
  | getProgramAccounts (programId : Pubkey) (indexedKeys : List Pubkey)
      (filters : List RpcFilterType)
  | getBalance (pubkey : Pubkey)
  | getFeeForMessage (message : VersionedMessage)
  | convertTransaction (unsanitizedTx : VersionedTransaction)
  | simulateTransaction (unsanitizedTx : VersionedTransaction) (sigVerify enableCpiRecording : Bool)
  deriving DecidableEq, Repr

/-- The value the response of a method deserializes to. -/
@[reducible] def RuntimeCall.Value : RuntimeCall → Type
  | .getAccountInfo _ => Option Account
  | .getMultipleAccounts _ => List (Option Account)
  | .getProgramAccounts .. => List (Pubkey × Account)
  | .getBalance _ => UInt64
  | .getFeeForMessage _ => UInt64
  | .convertTransaction _ => Bytes
  | .simulateTransaction .. =>
    TransactionSimulationResult × (List Pubkey × Option (List Pubkey × List Pubkey))

/-- `chain_getBlockHash` is called in two ways: without a number it names the best block, with
the number zero the genesis. -/
inductive NodeCall where
  | runtime (call : RuntimeCall) (hash : Option Hash)
  | stateGetStorage (key : String) (hash : Hash)
  | chainGetBlockHash
  | chainGetGenesisHash
  | chainGetFinalizedHead
  | chainGetHeader (hash : Hash)
  | authorSubmitExtrinsic (transaction : String)
  deriving DecidableEq, Repr

/-- What comes back from a runtime call: `Client::state_call` fails, the runtime
returns an error, or the bytes it returns do or do not deserialize. -/
inductive StateCall (α : Type) where
  | failed (e : Client.Error)
  | rejected (text : String)
  | undecodable (text : String)
  | value (a : α)

def StateCall.toExcept {α : Type} : StateCall α → Except Client.Error α
  | .failed e => .error e
  | .rejected text => .error (.invalidRequest text)
  | .undecodable text => .error (.parseError text)
  | .value a => .ok a

@[reducible] def NodeCall.Answer : NodeCall → Type
  | .runtime call _ => StateCall call.Value
  | .stateGetStorage .. => Except Client.Error (Option String)
  | .chainGetBlockHash => Except Client.Error Hash
  | .chainGetGenesisHash => Except Client.Error Hash
  | .chainGetFinalizedHead => Except Client.Error Hash
  | .chainGetHeader _ => Except Client.Error UInt32
  | .authorSubmitExtrinsic _ => Except Client.Error Hash

/-- A node, as far as the calls of one request can tell. -/
abbrev Node := ∀ call : NodeCall, call.Answer

abbrev NodeProg := Prog NodeCall NodeCall.Answer

/-- A node that answers account look-ups from one account map at every block, and
everything else as `node` does. -/
def Node.serving (accounts : Pubkey → Option Account) (node : Node) : Node
  | .runtime (.getAccountInfo pubkey) _ => .value (accounts pubkey)
  | .runtime (.getMultipleAccounts pubkeys) _ => .value (pubkeys.map accounts)
  | call => node call

/-- A node that fails every call. -/
def Node.dead : Node
  | .runtime .. => .failed (.requestFailed "")
  | .stateGetStorage .. => .error (.requestFailed "")
  | .chainGetBlockHash => .error (.requestFailed "")
  | .chainGetGenesisHash => .error (.requestFailed "")
  | .chainGetFinalizedHead => .error (.requestFailed "")
  | .chainGetHeader _ => .error (.requestFailed "")
  | .authorSubmitExtrinsic _ => .error (.requestFailed "")

/-- A node that answers storage reads with eight zero bytes and fails other calls. -/
def Node.atEpoch : Node
  | .stateGetStorage .. => .ok (some "0x0000000000000000")
  | call => Node.dead call

/-! ## Readers -/

namespace Client

/-- `format!("{:?}", e)` -/
def Error.debug : Error → String
  | .clientError e => Debug.wrapped "ClientError" e.text
  | .invalidRequest text => Debug.wrapped "InvalidRequest" (Debug.string text)
  | .parseError text => Debug.wrapped "ParseError" (Debug.string text)
  | .requestFailed text => Debug.wrapped "RequestFailed" (Debug.string text)
  | .unexpectedResponse text => Debug.wrapped "UnexpectedResponse" (Debug.string text)

def runtimeCall (call : RuntimeCall) (hash : Option Hash) : NodeProg Error call.Value :=
  .ask (.runtime call hash) fun answer => .ofExcept answer.toExcept

def getAccount (pubkey : Pubkey) (hash : Option Hash) : NodeProg Error (Option Account) :=
  runtimeCall (.getAccountInfo pubkey) hash

def getAccounts (pubkeys : List Pubkey) (hash : Option Hash) :
    NodeProg Error (List (Pubkey × Option Account)) := do
  let accounts ← runtimeCall (.getMultipleAccounts pubkeys) hash
  if pubkeys.length ≠ accounts.length then
    .fail (.unexpectedResponse "Account count mismatch with public keys.")
  else return pubkeys.zip accounts

def getFilteredIndexedAccounts (programId : Pubkey) (indexedKeys : List Pubkey)
    (filters : List RpcFilterType) (hash : Option Hash) :
    NodeProg Error (List (Pubkey × Account)) :=
  runtimeCall (.getProgramAccounts programId indexedKeys filters) hash

/-- twox128("Timestamp") + twox128("Now") -/
def timestampKey : String := "0xf0c365c3cf59d671eb72da0e7a4113c49f1f0515f462cdcf84e0f1d6045dfcbb"

/-- twox128("Solana") + twox128("Slot") -/
def slotKey : String := "0xe4ad0d288d0ccf2a73473d025d07cea4ec862ddb18bc3dcede937c1cc93b0aae"

def stripHexPrefix (text : String) : String :=
  match text.toList with
  | '0' :: 'x' :: rest => String.ofList rest
  | _ => text

/-- The little-endian u64 of a storage value; `missing` is the error text when there
is none. Anything but eight bytes fails the conversion, which is unwrapped. -/
def parseStorageU64 (missing : String) : Option String → Outcome Error UInt64
  | none => .error (.unexpectedResponse missing)
  | some response =>
    match Hex.decode (stripHexPrefix response) with
    | .error e => .error (.parseError e.debug)
    | .ok bytes => if bytes.length = 8 then .ok (Bytes.toU64 bytes) else .panicked

def readStorageU64 (key missing : String) (hash : Hash) : NodeProg Error UInt64 :=
  .ask (.stateGetStorage key hash) fun answer =>
    .ofOutcome (Outcome.ofExcept answer >>= parseStorageU64 missing)

abbrev UnixTimestamp := Int64

def getTimestamp (hash : Hash) : NodeProg Error UnixTimestamp := do
  let now ← readStorageU64 timestampKey "Timestamp not exist" hash
  return now.toInt64

def getSlot (hash : Hash) : NodeProg Error UInt64 :=
  readStorageU64 slotKey "Solana slot not exist" hash

def getBalance (pubkey : Pubkey) (hash : Hash) : NodeProg Error UInt64 :=
  runtimeCall (.getBalance pubkey) (some hash)

def getFeeForMessage (message : VersionedMessage) (hash : Option Hash) : NodeProg Error UInt64 :=
  runtimeCall (.getFeeForMessage message) hash

/-- The bytes come back as they are, nothing of them is read here. -/
def convertTransaction (unsanitizedTx : VersionedTransaction) : NodeProg Error Bytes :=
  runtimeCall (.convertTransaction unsanitizedTx) none

def submitTransaction (convertedTx : Bytes) : NodeProg Error Hash :=
  .ask (.authorSubmitExtrinsic ("0x" ++ Hex.encode convertedTx)) fun answer =>
    .ofExcept (answer.mapError fun e => .invalidRequest e.debug)

def simulateTransaction (unsanitizedTx : VersionedTransaction) (sigVerify enableCpiRecording : Bool)
    (hash : Option Hash) : NodeProg Error
      (TransactionSimulationResult × (List Pubkey × Option (List Pubkey × List Pubkey))) :=
  runtimeCall (.simulateTransaction unsanitizedTx sigVerify enableCpiRecording) hash

def latestBlockhash : NodeProg Error Hash := .ask .chainGetBlockHash .ofExcept

def finalizedBlockhash : NodeProg Error Hash := .ask .chainGetFinalizedHead .ofExcept

def getGenesisHash : NodeProg Error String := do
  let hash ← .ask .chainGetGenesisHash .ofExcept
  return hash.toBase58

def saturatingAdd (a b : UInt32) : UInt32 :=
  if a.toNat + b.toNat < 2 ^ 32 then a + b else UInt32.ofNat (2 ^ 32 - 1)

def maxAge : UInt32 := 20

/-- The answer to `chain_getHeader` is the number of the header. -/
def getLastValidBlockHeight (hash : Hash) : NodeProg Error UInt64 :=
  .ask (.chainGetHeader hash) fun answer =>
    .ofExcept (answer.map fun number => (saturatingAdd number maxAge).toUInt64)

/-! ## What the readers return -/

variable {node : Node} {hash : Option Hash} {pubkeys : List Pubkey}

theorem run_runtimeCall (call : RuntimeCall) (hash : Option Hash) :
    (runtimeCall call hash).run node = .ofExcept (node (.runtime call hash)).toExcept :=
  Prog.run_ofExcept _

theorem run_readStorageU64 (key missing : String) (hash : Hash) :
    (readStorageU64 key missing hash).run node =
      Outcome.ofExcept (node (.stateGetStorage key hash)) >>= parseStorageU64 missing :=
  Prog.run_ofOutcome _

theorem run_latestBlockhash : latestBlockhash.run node = .ofExcept (node .chainGetBlockHash) :=
  Prog.run_ofExcept _

theorem run_finalizedBlockhash :
    finalizedBlockhash.run node = .ofExcept (node .chainGetFinalizedHead) := Prog.run_ofExcept _

/-- A read that succeeds pairs each key with the answer at its place. -/
theorem getAccounts_eq_ok {accounts : List (Pubkey × Option Account)}
    (h : (getAccounts pubkeys hash).run node = .ok accounts) :
    ∃ answers, node (.runtime (.getMultipleAccounts pubkeys) hash) = .value answers ∧
      pubkeys.length = answers.length ∧ accounts = pubkeys.zip answers := by
  simp only [getAccounts, Prog.run_bind] at h
  obtain ⟨answers, hanswer, h⟩ := Outcome.bind_eq_ok_iff.mp h
  rw [run_runtimeCall] at hanswer
  split at h
  · cases h
  · next hlen =>
    cases h
    refine ⟨answers, ?_, not_not.mp hlen, rfl⟩
    cases hnode : node (.runtime (.getMultipleAccounts pubkeys) hash) with
    | value a =>
      rw [hnode] at hanswer
      cases hanswer
      rfl
    | _ =>
      rw [hnode] at hanswer
      cases hanswer

/-- The keys of a successful read are the keys asked for, in that order. -/
theorem keys_of_getAccounts {accounts : List (Pubkey × Option Account)}
    (h : (getAccounts pubkeys hash).run node = .ok accounts) :
    accounts.map Prod.fst = pubkeys := by
  obtain ⟨answers, -, hlen, rfl⟩ := getAccounts_eq_ok h
  exact List.map_fst_zip (le_of_eq hlen)

/-- Reading accounts never panics. -/
theorem getAccounts_cases (pubkeys : List Pubkey) (hash : Option Hash) (node : Node) :
    (∃ accounts, (getAccounts pubkeys hash).run node = .ok accounts) ∨
      ∃ e, (getAccounts pubkeys hash).run node = .error e := by
  simp only [getAccounts, Prog.run_bind]
  rw [run_runtimeCall]
  cases (node (.runtime (.getMultipleAccounts pubkeys) hash)).toExcept with
  | error e => exact .inr ⟨e, rfl⟩
  | ok accounts =>
    rw [Outcome.ofExcept_ok, Outcome.ok_bind]
    split
    · exact .inr ⟨_, rfl⟩
    · exact .inl ⟨_, rfl⟩

variable {accounts : Pubkey → Option Account}

@[simp] theorem getAccount_serving (pubkey : Pubkey) :
    (getAccount pubkey hash).run (node.serving accounts) = .ok (accounts pubkey) := rfl

@[simp] theorem getAccounts_serving :
    (getAccounts pubkeys hash).run (node.serving accounts) =
      .ok (pubkeys.map fun p => (p, accounts p)) := by
  have hread : (runtimeCall (.getMultipleAccounts pubkeys) hash).run (node.serving accounts) =
      .ok (pubkeys.map accounts) := rfl
  have hzip : pubkeys.zip (pubkeys.map accounts) = pubkeys.map fun p => (p, accounts p) := by
    simpa using List.zip_map' (f := id) (g := accounts) (l := pubkeys)
  simp only [getAccounts, Prog.run_bind]
  rw [hread, Outcome.ok_bind, if_neg (by simp), hzip, Prog.run_pure]

@[simp] theorem getTimestamp_serving (hash : Hash) :
    (getTimestamp hash).run (node.serving accounts) = (getTimestamp hash).run node := by
  simp only [getTimestamp, Prog.run_bind, run_readStorageU64]
  rfl

end Client
