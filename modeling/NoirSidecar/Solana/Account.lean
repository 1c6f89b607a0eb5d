-- SUMMARY: Public keys with their base-58 text, the well-known ids, and accounts.
import NoirSidecar.Base.Base58

/-!
# Keys and accounts

A `Pubkey` is 32 bytes. Everywhere outside the wire format it travels as its
base-58 text, the index tables included, so the text is part of the model.
-/

abbrev Bytes := List UInt8

def pubkeyBytes : Nat := 32

structure Pubkey where
  bytes : Bytes
  length_eq : bytes.length = pubkeyBytes
  deriving DecidableEq, Repr

inductive ParsePubkeyError where
  | wrongSize
  | invalid
  deriving DecidableEq, Repr

namespace Pubkey

/-- Keys are ordered by their bytes. -/
instance : LT Pubkey := ⟨fun p q => p.bytes < q.bytes⟩

instance (p q : Pubkey) : Decidable (p < q) := inferInstanceAs (Decidable (p.bytes < q.bytes))

@[ext] theorem ext {p q : Pubkey} (h : p.bytes = q.bytes) : p = q := by
  cases p; cases q; cases h; rfl

/-- `Pubkey::try_from` of a byte slice. -/
def tryFrom (bytes : Bytes) : Option Pubkey :=
  if h : bytes.length = pubkeyBytes then some ⟨bytes, h⟩ else none

def toString (p : Pubkey) : String := Base58.encode p.bytes

/-- The number the bytes stand for. -/
def value (p : Pubkey) : Nat := Base58.value p.bytes

/-- The longest base-58 text of 32 bytes. -/
def maxBase58Len : Nat := 44

/-- `Pubkey::from_str`. The text is decoded into a buffer of 32 bytes, so a longer
value does not fit and counts as invalid. -/
def fromStr (text : String) : Except ParsePubkeyError Pubkey :=
  if text.utf8ByteSize > maxBase58Len then .error .wrongSize
  else
    match Base58.decode text with
    | .error _ => .error .invalid
    | .ok bytes =>
      if h : bytes.length = pubkeyBytes then .ok ⟨bytes, h⟩
      else if bytes.length > pubkeyBytes then .error .invalid
      else .error .wrongSize

/-- A key of 32 equal bytes. -/
def ofByte (b : UInt8) : Pubkey := ⟨List.replicate pubkeyBytes b, List.length_replicate⟩

theorem utf8ByteSize_toString_le (p : Pubkey) : p.toString.utf8ByteSize ≤ maxBase58Len := by
  apply Base58.utf8ByteSize_encode_le
  rw [p.length_eq]
  decide

/-- The text of a key reads back as that key. -/
@[simp] theorem fromStr_toString (p : Pubkey) : fromStr p.toString = .ok p := by
  have hlen : ¬ p.toString.utf8ByteSize > maxBase58Len := Nat.not_lt.mpr p.utf8ByteSize_toString_le
  rw [fromStr, if_neg hlen, toString, Base58.decode_encode]
  exact dif_pos p.length_eq

theorem toString_injective : Function.Injective toString := by
  intro p q h
  have := congrArg fromStr h
  simpa using this

theorem lt_iff_value_lt {p q : Pubkey} : p < q ↔ p.value < q.value :=
  Base58.lt_iff_value_lt_of_length_eq (p.length_eq.trans q.length_eq.symm)

theorem value_injective : Function.Injective value := fun p q h =>
  ext (Base58.eq_of_value_eq (p.length_eq.trans q.length_eq.symm) h)

theorem tryFrom_eq_some {bytes : Bytes} {p : Pubkey} : tryFrom bytes = some p ↔ bytes = p.bytes := by
  unfold tryFrom
  split
  · next h =>
    constructor
    · intro hp; cases hp; rfl
    · rintro rfl; rfl
  · next h =>
    refine iff_of_false (by simp) fun hb => h ?_
    rw [hb]
    exact p.length_eq

end Pubkey

/-! ## Well-known ids -/

namespace SplToken

/-- `spl_token::id()`. -/
def id : Pubkey where
  bytes := [6, 221, 246, 225, 215, 101, 161, 147, 217, 203, 225, 70, 206, 235, 121, 172,
    28, 180, 133, 237, 95, 91, 55, 145, 58, 140, 245, 133, 126, 255, 0, 169]
  length_eq := rfl

example : id.toString = "TokenkegQfeZyiNwAJbNbGKPFXCWuBvf9Ss623VQ5DA" := by decide +kernel

end SplToken

namespace Token2022

/-- `token_2022::id()`. -/
def id : Pubkey where
  bytes := [6, 221, 246, 225, 238, 117, 143, 222, 24, 66, 93, 188, 228, 108, 205, 218,
    182, 26, 252, 77, 131, 185, 13, 39, 254, 189, 249, 40, 216, 161, 139, 252]
  length_eq := rfl

example : id.toString = "TokenzQdBNbLqP5VEhdkAS6EPFLC1PHnBqCXEpPxuEb" := by decide +kernel

end Token2022

/-- The two token programs the sidecar knows. -/
def isKnownSplTokenId (programId : Pubkey) : Bool :=
  programId == SplToken.id || programId == Token2022.id

@[simp] theorem isKnownSplTokenId_token2022 : isKnownSplTokenId Token2022.id = true := by
  rw [isKnownSplTokenId, beq_self_eq_true, Bool.or_true]

/-! ## Accounts -/

structure Account where
  lamports : UInt64
  data : Bytes
  owner : Pubkey
  executable : Bool
  rentEpoch : UInt64
  deriving DecidableEq, Repr
