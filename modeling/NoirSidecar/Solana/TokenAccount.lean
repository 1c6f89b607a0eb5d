-- SUMMARY: The packed layout of spl-token accounts: unpacking, and the checks on account data that read single fields of it.
import NoirSidecar.Solana.Account
import Mathlib.Data.Nat.Digits.Defs

/-!
# Token accounts

A token account is a record of 165 bytes. `unpack` reads it whole and accepts
data of exactly that length; the checks the node and the router make look at the
length, at the state byte, and, for Token-2022, at the account type that follows
the record when there are extensions.
-/

inductive ProgramError where
  | invalidAccountData
  | uninitializedAccount
  deriving DecidableEq, Repr

theorem Except.bind_eq_ok_iff {ε α β : Type} {x : Except ε α} {f : α → Except ε β} {b : β} :
    (x >>= f) = .ok b ↔ ∃ a, x = .ok a ∧ f a = .ok b := by
  cases x with
  | error e => exact iff_of_false nofun fun ⟨_, h, _⟩ => nomatch h
  | ok a => exact ⟨fun h => ⟨a, rfl, h⟩, fun ⟨_, h, hf⟩ => by cases h; exact hf⟩

/-- The bytes of a field. -/
def Bytes.field (data : Bytes) (offset length : Nat) : Bytes := (data.drop offset).take length

/-- A field that lies behind a prefix of known length. -/
theorem Bytes.field_append_right {front rest : Bytes} {n offset length : Nat}
    (h : front.length = n) : Bytes.field (front ++ rest) (n + offset) length = rest.field offset length := by
  unfold Bytes.field
  rw [List.drop_append, List.drop_eq_nil_of_le (by omega), List.nil_append]
  congr 2
  omega

theorem Bytes.field_append_left {front rest : Bytes} {n : Nat} (h : front.length = n) :
    Bytes.field (front ++ rest) 0 n = front := by
  unfold Bytes.field
  rw [List.drop_zero, List.take_append_of_le_length (by omega), ← h, List.take_length]

def Bytes.toU64 (bytes : Bytes) : UInt64 := UInt64.ofNat (Nat.ofDigits 256 (bytes.map UInt8.toNat))

namespace SplToken

inductive AccountState where
  | uninitialized
  | initialized
  | frozen
  deriving DecidableEq, Repr

structure Account where
  mint : Pubkey
  owner : Pubkey
  amount : UInt64
  delegate : Option Pubkey
  state : AccountState
  isNative : Option UInt64
  delegatedAmount : UInt64
  closeAuthority : Option Pubkey
  deriving DecidableEq, Repr

namespace Account

/-- `Account::LEN`. -/
def len : Nat := 165

def mintOffset : Nat := 0
def ownerOffset : Nat := 32
def stateOffset : Nat := 108

def unpackState : Bytes → Except ProgramError AccountState
  | [0] => .ok .uninitialized
  | [1] => .ok .initialized
  | [2] => .ok .frozen
  | _ => .error .invalidAccountData

def unpackKey (bytes : Bytes) : Except ProgramError Pubkey :=
  match Pubkey.tryFrom bytes with
  | some p => .ok p
  | none => .error .invalidAccountData

/-- An optional field: a tag of four bytes and a body, which counts only if the
tag says so. -/
def unpackOption {α : Type} (body : Bytes → Except ProgramError α) (bytes : Bytes) :
    Except ProgramError (Option α) :=
  match bytes.take 4 with
  | [0, 0, 0, 0] => .ok none
  | [1, 0, 0, 0] => (body (bytes.drop 4)).map some
  | _ => .error .invalidAccountData

def unpackFromSlice (data : Bytes) : Except ProgramError Account := do
  let mint ← unpackKey (data.field mintOffset 32)
  let owner ← unpackKey (data.field ownerOffset 32)
  let delegate ← unpackOption unpackKey (data.field 72 36)
  let state ← unpackState (data.field stateOffset 1)
  let isNative ← unpackOption (fun b => .ok b.toU64) (data.field 109 12)
  let closeAuthority ← unpackOption unpackKey (data.field 129 36)
  return {
    mint, owner, delegate, state, isNative, closeAuthority
    amount := (data.field 64 8).toU64
    delegatedAmount := (data.field 121 8).toU64 }

/-- `Pack::unpack`: the length must be exact and the account initialized. -/
def unpack (data : Bytes) : Except ProgramError Account :=
  if data.length ≠ len then .error .invalidAccountData
  else do
    let account ← unpackFromSlice data
    if account.state = .uninitialized then .error .uninitializedAccount else return account

theorem length_of_unpack {data : Bytes} {account : Account} (h : unpack data = .ok account) :
    data.length = len := by
  unfold unpack at h
  split at h
  · cases h
  · next hlen => exact not_not.mp hlen

theorem bytes_of_unpackKey {bytes : Bytes} {p : Pubkey} (h : unpackKey bytes = .ok p) :
    bytes = p.bytes := by
  unfold unpackKey at h
  split at h
  · next q hq =>
    cases h
    exact Pubkey.tryFrom_eq_some.mp hq
  · cases h

theorem keys_of_unpackFromSlice {data : Bytes} {account : Account}
    (h : unpackFromSlice data = .ok account) :
    data.field mintOffset 32 = account.mint.bytes ∧
      data.field ownerOffset 32 = account.owner.bytes := by
  simp only [unpackFromSlice, Except.bind_eq_ok_iff] at h
  obtain ⟨mint, hmint, owner, howner, _, -, _, -, _, -, _, -, h⟩ := h
  cases h
  exact ⟨bytes_of_unpackKey hmint, bytes_of_unpackKey howner⟩

/-- Mint and owner of an unpacked account are the first two fields of its data. -/
theorem keys_of_unpack {data : Bytes} {account : Account} (h : unpack data = .ok account) :
    data.field mintOffset 32 = account.mint.bytes ∧
      data.field ownerOffset 32 = account.owner.bytes := by
  rw [unpack, if_neg (not_not.mpr (length_of_unpack h)), Except.bind_eq_ok_iff] at h
  obtain ⟨raw, hraw, h⟩ := h
  split at h
  · cases h
  · cases h
    exact keys_of_unpackFromSlice hraw

/-- What follows mint and owner in the packed form of a new account: nothing but
the state byte is set. -/
def newAccountTail : Bytes := List.replicate 44 0 ++ 1 :: List.replicate 56 0

/-- The packed form of a new account. -/
def packNew (mint owner : Pubkey) : Bytes := mint.bytes ++ (owner.bytes ++ newAccountTail)

/-- The account `packNew` packs. -/
def new (mint owner : Pubkey) : Account where
  mint := mint
  owner := owner
  amount := 0
  delegate := none
  state := .initialized
  isNative := none
  delegatedAmount := 0
  closeAuthority := none

theorem length_packNew (mint owner : Pubkey) : (packNew mint owner).length = len := by
  simp only [packNew, List.length_append, mint.length_eq, owner.length_eq]
  rfl

theorem unpackKey_bytes (p : Pubkey) : unpackKey p.bytes = .ok p := by
  simp only [unpackKey, Pubkey.tryFrom_eq_some.mpr rfl]

theorem unpack_packNew (mint owner : Pubkey) : unpack (packNew mint owner) = .ok (new mint owner) := by
  have hm : mint.bytes.length = 32 := mint.length_eq
  have ho : owner.bytes.length = 32 := owner.length_eq
  have htail : ∀ offset length, (packNew mint owner).field (32 + (32 + offset)) length =
      newAccountTail.field offset length := by
    intro offset length
    rw [packNew, Bytes.field_append_right hm, Bytes.field_append_right ho]
  have hmint : (packNew mint owner).field mintOffset 32 = mint.bytes :=
    Bytes.field_append_left hm
  have howner : (packNew mint owner).field ownerOffset 32 = owner.bytes := by
    have hskip : (packNew mint owner).field (32 + 0) 32 = (owner.bytes ++ newAccountTail).field 0 32 :=
      Bytes.field_append_right hm
    exact hskip.trans (Bytes.field_append_left ho)
  have hraw : unpackFromSlice (packNew mint owner) = .ok (new mint owner) := by
    simp only [unpackFromSlice, hmint, howner, unpackKey_bytes]
    rw [htail 8 36, stateOffset, htail 44 1, htail 45 12, htail 65 36, htail 0 8, htail 57 8]
    rfl
  rw [unpack, if_neg (not_not.mpr (length_packNew mint owner)), hraw]
  rfl

end Account

/-- `is_initialized_account`: the state byte is there and not zero. -/
def isInitializedAccount (data : Bytes) : Bool := data.getD Account.stateOffset 0 != 0

/-- `solana_inline_spl::token::Account::valid_account_data`. -/
def validAccountData (data : Bytes) : Bool :=
  data.length == Account.len && isInitializedAccount data

end SplToken

/-- The account type byte that follows the record of a Token-2022 account. -/
def Token2022.accountTypeAccount : UInt8 := 2

/-- A new token account of a token program. -/
def newTokenAccount (programId mint owner : Pubkey) : Account where
  lamports := 0
  data := SplToken.Account.packNew mint owner
  owner := programId
  executable := false
  rentEpoch := 0
