-- SUMMARY: Account filters of `getProgramAccounts`, and which accounts they let through.
import NoirSidecar.Base.Base64
import NoirSidecar.Solana.TokenAccount

/-!
# Account filters

The bytes of a `Memcmp` come as base-58 text, as base-64 text or raw. A filter
whose text does not decode lets nothing through.
-/

inductive MemcmpEncodedBytes where
  | base58 (text : String)
  | base64 (text : String)
  | bytes (bytes : Bytes)
  deriving DecidableEq, Repr

structure Memcmp where
  offset : Nat
  bytes : MemcmpEncodedBytes
  deriving DecidableEq, Repr

inductive RpcFilterType where
  | dataSize (size : UInt64)
  | memcmp (compare : Memcmp)
  | tokenAccountState
  deriving DecidableEq, Repr

namespace Memcmp

def newRawBytes (offset : Nat) (bytes : Bytes) : Memcmp := ⟨offset, .bytes bytes⟩

/-- `Memcmp::bytes`. -/
def decodedBytes (m : Memcmp) : Option Bytes :=
  match m.bytes with
  | .base58 text => (Base58.decode text).toOption
  | .base64 text => Base64.decode text
  | .bytes bytes => some bytes

def rawBytesAsRef (m : Memcmp) : Option Bytes :=
  match m.bytes with
  | .bytes bytes => some bytes
  | _ => none

/-- The bytes decoded in place; what does not decode is left as it is. -/
def convertToRawBytes (m : Memcmp) : Memcmp :=
  match m.decodedBytes with
  | some bytes => { m with bytes := .bytes bytes }
  | none => m

def bytesMatch (m : Memcmp) (data : Bytes) : Bool :=
  match m.decodedBytes with
  | some bytes =>
    if m.offset > data.length then false
    else if (data.drop m.offset).length < bytes.length then false
    else data.field m.offset bytes.length == bytes
  | none => false

/-- Bytes that can be read without decoding are the bytes of the filter. -/
theorem decodedBytes_of_rawBytesAsRef {m : Memcmp} {bytes : Bytes}
    (h : m.rawBytesAsRef = some bytes) : m.decodedBytes = some bytes := by
  unfold rawBytesAsRef at h
  split at h
  · next hb => simp only [decodedBytes, hb, h]
  · cases h

@[simp] theorem decodedBytes_convertToRawBytes (m : Memcmp) :
    m.convertToRawBytes.decodedBytes = m.decodedBytes := by
  unfold convertToRawBytes
  split
  · next bytes hbytes => rw [hbytes]; rfl
  · rfl

@[simp] theorem offset_convertToRawBytes (m : Memcmp) : m.convertToRawBytes.offset = m.offset := by
  unfold convertToRawBytes
  split <;> rfl

@[simp] theorem bytesMatch_convertToRawBytes (m : Memcmp) (data : Bytes) :
    m.convertToRawBytes.bytesMatch data = m.bytesMatch data := by
  simp only [bytesMatch, decodedBytes_convertToRawBytes, offset_convertToRawBytes]

theorem field_of_bytesMatch {m : Memcmp} {data bytes : Bytes}
    (hraw : m.rawBytesAsRef = some bytes) (h : m.bytesMatch data) :
    data.field m.offset bytes.length = bytes := by
  simp only [bytesMatch, decodedBytes_of_rawBytesAsRef hraw] at h
  split at h
  · cases h
  · split at h
    · cases h
    · exact beq_iff_eq.mp h

/-- Bytes that match lie within the data. -/
theorem length_of_bytesMatch {m : Memcmp} {data bytes : Bytes}
    (hraw : m.rawBytesAsRef = some bytes) (h : m.bytesMatch data) :
    m.offset + bytes.length ≤ data.length := by
  simp only [bytesMatch, decodedBytes_of_rawBytesAsRef hraw] at h
  split at h
  · cases h
  · split at h
    · cases h
    · next hin hlong =>
      rw [List.length_drop] at hlong
      omega

/-- A filter for a key compares one field. -/
@[simp] theorem bytesMatch_key (offset : Nat) (key : Pubkey) (data : Bytes) :
    (newRawBytes offset key.bytes).bytesMatch data = (data.field offset 32 == key.bytes) := by
  have hkey : key.bytes.length = 32 := key.length_eq
  have hshort : (data.drop offset).length < 32 → data.field offset 32 ≠ key.bytes := by
    intro hlt heq
    have hlen := congrArg List.length heq
    rw [hkey, Bytes.field, List.length_take] at hlen
    omega
  simp only [bytesMatch, decodedBytes, newRawBytes, hkey]
  split
  · next hout =>
    refine (beq_eq_false_iff_ne.mpr (hshort ?_)).symm
    rw [List.drop_eq_nil_of_le (Nat.le_of_lt hout)]
    decide
  · split
    · next hlt => exact (beq_eq_false_iff_ne.mpr (hshort hlt)).symm
    · rfl

end Memcmp

def filterAllows (filter : RpcFilterType) (account : Account) : Bool :=
  match filter with
  | .dataSize size => UInt64.ofNat account.data.length == size
  | .memcmp compare => compare.bytesMatch account.data
  | .tokenAccountState => SplToken.validAccountData account.data

/-! ## Verified and optimized filters -/

inductive RpcFilterError where
  | dataTooLarge
  | base58DecodeError (e : Base58.DecodeError)
  | base64DecodeError (text : String)
  deriving DecidableEq, Repr

namespace RpcFilterType

def maxDataSize : Nat := 128
def maxDataBase58Size : Nat := 175
def maxDataBase64Size : Nat := 172

def verifyBytes (bytes : Bytes) : Except RpcFilterError Unit :=
  if bytes.length > maxDataSize then .error .dataTooLarge else .ok ()

/-- `base64Error` is what is wrong with a text that is no base 64. -/
def verify (base64Error : String → String) : RpcFilterType → Except RpcFilterError Unit
  | .memcmp compare =>
    match compare.bytes with
    | .base58 text =>
      if text.utf8ByteSize > maxDataBase58Size then .error .dataTooLarge
      else
        match Base58.decode text with
        | .error e => .error (.base58DecodeError e)
        | .ok bytes => verifyBytes bytes
    | .base64 text =>
      if text.utf8ByteSize > maxDataBase64Size then .error .dataTooLarge
      else
        match Base64.decode text with
        | none => .error (.base64DecodeError (base64Error text))
        | some bytes => verifyBytes bytes
    | .bytes bytes => verifyBytes bytes
  | .dataSize _ | .tokenAccountState => .ok ()

/-- Only a filter whose bytes decode passes. -/
theorem decodedBytes_of_verify {base64Error : String → String} {compare : Memcmp}
    (h : verify base64Error (.memcmp compare) = .ok ()) :
    ∃ bytes, compare.decodedBytes = some bytes := by
  obtain ⟨offset, bytes⟩ := compare
  cases bytes with
  | bytes bytes => exact ⟨bytes, rfl⟩
  | base58 text =>
    cases hdecode : Base58.decode text with
    | ok bytes => exact ⟨bytes, congrArg Except.toOption hdecode⟩
    | error e =>
      simp only [verify, hdecode] at h
      split at h <;> cases h
  | base64 text =>
    cases hdecode : Base64.decode text with
    | some bytes => exact ⟨bytes, hdecode⟩
    | none =>
      simp only [verify, hdecode] at h
      split at h <;> cases h

end RpcFilterType

def optimizeFilters (filters : List RpcFilterType) : List RpcFilterType :=
  filters.map fun
    | .memcmp compare => .memcmp compare.convertToRawBytes
    | filter => filter

/-- Optimized filters let the same accounts through. -/
theorem allows_optimizeFilters (filters : List RpcFilterType) (account : Account) :
    (optimizeFilters filters).all (filterAllows · account) =
      filters.all (filterAllows · account) := by
  rw [optimizeFilters, List.all_map]
  congr 1
  funext filter
  cases filter <;> simp [filterAllows]
