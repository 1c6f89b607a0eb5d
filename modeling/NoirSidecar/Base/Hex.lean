-- SUMMARY: Hex texts: decoding byte by byte as the library does it, and the texts it accepts.
import NoirSidecar.Base.Text

/-!
# Hex

The decoder works on the bytes of the text and names the first bad one. It accepts
digits of either case; a text is decoded exactly to the bytes it spells.
-/

namespace Hex

inductive FromHexError where
  | invalidHexCharacter (c : Char) (index : Nat)
  | oddLength
  deriving DecidableEq, Repr

def FromHexError.debug : FromHexError → String
  | .invalidHexCharacter c index =>
    "InvalidHexCharacter \x7b c: " ++ Debug.char c ++ ", index: " ++ toString index ++ " \x7d"
  | .oddLength => "OddLength"

/-- The value of a digit, which is at position `index` of the text. -/
def digitValue (b : UInt8) (index : Nat) : Except FromHexError Nat :=
  let n := b.toNat
  if 48 ≤ n ∧ n ≤ 57 then .ok (n - 48)
  else if 65 ≤ n ∧ n ≤ 70 then .ok (n - 55)
  else if 97 ≤ n ∧ n ≤ 102 then .ok (n - 87)
  else .error (.invalidHexCharacter (Char.ofNat n) index)

/-- The bytes of pairs of digits, the first of them at position `index`. -/
def decodePairs : List UInt8 → Nat → Except FromHexError (List UInt8)
  | a :: b :: rest, index => do
    let hi ← digitValue a index
    let lo ← digitValue b (index + 1)
    let bytes ← decodePairs rest (index + 2)
    return UInt8.ofNat (hi * 16 + lo) :: bytes
  | _, _ => .ok []

def decode (text : String) : Except FromHexError (List UInt8) :=
  let digits := text.toUTF8.data.toList
  if digits.length % 2 ≠ 0 then .error .oddLength else decodePairs digits 0

/-- Two lower-case digits for each byte. -/
def encode (bytes : List UInt8) : String :=
  String.ofList (bytes.flatMap fun b =>
    [Debug.hexDigit (b.toNat / 16), Debug.hexDigit (b.toNat % 16)])

/-- The text spells the bytes, with digits of either case. -/
def Spells (text : String) (bytes : List UInt8) : Prop :=
  text.toList.map Char.toLower = (encode bytes).toList

def lowerByte (b : UInt8) : UInt8 := if 65 ≤ b.toNat ∧ b.toNat ≤ 90 then b + 32 else b

def digitByte (v : Nat) : UInt8 := UInt8.ofNat (Debug.hexDigit v).toNat

theorem toNat_digitByte : ∀ v < 16, (digitByte v).toNat = if v < 10 then 48 + v else 87 + v := by
  decide +kernel

theorem toNat_lowerByte (b : UInt8) :
    (lowerByte b).toNat = if 65 ≤ b.toNat ∧ b.toNat ≤ 90 then b.toNat + 32 else b.toNat := by
  unfold lowerByte
  split
  · rw [UInt8.toNat_add]
    simp only [UInt8.reduceToNat]
    omega
  · rfl

/-- A digit is read by its code in lower case. -/
theorem digitValue_eq_ok_iff {b : UInt8} {index v : Nat} :
    digitValue b index = .ok v ↔ v < 16 ∧ lowerByte b = digitByte v := by
  have hcode : v < 16 → (lowerByte b = digitByte v ↔
      (if 65 ≤ b.toNat ∧ b.toNat ≤ 90 then b.toNat + 32 else b.toNat) =
        if v < 10 then 48 + v else 87 + v) := by
    intro hv
    rw [← UInt8.toNat_inj, toNat_lowerByte, toNat_digitByte v hv]
  rw [and_congr_right hcode]
  unfold digitValue
  dsimp only
  split_ifs <;> simp only [Except.ok.injEq, false_iff] <;> omega

/-- The codes of the digits of some bytes. -/
def digitBytes (bytes : List UInt8) : List UInt8 :=
  bytes.flatMap fun b => [digitByte (b.toNat / 16), digitByte (b.toNat % 16)]

theorem digitBytes_cons (b : UInt8) (bytes : List UInt8) :
    digitBytes (b :: bytes) =
      digitByte (b.toNat / 16) :: digitByte (b.toNat % 16) :: digitBytes bytes := rfl

theorem decodePairs_eq_ok_iff' {a b : UInt8} {rest bytes : List UInt8} {index : Nat} :
    decodePairs (a :: b :: rest) index = .ok bytes ↔ ∃ x y bs, digitValue a index = .ok x ∧
      digitValue b (index + 1) = .ok y ∧ decodePairs rest (index + 2) = .ok bs ∧
      bytes = UInt8.ofNat (x * 16 + y) :: bs := by
  rw [decodePairs]
  cases digitValue a index with
  | error e => simp [bind, Except.bind]
  | ok x =>
    cases digitValue b (index + 1) with
    | error e => simp [bind, Except.bind]
    | ok y =>
      cases decodePairs rest (index + 2) with
      | error e => simp [bind, Except.bind]
      | ok bs => simp [bind, Except.bind, pure, Except.pure, eq_comm]

/-- Pairs of digits are decoded to the bytes they are the digits of. -/
theorem decodePairs_eq_ok_iff {l : List UInt8} (heven : l.length % 2 = 0) (index : Nat)
    (bytes : List UInt8) :
    decodePairs l index = .ok bytes ↔ l.map lowerByte = digitBytes bytes := by
  induction l, index using decodePairs.induct generalizing bytes with
  | case1 a b rest index ih =>
    have hrest : rest.length % 2 = 0 := by
      simp only [List.length_cons] at heven
      omega
    -- where the digits stand matters only to errors
    rw [decodePairs_eq_ok_iff']
    simp only [List.map_cons, digitValue_eq_ok_iff, ih hrest]
    constructor
    · rintro ⟨x, y, bs, ⟨hx, ha⟩, ⟨hy, hb⟩, hbs, rfl⟩
      have hbyte : (UInt8.ofNat (x * 16 + y)).toNat = x * 16 + y :=
        UInt8.toNat_ofNat_of_lt' (show x * 16 + y < 256 by omega)
      have hhi : (x * 16 + y) / 16 = x := by omega
      have hlo : (x * 16 + y) % 16 = y := by omega
      rw [digitBytes_cons, hbyte, hhi, hlo, ha, hb, hbs]
    · intro h
      cases bytes with
      | nil => cases h
      | cons c bytes =>
        have hc := c.toNat_lt
        rw [digitBytes_cons, List.cons.injEq, List.cons.injEq] at h
        refine ⟨c.toNat / 16, c.toNat % 16, bytes, ⟨by omega, h.1⟩, ⟨by omega, h.2.1⟩, h.2.2, ?_⟩
        have hc : c.toNat / 16 * 16 + c.toNat % 16 = c.toNat := by omega
        rw [hc, UInt8.ofNat_toNat]
  | case2 l index hshort =>
    have hnil : l = [] := by
      cases l with
      | nil => rfl
      | cons a l =>
        cases l with
        | nil => cases heven
        | cons b l => exact absurd rfl (hshort a b l)
    subst hnil
    cases bytes with
    | nil => exact iff_of_true rfl rfl
    | cons c bytes => exact iff_of_false nofun nofun

theorem is_hexDigit : ∀ v < 16, Ascii.Is (Debug.hexDigit v) := by
  decide +kernel

theorem toList_encode (bytes : List UInt8) : (encode bytes).toList = bytes.flatMap fun b =>
    [Debug.hexDigit (b.toNat / 16), Debug.hexDigit (b.toNat % 16)] := String.toList_ofList

theorem exists_hexDigit_of_mem {bytes : List UInt8} {c : Char} (h : c ∈ (encode bytes).toList) :
    ∃ v < 16, c = Debug.hexDigit v := by
  rw [toList_encode] at h
  obtain ⟨b, -, hc⟩ := List.mem_flatMap.mp h
  have hb := b.toNat_lt
  simp only [List.mem_cons, List.not_mem_nil, or_false] at hc
  rcases hc with hc | hc
  · exact ⟨_, by omega, hc⟩
  · exact ⟨_, by omega, hc⟩

theorem is_of_mem_encode {bytes : List UInt8} {c : Char} (h : c ∈ (encode bytes).toList) :
    Ascii.Is c := by
  obtain ⟨v, hv, rfl⟩ := exists_hexDigit_of_mem h
  exact is_hexDigit v hv

theorem digitBytes_eq (bytes : List UInt8) :
    digitBytes bytes = (encode bytes).toList.map Ascii.code := by
  rw [toList_encode, List.map_flatMap]
  rfl

/-- The bytes of a text in lower case. -/
theorem map_lowerByte {cs : List Char} (h : ∀ c ∈ cs, Ascii.Is c) :
    (cs.flatMap String.utf8EncodeChar).map lowerByte = (cs.map Char.toLower).map Ascii.code := by
  rw [Ascii.flatMap_utf8EncodeChar h, List.map_map, List.map_map]
  refine List.map_congr_left fun c hc => ?_
  have hcode : (Ascii.code c).toNat = c.toNat := Ascii.toNat_code (h c hc)
  rw [← UInt8.toNat_inj]
  change (lowerByte (Ascii.code c)).toNat = (Ascii.code c.toLower).toNat
  rw [toNat_lowerByte, hcode, Ascii.toNat_code (Ascii.is_toLower.mpr (h c hc)), Ascii.toNat_toLower]

theorem map_lowerByte_eq_iff {text : String} {bytes : List UInt8} :
    text.toUTF8.data.toList.map lowerByte = digitBytes bytes ↔ Spells text bytes := by
  rw [Ascii.utf8Bytes_eq, digitBytes_eq, Spells]
  have hlower : ∀ {cs : List Char}, (∀ c ∈ cs, Ascii.Is c) → ∀ c ∈ cs.map Char.toLower, Ascii.Is c := by
    intro cs h c hc
    obtain ⟨d, hd, rfl⟩ := List.mem_map.mp hc
    exact Ascii.is_toLower.mpr (h d hd)
  constructor
  · intro h
    have hall : ∀ c ∈ text.toList, Ascii.Is c := by
      intro c hc
      refine Decidable.byContradiction fun hnot => ?_
      obtain ⟨b, hb, hlarge⟩ := Ascii.exists_utf8EncodeChar_of_not hnot
      have hmem : lowerByte b ∈ (encode bytes).toList.map Ascii.code := by
        rw [← h]
        exact List.mem_map_of_mem (List.mem_flatMap.mpr ⟨c, hc, hb⟩)
      obtain ⟨d, hd, heq⟩ := List.mem_map.mp hmem
      have hd' : d.toNat < 128 := is_of_mem_encode hd
      have hsmall := congrArg UInt8.toNat heq
      rw [Ascii.toNat_code hd', toNat_lowerByte] at hsmall
      split_ifs at hsmall <;> omega
    rw [map_lowerByte hall] at h
    exact (Ascii.map_code_inj (hlower hall) fun _ => is_of_mem_encode).mp h
  · intro h
    have hall : ∀ c ∈ text.toList, Ascii.Is c := by
      intro c hc
      have hmem : c.toLower ∈ (encode bytes).toList := by
        rw [← h]
        exact List.mem_map_of_mem hc
      exact Ascii.is_toLower.mp (is_of_mem_encode hmem)
    rw [map_lowerByte hall, h]

theorem length_digitBytes (bytes : List UInt8) : (digitBytes bytes).length = 2 * bytes.length := by
  induction bytes with
  | nil => rfl
  | cons b bytes ih =>
    rw [digitBytes_cons, List.length_cons, List.length_cons, ih, List.length_cons]
    omega

/-- A text is decoded to the bytes it spells. -/
theorem decode_eq_ok_iff {text : String} {bytes : List UInt8} :
    decode text = .ok bytes ↔ Spells text bytes := by
  rw [← map_lowerByte_eq_iff]
  unfold decode
  dsimp only
  split
  · next hodd =>
    refine iff_of_false nofun fun h => hodd ?_
    have hlen := congrArg List.length h
    rw [List.length_map, length_digitBytes] at hlen
    omega
  · next heven => exact decodePairs_eq_ok_iff (Decidable.not_not.mp heven) 0 bytes

/-- What is written can be read back. -/
theorem spells_encode (bytes : List UInt8) : Spells (encode bytes) bytes := by
  have hlower : ∀ v < 16, (Debug.hexDigit v).toLower = Debug.hexDigit v := by
    decide +kernel
  refine (List.map_congr_left fun c hc => ?_).trans (List.map_id _)
  obtain ⟨v, hv, rfl⟩ := exists_hexDigit_of_mem hc
  exact hlower v hv

example : decode "00fF" = .ok [0, 255] := by rfl
example : decode "0g" = .error (.invalidHexCharacter 'g' 1) := by rfl

end Hex
