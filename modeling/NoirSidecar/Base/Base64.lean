-- SUMMARY: Base-64 texts with canonical padding, and their round trip.
import NoirSidecar.Base.Text

/-!
# Base 64

Three bytes are written as four characters. The engine requires canonical padding:
it is there, and the bits it stands for are zero.
-/

namespace Base64

/-- The standard alphabet. -/
def alphabet : List Char :=
  "ABCDEFGHIJKLMNOPQRSTUVWXYZabcdefghijklmnopqrstuvwxyz0123456789+/".toList

def charValue? (c : Char) : Option Nat := alphabet.idxOf? c

/-- The bytes of a list of characters, read in groups of four. Only the last group
may be padded, and its bits that belong to no byte must be zero. -/
def decodeChars : List Char → Option (List UInt8)
  | [] => some []
  | [a, b, '=', '='] => do
    let x ← charValue? a
    let y ← charValue? b
    if y % 16 = 0 then some [UInt8.ofNat (x * 4 + y / 16)] else none
  | [a, b, c, '='] => do
    let x ← charValue? a
    let y ← charValue? b
    let z ← charValue? c
    if z % 4 = 0 then
      some [UInt8.ofNat (x * 4 + y / 16), UInt8.ofNat (y % 16 * 16 + z / 4)]
    else none
  | a :: b :: c :: d :: cs => do
    let x ← charValue? a
    let y ← charValue? b
    let z ← charValue? c
    let w ← charValue? d
    let rest ← decodeChars cs
    some (UInt8.ofNat (x * 4 + y / 16) :: UInt8.ofNat (y % 16 * 16 + z / 4) ::
      UInt8.ofNat (z % 4 * 64 + w) :: rest)
  | _ => none

def decode (text : String) : Option (List UInt8) := decodeChars text.toList

/-- The character of a value. -/
def valueChar (v : Nat) : Char := alphabet.getD v 'A'

/-- Four characters for three bytes. A last group of one or two bytes is padded. -/
def encodeChars : List UInt8 → List Char
  | [] => []
  | [a] => [valueChar (a.toNat / 4), valueChar (a.toNat % 4 * 16), '=', '=']
  | [a, b] =>
    [valueChar (a.toNat / 4), valueChar (a.toNat % 4 * 16 + b.toNat / 16),
      valueChar (b.toNat % 16 * 4), '=']
  | a :: b :: c :: bytes =>
    valueChar (a.toNat / 4) :: valueChar (a.toNat % 4 * 16 + b.toNat / 16) ::
      valueChar (b.toNat % 16 * 4 + c.toNat / 64) :: valueChar (c.toNat % 64) :: encodeChars bytes

def encode (bytes : List UInt8) : String := String.ofList (encodeChars bytes)

theorem charValue?_valueChar : ∀ v < 64, charValue? (valueChar v) = some v := by
  decide +kernel

theorem valueChar_ne_pad : ∀ v < 64, valueChar v ≠ '=' := by
  decide +kernel

theorem is_valueChar : ∀ v < 64, Ascii.Is (valueChar v) := by
  decide +kernel

/-- A group that is not padded. -/
theorem decodeChars_group {a b c d : Char} {x y z w : Nat} (hd : d ≠ '=')
    (ha : charValue? a = some x) (hb : charValue? b = some y) (hc : charValue? c = some z)
    (hw : charValue? d = some w) (cs : List Char) :
    decodeChars (a :: b :: c :: d :: cs) = (decodeChars cs).map fun rest =>
      UInt8.ofNat (x * 4 + y / 16) :: UInt8.ofNat (y % 16 * 16 + z / 4) ::
        UInt8.ofNat (z % 4 * 64 + w) :: rest := by
  rw [decodeChars.eq_def]
  split
  · next heq => cases heq
  · next heq => simp only [List.cons.injEq] at heq; exact absurd heq.2.2.2.1 hd
  · next heq => simp only [List.cons.injEq] at heq; exact absurd heq.2.2.2.1 hd
  · next heq =>
    cases heq
    simp only [ha, hb, hc, hw, Option.bind_eq_bind, Option.bind_some]
    cases decodeChars cs <;> rfl
  · next hnone => exact absurd rfl (hnone a b c d cs)

/-- The bits of three bytes, taken in sixes and put back. -/
theorem ofNat_first (a : UInt8) {m : Nat} (hm : m < 16) :
    UInt8.ofNat (a.toNat / 4 * 4 + (a.toNat % 4 * 16 + m) / 16) = a := by
  have : a.toNat / 4 * 4 + (a.toNat % 4 * 16 + m) / 16 = a.toNat := by omega
  rw [this, UInt8.ofNat_toNat]

theorem ofNat_second (n : Nat) (b : UInt8) {m : Nat} (hm : m < 4) :
    UInt8.ofNat ((n % 4 * 16 + b.toNat / 16) % 16 * 16 + (b.toNat % 16 * 4 + m) / 4) = b := by
  have hb := b.toNat_lt
  have : (n % 4 * 16 + b.toNat / 16) % 16 * 16 + (b.toNat % 16 * 4 + m) / 4 = b.toNat := by omega
  rw [this, UInt8.ofNat_toNat]

theorem ofNat_third (n : Nat) (c : UInt8) :
    UInt8.ofNat ((n % 16 * 4 + c.toNat / 64) % 4 * 64 + c.toNat % 64) = c := by
  have hc := c.toNat_lt
  have : (n % 16 * 4 + c.toNat / 64) % 4 * 64 + c.toNat % 64 = c.toNat := by omega
  rw [this, UInt8.ofNat_toNat]

theorem decodeChars_encodeChars (bytes : List UInt8) :
    decodeChars (encodeChars bytes) = some bytes := by
  induction bytes using encodeChars.induct with
  | case1 => rfl
  | case2 a =>
    -- one byte left makes two characters and two of padding
    have ha := a.toNat_lt
    have hx := charValue?_valueChar (a.toNat / 4) (by omega)
    have hy := charValue?_valueChar (a.toNat % 4 * 16) (by omega)
    have hzero : a.toNat % 4 * 16 % 16 = 0 := by omega
    have hfirst := ofNat_first a (m := 0) (by omega)
    rw [Nat.add_zero] at hfirst
    simp only [encodeChars, decodeChars, hx, hy, Option.bind_eq_bind, Option.bind_some]
    rw [if_pos hzero, hfirst]
  | case3 a b =>
    -- two bytes left make three characters and one of padding
    have ha := a.toNat_lt
    have hb := b.toNat_lt
    have hx := charValue?_valueChar (a.toNat / 4) (by omega)
    have hy := charValue?_valueChar (a.toNat % 4 * 16 + b.toNat / 16) (by omega)
    have hz := charValue?_valueChar (b.toNat % 16 * 4) (by omega)
    have hpad := valueChar_ne_pad (b.toNat % 16 * 4) (by omega)
    have hzero : b.toNat % 16 * 4 % 4 = 0 := by omega
    have hsecond := ofNat_second a.toNat b (m := 0) (by omega)
    rw [Nat.add_zero] at hsecond
    simp only [encodeChars, decodeChars, hx, hy, hz, Option.bind_eq_bind, Option.bind_some]
    rw [if_pos hzero, ofNat_first a (by omega), hsecond]
  | case4 a b c bytes ih =>
    have ha := a.toNat_lt
    have hb := b.toNat_lt
    have hc := c.toNat_lt
    rw [encodeChars, decodeChars_group (valueChar_ne_pad _ (by omega))
      (charValue?_valueChar _ (by omega)) (charValue?_valueChar _ (by omega))
      (charValue?_valueChar _ (by omega)) (charValue?_valueChar _ (by omega)), ih, Option.map_some,
      ofNat_first a (by omega), ofNat_second _ b (by omega), ofNat_third]

/-- Decoding undoes encoding. -/
@[simp] theorem decode_encode (bytes : List UInt8) : decode (encode bytes) = some bytes := by
  rw [decode, encode, String.toList_ofList, decodeChars_encodeChars]

theorem length_encodeChars (bytes : List UInt8) :
    (encodeChars bytes).length = (bytes.length + 2) / 3 * 4 := by
  induction bytes using encodeChars.induct with
  | case1 => rfl
  | case2 a => simp [encodeChars]
  | case3 a b => simp [encodeChars]
  | case4 a b c bytes ih =>
    simp only [encodeChars, List.length_cons, ih]
    omega

theorem is_of_mem_encodeChars {bytes : List UInt8} {c : Char} (h : c ∈ encodeChars bytes) :
    Ascii.Is c := by
  have hpad : Ascii.Is '=' := by decide
  induction bytes using encodeChars.induct with
  | case1 => cases h
  | case2 a =>
    have ha := a.toNat_lt
    simp only [encodeChars, List.mem_cons, List.not_mem_nil, or_false] at h
    rcases h with rfl | rfl | rfl | rfl
    · exact is_valueChar _ (by omega)
    · exact is_valueChar _ (by omega)
    · exact hpad
    · exact hpad
  | case3 a b =>
    have ha := a.toNat_lt
    have hb := b.toNat_lt
    simp only [encodeChars, List.mem_cons, List.not_mem_nil, or_false] at h
    rcases h with rfl | rfl | rfl | rfl
    · exact is_valueChar _ (by omega)
    · exact is_valueChar _ (by omega)
    · exact is_valueChar _ (by omega)
    · exact hpad
  | case4 a b c bytes ih =>
    have ha := a.toNat_lt
    have hb := b.toNat_lt
    have hc := c.toNat_lt
    rw [encodeChars] at h
    simp only [List.mem_cons] at h
    rcases h with rfl | rfl | rfl | rfl | h
    · exact is_valueChar _ (by omega)
    · exact is_valueChar _ (by omega)
    · exact is_valueChar _ (by omega)
    · exact is_valueChar _ (by omega)
    · exact ih h

/-- Every three bytes, also the last one or two, take four characters. -/
theorem utf8ByteSize_encode (bytes : List UInt8) :
    (encode bytes).utf8ByteSize = (bytes.length + 2) / 3 * 4 := by
  rw [encode, Ascii.utf8ByteSize_ofList fun _ => is_of_mem_encodeChars, length_encodeChars]

example : decode "Zm9vYmE=" = some [102, 111, 111, 98, 97] := by decide +kernel

end Base64
