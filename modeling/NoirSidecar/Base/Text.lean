-- SUMMARY: Characters of one byte, and the quoting of strings in debug output.
import Mathlib.Tactic.SplitIfs

/-!
# Texts

A text is a list of characters, and in memory the list of the bytes of their UTF-8
forms. The two agree, code by code, for texts of ASCII characters.
-/

/-! ## Characters of one byte -/

namespace Ascii

/-- The character is one byte, its code. -/
def Is (c : Char) : Prop := c.toNat < 128

instance (c : Char) : Decidable (Is c) := inferInstanceAs (Decidable (_ < _))

theorem utf8Size_eq_one_iff {c : Char} : c.utf8Size = 1 ↔ Is c := by
  rw [Char.utf8Size_eq_one_iff, UInt32.le_iff_toNat_le]
  exact Nat.lt_succ_iff.symm

/-- The code of a character that is one byte. -/
def code (c : Char) : UInt8 := UInt8.ofNat c.toNat

theorem utf8EncodeChar_eq {c : Char} (h : Is c) :
    String.utf8EncodeChar c = [code c] := by
  rw [String.utf8EncodeChar_eq_singleton (utf8Size_eq_one_iff.mpr h)]
  rfl

/-- The first byte of any other character is no code of one. -/
theorem exists_utf8EncodeChar_of_not {c : Char} (h : ¬ Is c) :
    ∃ b ∈ String.utf8EncodeChar c, 128 ≤ b.toNat := by
  have hor : ∀ (b : UInt8) (n : Nat), n < 256 → 128 ≤ n → 128 ≤ (b ||| UInt8.ofNat n).toNat := by
    intro b n hlt hn
    rw [UInt8.toNat_or, UInt8.toNat_ofNat_of_lt' hlt]
    exact Nat.le_trans hn Nat.right_le_or
  rcases Char.utf8Size_eq c with hsize | hsize | hsize | hsize
  · exact absurd (utf8Size_eq_one_iff.mp hsize) h
  · rw [String.utf8EncodeChar_eq_cons_cons hsize]
    exact ⟨_, List.mem_cons_self, hor _ 0xc0 (by decide) (by decide)⟩
  · rw [String.utf8EncodeChar_eq_cons_cons_cons hsize]
    exact ⟨_, List.mem_cons_self, hor _ 0xe0 (by decide) (by decide)⟩
  · rw [String.utf8EncodeChar_eq_cons_cons_cons_cons hsize]
    exact ⟨_, List.mem_cons_self, hor _ 0xf0 (by decide) (by decide)⟩

theorem utf8Bytes_eq (text : String) :
    text.toUTF8.data.toList = text.toList.flatMap String.utf8EncodeChar := by
  rw [String.toUTF8_eq_toByteArray, ← String.utf8Encode_toList]
  simp [List.utf8Encode]

/-- The bytes of a text of such characters are their codes. -/
theorem flatMap_utf8EncodeChar {cs : List Char} (h : ∀ c ∈ cs, Is c) :
    cs.flatMap String.utf8EncodeChar = cs.map code := by
  induction cs with
  | nil => rfl
  | cons c cs ih =>
    rw [List.flatMap_cons, utf8EncodeChar_eq (h c List.mem_cons_self),
      ih fun d hd => h d (List.mem_cons_of_mem c hd)]
    rfl

theorem utf8ByteSize_ofList {cs : List Char} (h : ∀ c ∈ cs, Is c) :
    (String.ofList cs).utf8ByteSize = cs.length := by
  have hbytes := utf8Bytes_eq (String.ofList cs)
  rw [String.toList_ofList, flatMap_utf8EncodeChar h] at hbytes
  have hlen := congrArg List.length hbytes
  rwa [List.length_map] at hlen

theorem toNat_code {c : Char} (h : Is c) : (code c).toNat = c.toNat :=
  UInt8.toNat_ofNat_of_lt' (Nat.lt_trans h (by decide))

theorem map_code_inj {cs ds : List Char} (hcs : ∀ c ∈ cs, Is c) (hds : ∀ d ∈ ds, Is d) :
    cs.map code = ds.map code ↔ cs = ds := by
  refine ⟨fun h => ?_, congrArg _⟩
  have hback : ∀ {es : List Char}, (∀ e ∈ es, Is e) →
      (es.map code).map (fun b => Char.ofNat b.toNat) = es := by
    intro es hes
    rw [List.map_map]
    refine (List.map_congr_left fun e he => ?_).trans (List.map_id es)
    simp only [Function.comp_apply, toNat_code (hes e he), Char.ofNat_toNat, id]
  rw [← hback hcs, h, hback hds]

theorem toNat_toLower (c : Char) :
    c.toLower.toNat = if 65 ≤ c.toNat ∧ c.toNat ≤ 90 then c.toNat + 32 else c.toNat := by
  have hrange : (c.val ≥ 'A'.val ∧ c.val ≤ 'Z'.val) ↔ 65 ≤ c.toNat ∧ c.toNat ≤ 90 := Iff.rfl
  unfold Char.toLower
  split
  · next h =>
    rw [if_pos (hrange.mp h)]
    have hadd : (c.val + ('a'.val - 'A'.val)).toNat = c.val.toNat + 32 := by
      rw [UInt32.toNat_add]
      have := (hrange.mp h).2
      change (c.toNat + 32) % 2 ^ 32 = c.toNat + 32
      omega
    exact hadd
  · next h => rw [if_neg fun h' => h (hrange.mpr h')]

theorem is_toLower {c : Char} : Is c.toLower ↔ Is c := by
  unfold Is
  rw [toNat_toLower]
  split_ifs <;> omega

end Ascii

/-! ## Debug output -/

namespace Debug

def hexDigit (n : Nat) : Char := "0123456789abcdef".toList.getD n '0'

def doubleQuote : Char := Char.ofNat 34
def singleQuote : Char := Char.ofNat 39

/-- How a character shows inside quotes of the given kind. Beyond ASCII every
character counts as printable. -/
def escapeChar (quote : Char) (c : Char) : List Char :=
  if c = quote ∨ c = '\\' then ['\\', c]
  else if c = '\n' then ['\\', 'n']
  else if c = '\r' then ['\\', 'r']
  else if c = '\t' then ['\\', 't']
  else if c = Char.ofNat 0 then ['\\', '0']
  else if c.toNat < 32 ∨ c.toNat = 127 then
    ['\\', 'u', Char.ofNat 123] ++ (if c.toNat < 16 then [] else [hexDigit (c.toNat / 16)]) ++
      [hexDigit (c.toNat % 16), Char.ofNat 125]
  else [c]

/-- A string as `{:?}` prints it. -/
def string (s : String) : String :=
  "\"" ++ String.ofList (s.toList.flatMap (escapeChar doubleQuote)) ++ "\""

/-- A character as `{:?}` prints it. -/
def char (c : Char) : String := "'" ++ String.ofList (escapeChar singleQuote c) ++ "'"

/-- A value of a type with one field, as the derived `{:?}` prints it. -/
def wrapped (name text : String) : String := name ++ "(" ++ text ++ ")"

example : string "say \"hi\"\n" = "\"say \\\"hi\\\"\\n\"" := by decide +kernel

end Debug
