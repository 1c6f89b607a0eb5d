-- SUMMARY: Change of base on digit lists that keeps leading zeros, and the base-58 text of a byte string with its round trip and its order.
import NoirSidecar.Base.Text
import Mathlib.Data.Nat.Digits.Lemmas
import Mathlib.Data.List.TakeWhile
import Mathlib.Data.String.Basic

/-!
# Base 58

Base 58 reads a byte string as one number in base 256 and writes that number in
base 58. Leading zero bytes carry no value, so they are written one by one, each
as the digit zero. Both directions are the same operation with the two bases
exchanged, `rebase`; the text is that list of digits read through an alphabet.
-/

/-! ## Change of base -/

namespace Positional

/-- Number of leading zero digits. -/
def leadingZeros (ds : List Nat) : Nat := (ds.takeWhile (· == 0)).length

/-- The number a big-endian digit list stands for. -/
def value (b : Nat) (ds : List Nat) : Nat := Nat.ofDigits b ds.reverse

/-- Rewrite a big-endian digit list from base `b` to base `c`, one zero digit for
each leading zero digit. -/
def rebase (b c : Nat) (ds : List Nat) : List Nat :=
  List.replicate (leadingZeros ds) 0 ++ (Nat.digits c (Nat.ofDigits b ds.reverse)).reverse

/-- A digit list is its leading zeros and a rest that starts with none. -/
theorem eq_zeros_append (ds : List Nat) :
    ds = List.replicate (leadingZeros ds) 0 ++ ds.dropWhile (· == 0) := by
  have hz : ds.takeWhile (· == 0) = List.replicate (leadingZeros ds) 0 := by
    refine List.eq_replicate_iff.mpr ⟨rfl, fun d hd => ?_⟩
    simpa using List.mem_takeWhile_imp hd
  rw [← hz, List.takeWhile_append_dropWhile]

theorem leadingZeros_replicate_append {z : Nat} {core : List Nat}
    (hcore : ∀ d, core.head? = some d → d ≠ 0) :
    leadingZeros (List.replicate z 0 ++ core) = z := by
  have htail : core.takeWhile (· == 0) = [] := by
    cases core with
    | nil => rfl
    | cons d core => simp [hcore d rfl]
  unfold leadingZeros
  rw [List.takeWhile_append_of_pos (by simp), htail]
  simp

theorem ofDigits_zeros_append (b z : Nat) (core : List Nat) :
    Nat.ofDigits b (List.replicate z 0 ++ core).reverse = Nat.ofDigits b core.reverse := by
  rw [List.reverse_append, List.reverse_replicate, Nat.ofDigits_append]
  simp [Nat.ofDigits_replicate_zero]

/-- The most significant digit of a number is not zero. -/
theorem head?_digits_reverse_ne_zero {b n d : Nat}
    (h : (Nat.digits b n).reverse.head? = some d) : d ≠ 0 := by
  rw [List.head?_reverse] at h
  have hne : Nat.digits b n ≠ [] := by
    intro h0; simp [h0] at h
  have hlast : (Nat.digits b n).getLast hne = d := by
    rw [List.getLast?_eq_some_getLast hne] at h
    exact Option.some.inj h
  rw [← hlast]
  exact Nat.getLast_digit_ne_zero b (Nat.digits_ne_nil_iff_ne_zero.mp hne)

/-- The digits of the value of a list that does not start with zero are that list. -/
theorem digits_ofDigits_reverse {b : Nat} {core : List Nat} (hb : 1 < b)
    (hlt : ∀ d ∈ core, d < b) (hcore : ∀ d, core.head? = some d → d ≠ 0) :
    (Nat.digits b (Nat.ofDigits b core.reverse)).reverse = core := by
  rw [Nat.digits_ofDigits b hb core.reverse (by simpa using hlt), List.reverse_reverse]
  intro hne
  rw [List.getLast_reverse]
  exact hcore _ (List.head?_eq_some_head _)

theorem head?_dropWhile_ne_zero {ds : List Nat} {d : Nat}
    (h : (ds.dropWhile (· == 0)).head? = some d) : d ≠ 0 := by
  intro h0
  have := List.head?_dropWhile_not (· == 0) ds
  simp [h, h0] at this

theorem rebase_lt {b c : Nat} {ds : List Nat} (hc : 1 < c) :
    ∀ d ∈ rebase b c ds, d < c := by
  intro d hd
  rcases List.mem_append.mp hd with hd | hd
  · obtain rfl := List.eq_of_mem_replicate hd
    omega
  · exact Nat.digits_lt_base hc (List.mem_reverse.mp hd)

/-- A change of base does not change the number. -/
theorem value_rebase (b c : Nat) (ds : List Nat) : value c (rebase b c ds) = value b ds := by
  rw [value, rebase, ofDigits_zeros_append, List.reverse_reverse, Nat.ofDigits_digits, value]

/-- Changing the base there and back gives the digit list one started from. -/
theorem rebase_rebase {b c : Nat} {ds : List Nat} (hb : 1 < b) (hlt : ∀ d ∈ ds, d < b) :
    rebase c b (rebase b c ds) = ds := by
  have hz : leadingZeros (rebase b c ds) = leadingZeros ds :=
    leadingZeros_replicate_append fun _ => head?_digits_reverse_ne_zero
  have hvalue : Nat.ofDigits c (rebase b c ds).reverse = Nat.ofDigits b ds.reverse :=
    value_rebase b c ds
  have hcore : (Nat.digits b (Nat.ofDigits b ds.reverse)).reverse = ds.dropWhile (· == 0) := by
    conv_lhs => rw [eq_zeros_append ds, ofDigits_zeros_append]
    exact digits_ofDigits_reverse hb
      (fun d hd => hlt d ((List.dropWhile_suffix _).subset hd))
      (fun _ => head?_dropWhile_ne_zero)
  rw [rebase, hz, hvalue, hcore, ← eq_zeros_append]

/-- A bound on the longest list of a given length bounds every list of that length. -/
theorem length_rebase_le {b c L : Nat} {ds : List Nat} (hc : 1 < c) (hcb : c ≤ b)
    (hlt : ∀ d ∈ ds, d < b) (hL : b ^ ds.length ≤ c ^ L) : (rebase b c ds).length ≤ L := by
  set z := leadingZeros ds with hz
  set core := ds.dropWhile (· == 0) with hcoredef
  have hds : ds = List.replicate z 0 ++ core := eq_zeros_append ds
  have hlen : ds.length = z + core.length := by rw [hds]; simp
  -- each leading zero keeps a digit of its own
  have hzL : z ≤ L := by
    have hpow : c ^ z ≤ c ^ L := by
      calc c ^ z ≤ b ^ z := Nat.pow_le_pow_left hcb z
        _ ≤ b ^ ds.length := Nat.pow_le_pow_right (by omega) (by omega)
        _ ≤ c ^ L := hL
    exact (Nat.pow_le_pow_iff_right hc).mp hpow
  -- what follows the zeros has the places that are left
  have hcoreL : b ^ core.length ≤ c ^ (L - z) := by
    have hmul : c ^ z * b ^ core.length ≤ c ^ z * c ^ (L - z) := by
      calc c ^ z * b ^ core.length ≤ b ^ z * b ^ core.length :=
            Nat.mul_le_mul_right _ (Nat.pow_le_pow_left hcb z)
        _ = b ^ ds.length := by rw [← pow_add, ← hlen]
        _ ≤ c ^ L := hL
        _ = c ^ z * c ^ (L - z) := by rw [← pow_add]; congr 1; omega
    exact Nat.le_of_mul_le_mul_left hmul (by positivity)
  have hvalue : Nat.ofDigits b ds.reverse < c ^ (L - z) := by
    rw [hds, ofDigits_zeros_append]
    refine lt_of_lt_of_le (Nat.ofDigits_lt_base_pow_length (by omega) ?_) ?_
    · intro d hd
      exact hlt d ((List.dropWhile_suffix _).subset (List.mem_reverse.mp hd))
    · simpa using hcoreL
  have hdigits : (Nat.digits c (Nat.ofDigits b ds.reverse)).length ≤ L - z :=
    (Nat.digits_length_le_iff hc _).mpr hvalue
  rw [rebase, List.length_append, List.length_replicate, List.length_reverse, ← hz]
  omega

/-! ## Order -/

theorem value_cons (b d : Nat) (ds : List Nat) : value b (d :: ds) = d * b ^ ds.length + value b ds := by
  rw [value, List.reverse_cons, Nat.ofDigits_append, Nat.ofDigits_singleton, List.length_reverse,
    value]
  ring

theorem value_lt {b : Nat} {ds : List Nat} (hb : 1 < b) (hlt : ∀ d ∈ ds, d < b) :
    value b ds < b ^ ds.length := by
  rw [value, ← List.length_reverse]
  exact Nat.ofDigits_lt_base_pow_length hb fun d hd => hlt d (List.mem_reverse.mp hd)

/-- Two numbers are compared by their first digit, and where these agree by the rest. -/
theorem digit_lt_iff {B d e x y : Nat} (hx : x < B) (hy : y < B) :
    e * B + x < d * B + y ↔ e < d ∨ e = d ∧ x < y := by
  rcases Nat.lt_trichotomy e d with h | rfl | h
  · have hmul : (e + 1) * B ≤ d * B := Nat.mul_le_mul_right B h
    rw [Nat.add_one_mul] at hmul
    exact iff_of_true (by omega) (.inl h)
  · simp
  · have hmul : (d + 1) * B ≤ e * B := Nat.mul_le_mul_right B h
    rw [Nat.add_one_mul] at hmul
    exact iff_of_false (by omega) (by omega)

/-- Compared from their first digits on, the longer of two lists comes first exactly if
its number is smaller than that of the other followed by as many zeros as it is shorter. -/
theorem lt_iff_value_lt {b : Nat} {ds es : List Nat} (hb : 1 < b) (hds : ∀ d ∈ ds, d < b)
    (hes : ∀ e ∈ es, e < b) (hlen : ds.length ≤ es.length) :
    es < ds ↔ value b es < value b ds * b ^ (es.length - ds.length) := by
  induction ds generalizing es with
  | nil => simp [value]
  | cons d ds ih =>
    cases es with
    | nil => cases hlen
    | cons e es =>
      have hds' : ∀ d ∈ ds, d < b := fun d hd => hds d (List.mem_cons_of_mem _ hd)
      have hes' : ∀ e ∈ es, e < b := fun e he => hes e (List.mem_cons_of_mem _ he)
      have hlen' : ds.length ≤ es.length := Nat.le_of_succ_le_succ hlen
      have hpow : b ^ ds.length * b ^ (es.length - ds.length) = b ^ es.length := by
        rw [← pow_add]
        congr 1
        omega
      have hrest : value b ds * b ^ (es.length - ds.length) < b ^ es.length := by
        rw [← hpow]
        exact Nat.mul_lt_mul_of_pos_right (value_lt hb hds') (by positivity)
      rw [List.cons_lt_cons_iff, ih hds' hes' hlen', value_cons, value_cons, List.length_cons,
        List.length_cons, Nat.add_sub_add_right, Nat.add_mul, Nat.mul_assoc, hpow,
        digit_lt_iff (value_lt hb hes') hrest]

/-- A map that keeps the order of the elements keeps that of lists. -/
theorem map_lt_map_iff {α β : Type} [LT α] [LT β] {f : α → β} {as bs : List α}
    (hlt : ∀ a ∈ as, ∀ b ∈ bs, f a < f b ↔ a < b) (hinj : ∀ a ∈ as, ∀ b ∈ bs, f a = f b → a = b) :
    as.map f < bs.map f ↔ as < bs := by
  induction as generalizing bs with
  | nil => cases bs <;> simp
  | cons a as ih =>
    cases bs with
    | nil => simp
    | cons b bs =>
      have heq : f a = f b ↔ a = b := ⟨hinj a List.mem_cons_self b List.mem_cons_self, congrArg f⟩
      have hrest : as.map f < bs.map f ↔ as < bs := ih
        (fun x hx y hy => hlt x (List.mem_cons_of_mem a hx) y (List.mem_cons_of_mem b hy))
        (fun x hx y hy => hinj x (List.mem_cons_of_mem a hx) y (List.mem_cons_of_mem b hy))
      rw [List.map_cons, List.map_cons, List.cons_lt_cons_iff, List.cons_lt_cons_iff,
        hlt a List.mem_cons_self b List.mem_cons_self, heq, hrest]

end Positional

/-! ## The alphabet and the text -/

namespace Base58

open Positional

def alphabet : List Char :=
  "123456789ABCDEFGHJKLMNPQRSTUVWXYZabcdefghijkmnopqrstuvwxyz".toList

def digitChar (d : Nat) : Char := alphabet.getD d '1'

def charDigit? (c : Char) : Option Nat := alphabet.idxOf? c

inductive DecodeError where
  | invalidCharacter (character : Char) (index : Nat)
  | nonAsciiCharacter (index : Nat)
  deriving DecidableEq, Repr

/-- The digits of a text whose first character has the given index. The first
character outside the alphabet is the one reported. -/
def decodeDigits (index : Nat) : List Char → Except DecodeError (List Nat)
  | [] => .ok []
  | c :: cs =>
    match charDigit? c with
    | some d => (decodeDigits (index + 1) cs).map (d :: ·)
    | none => .error (if c.toNat > 127 then .nonAsciiCharacter index else .invalidCharacter c index)

def encode (bytes : List UInt8) : String :=
  String.ofList ((rebase 256 58 (bytes.map UInt8.toNat)).map digitChar)

def decode (text : String) : Except DecodeError (List UInt8) :=
  (decodeDigits 0 text.toList).map fun ds => (rebase 58 256 ds).map UInt8.ofNat

theorem charDigit?_digitChar : ∀ d < 58, charDigit? (digitChar d) = some d := by
  decide +kernel

theorem is_digitChar : ∀ d < 58, Ascii.Is (digitChar d) := by
  decide +kernel

theorem decodeDigits_map_digitChar {ds : List Nat} (hlt : ∀ d ∈ ds, d < 58) (index : Nat) :
    decodeDigits index (ds.map digitChar) = .ok ds := by
  induction ds generalizing index with
  | nil => rfl
  | cons d ds ih =>
    have hd := charDigit?_digitChar d (hlt d List.mem_cons_self)
    simp only [List.map_cons, decodeDigits, hd]
    rw [ih (fun x hx => hlt x (List.mem_cons_of_mem _ hx))]
    rfl

private theorem map_toNat_lt (bytes : List UInt8) : ∀ d ∈ bytes.map UInt8.toNat, d < 256 := by
  intro d hd
  obtain ⟨b, -, rfl⟩ := List.mem_map.mp hd
  exact b.toNat_lt

/-- Decoding undoes encoding. -/
@[simp] theorem decode_encode (bytes : List UInt8) : decode (encode bytes) = .ok bytes := by
  have hlt : ∀ d ∈ rebase 256 58 (bytes.map UInt8.toNat), d < 58 := rebase_lt (by decide)
  have hdigits := decodeDigits_map_digitChar hlt 0
  have hbytes : (bytes.map UInt8.toNat).map UInt8.ofNat = bytes := by
    simp [Function.comp_def]
  rw [decode, encode, String.toList_ofList, hdigits]
  show Except.ok ((rebase 58 256 (rebase 256 58 _)).map UInt8.ofNat) = _
  rw [rebase_rebase (by decide) (map_toNat_lt bytes), hbytes]

private theorem is_of_mem_map {ds : List Nat} (hlt : ∀ d ∈ ds, d < 58) :
    ∀ c ∈ ds.map digitChar, Ascii.Is c := by
  intro c hc
  obtain ⟨d, hd, rfl⟩ := List.mem_map.mp hc
  exact is_digitChar d (hlt d hd)

/-- A text of `n` bytes is no longer than the digits of the largest such number. -/
theorem utf8ByteSize_encode_le {bytes : List UInt8} {L : Nat}
    (h : 256 ^ bytes.length ≤ 58 ^ L) : (encode bytes).utf8ByteSize ≤ L := by
  rw [encode, Ascii.utf8ByteSize_ofList (is_of_mem_map (rebase_lt (by decide))), List.length_map]
  exact length_rebase_le (by decide) (by decide) (map_toNat_lt bytes) (by simpa using h)

/-- The number a byte string stands for. -/
def value (bytes : List UInt8) : Nat := Positional.value 256 (bytes.map UInt8.toNat)

theorem length_encode (bytes : List UInt8) :
    (encode bytes).length = (rebase 256 58 (bytes.map UInt8.toNat)).length := by
  rw [encode, String.length_ofList, List.length_map]

theorem digitChar_lt_iff : ∀ d < 58, ∀ e < 58, digitChar d < digitChar e ↔ d < e := by
  decide +kernel

theorem encode_lt_encode_iff {bytes bytes' : List UInt8} :
    encode bytes < encode bytes' ↔
      rebase 256 58 (bytes.map UInt8.toNat) < rebase 256 58 (bytes'.map UInt8.toNat) := by
  have hlt : ∀ {bytes : List UInt8}, ∀ d ∈ rebase 256 58 (bytes.map UInt8.toNat), d < 58 :=
    rebase_lt (by decide)
  rw [String.lt_iff_toList_lt, encode, encode, String.toList_ofList, String.toList_ofList]
  refine map_lt_map_iff (fun d hd e he => digitChar_lt_iff d (hlt d hd) e (hlt e he)) ?_
  intro d hd e he heq
  have hdigit := congrArg charDigit? heq
  rwa [charDigit?_digitChar d (hlt d hd), charDigit?_digitChar e (hlt e he), Option.some.injEq]
    at hdigit

/-- The longer of two texts comes first exactly if its number is smaller than that of the
other text followed by as many zeros as it is shorter. -/
theorem encode_lt_encode_iff_value {bytes bytes' : List UInt8}
    (h : (encode bytes).length ≤ (encode bytes').length) :
    encode bytes' < encode bytes ↔
      value bytes' < value bytes *
        58 ^ ((encode bytes').length - (encode bytes).length) := by
  rw [length_encode, length_encode] at h ⊢
  rw [encode_lt_encode_iff, lt_iff_value_lt (by decide) (rebase_lt (by decide))
    (rebase_lt (by decide)) h, value_rebase, value_rebase, value, value]

/-- Byte strings of one length are ordered as the numbers they stand for. -/
theorem lt_iff_value_lt_of_length_eq {bytes bytes' : List UInt8}
    (h : bytes.length = bytes'.length) : bytes < bytes' ↔ value bytes < value bytes' := by
  have hmap : bytes.map UInt8.toNat < bytes'.map UInt8.toNat ↔ bytes < bytes' :=
    map_lt_map_iff (fun _ _ _ _ => UInt8.lt_iff_toNat_lt.symm) fun _ _ _ _ => UInt8.toNat_inj.mp
  rw [← hmap, lt_iff_value_lt (by decide) (map_toNat_lt _) (map_toNat_lt _) (by simp [h]), value,
    value]
  simp [h]

theorem eq_of_value_eq {bytes bytes' : List UInt8} (h : bytes.length = bytes'.length)
    (hvalue : value bytes = value bytes') : bytes = bytes' := by
  have hlen : (bytes.map UInt8.toNat).reverse.length = (bytes'.map UInt8.toNat).reverse.length := by
    simpa using h
  have hdigits := Nat.ofDigits_inj_of_len_eq (by decide) hlen
    (fun d hd => map_toNat_lt bytes d (List.mem_reverse.mp hd))
    (fun d hd => map_toNat_lt bytes' d (List.mem_reverse.mp hd)) hvalue
  exact (List.map_inj_right fun _ _ => UInt8.toNat_inj.mp).mp (List.reverse_injective hdigits)

example : encode [0, 0, 1, 2, 3] = "11Ldp" := by decide +kernel

end Base58
