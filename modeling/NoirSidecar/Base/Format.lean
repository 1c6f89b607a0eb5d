-- SUMMARY: Formats: values written as bytes and read off the front of some bytes, so that either way undoes the other.
import Mathlib.Logic.Equiv.Basic

/-!
# Formats

A value is written as some bytes, unless the format has none for it, and read off the
front of some bytes. What is written is read back, whatever follows it, and what is read
was written as just the bytes that are gone.
-/

structure Format (α : Type) where
  write : α → Option (List UInt8)
  read : List UInt8 → Option (α × List UInt8)
  read_write : ∀ {v bytes}, write v = some bytes → ∀ rest, read (bytes ++ rest) = some (v, rest)
  write_read : ∀ {v bytes rest}, read bytes = some (v, rest) →
    ∃ written, write v = some written ∧ bytes = written ++ rest

namespace Format

variable {α β : Type}

def byte : Format UInt8 where
  write b := some [b]
  read
    | [] => none
    | b :: rest => some (b, rest)
  read_write h rest := by cases h; rfl
  write_read := by
    intro v bytes rest h
    cases bytes with
    | nil => cases h
    | cons b bytes =>
      cases h
      exact ⟨_, rfl, rfl⟩

/-- Some bytes of a known number. -/
def fixed (n : Nat) : Format { bytes : List UInt8 // bytes.length = n } where
  write v := some v.1
  read bytes :=
    if h : n ≤ bytes.length then some (⟨bytes.take n, List.length_take_of_le h⟩, bytes.drop n) else none
  read_write := by
    rintro ⟨v, rfl⟩ bytes h rest
    cases h
    simp
  write_read := by
    intro v bytes rest h
    split at h
    · cases h
      exact ⟨_, rfl, (List.take_append_drop n bytes).symm⟩
    · cases h

/-- The first value, and then the second. -/
def pair (f : Format α) (g : Format β) : Format (α × β) where
  write v := (f.write v.1).bind fun front => (g.write v.2).map (front ++ ·)
  read bytes := (f.read bytes).bind fun a => (g.read a.2).map fun b => ((a.1, b.1), b.2)
  read_write := by
    rintro ⟨a, b⟩ bytes h rest
    obtain ⟨front, hfront, h⟩ := Option.bind_eq_some_iff.mp h
    obtain ⟨back, hback, rfl⟩ := Option.map_eq_some_iff.mp h
    rw [List.append_assoc, f.read_write hfront, Option.bind_some, g.read_write hback]
    rfl
  write_read := by
    rintro ⟨a, b⟩ bytes rest h
    obtain ⟨⟨a', middle⟩, hread, h⟩ := Option.bind_eq_some_iff.mp h
    obtain ⟨⟨b', rest'⟩, hread', h⟩ := Option.map_eq_some_iff.mp h
    cases h
    obtain ⟨front, hfront, rfl⟩ := f.write_read hread
    obtain ⟨back, hback, rfl⟩ := g.write_read hread'
    exact ⟨front ++ back, by simp [hfront, hback], (List.append_assoc ..).symm⟩

theorem pair_write_eq_some {f : Format α} {g : Format β} {v : α × β} {bytes : List UInt8} :
    (f.pair g).write v = some bytes ↔
      ∃ front back, f.write v.1 = some front ∧ g.write v.2 = some back ∧ bytes = front ++ back := by
  constructor
  · intro h
    obtain ⟨front, hfront, h⟩ := Option.bind_eq_some_iff.mp h
    obtain ⟨back, hback, rfl⟩ := Option.map_eq_some_iff.mp h
    exact ⟨front, back, hfront, hback, rfl⟩
  · rintro ⟨front, back, hfront, hback, rfl⟩
    simp [pair, hfront, hback]

/-- The same bytes for what are other values. -/
def congr (e : α ≃ β) (f : Format α) : Format β where
  write v := f.write (e.symm v)
  read bytes := (f.read bytes).map fun a => (e a.1, a.2)
  read_write h rest := by simp [f.read_write h]
  write_read := by
    intro v bytes rest h
    obtain ⟨⟨a, rest'⟩, hread, h⟩ := Option.map_eq_some_iff.mp h
    cases h
    obtain ⟨written, hwrite, hbytes⟩ := f.write_read hread
    exact ⟨written, by rwa [e.symm_apply_apply], hbytes⟩

/-- Only those of the values that are allowed. -/
def filter (p : α → Bool) (f : Format α) : Format α where
  write v := if p v then f.write v else none
  read bytes := (f.read bytes).filter fun a => p a.1
  read_write := by
    intro v bytes h rest
    split at h
    · next hp => simp [f.read_write h, hp]
    · cases h
  write_read := by
    intro v bytes rest h
    obtain ⟨hread, hp⟩ := Option.filter_eq_some_iff.mp h
    obtain ⟨written, hwrite, hbytes⟩ := f.write_read hread
    exact ⟨written, (if_pos hp).trans hwrite, hbytes⟩

/-- The same bytes for values that carry no proof. -/
def val {P : α → Prop} [DecidablePred P] (f : Format (Subtype P)) : Format α where
  write v := if h : P v then f.write ⟨v, h⟩ else none
  read bytes := (f.read bytes).map fun a => (a.1.1, a.2)
  read_write := by
    intro v bytes h rest
    split at h
    · simp [f.read_write h]
    · cases h
  write_read := by
    intro v bytes rest h
    obtain ⟨⟨⟨a, ha⟩, rest'⟩, hread, h⟩ := Option.map_eq_some_iff.mp h
    cases h
    obtain ⟨written, hwrite, hbytes⟩ := f.write_read hread
    exact ⟨written, (dif_pos ha).trans hwrite, hbytes⟩

/-! ## Numbers -/

/-- Seven bits a byte, the lowest first, in no more than `k` bytes. All but the last have
their high bit set. -/
def writeDigits : Nat → Nat → Option (List UInt8)
  | 0, _ => none
  | k + 1, n =>
    if n < 128 then some [UInt8.ofNat n]
    else (writeDigits k (n / 128)).map (UInt8.ofNat (n % 128 + 128) :: ·)

/-- A last byte that adds nothing is refused. -/
def readDigits : Nat → List UInt8 → Option (Nat × List UInt8)
  | 0, _ => none
  | _ + 1, [] => none
  | k + 1, b :: bytes =>
    if b.toNat < 128 then some (b.toNat, bytes)
    else (readDigits k bytes).bind fun high =>
      if high.1 = 0 then none else some (b.toNat - 128 + 128 * high.1, high.2)

theorem readDigits_writeDigits {k n : Nat} {bytes : List UInt8} (h : writeDigits k n = some bytes)
    (rest : List UInt8) : readDigits k (bytes ++ rest) = some (n, rest) := by
  induction k generalizing n bytes with
  | zero => cases h
  | succ k ih =>
    rw [writeDigits] at h
    split at h
    · next hn =>
      cases h
      have hbyte : (UInt8.ofNat n).toNat = n := UInt8.toNat_ofNat_of_lt' (Nat.lt_trans hn (by decide))
      rw [List.singleton_append, readDigits, hbyte, if_pos hn]
    · next hn =>
      obtain ⟨high, hhigh, rfl⟩ := Option.map_eq_some_iff.mp h
      have hlow : n % 128 < 128 := Nat.mod_lt _ (by decide)
      have hbyte : (UInt8.ofNat (n % 128 + 128)).toNat = n % 128 + 128 :=
        UInt8.toNat_ofNat_of_lt' (Nat.add_lt_add_right hlow 128)
      have hsum : n % 128 + 128 * (n / 128) = n := Nat.mod_add_div n 128
      rw [List.cons_append, readDigits, hbyte, if_neg (by omega), ih hhigh, Option.bind_some,
        if_neg (by omega), Nat.add_sub_cancel, hsum]

theorem writeDigits_readDigits {k n : Nat} {bytes rest : List UInt8}
    (h : readDigits k bytes = some (n, rest)) :
    ∃ written, writeDigits k n = some written ∧ bytes = written ++ rest := by
  induction k generalizing n bytes with
  | zero => cases h
  | succ k ih =>
    cases bytes with
    | nil => cases h
    | cons b bytes =>
      rw [readDigits] at h
      split at h
      · next hb =>
        cases h
        exact ⟨_, if_pos hb, by rw [UInt8.ofNat_toNat]; rfl⟩
      · next hb =>
        obtain ⟨⟨high, rest'⟩, hread, h⟩ := Option.bind_eq_some_iff.mp h
        split at h
        · cases h
        · next hhigh =>
          cases h
          obtain ⟨written, hwrite, rfl⟩ := ih hread
          have hlt := b.toNat_lt
          have hdiv : (b.toNat - 128 + 128 * high) / 128 = high := by omega
          have hmod : (b.toNat - 128 + 128 * high) % 128 + 128 = b.toNat := by omega
          refine ⟨b :: written, ?_, rfl⟩
          rw [writeDigits, if_neg (by simp only at hhigh; omega), hdiv, hwrite, hmod,
            UInt8.ofNat_toNat]
          rfl

def digits (k : Nat) : Format Nat where
  write := writeDigits k
  read := readDigits k
  read_write := readDigits_writeDigits
  write_read := writeDigits_readDigits

/-! ## Lists -/

def writeAll (f : Format α) : List α → Option (List UInt8)
  | [] => some []
  | v :: vs => (f.write v).bind fun front => (writeAll f vs).map (front ++ ·)

def readAll (f : Format α) : Nat → List UInt8 → Option (List α × List UInt8)
  | 0, bytes => some ([], bytes)
  | n + 1, bytes => (f.read bytes).bind fun a => (readAll f n a.2).map fun b => (a.1 :: b.1, b.2)

theorem readAll_writeAll (f : Format α) {vs : List α} {bytes : List UInt8}
    (h : writeAll f vs = some bytes) (rest : List UInt8) :
    readAll f vs.length (bytes ++ rest) = some (vs, rest) := by
  induction vs generalizing bytes with
  | nil => cases h; rfl
  | cons v vs ih =>
    obtain ⟨front, hfront, h⟩ := Option.bind_eq_some_iff.mp h
    obtain ⟨back, hback, rfl⟩ := Option.map_eq_some_iff.mp h
    rw [List.append_assoc, List.length_cons, readAll, f.read_write hfront, Option.bind_some, ih hback]
    rfl

theorem writeAll_readAll (f : Format α) {n : Nat} {vs : List α} {bytes rest : List UInt8}
    (h : readAll f n bytes = some (vs, rest)) :
    vs.length = n ∧ ∃ written, writeAll f vs = some written ∧ bytes = written ++ rest := by
  induction n generalizing vs bytes with
  | zero =>
    cases h
    exact ⟨rfl, [], rfl, rfl⟩
  | succ n ih =>
    obtain ⟨⟨v, middle⟩, hread, h⟩ := Option.bind_eq_some_iff.mp h
    obtain ⟨⟨vs', rest'⟩, hread', h⟩ := Option.map_eq_some_iff.mp h
    cases h
    obtain ⟨front, hfront, rfl⟩ := f.write_read hread
    obtain ⟨rfl, back, hback, rfl⟩ := ih hread'
    exact ⟨rfl, front ++ back, by simp [writeAll, hfront, hback], (List.append_assoc ..).symm⟩

/-- The number of the values comes first. -/
def list (length : Format Nat) (f : Format α) : Format (List α) where
  write vs := (length.write vs.length).bind fun front => (writeAll f vs).map (front ++ ·)
  read bytes := (length.read bytes).bind fun n => readAll f n.1 n.2
  read_write := by
    intro vs bytes h rest
    obtain ⟨front, hfront, h⟩ := Option.bind_eq_some_iff.mp h
    obtain ⟨back, hback, rfl⟩ := Option.map_eq_some_iff.mp h
    rw [List.append_assoc, length.read_write hfront, Option.bind_some, readAll_writeAll f hback]
  write_read := by
    intro vs bytes rest h
    obtain ⟨⟨n, middle⟩, hread, hall⟩ := Option.bind_eq_some_iff.mp h
    obtain ⟨front, hfront, rfl⟩ := length.write_read hread
    obtain ⟨rfl, back, hback, rfl⟩ := writeAll_readAll f hall
    exact ⟨front ++ back, by simp [hfront, hback], (List.append_assoc ..).symm⟩

end Format
