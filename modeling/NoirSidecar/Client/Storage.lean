-- SUMMARY: Which storage answers the slot and the timestamp are read from, and the ones that panic.
import NoirSidecar.Client.Node

/-!
# Numbers in the storage

The slot and the timestamp are eight bytes in the storage of the node, which answers
with their hex. The readers strip a prefix, decode, and convert what they get to an
array of eight bytes; they do not look at its length before that.
-/

namespace Client

/-- The text is the hex of the bytes, with or without the prefix. -/
def HexOf (text : String) (bytes : Bytes) : Prop :=
  Hex.Spells text bytes ∨ ∃ digits, text = "0x" ++ digits ∧ Hex.Spells digits bytes

theorem stripHexPrefix_append (digits : String) : stripHexPrefix ("0x" ++ digits) = digits := by
  unfold stripHexPrefix
  rw [String.toList_append]
  exact String.ofList_toList

theorem not_spells_append {digits : String} {bytes : Bytes} : ¬ Hex.Spells ("0x" ++ digits) bytes := by
  intro h
  have hmem : 'x' ∈ (Hex.encode bytes).toList := by
    have hx : 'x' ∈ ("0x" ++ digits).toList := by simp
    rw [← h]
    exact List.mem_map_of_mem hx
  obtain ⟨v, hv, hx⟩ := Hex.exists_hexDigit_of_mem hmem
  revert hx
  revert v
  decide

/-- The text starts with the prefix, or nothing is stripped. -/
theorem stripHexPrefix_cases (text : String) :
    (∃ digits, text = "0x" ++ digits) ∨ stripHexPrefix text = text := by
  unfold stripHexPrefix
  split
  · next rest h =>
    refine .inl ⟨String.ofList rest, String.toList_injective ?_⟩
    rw [h, String.toList_append, String.toList_ofList]
    simp
  · exact .inr rfl

/-- After the prefix is stripped, decoding accepts the hex of some bytes, and nothing else. -/
theorem decode_stripHexPrefix_iff {text : String} {bytes : Bytes} :
    Hex.decode (stripHexPrefix text) = .ok bytes ↔ HexOf text bytes := by
  constructor
  · intro h
    rcases stripHexPrefix_cases text with ⟨digits, rfl⟩ | hsame
    · rw [stripHexPrefix_append] at h
      exact .inr ⟨digits, rfl, Hex.decode_eq_ok_iff.mp h⟩
    · rw [hsame] at h
      exact .inl (Hex.decode_eq_ok_iff.mp h)
  · rintro (h | ⟨digits, rfl, h⟩)
    · rcases stripHexPrefix_cases text with ⟨digits, rfl⟩ | hsame
      · exact absurd h not_spells_append
      · rw [hsame]
        exact Hex.decode_eq_ok_iff.mpr h
    · rw [stripHexPrefix_append]
      exact Hex.decode_eq_ok_iff.mpr h

/-- The storage holds these bytes, as far as the answer of the node tells. -/
def Stores (answer : Except Error (Option String)) (bytes : Bytes) : Prop :=
  ∃ text, answer = .ok (some text) ∧ HexOf text bytes

/-- The outcome of reading a number from the storage, where `answer` is what the node
says: the number that eight stored bytes make, and an error if there are no such bytes. -/
structure ReadsNumber {α : Type} (number : Bytes → α) (answer : Except Error (Option String))
    (outcome : Outcome Error α) : Prop where
  ok_iff : ∀ n, outcome = .ok n ↔ ∃ bytes, Stores answer bytes ∧ bytes.length = 8 ∧ n = number bytes
  returns : outcome ≠ .panicked

/-- The storage holds something, and not in eight bytes. -/
def WrongWidth (answer : Except Error (Option String)) : Prop :=
  ∃ bytes, Stores answer bytes ∧ bytes.length ≠ 8

/-- The bytes in a storage are determined by the answer. -/
theorem Stores.unique {answer : Except Error (Option String)} {bytes bytes' : Bytes}
    (h : Stores answer bytes) (h' : Stores answer bytes') : bytes = bytes' := by
  obtain ⟨text, rfl, htext⟩ := h
  obtain ⟨text', heq, htext'⟩ := h'
  cases heq
  rw [← decode_stripHexPrefix_iff] at htext htext'
  rw [htext] at htext'
  cases htext'
  rfl

theorem parseStorageU64_cases (missing : String) (answer : Except Error (Option String)) :
    (∃ bytes, Stores answer bytes ∧ (Outcome.ofExcept answer >>= parseStorageU64 missing) =
        if bytes.length = 8 then .ok (Bytes.toU64 bytes) else .panicked) ∨
      (∀ bytes, ¬ Stores answer bytes) ∧
        ∃ e, (Outcome.ofExcept answer >>= parseStorageU64 missing) = .error e := by
  match answer with
  | .error e => exact .inr ⟨nofun, e, rfl⟩
  | .ok none => exact .inr ⟨nofun, _, rfl⟩
  | .ok (some text) =>
    rw [Outcome.ofExcept_ok, Outcome.ok_bind, parseStorageU64]
    cases hdecode : Hex.decode (stripHexPrefix text) with
    | ok bytes => exact .inl ⟨bytes, ⟨text, rfl, decode_stripHexPrefix_iff.mp hdecode⟩, rfl⟩
    | error e =>
      refine .inr ⟨?_, _, rfl⟩
      rintro bytes ⟨text', heq, htext⟩
      cases heq
      rw [← decode_stripHexPrefix_iff, hdecode] at htext
      cases htext

/-- Reading a number from the storage, and converting it, goes as it should exactly if
the storage holds nothing of another width. -/
theorem readsNumber_iff {α : Type} (convert : UInt64 → α) (missing : String)
    (answer : Except Error (Option String)) :
    ReadsNumber (convert ∘ Bytes.toU64) answer
        (convert <$> (Outcome.ofExcept answer >>= parseStorageU64 missing)) ↔
      ¬ WrongWidth answer := by
  obtain ⟨bytes, hstores, heq⟩ | ⟨hnone, e, heq⟩ := parseStorageU64_cases missing answer
  · rw [heq]
    split
    · next hlen =>
      refine iff_of_true ⟨fun n => ?_, nofun⟩ ?_
      · rw [Outcome.map_ok, Outcome.ok.injEq]
        constructor
        · rintro rfl
          exact ⟨bytes, hstores, hlen, rfl⟩
        · rintro ⟨bytes', hstores', -, rfl⟩
          rw [hstores.unique hstores']
          rfl
      · rintro ⟨bytes', hstores', hlen'⟩
        rw [hstores.unique hstores'] at hlen
        exact hlen' hlen
    · next hlen => exact iff_of_false (fun h => h.returns rfl) (not_not.mpr ⟨bytes, hstores, hlen⟩)
  · rw [heq]
    refine iff_of_true ⟨fun n => ⟨nofun, ?_⟩, nofun⟩ ?_
    · rintro ⟨bytes, hstores, -⟩
      exact absurd hstores (hnone bytes)
    · rintro ⟨bytes, hstores, -⟩
      exact hnone bytes hstores

/-- The slot is read as it should be. -/
def ReadsSlot (node : Node) (hash : Hash) : Prop :=
  ReadsNumber Bytes.toU64 (node (.stateGetStorage slotKey hash)) ((getSlot hash).run node)

/-- The timestamp is read as it should be. -/
def ReadsTimestamp (node : Node) (hash : Hash) : Prop :=
  ReadsNumber (UInt64.toInt64 ∘ Bytes.toU64) (node (.stateGetStorage timestampKey hash))
    ((getTimestamp hash).run node)

theorem readsSlot_iff (node : Node) (hash : Hash) :
    ReadsSlot node hash ↔ ¬ WrongWidth (node (.stateGetStorage slotKey hash)) := by
  have hid : ∀ o : Outcome Error UInt64, id <$> o = o := by
    intro o
    cases o <;> rfl
  rw [ReadsSlot, getSlot, run_readStorageU64, ← hid (_ >>= _)]
  exact readsNumber_iff id "Solana slot not exist" _

theorem readsTimestamp_iff (node : Node) (hash : Hash) :
    ReadsTimestamp node hash ↔ ¬ WrongWidth (node (.stateGetStorage timestampKey hash)) := by
  rw [ReadsTimestamp, getTimestamp, Prog.run_bind, run_readStorageU64]
  exact readsNumber_iff UInt64.toInt64 "Timestamp not exist" _

/-- Whatever the node answers, the slot and the timestamp are read as they should be
exactly if neither answer is the hex of other than eight bytes. -/
theorem reads_storage_iff (node : Node) (hash : Hash) :
    (ReadsSlot node hash ∧ ReadsTimestamp node hash) ↔
      ¬ WrongWidth (node (.stateGetStorage slotKey hash)) ∧
        ¬ WrongWidth (node (.stateGetStorage timestampKey hash)) :=
  and_congr (readsSlot_iff node hash) (readsTimestamp_iff node hash)

/-- A node whose storage holds four bytes under every key. -/
def narrowNode : Node
  | .stateGetStorage .. => .ok (some "0x00000000")
  | call => Node.dead call

theorem not_reads_storage : ¬ ∀ (node : Node) (hash : Hash),
    ReadsSlot node hash ∧ ReadsTimestamp node hash := by
  intro h
  exact (h narrowNode .zero).1.returns rfl

end Client
