-- SUMMARY: The wire format of messages and transactions: what is read was written so, and which of what is written is read back.
import NoirSidecar.Base.Format
import NoirSidecar.Solana.Transaction

/-!
# The wire format

The fields follow each other, a list after its length in one to three bytes. A versioned
message is told from a legacy one by the high bit of its first byte. In a legacy message
that byte counts the required signatures, and nothing keeps the count below 128 when the
message is written.
-/

namespace Packet

open Format

/-- The length of a `short_vec`. -/
def shortLength : Format Nat := (digits 3).filter (· < 65536)

def shortVec {α : Type} (f : Format α) : Format (List α) := list shortLength f

def signatureBytes : Nat := 64

def signature : Format Bytes := (fixed signatureBytes).val

def pubkey : Format Pubkey :=
  (fixed pubkeyBytes).congr
    ⟨fun b => ⟨b.1, b.2⟩, fun key => ⟨key.bytes, key.length_eq⟩, fun _ => rfl, fun _ => rfl⟩

def hash : Format Hash :=
  (fixed 32).congr
    ⟨fun b => ⟨b.1, b.2⟩, fun hash => ⟨hash.bytes, hash.length_eq⟩, fun _ => rfl, fun _ => rfl⟩

def header : Format MessageHeader :=
  (byte.pair (byte.pair byte)).congr
    ⟨fun b => ⟨b.1, b.2.1, b.2.2⟩,
      fun h => (h.numRequiredSignatures, h.numReadonlySignedAccounts, h.numReadonlyUnsignedAccounts),
      fun _ => rfl, fun _ => rfl⟩

def compiledInstruction : Format CompiledInstruction :=
  (byte.pair ((shortVec byte).pair (shortVec byte))).congr
    ⟨fun b => ⟨b.1, b.2.1, b.2.2⟩, fun i => (i.programIdIndex, i.accounts, i.data),
      fun _ => rfl, fun _ => rfl⟩

def messageAddressTableLookup : Format MessageAddressTableLookup :=
  (pubkey.pair ((shortVec byte).pair (shortVec byte))).congr
    ⟨fun b => ⟨b.1, b.2.1, b.2.2⟩, fun l => (l.accountKey, l.writableIndexes, l.readonlyIndexes),
      fun _ => rfl, fun _ => rfl⟩

def message : Format Message :=
  (header.pair ((shortVec pubkey).pair (hash.pair (shortVec compiledInstruction)))).congr
    ⟨fun b => ⟨b.1, b.2.1, b.2.2.1, b.2.2.2⟩,
      fun m => (m.header, m.accountKeys, m.recentBlockhash, m.instructions),
      fun _ => rfl, fun _ => rfl⟩

def v0Message : Format (Message × List MessageAddressTableLookup) :=
  message.pair (shortVec messageAddressTableLookup)

/-! ## Versioned messages -/

def versionPrefix : UInt8 := 128

def writeMessage : VersionedMessage → Option Bytes
  | .legacy m => message.write m
  | .v0 m lookups => (v0Message.write (m, lookups)).map (versionPrefix :: ·)

/-- Of the versions only the first is known. -/
def readMessage : Bytes → Option (VersionedMessage × Bytes)
  | [] => none
  | b :: bytes =>
    if b < versionPrefix then (message.read (b :: bytes)).map fun m => (.legacy m.1, m.2)
    else if b = versionPrefix then (v0Message.read bytes).map fun m => (.v0 m.1.1 m.1.2, m.2)
    else none

/-- The first byte of a legacy message is not taken for a version. -/
def Readable : VersionedMessage → Prop
  | .legacy m => m.header.numRequiredSignatures < versionPrefix
  | .v0 _ _ => True

instance : DecidablePred Readable
  | .legacy _ => inferInstanceAs (Decidable (_ < _))
  | .v0 _ _ => isTrue trivial

/-- A legacy message begins with the number of signatures it requires. -/
theorem write_message {m : Message} {bytes : Bytes} (h : message.write m = some bytes) :
    ∃ rest, bytes = m.header.numRequiredSignatures :: rest := by
  obtain ⟨front, back, hfront, -, rfl⟩ := pair_write_eq_some (f := header)
    (v := (m.header, m.accountKeys, m.recentBlockhash, m.instructions)) |>.mp h
  cases hfront
  exact ⟨_, rfl⟩

/-- A message that was read is written as it was, and can be read back. -/
theorem writeMessage_readMessage {v : VersionedMessage} {bytes rest : Bytes}
    (h : readMessage bytes = some (v, rest)) :
    Readable v ∧ ∃ written, writeMessage v = some written ∧ bytes = written ++ rest := by
  cases bytes with
  | nil => cases h
  | cons b bytes =>
    rw [readMessage] at h
    split at h
    · next hb =>
      obtain ⟨⟨m, rest'⟩, hread, h⟩ := Option.map_eq_some_iff.mp h
      cases h
      obtain ⟨written, hwrite, hbytes⟩ := message.write_read hread
      obtain ⟨tail, rfl⟩ := write_message hwrite
      obtain ⟨rfl, -⟩ := List.cons.inj hbytes
      exact ⟨hb, _, hwrite, hbytes⟩
    · split at h
      · next hb =>
        obtain ⟨⟨⟨m, lookups⟩, rest'⟩, hread, h⟩ := Option.map_eq_some_iff.mp h
        cases h
        obtain ⟨written, hwrite, rfl⟩ := v0Message.write_read hread
        exact ⟨trivial, versionPrefix :: written, by simp [writeMessage, hwrite], by rw [hb]; rfl⟩
      · cases h

theorem readMessage_writeMessage {v : VersionedMessage} {bytes : Bytes}
    (h : writeMessage v = some bytes) (hv : Readable v) (rest : Bytes) :
    readMessage (bytes ++ rest) = some (v, rest) := by
  cases v with
  | legacy m =>
    have hfirst : m.header.numRequiredSignatures < versionPrefix := hv
    have hread := message.read_write h rest
    obtain ⟨tail, rfl⟩ := write_message h
    rw [List.cons_append] at hread ⊢
    rw [readMessage, if_pos hfirst, hread]
    rfl
  | v0 m lookups =>
    obtain ⟨written, hwrite, rfl⟩ := Option.map_eq_some_iff.mp h
    rw [List.cons_append, readMessage, if_neg (by decide), if_pos rfl, v0Message.read_write hwrite]
    rfl

/-! ## Transactions -/

def writeTransaction (tx : VersionedTransaction) : Option Bytes :=
  ((shortVec signature).write tx.signatures).bind fun front =>
    (writeMessage tx.message).map (front ++ ·)

def readTransaction (bytes : Bytes) : Option (VersionedTransaction × Bytes) :=
  ((shortVec signature).read bytes).bind fun signatures =>
    (readMessage signatures.2).map fun message => (⟨signatures.1, message.1⟩, message.2)

theorem writeTransaction_readTransaction {tx : VersionedTransaction} {bytes rest : Bytes}
    (h : readTransaction bytes = some (tx, rest)) :
    Readable tx.message ∧ ∃ written, writeTransaction tx = some written ∧ bytes = written ++ rest := by
  obtain ⟨⟨signatures, middle⟩, hread, h⟩ := Option.bind_eq_some_iff.mp h
  obtain ⟨⟨v, rest'⟩, hmessage, h⟩ := Option.map_eq_some_iff.mp h
  cases h
  obtain ⟨front, hfront, rfl⟩ := (shortVec signature).write_read hread
  obtain ⟨hreadable, back, hback, rfl⟩ := writeMessage_readMessage hmessage
  exact ⟨hreadable, front ++ back, by simp [writeTransaction, hfront, hback],
    (List.append_assoc ..).symm⟩

theorem readTransaction_writeTransaction {tx : VersionedTransaction} {bytes : Bytes}
    (h : writeTransaction tx = some bytes) (htx : Readable tx.message) (rest : Bytes) :
    readTransaction (bytes ++ rest) = some (tx, rest) := by
  obtain ⟨front, hfront, h⟩ := Option.bind_eq_some_iff.mp h
  obtain ⟨back, hback, rfl⟩ := Option.map_eq_some_iff.mp h
  rw [List.append_assoc, readTransaction, (shortVec signature).read_write hfront, Option.bind_some,
    readMessage_writeMessage hback htx]
  rfl

end Packet
