-- SUMMARY: Texts of transactions and messages: what fits into a packet is read back from both encodings, what does not is refused.
import NoirSidecar.Rpc.Blockhash
import NoirSidecar.Solana.Packet

/-!
# Texts of wire bytes

Transactions and messages come as the text of their wire bytes, in base 58 or in base
64. A text is looked at three times: by its own length before it is decoded, by the
number of its bytes, and by the format of the value. The first two limits belong to each
other: no text of bytes that fit into a packet is too long.
-/

namespace Solana

/-- The text of some bytes. -/
def encodeText (bytes : Bytes) : TransactionBinaryEncoding → String
  | .base58 => Base58.encode bytes
  | .base64 => Base64.encode bytes

/-- The bytes of a text, of whatever length. -/
def decodeText (encoded : String) : TransactionBinaryEncoding → Option Bytes
  | .base58 => (Base58.decode encoded).toOption
  | .base64 => Base64.decode encoded

def maxTextSize : TransactionBinaryEncoding → Nat
  | .base58 => maxBase58Size
  | .base64 => maxBase64Size

@[simp] theorem decodeText_encodeText (bytes : Bytes) (encoding : TransactionBinaryEncoding) :
    decodeText (encodeText bytes encoding) encoding = some bytes := by
  cases encoding <;> simp [decodeText, encodeText, Except.toOption]

/-- The text of bytes that fit into a packet is not too long. -/
theorem utf8ByteSize_encodeText_le {bytes : Bytes} (h : bytes.length ≤ packetDataSize)
    (encoding : TransactionBinaryEncoding) :
    (encodeText bytes encoding).utf8ByteSize ≤ maxTextSize encoding := by
  cases encoding with
  | base58 =>
    have hpow : (256 ^ 112) ^ 11 ≤ (58 ^ 153) ^ 11 := Nat.pow_le_pow_left (by decide +kernel) 11
    have hlimits : ∀ {raw text : Nat}, raw = 112 * 11 → text = 153 * 11 → 256 ^ raw ≤ 58 ^ text := by
      rintro raw text rfl rfl
      rwa [pow_mul, pow_mul]
    exact Base58.utf8ByteSize_encode_le
      (le_trans (Nat.pow_le_pow_right (by decide) h) (hlimits rfl rfl))
  | base64 =>
    have hsize := Base64.utf8ByteSize_encode bytes
    simp only [encodeText, maxTextSize, maxBase64Size, packetDataSize] at h ⊢
    omega

variable {T : Type} {wire : Wire T} {base64Error : String → String} {encoded : String}
  {encoding : TransactionBinaryEncoding}

theorem decodeWire_eq_ok_iff (typeName : String) (base64Error : String → String) {bytes : Bytes} :
    decodeWire typeName base64Error encoded encoding = .ok bytes ↔
      encoded.utf8ByteSize ≤ maxTextSize encoding ∧ decodeText encoded encoding = some bytes := by
  cases encoding with
  | base58 =>
    simp only [decodeWire, maxTextSize, decodeText]
    split
    · next hlong => exact iff_of_false (by simp) fun h => absurd h.1 (Nat.not_le.mpr hlong)
    · next hshort =>
      rw [and_iff_right (Nat.not_lt.mp hshort)]
      cases Base58.decode encoded <;> simp [Except.toOption]
  | base64 =>
    simp only [decodeWire, maxTextSize, decodeText]
    split
    · next hlong => exact iff_of_false (by simp) fun h => absurd h.1 (Nat.not_le.mpr hlong)
    · next hshort =>
      rw [and_iff_right (Nat.not_lt.mp hshort)]
      cases Base64.decode encoded <;> simp

/-- A text is read if it is not too long, its bytes are not too many, and these are in the
format of the value. -/
theorem decodeAndDeserialize_eq_ok_iff {bytes : Bytes} {v : T} :
    decodeAndDeserialize wire base64Error encoded encoding = .ok (bytes, v) ↔
      (encoded.utf8ByteSize ≤ maxTextSize encoding ∧ decodeText encoded encoding = some bytes) ∧
        bytes.length ≤ packetDataSize ∧ wire.deserialize bytes = .ok v := by
  rw [← decodeWire_eq_ok_iff wire.typeName base64Error, decodeAndDeserialize]
  cases hwire : decodeWire wire.typeName base64Error encoded encoding with
  | error e =>
    refine iff_of_false (fun h => ?_) fun h => ?_
    · cases h
    · cases h.1
  | ok output =>
    rw [Except.ok.injEq]
    change (if output.length > packetDataSize then _ else _) = _ ↔ _
    by_cases hlen : output.length > packetDataSize
    · rw [if_pos hlen]
      refine iff_of_false (fun h => ?_) fun h => ?_
      · cases h
      · obtain ⟨rfl, hshort, -⟩ := h
        exact absurd hshort (Nat.not_le.mpr hlen)
    · rw [if_neg hlen]
      cases hv : wire.deserialize output with
      | error e =>
        refine iff_of_false (fun h => ?_) fun h => ?_
        · cases h
        · obtain ⟨rfl, -, hok⟩ := h
          rw [hv] at hok
          cases hok
      | ok v' =>
        constructor
        · intro h
          cases h
          exact ⟨rfl, Nat.not_lt.mp hlen, hv⟩
        · rintro ⟨rfl, -, hok⟩
          rw [hv] at hok
          cases hok
          rfl

/-- What is read from a text was in the bytes of one. -/
theorem deserialize_of_readTransaction {lib : TransactionLib} {data : String}
    {encoding : Option UiTransactionEncoding} {tx : VersionedTransaction}
    (h : readTransaction lib data encoding = .ok tx) :
    ∃ bytes, lib.transaction.deserialize bytes = .ok tx := by
  unfold readTransaction at h
  dsimp only at h
  split at h
  · cases h
  · next binaryEncoding _ =>
    obtain ⟨⟨bytes, tx'⟩, hread, h⟩ := Except.bind_eq_ok_iff.mp h
    cases h
    exact ⟨bytes, (decodeAndDeserialize_eq_ok_iff.mp hread).2.2⟩

/-- Reading a text undoes writing it, up to the size of a packet; nothing longer is read. -/
theorem undoes_encoding (wire : Wire T) (serialize : T → Bytes) (base64Error : String → String)
    (encoding : TransactionBinaryEncoding) :
    (∀ v, wire.deserialize (serialize v) = .ok v → (serialize v).length ≤ packetDataSize →
      decodeAndDeserialize wire base64Error (encodeText (serialize v) encoding) encoding =
        .ok (serialize v, v)) ∧
    (∀ bytes : Bytes, bytes.length ≤ packetDataSize →
      (encodeText bytes encoding).utf8ByteSize ≤ maxTextSize encoding) ∧
    (∀ encoded bytes v, decodeAndDeserialize wire base64Error encoded encoding = .ok (bytes, v) →
      bytes.length ≤ packetDataSize) ∧
    ∀ encoded bytes, decodeText encoded encoding = some bytes → packetDataSize < bytes.length →
      ∃ e, decodeAndDeserialize wire base64Error encoded encoding = .error e := by
  refine ⟨fun v hwire hlen => ?_, fun bytes hlen => utf8ByteSize_encodeText_le hlen encoding,
    fun encoded bytes v h => (decodeAndDeserialize_eq_ok_iff.mp h).2.1,
    fun encoded bytes hbytes hlong => ?_⟩
  · exact decodeAndDeserialize_eq_ok_iff.mpr
      ⟨⟨utf8ByteSize_encodeText_le hlen encoding, decodeText_encodeText _ encoding⟩, hlen, hwire⟩
  · cases hread : decodeAndDeserialize wire base64Error encoded encoding with
    | error e => exact ⟨e, rfl⟩
    | ok output =>
      obtain ⟨⟨-, hbytes'⟩, hlen, -⟩ := decodeAndDeserialize_eq_ok_iff.mp hread
      rw [hbytes, Option.some.injEq] at hbytes'
      rw [← hbytes'] at hlen
      exact absurd hlen (Nat.not_le.mpr hlong)

/-! ## The format of the chain -/

/-- What is read off the front of the bytes. More bytes may follow. -/
def wireOf (typeName : String) (read : Bytes → Option (T × Bytes)) : Wire T where
  typeName := typeName
  deserialize bytes := (read bytes).elim (.error "io error: unexpected end of file") fun v => .ok v.1

def transactionWire : Wire VersionedTransaction := wireOf "VersionedTransaction" Packet.readTransaction

def messageWire : Wire VersionedMessage := wireOf "VersionedMessage" Packet.readMessage

theorem deserialize_wireOf {typeName : String} {read : Bytes → Option (T × Bytes)} {bytes : Bytes}
    {v : T} : (wireOf typeName read).deserialize bytes = .ok v ↔ ∃ rest, read bytes = some (v, rest) := by
  simp only [wireOf]
  cases read bytes <;> simp [Option.elim, Prod.ext_iff, eq_comm]

/-- A message is read back from its bytes, unless it is a legacy one that begins like a
versioned one. -/
theorem deserialize_messageWire {v : VersionedMessage} {w : Bytes}
    (hwrite : Packet.writeMessage v = some w) :
    messageWire.deserialize w = .ok v ↔ Packet.Readable v := by
  rw [messageWire, deserialize_wireOf]
  constructor
  · rintro ⟨rest, hread⟩
    exact (Packet.writeMessage_readMessage hread).1
  · intro hv
    have hread := Packet.readMessage_writeMessage hwrite hv []
    rw [List.append_nil] at hread
    exact ⟨[], hread⟩

theorem deserialize_transactionWire {tx : VersionedTransaction} {w : Bytes}
    (hwrite : Packet.writeTransaction tx = some w) :
    transactionWire.deserialize w = .ok tx ↔ Packet.Readable tx.message := by
  rw [transactionWire, deserialize_wireOf]
  constructor
  · rintro ⟨rest, hread⟩
    exact (Packet.writeTransaction_readTransaction hread).1
  · intro htx
    have hread := Packet.readTransaction_writeTransaction hwrite htx []
    rw [List.append_nil] at hread
    exact ⟨[], hread⟩

/-- A transaction whose bytes just fit into a packet. -/
def fullTransaction : VersionedTransaction where
  signatures := [List.replicate 64 7]
  message := .legacy ⟨⟨1, 0, 0⟩, [.ofByte 1], .ofByte 9, [⟨0, [], List.replicate 1094 5⟩]⟩

def fullTransactionBytes : Bytes :=
  [1] ++ List.replicate 64 7 ++ [1, 0, 0] ++ [1] ++ List.replicate 32 1 ++ List.replicate 32 9 ++
    [1, 0, 0, 198, 8] ++ List.replicate 1094 5

theorem writeTransaction_full : Packet.writeTransaction fullTransaction = some fullTransactionBytes := by
  decide +kernel

/-- The largest of transactions in both encodings. -/
theorem undoes_encoding_full : fullTransactionBytes.length = packetDataSize ∧
    decodeAndDeserialize transactionWire nullTransactionLib.base64Error
        (encodeText fullTransactionBytes .base58) .base58 =
      .ok (fullTransactionBytes, fullTransaction) ∧
    decodeAndDeserialize transactionWire nullTransactionLib.base64Error
        (encodeText fullTransactionBytes .base64) .base64 =
      .ok (fullTransactionBytes, fullTransaction) := by
  have hlen : fullTransactionBytes.length = packetDataSize := by decide +kernel
  have hserialize : (Packet.writeTransaction fullTransaction).getD [] = fullTransactionBytes := by
    rw [writeTransaction_full, Option.getD_some]
  have hread := fun encoding => (undoes_encoding transactionWire
    (fun tx => (Packet.writeTransaction tx).getD []) nullTransactionLib.base64Error encoding).1
      fullTransaction
  simp only [hserialize] at hread
  have hwire := (deserialize_transactionWire writeTransaction_full).mpr (by decide)
  exact ⟨hlen, hread .base58 hwire hlen.le, hread .base64 hwire hlen.le⟩

/-- A legacy message that requires 128 signatures. -/
def manySignatures : VersionedMessage := .legacy ⟨⟨128, 0, 0⟩, [], .zero, [⟨0, [], []⟩]⟩

def manySignaturesBytes : Bytes := [128, 0, 0, 0] ++ List.replicate 32 0 ++ [1, 0, 0, 0]

-- The message is taken for a versioned one, and a byte is left.
example : Packet.readMessage manySignaturesBytes =
    some (.v0 ⟨⟨0, 0, 0⟩, [], ⟨List.replicate 31 0 ++ [1], by decide⟩, []⟩ [], [0]) := by decide +kernel

/-- Not every message comes back from its text. -/
theorem encoding_not_undone : ¬ ∀ (v : VersionedMessage) (w : Bytes)
    (encoding : TransactionBinaryEncoding), Packet.writeMessage v = some w →
      w.length ≤ packetDataSize →
      decodeAndDeserialize messageWire nullTransactionLib.base64Error (encodeText w encoding) encoding =
        .ok (w, v) := by
  intro hall
  have hwrite : Packet.writeMessage manySignatures = some manySignaturesBytes := by decide +kernel
  have hread := hall manySignatures manySignaturesBytes .base64 hwrite (by decide)
  have hback := (deserialize_messageWire hwrite).mp (decodeAndDeserialize_eq_ok_iff.mp hread).2.2
  exact absurd hback (by decide)

end Solana
