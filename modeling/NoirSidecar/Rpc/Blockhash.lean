-- SUMMARY: The replacement blockhash of a simulation: its text, and when it is the hash of the block that is simulated on.
import NoirSidecar.Rpc.Snapshot

/-!
# The replacement blockhash

A simulation that is to replace the recent blockhash takes the hash of the best
block, asked for anew, while it runs on the block its commitment named. It reports
the hash in the abbreviated form of `Display`, which `getLatestBlockhash` does not
use and which cannot be read back.
-/

namespace Solana

open Chain

/-! ## The two texts of a hash -/

/-- The text reads back as the hash, and is the one `getLatestBlockhash` reports for it. -/
structure ReadsBack (hash : Hash) (text : String) : Prop where
  decodes : Base58.decode text = .ok hash.bytes
  reported : text = hash.toBase58

/-- The abbreviated text begins with a zero, which is no digit of base 58. -/
theorem decode_display (hash : Hash) :
    Base58.decode hash.display = .error (.invalidCharacter '0' 0) := by
  have htext : hash.display.toList = '0' :: ("x" ++ Hex.encode (hash.bytes.take 2) ++ "…" ++
      Hex.encode (hash.bytes.drop 30)).toList := by
    simp [Hash.display, String.toList_append]
  rw [Base58.decode, htext, Base58.decodeDigits]
  rfl

theorem not_readsBack_display (hash hash' : Hash) : ¬ ReadsBack hash hash'.display := by
  intro h
  have hdecode := h.decodes
  rw [decode_display] at hdecode
  cases hdecode

/-- Every hash shares its abbreviated text with another. -/
theorem display_shared (hash : Hash) : ∃ hash', hash' ≠ hash ∧ hash'.display = hash.display := by
  have hlen : 2 < hash.bytes.length := by
    rw [hash.length_eq]
    decide
  refine ⟨⟨hash.bytes.set 2 (hash.bytes[2] + 1), ?_⟩, ?_, ?_⟩
  · rw [List.length_set, hash.length_eq]
  · intro heq
    have hbytes := congrArg (fun h => h.bytes[2]?) heq
    simp only [List.getElem?_set_self hlen, List.getElem?_eq_getElem hlen, Option.some.injEq] at hbytes
    have hnat := congrArg UInt8.toNat hbytes
    rw [UInt8.toNat_add] at hnat
    have := hash.bytes[2].toNat_lt
    simp only [UInt8.toNat_one] at hnat
    omega
  · have htake : (hash.bytes.set 2 (hash.bytes[2] + 1)).take 2 = hash.bytes.take 2 :=
      List.take_set_of_le (Nat.le_refl 2)
    have hdrop : (hash.bytes.set 2 (hash.bytes[2] + 1)).drop 30 = hash.bytes.drop 30 :=
      List.drop_set_of_lt (by decide)
    simp only [Hash.display, htake, hdrop]

/-! ## What a simulation reports -/

variable {lib : Decoder} {orders : IterOrders} {txLib : TransactionLib} {σ : Type}
  {handler : ∀ call : NodeCall, σ → call.Answer × σ} {s : σ}

/-- A transaction whose blockhash is replaced: it is the hash asked for, which is
reported with its last valid height. -/
theorem replaceBlockhash_ok {config : RpcSimulateTransactionConfig} {tx : VersionedTransaction}
    {result : VersionedTransaction × Option RpcBlockhash} {s' : σ}
    (hreplace : config.replaceRecentBlockhash = true)
    (h : (replaceBlockhash config tx).exec handler s = (.ok result, s')) :
    config.sigVerify = false ∧ ∃ recent s₁ height,
      (callNode Client.latestBlockhash).exec handler s = (.ok recent, s₁) ∧
      (callNode (Client.getLastValidBlockHeight recent)).exec handler s₁ = (.ok height, s') ∧
      result = ({ tx with message := tx.message.setRecentBlockhash recent },
        some ⟨recent.display, height⟩) := by
  unfold replaceBlockhash at h
  rw [if_pos hreplace] at h
  split at h
  · cases h
  · next hverify =>
    refine ⟨by simpa using hverify, ?_⟩
    obtain ⟨recent, s₁, hrecent, h⟩ := Prog.exec_bind_eq.mp h
    obtain ⟨height, s₂, hheight, h⟩ := Prog.exec_bind_eq.mp h
    cases h
    exact ⟨recent, s₁, height, hrecent, hheight, rfl⟩

/-- A response reports what the transaction's blockhash was replaced with. -/
theorem simulateTransaction_ok {data : String} {config : Option RpcSimulateTransactionConfig}
    {response : RpcResponse RpcSimulateTransactionResult}
    (h : ((simulateTransaction lib orders txLib data config).exec handler s).1 = .ok response) :
    ∃ tx hash slot result s₁ s₂ s₃,
      readTransaction txLib data (config.getD {}).encoding = .ok tx ∧
      (getHashWithConfig ⟨(config.getD {}).commitment, (config.getD {}).minContextSlot⟩).exec
        handler s = (.ok hash, s₁) ∧
      (callNode (Client.getSlot hash)).exec handler s₁ = (.ok slot, s₂) ∧
      (replaceBlockhash (config.getD {}) tx).exec handler s₂ = (.ok result, s₃) ∧
      response.value.replacementBlockhash = result.2 := by
  unfold simulateTransaction at h
  cases htx : readTransaction txLib data (config.getD {}).encoding with
  | error e => simp [htx] at h
  | ok tx =>
    simp only [htx, Prog.ofExcept_ok_bind] at h
    obtain ⟨hash, s₁, hhash, h₁⟩ := Prog.exec_bind_eq_ok.mp h
    obtain ⟨slot, s₂, hslot, h₂⟩ := Prog.exec_bind_eq_ok.mp h₁
    obtain ⟨⟨tx', blockhash⟩, s₃, hreplace, h₃⟩ := Prog.exec_bind_eq_ok.mp h₂
    obtain ⟨⟨simulation, staticKeys, dynamicKeys⟩, s₄, -, h₄⟩ := Prog.exec_bind_eq_ok.mp h₃
    obtain ⟨accounts, s₅, -, h₅⟩ := Prog.exec_bind_eq_ok.mp h₄
    refine ⟨tx, hash, slot, (tx', blockhash), s₁, s₂, s₃, rfl, hhash, hslot, hreplace, ?_⟩
    cases h₅
    rfl

/-! ## What a simulation is run on -/

def IsSimulation : NodeCall → Prop
  | .runtime (.simulateTransaction ..) _ => True
  | _ => False

theorem not_simulation_of_looksUp (call : NodeCall) (h : LooksUp call) : ¬ IsSimulation call := by
  intro hsim
  unfold IsSimulation at hsim
  split at hsim
  · cases h
  · cases hsim

theorem no_simulation_getHashWithConfig (config : RpcContextConfig) :
    (getHashWithConfig config).Asks (¬ IsSimulation ·) := by
  unfold getHashWithConfig Solana.hash
  split <;> exact ⟨nofun, fun a => (Prog.asks_ofExcept a).mapError _⟩

theorem no_simulation_replaceBlockhash (config : RpcSimulateTransactionConfig)
    (tx : VersionedTransaction) : (replaceBlockhash config tx).Asks (¬ IsSimulation ·) := by
  unfold replaceBlockhash
  split
  · split
    · trivial
    · refine Prog.Asks.bind ⟨nofun, fun a => (Prog.asks_ofExcept a).mapError _⟩ fun recent => ?_
      exact Prog.Asks.bind ⟨nofun, fun a => (Prog.asks_ofExcept _).mapError _⟩ fun _ => trivial
  · trivial

theorem asked_runtimeCall (call : RuntimeCall) (block : Option Hash) :
    (callNode (Client.runtimeCall call block)).asked handler s = [.runtime call block] := by
  simp [callNode, Client.runtimeCall, Prog.asked]

/-- The one simulation in the log of a request is of the transaction with its blockhash
replaced, on the block the commitment named. -/
theorem mem_simulations_iff {data : String} {config : Option RpcSimulateTransactionConfig}
    {tx : VersionedTransaction} {sigVerify cpi : Bool} {block : Option Hash} :
    .runtime (.simulateTransaction tx sigVerify cpi) block ∈
        (simulateTransaction lib orders txLib data config).asked handler s ↔
      ∃ tx₀ hash slot blockhash s₁ s₂ s₃,
        readTransaction txLib data (config.getD {}).encoding = .ok tx₀ ∧
        (getHashWithConfig ⟨(config.getD {}).commitment, (config.getD {}).minContextSlot⟩).exec
          handler s = (.ok hash, s₁) ∧
        (callNode (Client.getSlot hash)).exec handler s₁ = (.ok slot, s₂) ∧
        (replaceBlockhash (config.getD {}) tx₀).exec handler s₂ = (.ok (tx, blockhash), s₃) ∧
        sigVerify = (config.getD {}).sigVerify ∧ cpi = (config.getD {}).innerInstructions ∧
        block = some hash := by
  -- the other parts of the request simulate nothing
  have hnot : ∀ {α : Type} {p : RpcProg α} {s : σ}, p.Asks (¬ IsSimulation ·) →
      ¬ .runtime (.simulateTransaction tx sigVerify cpi) block ∈ p.asked handler s :=
    fun hp hmem => Prog.mem_asked hp hmem trivial
  unfold simulateTransaction
  cases htx : readTransaction txLib data (config.getD {}).encoding with
  | error e => simp [htx, Prog.asked]
  | ok tx₀ =>
    simp only [htx, Prog.ofExcept_ok_bind]
    constructor
    · intro hmem
      obtain hmem | ⟨hash, s₁, hhash, hmem⟩ := Prog.mem_asked_bind.mp hmem
      · exact absurd hmem (hnot (no_simulation_getHashWithConfig _))
      obtain hmem | ⟨slot, s₂, hslot, hmem⟩ := Prog.mem_asked_bind.mp hmem
      · exact absurd hmem (hnot ((asks_callNode (Client.looksUp_getSlot hash)).mono
          not_simulation_of_looksUp))
      obtain hmem | ⟨⟨tx₁, blockhash⟩, s₃, hreplace, hmem⟩ := Prog.mem_asked_bind.mp hmem
      · exact absurd hmem (hnot (no_simulation_replaceBlockhash _ _))
      obtain hmem | ⟨⟨simulation, staticKeys, dynamicKeys⟩, s₄, -, hmem⟩ :=
        Prog.mem_asked_bind.mp hmem
      · rw [Client.simulateTransaction, asked_runtimeCall, List.mem_singleton] at hmem
        cases hmem
        exact ⟨tx₀, hash, slot, blockhash, s₁, s₂, s₃, rfl, hhash, hslot, hreplace, rfl, rfl, rfl⟩
      · refine absurd hmem (hnot ?_)
        exact ((looksUp_simulatedAccounts _ _ _).mono not_simulation_of_looksUp).bind fun _ => trivial
    · rintro ⟨tx₁, hash, slot, blockhash, s₁, s₂, s₃, htx₁, hhash, hslot, hreplace, rfl, rfl, rfl⟩
      cases htx₁
      refine Prog.mem_asked_bind.mpr (.inr ⟨hash, s₁, hhash, ?_⟩)
      refine Prog.mem_asked_bind.mpr (.inr ⟨slot, s₂, hslot, ?_⟩)
      refine Prog.mem_asked_bind.mpr (.inr ⟨(tx, blockhash), s₃, hreplace, ?_⟩)
      refine Prog.mem_asked_bind.mpr (.inl ?_)
      exact List.mem_cons_self

/-! ## Reading a reported blockhash back -/

/-- Every response reports the blockhash of the message that was simulated, and it can be
read back. -/
def ReportsReadable (lib : Decoder) (orders : IterOrders) (txLib : TransactionLib)
    (handler : ∀ call : NodeCall, σ → call.Answer × σ) (s : σ) (data : String)
    (config : Option RpcSimulateTransactionConfig) : Prop :=
  ∀ response tx sigVerify cpi block,
    ((simulateTransaction lib orders txLib data config).exec handler s).1 = .ok response →
    .runtime (.simulateTransaction tx sigVerify cpi) block ∈
      (simulateTransaction lib orders txLib data config).asked handler s →
    ∃ blockhash, response.value.replacementBlockhash = some blockhash ∧
      ReadsBack tx.message.recentBlockhash blockhash.blockhash

/-- `getLatestBlockhash` reports all of its hash. -/
theorem getLatestBlockhash_ok {config : Option RpcContextConfig} {response : RpcResponse RpcBlockhash}
    (h : ((getLatestBlockhash config).exec handler s).1 = .ok response) :
    ∃ hash s', (getHashWithConfig (config.getD {})).exec handler s = (.ok hash, s') ∧
      ReadsBack hash response.value.blockhash := by
  unfold getLatestBlockhash at h
  obtain ⟨hash, s₁, hhash, h₁⟩ := Prog.exec_bind_eq_ok.mp h
  obtain ⟨slot, s₂, -, h₂⟩ := Prog.exec_bind_eq_ok.mp h₁
  obtain ⟨height, s₃, -, h₃⟩ := Prog.exec_bind_eq_ok.mp h₂
  cases h₃
  exact ⟨hash, s₁, hhash, Base58.decode_encode _, rfl⟩

/-- A simulation with a replaced blockhash reports it in the abbreviated form. -/
theorem replacement_reported {data : String} {config : Option RpcSimulateTransactionConfig}
    {response : RpcResponse RpcSimulateTransactionResult}
    (hreplace : (config.getD {}).replaceRecentBlockhash = true)
    (hok : ((simulateTransaction lib orders txLib data config).exec handler s).1 = .ok response) :
    ∃ (tx : VersionedTransaction) (block : Option Hash) (blockhash : RpcBlockhash),
      .runtime (.simulateTransaction tx (config.getD {}).sigVerify (config.getD {}).innerInstructions)
        block ∈ (simulateTransaction lib orders txLib data config).asked handler s ∧
      response.value.replacementBlockhash = some blockhash ∧
      blockhash.blockhash = tx.message.recentBlockhash.display := by
  obtain ⟨tx, hash, slot, result, s₁, s₂, s₃, htx, hhash, hslot, hresult, hreported⟩ :=
    simulateTransaction_ok hok
  obtain ⟨-, recent, s₄, height, -, -, rfl⟩ := replaceBlockhash_ok hreplace hresult
  refine ⟨_, _, _, mem_simulations_iff.mpr
    ⟨tx, hash, slot, _, s₁, s₂, s₃, htx, hhash, hslot, hresult, rfl, rfl, rfl⟩, hreported, ?_⟩
  rw [VersionedMessage.recentBlockhash_set]

theorem not_reportsReadable {data : String} {config : Option RpcSimulateTransactionConfig}
    {response : RpcResponse RpcSimulateTransactionResult}
    (hreplace : (config.getD {}).replaceRecentBlockhash = true)
    (hok : ((simulateTransaction lib orders txLib data config).exec handler s).1 = .ok response) :
    ¬ ReportsReadable lib orders txLib handler s data config := by
  intro hreadable
  obtain ⟨tx, block, blockhash, hsimulated, hreported, htext⟩ := replacement_reported hreplace hok
  obtain ⟨blockhash', hreported', hback⟩ := hreadable response _ _ _ _ hok hsimulated
  rw [hreported] at hreported'
  cases hreported'
  rw [htext] at hback
  exact not_readsBack_display _ _ hback

/-- No simulation with a replaced blockhash reports it in a form that can be read back;
and there is always another hash with the same text. -/
theorem replacement_not_readable (lib : Decoder) (orders : IterOrders) (txLib : TransactionLib)
    (handler : ∀ call : NodeCall, σ → call.Answer × σ) (s : σ) (data : String)
    (config : Option RpcSimulateTransactionConfig) (response : RpcResponse RpcSimulateTransactionResult)
    (hreplace : (config.getD {}).replaceRecentBlockhash = true)
    (hok : ((simulateTransaction lib orders txLib data config).exec handler s).1 = .ok response) :
    ¬ ReportsReadable lib orders txLib handler s data config ∧
      ∃ (tx : VersionedTransaction) (block : Option Hash) (blockhash : RpcBlockhash) (other : Hash),
        .runtime (.simulateTransaction tx (config.getD {}).sigVerify (config.getD {}).innerInstructions)
          block ∈ (simulateTransaction lib orders txLib data config).asked handler s ∧
        response.value.replacementBlockhash = some blockhash ∧
        (∀ hash, ¬ ReadsBack hash blockhash.blockhash) ∧
        blockhash.blockhash = tx.message.recentBlockhash.display ∧
        other ≠ tx.message.recentBlockhash ∧ other.display = blockhash.blockhash := by
  obtain ⟨tx, block, blockhash, hsimulated, hreported, htext⟩ := replacement_reported hreplace hok
  obtain ⟨other, hne, hshared⟩ := display_shared tx.message.recentBlockhash
  refine ⟨not_reportsReadable hreplace hok, tx, block, blockhash, other, hsimulated, hreported,
    fun hash => ?_, htext, hne, hshared.trans htext.symm⟩
  rw [htext]
  exact not_readsBack_display hash _

/-! ## A simulation that succeeds -/

/-- A transaction without instructions. -/
def emptyTransaction : VersionedTransaction where
  signatures := [List.replicate 64 0]
  message := .legacy ⟨⟨1, 0, 0⟩, [.ofByte 1], .zero, []⟩

/-- The bytes of `emptyTransaction`. -/
def emptyTransactionBytes : Bytes :=
  [1] ++ List.replicate 64 0 ++ [1, 0, 0] ++ [1] ++ List.replicate 32 1 ++ List.replicate 32 0 ++ [0]

def emptyTransactionData : String :=
  "AQAAAAAAAAAAAAAAAAAAAAAAAAAAAAAAAAAAAAAAAAAAAAAAAAAAAAAAAAAAAAAAAAAAAAAAAAAAAAAAAAAAAAABAA" ++
    "ABAQEBAQEBAQEBAQEBAQEBAQEBAQEBAQEBAQEBAQEBAQEAAAAAAAAAAAAAAAAAAAAAAAAAAAAAAAAAAAAAAAAAAAA="

/-- A library that reads one transaction. -/
def emptyTransactionLib : TransactionLib :=
  { nullTransactionLib with
    transaction := ⟨"VersionedTransaction", fun bytes =>
      if bytes = emptyTransactionBytes then .ok emptyTransaction
      else .error "unexpected end of file"⟩ }

theorem readTransaction_empty :
    readTransaction emptyTransactionLib emptyTransactionData (some .base64) =
      .ok emptyTransaction := by
  have hsize : ¬ emptyTransactionData.utf8ByteSize > maxBase64Size := by decide +kernel
  have hbytes : Base64.decode emptyTransactionData = some emptyTransactionBytes := by decide +kernel
  refine readTransaction_of .base64 emptyTransactionBytes rfl ?_ (by decide +kernel) ?_
  · simp only [decodeWire, if_neg hsize, hbytes]
  · simp [emptyTransactionLib]

/-- A node that simulates everything with success. -/
def simulatingNode : Node
  | .runtime (.simulateTransaction ..) _ => .value (⟨.ok (), [], [], 0, none, none⟩, [.ofByte 1], none)
  | call => steadyNode call

/-- A request to simulate with the blockhash replaced. -/
def replacing (level : CommitmentLevel) : RpcSimulateTransactionConfig where
  replaceRecentBlockhash := true
  commitment := some ⟨level⟩
  encoding := some .base64

def replacedResponse (recent : Hash) : RpcResponse RpcSimulateTransactionResult where
  context := { slot := 0 }
  value := {
    err := none
    logs := some []
    accounts := none
    unitsConsumed := some 0
    returnData := none
    innerInstructions := none
    replacementBlockhash := some ⟨recent.display, 20⟩ }

theorem simulateTransaction_replacing (H : History) (level : CommitmentLevel) :
    ((simulateTransaction tokenDecoder listedOrders emptyTransactionLib emptyTransactionData
      (some (replacing level))).exec (H.handler simulatingNode) 0).1 =
      .ok (replacedResponse (H.world 2).best) := by
  unfold simulateTransaction
  have hread : readTransaction emptyTransactionLib emptyTransactionData (replacing level).encoding =
      .ok emptyTransaction := readTransaction_empty
  simp only [Option.getD_some, hread, Prog.ofExcept_ok_bind]
  cases level <;> rfl

/-- A simulation on the zero block reports `0x0000…0000`. -/
theorem zero_blockhash_not_readable : ¬ ∀ (lib : Decoder) (orders : IterOrders)
    (txLib : TransactionLib) (node : Node) (H : History) (data : String)
    (config : Option RpcSimulateTransactionConfig),
    (config.getD {}).replaceRecentBlockhash = true →
      ReportsReadable lib orders txLib (H.handler node) 0 data config := by
  intro hall
  have hreadable := hall tokenDecoder listedOrders emptyTransactionLib simulatingNode
    (.still (.single .zero)) emptyTransactionData (some (replacing .processed)) rfl
  exact not_reportsReadable rfl (simulateTransaction_replacing _ _) hreadable

theorem replacement_not_readable_zero :
    ¬ ReportsReadable tokenDecoder listedOrders emptyTransactionLib
      ((History.still (.single .zero)).handler simulatingNode) 0 emptyTransactionData
      (some (replacing .processed)) :=
  (replacement_not_readable _ _ _ _ _ _ _ _ rfl (simulateTransaction_replacing _ _)).1

/-! ## The block of the blockhash -/

variable {node : Node} {H : History}

/-- The blockhash is that of the block simulated on: in the message, where it is known,
and in the response, there with the last valid height of that block. -/
structure UsesBlock (lib : Decoder) (orders : IterOrders) (txLib : TransactionLib) (node : Node)
    (H : History) (data : String) (config : RpcSimulateTransactionConfig) : Prop where
  written : ∀ tx sigVerify cpi block,
    .runtime (.simulateTransaction tx sigVerify cpi) block ∈
      (simulateTransaction lib orders txLib data (some config)).asked (H.handler node) 0 →
    block = some tx.message.recentBlockhash
  known : ∀ tx sigVerify cpi block n,
    .runtime (.simulateTransaction tx sigVerify cpi) (some block) ∈
      (simulateTransaction lib orders txLib data (some config)).asked (H.handler node) 0 →
    Descends (H.world n).parents tx.message.recentBlockhash block
  reported : ∀ response tx sigVerify cpi block,
    ((simulateTransaction lib orders txLib data (some config)).exec (H.handler node) 0).1 = .ok response →
    .runtime (.simulateTransaction tx sigVerify cpi) (some block) ∈
      (simulateTransaction lib orders txLib data (some config)).asked (H.handler node) 0 →
    ∃ height, (Client.getLastValidBlockHeight block).run node = .ok height ∧
      response.value.replacementBlockhash = some ⟨block.display, height⟩

/-- The request gets as far as its simulation. -/
structure Reaches (txLib : TransactionLib) (node : Node) (H : History) (data : String)
    (config : RpcSimulateTransactionConfig) : Prop where
  reads : ∃ tx, readTransaction txLib data config.encoding = .ok tx
  unverified : config.sigVerify = false
  slot : ((Client.getSlot (resolve config.commitment (H.world 0))).run node).Succeeds
  height : ((Client.getLastValidBlockHeight (H.world 2).best).run node).Succeeds

theorem exec_getHashWithConfig (config : RpcContextConfig) (n : Nat) :
    (getHashWithConfig config).exec (H.handler node) n =
      (.ok (resolve config.commitment (H.world n)), n + 1) := by
  cases hc : (config.commitment.getD {}).commitment <;>
    simp only [getHashWithConfig, Solana.hash, resolve, hc] <;> rfl

theorem exec_getSlot (hash : Hash) (n : Nat) :
    (callNode (Client.getSlot hash)).exec (H.handler node) n =
      ((callNode (Client.getSlot hash)).run node, n + 1) := by
  simp [callNode, Client.getSlot, Client.readStorageU64, Prog.mapError, Prog.exec, Prog.run,
    Prog.exec_mapError, Prog.run_mapError, History.handler, nodeAt]

theorem exec_latestBlockhash (n : Nat) :
    (callNode Client.latestBlockhash).exec (H.handler node) n =
      (.ok (H.world n).best, n + 1) := rfl

theorem exec_getLastValidBlockHeight (hash : Hash) (n : Nat) :
    (callNode (Client.getLastValidBlockHeight hash)).exec (H.handler node) n =
      ((callNode (Client.getLastValidBlockHeight hash)).run node, n + 1) := by
  simp [callNode, Client.getLastValidBlockHeight, Prog.mapError, Prog.exec, Prog.run,
    Prog.exec_mapError, Prog.run_mapError, History.handler, nodeAt]

theorem run_callNode_eq_ok {α : Type} {p : NodeProg Client.Error α} {a : α} :
    (callNode p).run node = .ok a ↔ p.run node = .ok a := by
  simp [callNode]

/-- The simulation a request comes to: on the block its commitment named at first, with
the blockhash of what was the best block two calls later. -/
theorem mem_simulations_at {data : String} {config : RpcSimulateTransactionConfig}
    {tx : VersionedTransaction} {sigVerify cpi : Bool} {block : Option Hash}
    (hreplace : config.replaceRecentBlockhash = true) :
    .runtime (.simulateTransaction tx sigVerify cpi) block ∈
        (simulateTransaction lib orders txLib data (some config)).asked (H.handler node) 0 ↔
      Reaches txLib node H data config ∧
        block = some (resolve config.commitment (H.world 0)) ∧
        (∃ tx₀, readTransaction txLib data config.encoding = .ok tx₀ ∧
          tx = { tx₀ with message := tx₀.message.setRecentBlockhash (H.world 2).best }) ∧
        sigVerify = config.sigVerify ∧ cpi = config.innerInstructions := by
  rw [mem_simulations_iff]
  simp only [Option.getD_some, exec_getHashWithConfig, exec_getSlot, Prod.mk.injEq,
    Outcome.ok.injEq]
  constructor
  · rintro ⟨tx₀, hash, slot, blockhash, s₁, s₂, s₃, htx, ⟨rfl, rfl⟩, ⟨hslot, rfl⟩, hresult, rfl, rfl, rfl⟩
    obtain ⟨hverify, recent, s₄, height, hrecent, hheight, hresult⟩ := replaceBlockhash_ok hreplace hresult
    rw [exec_latestBlockhash] at hrecent
    cases hrecent
    rw [exec_getLastValidBlockHeight] at hheight
    cases hresult
    exact ⟨⟨⟨tx₀, htx⟩, hverify, ⟨slot, run_callNode_eq_ok.mp hslot⟩,
      ⟨height, run_callNode_eq_ok.mp (congrArg Prod.fst hheight)⟩⟩, rfl, ⟨tx₀, htx, rfl⟩, rfl, rfl⟩
  · rintro ⟨⟨-, hverify, ⟨slot, hslot⟩, ⟨height, hheight⟩⟩, rfl, ⟨tx₀, htx, rfl⟩, rfl, rfl⟩
    refine ⟨tx₀, _, slot, some ⟨(H.world 2).best.display, height⟩, _, _, 4, htx, ⟨rfl, rfl⟩,
      ⟨run_callNode_eq_ok.mpr hslot, rfl⟩, ?_, rfl, rfl, rfl⟩
    rw [replaceBlockhash, if_pos hreplace, if_neg (by simp [hverify]), Prog.exec_bind,
      exec_latestBlockhash]
    dsimp only
    rw [Prog.exec_bind, exec_getLastValidBlockHeight, run_callNode_eq_ok.mpr hheight]
    rfl

/-- A simulation uses the blockhash of its block exactly if the block the commitment
named by the first call is the best one at the third. -/
theorem usesBlock_iff (lib : Decoder) (orders : IterOrders) (txLib : TransactionLib) (node : Node)
    (H : History) (data : String) (config : RpcSimulateTransactionConfig)
    (hreplace : config.replaceRecentBlockhash = true) :
    UsesBlock lib orders txLib node H data config ↔
      (Reaches txLib node H data config →
        resolve config.commitment (H.world 0) = (H.world 2).best) := by
  constructor
  · intro huses hreaches
    obtain ⟨tx, htx⟩ := hreaches.reads
    have hwritten := huses.written _ _ _ _ ((mem_simulations_at hreplace).mpr
      ⟨hreaches, rfl, ⟨tx, htx, rfl⟩, rfl, rfl⟩)
    rw [VersionedMessage.recentBlockhash_set] at hwritten
    exact Option.some.inj hwritten
  · intro hbest
    have hsame : ∀ {tx sigVerify cpi block},
        .runtime (.simulateTransaction tx sigVerify cpi) block ∈
          (simulateTransaction lib orders txLib data (some config)).asked (H.handler node) 0 →
        block = some tx.message.recentBlockhash := by
      intro tx sigVerify cpi block hmem
      obtain ⟨hreaches, rfl, ⟨tx₀, -, rfl⟩, -, -⟩ := (mem_simulations_at hreplace).mp hmem
      rw [VersionedMessage.recentBlockhash_set, hbest hreaches]
    refine ⟨fun tx sigVerify cpi block => hsame, fun tx sigVerify cpi block n hmem => ?_,
      fun response tx sigVerify cpi block hok hmem => ?_⟩
    · rw [Option.some.inj (hsame hmem)]
      exact .refl
    · obtain ⟨hreaches, hblock, -, -, -⟩ := (mem_simulations_at hreplace).mp hmem
      obtain ⟨tx', hash, slot, result, s₁, s₂, s₃, -, hhash, hslot, hresult, hreported⟩ :=
        simulateTransaction_ok hok
      obtain ⟨-, recent, s₄, height, hrecent, hheight, rfl⟩ := replaceBlockhash_ok hreplace hresult
      rw [exec_getHashWithConfig] at hhash
      cases hhash
      rw [exec_getSlot] at hslot
      cases congrArg Prod.snd hslot
      rw [exec_latestBlockhash] at hrecent
      cases hrecent
      rw [exec_getLastValidBlockHeight] at hheight
      rw [Option.some.inj hblock, hbest hreaches]
      exact ⟨height, run_callNode_eq_ok.mp (congrArg Prod.fst hheight), hreported⟩

/-- At the finalized commitment, the default, the block on top lends its blockhash
to a simulation on the finalized one, where it is not known. -/
theorem simulation_with_unknown_blockhash : ¬ ∀ (lib : Decoder) (orders : IterOrders)
    (txLib : TransactionLib) (node : Node) (H : History) (data : String)
    (config : RpcSimulateTransactionConfig), config.replaceRecentBlockhash = true →
      UsesBlock lib orders txLib node H data config := by
  intro hall
  have huses := hall tokenDecoder listedOrders emptyTransactionLib simulatingNode
    (.still (.pair .zero (.ofByte 1) (by decide))) emptyTransactionData (replacing .finalized) rfl
  have hwritten := huses.written _ _ _ _ ((mem_simulations_at rfl).mpr
    ⟨⟨⟨emptyTransaction, readTransaction_empty⟩, rfl, ⟨0, rfl⟩, ⟨20, rfl⟩⟩, rfl,
      ⟨emptyTransaction, readTransaction_empty, rfl⟩, rfl, rfl⟩)
  rw [VersionedMessage.recentBlockhash_set] at hwritten
  exact absurd (Option.some.inj hwritten) (by decide)

/-- Nothing is produced while the best block is simulated on. -/
theorem simulation_on_best_block :
    UsesBlock tokenDecoder listedOrders emptyTransactionLib simulatingNode
      (.still (.pair .zero (.ofByte 1) (by decide))) emptyTransactionData (replacing .processed) :=
  (usesBlock_iff _ _ _ _ _ _ _ rfl).mpr fun _ => rfl

end Solana
