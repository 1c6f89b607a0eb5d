-- SUMMARY: The virtual machine of the mock server: its request loop, its methods, and the calls the mock makes of it.
import NoirSidecar.Base.Server
import NoirSidecar.Rpc.Mock
import NoirSidecar.Rpc.Statuses

/-!
# The virtual machine of the mock

`LiteSVM::run` takes requests off a queue and looks their method up by its name. Parameters
and results travel as bytes, and what they are bytes of is written down twice: where the
method decodes and encodes, and where the mock encodes and decodes.

The virtual machine and `bincode` are libraries and so are parameters; a type that can travel
is named by a `WireType`.
-/

namespace LiteSVM

/-! ## What travels -/

/-- The types of the library that are only passed on. -/
structure Types where
  TransactionResult : Type
  SimulationResult : Type

inductive WireType where
  | pubkey
  | u64
  | string
  | hash
  | signature
  | account
  | versionedTransaction
  | transactionResult
  | simulationResult
  | option (t : WireType)
  | vec (t : WireType)
  | pair (s t : WireType)
  deriving DecidableEq, Repr

@[reducible] def WireType.Val (T : Types) : WireType → Type
  | .pubkey => Pubkey
  | .u64 => UInt64
  | .string => String
  | .hash => Hash
  | .signature => Signature
  | .account => Account
  | .versionedTransaction => VersionedTransaction
  | .transactionResult => T.TransactionResult
  | .simulationResult => T.SimulationResult
  | .option t => Option (t.Val T)
  | .vec t => List (t.Val T)
  | .pair s t => s.Val T × t.Val T

/-- `solana_bincode`. Only the debug text of its errors is ever used. -/
structure Bincode (T : Types) where
  serialize : ∀ t : WireType, t.Val T → Except String Bytes
  deserialize : ∀ t : WireType, Bytes → Except String (t.Val T)

/-- The value comes back from its bytes. -/
def Bincode.Carries {T : Types} (bincode : Bincode T) {t : WireType} (v : t.Val T) : Prop :=
  ∃ bytes, bincode.serialize t v = .ok bytes ∧ bincode.deserialize t bytes = .ok v

/-- `litesvm::LiteSVM` with states `σ`. The operations that take it by shared reference leave
the state alone. -/
structure Vm (T : Types) (σ : Type) where
  getAccount : σ → Pubkey → Option Account
  airdrop : σ → Pubkey → UInt64 → T.TransactionResult × σ
  getBalance : σ → Pubkey → Option UInt64
  sendTransaction : σ → VersionedTransaction → T.TransactionResult × σ
  getTransaction : σ → Signature → Option T.TransactionResult
  latestBlockhash : σ → Hash
  simulateTransaction : σ → VersionedTransaction → T.SimulationResult

inductive SvmError where
  | parseError (text : String)
  | decodeError (text : String)
  | other (text : String)
  deriving DecidableEq, Repr

abbrev SvmResult := Except SvmError Bytes

/-- `response` names the oneshot channel the result is sent back over, if there is one. -/
structure SvmRequest where
  method : String
  params : Bytes
  response : Option Nat
  deriving DecidableEq, Repr

/-! ## Methods -/

section Methods

variable {T : Types} {σ : Type} (bincode : Bincode T) (svm : Vm T σ)

/-- Decode the parameters, put the operation to the virtual machine, encode the result. -/
def serve (P R : WireType) (operation : σ → P.Val T → R.Val T × σ) (params : Bytes) (s : σ) :
    SvmResult × σ :=
  match bincode.deserialize P params with
  | .error e => (.error (.parseError e), s)
  | .ok params =>
    let (result, s) := operation s params
    ((bincode.serialize R result).mapError .parseError, s)

def getAccount : Bytes → σ → SvmResult × σ :=
  serve bincode .pubkey (.option .account) fun s pubkey => (svm.getAccount s pubkey, s)

def getAccounts : Bytes → σ → SvmResult × σ :=
  serve bincode (.vec .pubkey) (.vec (.pair .pubkey (.option .account))) fun s pubkeys =>
    (pubkeys.map fun pubkey => (pubkey, svm.getAccount s pubkey), s)

def requestAirdrop : Bytes → σ → SvmResult × σ :=
  serve bincode (.pair .pubkey .u64) .transactionResult fun s params =>
    svm.airdrop s params.1 params.2

def getBalance : Bytes → σ → SvmResult × σ :=
  serve bincode .pubkey (.option .u64) fun s pubkey => (svm.getBalance s pubkey, s)

def sendTransaction : Bytes → σ → SvmResult × σ :=
  serve bincode .versionedTransaction .transactionResult svm.sendTransaction

def getTransactions : Bytes → σ → SvmResult × σ :=
  serve bincode (.vec .signature) (.vec (.option .transactionResult)) fun s signatures =>
    (signatures.map fun signature => svm.getTransaction s signature, s)

/-- The parameters are not looked at. -/
def latestBlockhash (s : σ) : SvmResult × σ :=
  ((bincode.serialize .hash (svm.latestBlockhash s)).mapError .parseError, s)

def simulateTransaction : Bytes → σ → SvmResult × σ :=
  serve bincode .versionedTransaction .simulationResult fun s tx =>
    (svm.simulateTransaction s tx, s)

/-! ## The loop -/

/-- The result of a request other than `terminateSvm`. -/
def handle (r : SvmRequest) (s : σ) : SvmResult × σ :=
  match r.method with
  | "getAccount" => getAccount bincode svm r.params s
  | "getAccounts" => getAccounts bincode svm r.params s
  | "requestAirdrop" => requestAirdrop bincode svm r.params s
  | "getBalance" => getBalance bincode svm r.params s
  | "sendTransaction" => sendTransaction bincode svm r.params s
  | "getTransactions" => getTransactions bincode svm r.params s
  | "latestBlockhash" => latestBlockhash bincode svm s
  | "simulateTransaction" => simulateTransaction bincode svm r.params s
  | method => (.error (.other s!"Unknown method: {method}"), s)

/-- `LiteSVM::run`. A result whose request came without a channel is dropped. -/
def run : Server σ SvmRequest SvmResult where
  handle := handle bincode svm
  stops r := r.method == "terminateSvm"

end Methods

/-! ## What a request does to the virtual machine -/

/-- The methods, with the type their parameters are decoded as, if they are. -/
def methods : List (String × Option WireType) :=
  [("getAccount", some .pubkey), ("getAccounts", some (.vec .pubkey)),
    ("requestAirdrop", some (.pair .pubkey .u64)), ("getBalance", some .pubkey),
    ("sendTransaction", some .versionedTransaction), ("getTransactions", some (.vec .signature)),
    ("latestBlockhash", none), ("simulateTransaction", some .versionedTransaction)]

/-- The operations that change the virtual machine. -/
inductive Operation where
  | airdrop (pubkey : Pubkey) (lamports : UInt64)
  | sendTransaction (tx : VersionedTransaction)
  deriving DecidableEq, Repr

section Effects

variable {T : Types} {σ : Type} (bincode : Bincode T) (svm : Vm T σ)

def Vm.perform (s : σ) : Operation → σ
  | .airdrop pubkey lamports => (svm.airdrop s pubkey lamports).2
  | .sendTransaction tx => (svm.sendTransaction s tx).2

/-- The operation a request stands for: an airdrop or a transaction, if its parameters decode. -/
def operation (r : SvmRequest) : Option Operation :=
  match r.method with
  | "requestAirdrop" =>
    (bincode.deserialize (.pair .pubkey .u64) r.params).toOption.map fun p => .airdrop p.1 p.2
  | "sendTransaction" =>
    (bincode.deserialize .versionedTransaction r.params).toOption.map .sendTransaction
  | _ => none

variable {bincode svm}

theorem serve_of_error {P R : WireType} {op : σ → P.Val T → R.Val T × σ} {params : Bytes} {s : σ}
    {e : String} (h : bincode.deserialize P params = .error e) :
    serve bincode P R op params s = (.error (.parseError e), s) := by
  simp [serve, h]

theorem serve_of_ok {P R : WireType} {op : σ → P.Val T → R.Val T × σ} {params : Bytes} {s : σ}
    {p : P.Val T} (h : bincode.deserialize P params = .ok p) :
    serve bincode P R op params s =
      ((bincode.serialize R (op s p).1).mapError .parseError, (op s p).2) := by
  simp [serve, h]

/-- An operation that only reads leaves the state alone, decoded or not. -/
theorem serve_state {P R : WireType} {op : σ → P.Val T → R.Val T × σ} (h : ∀ s p, (op s p).2 = s)
    (params : Bytes) (s : σ) : (serve bincode P R op params s).2 = s := by
  cases hp : bincode.deserialize P params with
  | error e => rw [serve_of_error hp]
  | ok p => rw [serve_of_ok hp, h]

theorem operation_eq_none {r : SvmRequest} (hairdrop : r.method ≠ "requestAirdrop")
    (hsend : r.method ≠ "sendTransaction") : operation bincode r = none := by
  unfold operation
  split
  · next h => exact absurd h hairdrop
  · next h => exact absurd h hsend
  · rfl

/-- A request changes the state only by the operation it stands for. -/
theorem handle_state (r : SvmRequest) (s : σ) :
    (handle bincode svm r s).2 = (operation bincode r).elim s (svm.perform s) := by
  -- all methods but two leave the virtual machine as it is
  have hread : ∀ {P R : WireType} {op : σ → P.Val T → R.Val T × σ}, r.method ≠ "requestAirdrop" →
      r.method ≠ "sendTransaction" → (∀ s p, (op s p).2 = s) →
      (serve bincode P R op r.params s).2 = (operation bincode r).elim s (svm.perform s) := by
    intro P R op hairdrop hsend hop
    rw [operation_eq_none hairdrop hsend, serve_state hop]
    rfl
  unfold handle
  split
  · next h => exact hread (by simp [h]) (by simp [h]) fun s p => rfl
  · next h => exact hread (by simp [h]) (by simp [h]) fun s p => rfl
  · next h =>
    simp only [operation, h, requestAirdrop]
    cases hp : bincode.deserialize (.pair .pubkey .u64) r.params with
    | error e => rw [serve_of_error hp]; rfl
    | ok p => rw [serve_of_ok hp]; rfl
  · next h => exact hread (by simp [h]) (by simp [h]) fun s p => rfl
  · next h =>
    simp only [operation, h, sendTransaction]
    cases hp : bincode.deserialize .versionedTransaction r.params with
    | error e => rw [serve_of_error hp]; rfl
    | ok p => rw [serve_of_ok hp]; rfl
  · next h => exact hread (by simp [h]) (by simp [h]) fun s p => rfl
  · next h =>
    rw [operation_eq_none (by simp [h]) (by simp [h])]
    rfl
  · next h => exact hread (by simp [h]) (by simp [h]) fun s p => rfl
  · next hairdrop _ hsend _ _ _ =>
    rw [operation_eq_none hairdrop hsend]
    rfl

/-- A method nobody knows is refused. -/
theorem handle_unknown {r : SvmRequest} (h : r.method ∉ methods.map Prod.fst) (s : σ) :
    handle bincode svm r s = (.error (.other ("Unknown method: " ++ r.method)), s) := by
  unfold handle
  split
  case h_9 => rfl
  all_goals next heq => exact absurd (by rw [heq]; decide) h

/-- Parameters that do not decode are refused. -/
theorem handle_undecodable {r : SvmRequest} {P : WireType} {e : String}
    (hmethod : (r.method, some P) ∈ methods) (h : bincode.deserialize P r.params = .error e) (s : σ) :
    handle bincode svm r s = (.error (.parseError e), s) := by
  simp only [methods, List.mem_cons, Prod.mk.injEq, Option.some.injEq, reduceCtorEq, and_false,
    List.not_mem_nil, or_false, false_or] at hmethod
  rcases hmethod with ⟨hm, rfl⟩ | ⟨hm, rfl⟩ | ⟨hm, rfl⟩ | ⟨hm, rfl⟩ | ⟨hm, rfl⟩ | ⟨hm, rfl⟩ |
    ⟨hm, rfl⟩
  all_goals
    simp only [handle, hm]
    exact serve_of_error h

end Effects

end LiteSVM

namespace MockSolana

open LiteSVM Solana

/-! ## The calls of the mock -/

/-- What is put into the queue; the channel is made for it. -/
structure ExecuteCall where
  method : String
  params : Bytes
  deriving DecidableEq, Repr

/-- The result sent back, unless the virtual machine is gone. -/
abbrev ExecuteCall.Answer (_ : ExecuteCall) : Type := Except String SvmResult

abbrev ExecuteProg := Prog ExecuteCall ExecuteCall.Answer ErrorObject

/-- `format!("{:?}", e)` -/
def debugSvmError : SvmError → String
  | .parseError text => Debug.wrapped "ParseError" text
  | .decodeError text => Debug.wrapped "DecodeError" (Debug.string text)
  | .other text => Debug.wrapped "Other" (Debug.string text)

def execute {T : Types} (bincode : Bincode T) (I O : WireType) (method : String)
    (params : I.Val T) : ExecuteProg (O.Val T) := do
  let params ← .ofExcept ((bincode.serialize I params).mapError internalError)
  let answer ← Prog.query (⟨method, params⟩ : ExecuteCall)
  let result ← .ofExcept (answer.mapError internalError)
  let result ← .ofExcept (result.mapError fun e => internalError (debugSvmError e))
  .ofExcept ((bincode.deserialize O result).mapError internalError)

/-- The calls of `execute`, each named by its method: `send_transaction`, `get_balance`,
`request_airdrop`, `get_signature_statuses`, `get_account` and the listings, `get_accounts`,
and `get_mock_hash_and_slot`. -/
inductive Call where
  | sendTransaction (tx : VersionedTransaction)
  | getBalance (pubkey : Pubkey)
  | requestAirdrop (pubkey : Pubkey) (lamports : UInt64)
  | getTransactions (signatures : List Signature)
  | getAccount (pubkey : Pubkey)
  | getAccounts (pubkeys : List Pubkey)
  | latestBlockhash
  deriving DecidableEq, Repr

namespace Call

def method : Call → String
  | .sendTransaction _ => "sendTransaction"
  | .getBalance _ => "getBalance"
  | .requestAirdrop .. => "requestAirdrop"
  | .getTransactions _ => "getTransactions"
  | .getAccount _ => "getAccount"
  | .getAccounts _ => "getAccounts"
  | .latestBlockhash => "latestBlockhash"

@[reducible] def Param : Call → WireType
  | .sendTransaction _ => .versionedTransaction
  | .getBalance _ => .pubkey
  | .requestAirdrop .. => .pair .pubkey .u64
  | .getTransactions _ => .vec .signature
  | .getAccount _ => .pubkey
  | .getAccounts _ => .vec .pubkey
  | .latestBlockhash => .string

@[reducible] def Result : Call → WireType
  | .sendTransaction _ => .transactionResult
  | .getBalance _ => .option .u64
  | .requestAirdrop .. => .transactionResult
  | .getTransactions _ => .vec (.option .transactionResult)
  | .getAccount _ => .option .account
  | .getAccounts _ => .vec (.pair .pubkey (.option .account))
  | .latestBlockhash => .hash

variable {T : Types} {σ : Type}

def params : (call : Call) → call.Param.Val T
  | .sendTransaction tx => tx
  | .getBalance pubkey => pubkey
  | .requestAirdrop pubkey lamports => (pubkey, lamports)
  | .getTransactions signatures => signatures
  | .getAccount pubkey => pubkey
  | .getAccounts pubkeys => pubkeys
  | .latestBlockhash => ""

def execute (bincode : Bincode T) (call : Call) : ExecuteProg (call.Result.Val T) :=
  MockSolana.execute bincode call.Param call.Result call.method call.params

/-- What the operation returns that the virtual machine carries out for the call. -/
def value (svm : Vm T σ) (s : σ) : (call : Call) → call.Result.Val T
  | .sendTransaction tx => (svm.sendTransaction s tx).1
  | .getBalance pubkey => svm.getBalance s pubkey
  | .requestAirdrop pubkey lamports => (svm.airdrop s pubkey lamports).1
  | .getTransactions signatures => signatures.map (svm.getTransaction s)
  | .getAccount pubkey => svm.getAccount s pubkey
  | .getAccounts pubkeys => pubkeys.map fun pubkey => (pubkey, svm.getAccount s pubkey)
  | .latestBlockhash => svm.latestBlockhash s

variable {bincode : Bincode T} {svm : Vm T σ}

/-- The types of the two ends agree: a method that is sent the parameters of a call encodes
the value of the call, as what the call decodes. -/
theorem handle_eq {call : Call} {r : SvmRequest} (hmethod : r.method = call.method)
    (hparams : bincode.deserialize call.Param r.params = .ok call.params) (s : σ) :
    (handle bincode svm r s).1 =
      (bincode.serialize call.Result (call.value svm s)).mapError .parseError := by
  cases call with
  | latestBlockhash =>
    simp only [handle, hmethod, method]
    rfl
  | _ =>
    simp only [handle, hmethod, method]
    exact congrArg Prod.fst (serve_of_ok hparams)

/-- The request is the one the call puts into the queue. -/
def Puts (bincode : Bincode T) (call : Call) (r : SvmRequest) : Prop :=
  ∃ k, call.execute bincode = .ask ⟨r.method, r.params⟩ k

theorem puts_iff {call : Call} {r : SvmRequest} :
    call.Puts bincode r ↔
      r.method = call.method ∧ bincode.serialize call.Param call.params = .ok r.params := by
  unfold Puts execute MockSolana.execute
  cases bincode.serialize call.Param call.params with
  | error e =>
    refine iff_of_false ?_ (by simp)
    rintro ⟨k, hk⟩
    cases hk
  | ok bytes =>
    constructor
    · rintro ⟨k, hk⟩
      obtain ⟨hq, -⟩ := Prog.ask.inj hk
      obtain ⟨hmethod, hbytes⟩ := ExecuteCall.mk.inj hq
      exact ⟨hmethod.symm, congrArg _ hbytes⟩
    · rintro ⟨hmethod, hbytes⟩
      rw [hmethod, ← Except.ok.inj hbytes]
      exact ⟨_, rfl⟩

/-- A call decodes the value that its result carries. -/
theorem run_execute {call : Call} {r : SvmRequest} {result : Bytes} {v : call.Result.Val T}
    (hputs : call.Puts bincode r) (hresult : bincode.deserialize call.Result result = .ok v) :
    (call.execute bincode).run (fun _ => .ok (.ok result)) = .ok v := by
  simp only [execute, MockSolana.execute, Prog.run_bind, Prog.run_ofExcept, Prog.run_query,
    (puts_iff.mp hputs).2, hresult, Except.mapError, Outcome.ofExcept_ok, Outcome.ok_bind]

end Call

/-! ## Requests one after another -/

section Runs

variable {T : Types} {σ : Type} {bincode : Bincode T} {svm : Vm T σ}

/-- The state of the virtual machine after some requests: only those count that stand for an
operation. -/
def stateAfter (bincode : Bincode T) (svm : Vm T σ) (s : σ) (rs : List SvmRequest) : σ :=
  (rs.filterMap (operation bincode)).foldl svm.perform s

theorem stateAfter_run (s : σ) (rs : List SvmRequest) :
    (LiteSVM.run bincode svm).stateAfter s rs = stateAfter bincode svm s rs :=
  Server.stateAfter_eq_foldl _ (fun r s => handle_state r s) s rs

theorem answered_getElem? {s : σ} {ts : List (Step (Server.State σ SvmRequest SvmResult) (Server.Event SvmRequest))}
    {t : Server.State σ SvmRequest SvmResult}
    (h : Run (Server.step (LiteSVM.run bincode svm)) (.init s) ts t) {i : Nat} {r : SvmRequest}
    (hr : ((LiteSVM.run bincode svm).received ts)[i]? = some r) :
    t.answered[i]? = some (r, (handle bincode svm r
      (stateAfter bincode svm s (((LiteSVM.run bincode svm).received ts).take i))).1) := by
  rw [(Server.answered_of_run h).1, Server.answers_getElem?, hr, stateAfter_run]
  rfl

/-- In every run of the loop: each request received has been answered, in order, from the state
that the airdrops and transactions before it lead to, and what has been received is what was
sent ahead of `terminateSvm`; no other request changes the state; what is not known or does not
decode is refused; and a call of the mock gets the value of its operation at that state, if
`bincode` carries its parameters and that value. -/
theorem answered_in_order {s : σ} {ts : List (Step (Server.State σ SvmRequest SvmResult) (Server.Event SvmRequest))}
    {t : Server.State σ SvmRequest SvmResult}
    (h : Run (Server.step (LiteSVM.run bincode svm)) (.init s) ts t) :
    let rs := (LiteSVM.run bincode svm).received ts
    let before := fun i => stateAfter bincode svm s (rs.take i)
    let sent := (LiteSVM.run bincode svm).requests.sent ts
    (t.answered.map Prod.fst = rs ∧
      (∀ i r, rs[i]? = some r →
        t.answered[i]? = some (r, (handle bincode svm r (before i)).1)) ∧
      (t.running = true → sent = rs ++ t.queue) ∧
      (t.running = false → ∃ r rest, r.method = "terminateSvm" ∧ sent = rs ++ r :: rest)) ∧
    (∀ r s, r.method ≠ "requestAirdrop" → r.method ≠ "sendTransaction" →
      (handle bincode svm r s).2 = s) ∧
    (∀ r s, r.method ∉ methods.map Prod.fst →
      handle bincode svm r s = (.error (.other ("Unknown method: " ++ r.method)), s)) ∧
    (∀ r P e s, (r.method, some P) ∈ methods → bincode.deserialize P r.params = .error e →
      handle bincode svm r s = (.error (.parseError e), s)) ∧
    (∀ i r, ∀ call : Call, rs[i]? = some r → call.Puts bincode r →
      bincode.Carries (t := call.Param) call.params →
      bincode.Carries (t := call.Result) (call.value svm (before i)) →
      ∃ result, t.answered[i]? = some (r, .ok result) ∧
        (call.execute bincode).run (fun _ => .ok (.ok result)) = .ok (call.value svm (before i))) := by
  intro rs before sent
  refine ⟨⟨?_, fun i r hr => answered_getElem? h hr, Server.sent_eq h, fun hstopped => ?_⟩, ?_, ?_, ?_, ?_⟩
  · rw [(Server.answered_of_run h).1, Server.map_fst_answers]
  · obtain ⟨r, rest, hstops, hsent⟩ := Server.sent_eq_of_stopped h hstopped
    exact ⟨r, rest, beq_iff_eq.mp hstops, hsent⟩
  · intro r s hairdrop hsend
    rw [handle_state, operation_eq_none hairdrop hsend]
    rfl
  · exact fun r s hunknown => handle_unknown hunknown s
  · exact fun r P e s hmethod hparams => handle_undecodable hmethod hparams s
  · intro i r call hr hputs hparams hvalue
    obtain ⟨hmethod, hbytes⟩ := Call.puts_iff.mp hputs
    obtain ⟨bytes, hser, hde⟩ := hparams
    obtain rfl : r.params = bytes := Except.ok.inj (hbytes.symm.trans hser)
    obtain ⟨result, hser', hde'⟩ := hvalue
    refine ⟨result, ?_, Call.run_execute hputs hde'⟩
    rw [answered_getElem? h hr, Call.handle_eq hmethod hde, hser']
    rfl

end Runs

/-! ### A run -/

def types : Types := ⟨Except String Signature, Except String Unit⟩

/-- `bincode` for the types of balances: integers are little-endian, an option starts with a
byte that says whether there is a value. -/
def balanceBincode : Bincode types where
  serialize
    | .pubkey, pubkey => .ok pubkey.bytes
    | .option .u64, none => .ok [0]
    | .option .u64, some n => .ok (1 :: (List.range 8).map fun i => (n >>> (8 * i).toUInt64).toUInt8)
    | _, _ => .error "unsupported"
  deserialize
    | .pubkey, bytes =>
      if h : bytes.length = pubkeyBytes then .ok ⟨bytes, h⟩ else .error "unexpected end of file"
    | .option .u64, [0] => .ok none
    | .option .u64, 1 :: bytes => .ok (some (bytes.foldr (fun b n => n <<< 8 ||| b.toUInt64) 0))
    | _, _ => .error "unexpected end of file"

/-- A virtual machine that knows balances only. -/
def balances : Vm types (List (Pubkey × UInt64)) where
  getAccount s pubkey := (s.lookup pubkey).map fun lamports => ⟨lamports, [], .ofByte 0, false, 0⟩
  airdrop s pubkey lamports :=
    (.ok .zero, (pubkey, (s.lookup pubkey).getD 0 + lamports) :: s)
  getBalance s pubkey := s.lookup pubkey
  sendTransaction s _ := (.error "SignatureFailure", s)
  getTransaction _ _ := none
  latestBlockhash _ := .zero
  simulateTransaction _ _ := .error "SignatureFailure"

def balanceRequest : SvmRequest := ⟨"getBalance", (Pubkey.ofByte 7).bytes, some 2⟩

/-- Key 7 has five lamports. -/
def fiveLamports : Server.State (List (Pubkey × UInt64)) SvmRequest SvmResult :=
  .init [(.ofByte 7, 5)]

/-- A method nobody knows, an airdrop without parameters, and a balance. -/
def threeRequests : List (Server.Event SvmRequest) :=
  [.send ⟨"getSlot", [], some 0⟩, .send ⟨"requestAirdrop", [], some 1⟩, .send balanceRequest,
    .poll, .poll, .poll]

theorem balance_after_refusals :
    let ts := trace (Server.step (LiteSVM.run balanceBincode balances)) fiveLamports threeRequests
    ∃ result, (after fiveLamports ts).answered[2]? = some (balanceRequest, .ok result) ∧
      ((Call.getBalance (.ofByte 7)).execute balanceBincode).run (fun _ => .ok (.ok result)) =
        .ok (some 5) := by
  intro ts
  have hrun : Run (Server.step (LiteSVM.run balanceBincode balances)) fiveLamports ts
    (after fiveLamports ts) := .of_trace fiveLamports threeRequests
  have hall := answered_in_order hrun
  exact hall.2.2.2.2 2 balanceRequest (.getBalance (.ofByte 7)) rfl ⟨_, rfl⟩ ⟨_, rfl, by decide⟩
    ⟨_, rfl, by decide⟩

end MockSolana
