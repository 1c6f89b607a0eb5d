-- SUMMARY: The calls of the node at the level of JSON, and that programs which make them cannot tell it from the level of values.
import NoirSidecar.Base.Lowering
import NoirSidecar.Client.Storage

/-!
# Calls on the wire

A runtime call is packed three times: its parameters by `bincode`, these with the name of the
method by SCALE, and the bytes of that as hex into the parameters of a JSON request. The
response is unpacked in the opposite order, and each layer has an error of its own.

The libraries are parameters; of a JSON value only what is read off it counts.
-/

namespace Client.Wire

/-! ## Requests -/

/-- A value that is inserted into `ArrayParams`. -/
inductive Param where
  | null
  | number (n : Nat)
  | string (text : String)
  deriving DecidableEq, Repr

def Param.ofHash (hash : Hash) : Param := .string ("0x" ++ Hex.encode hash.bytes)

structure Asked where
  method : String
  params : List Param
  deriving DecidableEq, Repr

/-- What the loop sends back for a request. -/
abbrev Asked.Answer (V : Type) (_ : Asked) : Type := Response V

abbrev TextProg (V : Type) := Prog Asked (Asked.Answer V) Error

/-- `serde_json`, SCALE and `bincode`, for the types that are written and read. Of an error
there is its debug text. -/
structure Codec (V : Type) where
  string : V → Except String String
  optionString : V → Except String (Option String)
  hash : V → Except String Hash
  header : V → Except String UInt32
  encode : String × Bytes → Bytes
  decode : Bytes → Except String (Except String Bytes)
  serialize : RuntimeCall → Except String Bytes
  deserialize : (call : RuntimeCall) → Bytes → Except String call.Value

variable {V : Type}

/-- The value of a response. -/
def readResponse {R : Type} (read : V → Except String R) (response : Response V) : Except Error R := do
  let value ← response
  (read value).mapError .parseError

/-- `Client::request`, whose two errors of a lost channel are responses here. -/
def request {R : Type} (read : V → Except String R) (method : String) (params : List Param) :
    TextProg V R :=
  .ask ⟨method, params⟩ fun response => .ofExcept (readResponse read response)

variable (codec : Codec V)

/-- What a text unpacks to. -/
def Codec.unpack (text : String) : Except Error (Except String Bytes) := do
  let bytes ← (Hex.decode (stripHexPrefix text)).mapError fun e => Error.parseError e.debug
  (codec.decode bytes).mapError .parseError

def stateCall (method : String) (data : String × Bytes) (hash : Option Hash) :
    TextProg V (Except String Bytes) := do
  let args := "0x" ++ Hex.encode (codec.encode data)
  let res ← request codec.string "state_call" [.string method, .string args, hash.elim .null .ofHash]
  .ofExcept (codec.unpack res)

end Client.Wire

/-- The method a call is made with. -/
def NodeCall.method : NodeCall → String
  | .runtime .. => "state_call"
  | .stateGetStorage .. => "state_getStorage"
  | .chainGetBlockHash => "chain_getBlockHash"
  | .chainGetGenesisHash => "chain_getBlockHash"
  | .chainGetFinalizedHead => "chain_getFinalizedHead"
  | .chainGetHeader _ => "chain_getHeader"
  | .authorSubmitExtrinsic _ => "author_submitExtrinsic"

def RuntimeCall.method : RuntimeCall → String
  | .getAccountInfo _ => "getAccountInfo"
  | .getMultipleAccounts _ => "getMultipleAccounts"
  | .getProgramAccounts .. => "getProgramAccounts"
  | .getBalance _ => "getBalance"
  | .getFeeForMessage _ => "getFeeForMessage"
  | .convertTransaction _ => "convertTransaction"
  | .simulateTransaction .. => "simulateTransaction"

namespace Client.Wire

variable {V : Type} (codec : Codec V)

/-- The value in the bytes a call returns; those of a converted transaction are not looked at. -/
def Codec.read : (call : RuntimeCall) → Bytes → Except String call.Value
  | .convertTransaction _, bytes => .ok bytes
  | .getAccountInfo pubkey, bytes => codec.deserialize (.getAccountInfo pubkey) bytes
  | .getMultipleAccounts pubkeys, bytes => codec.deserialize (.getMultipleAccounts pubkeys) bytes
  | .getProgramAccounts programId indexedKeys filters, bytes =>
    codec.deserialize (.getProgramAccounts programId indexedKeys filters) bytes
  | .getBalance pubkey, bytes => codec.deserialize (.getBalance pubkey) bytes
  | .getFeeForMessage message, bytes => codec.deserialize (.getFeeForMessage message) bytes
  | .simulateTransaction unsanitizedTx sigVerify enableCpiRecording, bytes =>
    codec.deserialize (.simulateTransaction unsanitizedTx sigVerify enableCpiRecording) bytes

/-- What the result of a runtime call reads as. -/
def Codec.result (call : RuntimeCall) : Except String Bytes → StateCall call.Value
  | .error text => .rejected text
  | .ok bytes =>
    match codec.read call bytes with
    | .error text => .undecodable text
    | .ok value => .value value

/-- The result of a runtime call. -/
def fetch (call : RuntimeCall) (hash : Option Hash) : TextProg V (Except String Bytes) := do
  let params ← .ofExcept ((codec.serialize call).mapError .parseError)
  stateCall codec "SolanaRuntimeApi_call" (call.method, params) hash

/-- The readers of runtime calls. -/
def callRuntime (call : RuntimeCall) (hash : Option Hash) : TextProg V call.Value := do
  let response ← fetch codec call hash
  .ofExcept (codec.result call response).toExcept

/-! ## Down to JSON -/

variable {ε : Type}

/-- How the answer to a call is found. -/
def Codec.lower : (call : NodeCall) → Prog Asked (Asked.Answer V) ε call.Answer
  | .runtime call hash => do
    let response ← (fetch codec call hash).attempt
    return match response with
      | .error e => .failed e
      | .ok response => codec.result call response
  | .stateGetStorage key hash =>
    (request codec.optionString "state_getStorage" [.string key, .ofHash hash]).attempt
  | .chainGetBlockHash => (request codec.hash "chain_getBlockHash" []).attempt
  | .chainGetGenesisHash => (request codec.hash "chain_getBlockHash" [.number 0]).attempt
  | .chainGetFinalizedHead => (request codec.hash "chain_getFinalizedHead" []).attempt
  | .chainGetHeader hash => (request codec.header "chain_getHeader" [.ofHash hash]).attempt
  | .authorSubmitExtrinsic transaction =>
    (request codec.hash "author_submitExtrinsic" [.string transaction]).attempt

/-- The request for a call, unless its parameters do not serialize. -/
def Codec.asked : NodeCall → Except String Asked
  | .runtime call hash => (codec.serialize call).map fun params =>
    ⟨"state_call", [.string "SolanaRuntimeApi_call",
      .string ("0x" ++ Hex.encode (codec.encode (call.method, params))), hash.elim .null .ofHash]⟩
  | .stateGetStorage key hash => .ok ⟨"state_getStorage", [.string key, .ofHash hash]⟩
  | .chainGetBlockHash => .ok ⟨"chain_getBlockHash", []⟩
  | .chainGetGenesisHash => .ok ⟨"chain_getBlockHash", [.number 0]⟩
  | .chainGetFinalizedHead => .ok ⟨"chain_getFinalizedHead", []⟩
  | .chainGetHeader hash => .ok ⟨"chain_getHeader", [.ofHash hash]⟩
  | .authorSubmitExtrinsic transaction => .ok ⟨"author_submitExtrinsic", [.string transaction]⟩

/-- What the response to a call reads as. -/
def Codec.parse : (call : NodeCall) → Response V → call.Answer
  | .runtime call _, response =>
    match readResponse codec.string response >>= codec.unpack with
    | .error e => .failed e
    | .ok response => codec.result call response
  | .stateGetStorage .., response => readResponse codec.optionString response
  | .chainGetBlockHash, response => readResponse codec.hash response
  | .chainGetGenesisHash, response => readResponse codec.hash response
  | .chainGetFinalizedHead, response => readResponse codec.hash response
  | .chainGetHeader _, response => readResponse codec.header response
  | .authorSubmitExtrinsic _, response => readResponse codec.hash response

variable {σ α : Type}

/-- The calls as they are answered by who answers the requests. -/
def Codec.node (handler : Asked → σ → Response V × σ) (call : NodeCall) (s : σ) : call.Answer × σ :=
  match codec.asked call with
  | .error text => (codec.parse call (.error (.parseError text)), s)
  | .ok asked => (codec.parse call (handler asked s).1, (handler asked s).2)

variable {codec} {handler : Asked → σ → Response V × σ}

theorem exec_request {R : Type} (read : V → Except String R) (method : String)
    (params : List Param) (s : σ) :
    (request read method params).exec handler s =
      (.ofExcept (readResponse read (handler ⟨method, params⟩ s).1), (handler ⟨method, params⟩ s).2) :=
  Prog.exec_ofExcept _ _

variable (codec handler) in
theorem exec_fetch (call : RuntimeCall) (hash : Option Hash) (s : σ) :
    (fetch codec call hash).exec handler s =
      match codec.asked (.runtime call hash) with
      | .error text => (.error (.parseError text), s)
      | .ok asked => (.ofExcept (readResponse codec.string (handler asked s).1 >>= codec.unpack),
          (handler asked s).2) := by
  cases hserialize : codec.serialize call with
  | error text => simp only [fetch, Codec.asked, hserialize, Except.map, Except.mapError]; rfl
  | ok params =>
    simp only [fetch, stateCall, Codec.asked, hserialize, Except.map, Except.mapError]
    rw [Prog.exec_bind_of_eq (Prog.exec_ofExcept _ _), Prog.exec_bind, exec_request]
    cases readResponse codec.string (handler _ s).1 with
    | error e => rfl
    | ok text => exact Prog.exec_ofExcept _ _

theorem exec_lower (call : NodeCall) (s : σ) :
    (codec.lower call : Prog _ _ ε _).exec handler s =
      (.ok (codec.node handler call s).1, (codec.node handler call s).2) := by
  cases call with
  | runtime call hash =>
    have hfetch := exec_fetch codec handler call hash s
    unfold Codec.lower Codec.node
    cases hasked : codec.asked (.runtime call hash) with
    | error text =>
      rw [hasked] at hfetch
      rw [Prog.exec_bind_of_eq (Prog.exec_attempt (r := .error (.parseError text)) hfetch)]
      rfl
    | ok asked =>
      rw [hasked] at hfetch
      rw [Prog.exec_bind_of_eq (Prog.exec_attempt hfetch)]
      cases h : readResponse codec.string (handler asked s).1 >>= codec.unpack with
      | error e => simp only [Codec.parse, h, Prog.exec_pure]
      | ok response => simp only [Codec.parse, h, Prog.exec_pure]
  | stateGetStorage key hash => exact Prog.exec_attempt (exec_request _ _ _ _)
  | chainGetBlockHash => exact Prog.exec_attempt (exec_request _ _ _ _)
  | chainGetGenesisHash => exact Prog.exec_attempt (exec_request _ _ _ _)
  | chainGetFinalizedHead => exact Prog.exec_attempt (exec_request _ _ _ _)
  | chainGetHeader hash => exact Prog.exec_attempt (exec_request _ _ _ _)
  | authorSubmitExtrinsic transaction => exact Prog.exec_attempt (exec_request _ _ _ _)

/-- A reader of a runtime call does at the level of JSON what it does at the level of values. -/
theorem exec_callRuntime (call : RuntimeCall) (hash : Option Hash) (s : σ) :
    (callRuntime codec call hash).exec handler s =
      (runtimeCall call hash).exec (codec.node handler) s := by
  have hfetch := exec_fetch codec handler call hash s
  have hread : (runtimeCall call hash).exec (codec.node handler) s =
      (.ofExcept (codec.node handler (.runtime call hash) s).1.toExcept,
        (codec.node handler (.runtime call hash) s).2) := Prog.exec_ofExcept _ _
  rw [hread]
  unfold callRuntime Codec.node
  cases hasked : codec.asked (.runtime call hash) with
  | error text =>
    rw [hasked] at hfetch
    rw [Prog.exec_bind, hfetch]
    rfl
  | ok asked =>
    rw [hasked] at hfetch
    rw [Prog.exec_bind, hfetch]
    cases h : readResponse codec.string (handler asked s).1 >>= codec.unpack with
    | error e => simp only [Codec.parse, h]; rfl
    | ok response => simp only [Codec.parse, h]; exact Prog.exec_ofExcept _ _

/-! ## Responses -/

variable (codec) in
/-- What a response to a runtime call says, layer by layer. -/
inductive Says (call : RuntimeCall) : Response V → StateCall call.Value → Prop where
  | failed (e : Error) : Says call (.error e) (.failed e)
  | noText {value : V} {e : String} (hvalue : codec.string value = .error e) :
      Says call (.ok value) (.failed (.parseError e))
  | noHex {value : V} {text : String} {e : Hex.FromHexError} (hvalue : codec.string value = .ok text)
      (htext : Hex.decode (stripHexPrefix text) = .error e) :
      Says call (.ok value) (.failed (.parseError e.debug))
  | noResult {value : V} {text : String} {bytes : Bytes} {e : String}
      (hvalue : codec.string value = .ok text) (htext : HexOf text bytes)
      (hbytes : codec.decode bytes = .error e) : Says call (.ok value) (.failed (.parseError e))
  | rejected {value : V} {text : String} {bytes : Bytes} {e : String}
      (hvalue : codec.string value = .ok text) (htext : HexOf text bytes)
      (hbytes : codec.decode bytes = .ok (.error e)) : Says call (.ok value) (.rejected e)
  | undecodable {value : V} {text : String} {bytes returned : Bytes} {e : String}
      (hvalue : codec.string value = .ok text) (htext : HexOf text bytes)
      (hbytes : codec.decode bytes = .ok (.ok returned))
      (hreturned : codec.read call returned = .error e) : Says call (.ok value) (.undecodable e)
  | value {value : V} {text : String} {bytes returned : Bytes} {v : call.Value}
      (hvalue : codec.string value = .ok text) (htext : HexOf text bytes)
      (hbytes : codec.decode bytes = .ok (.ok returned))
      (hreturned : codec.read call returned = .ok v) : Says call (.ok value) (.value v)

theorem unpack_of_hexOf {text : String} {bytes : Bytes} (h : HexOf text bytes) :
    codec.unpack text = (codec.decode bytes).mapError .parseError := by
  rw [Codec.unpack, decode_stripHexPrefix_iff.mpr h]
  rfl

theorem parse_runtime {call : RuntimeCall} (hash : Option Hash) {value : V} {text : String}
    (h : codec.string value = .ok text) :
    codec.parse (.runtime call hash) (.ok value) =
      match codec.unpack text with
      | .error e => .failed e
      | .ok response => codec.result call response := by
  have hread : readResponse codec.string (.ok value) = .ok text := by
    rw [readResponse]
    exact congrArg (Except.mapError Error.parseError) h
  simp only [Codec.parse, hread]
  rfl

theorem parse_of_said {call : RuntimeCall} (hash : Option Hash) {response : Response V}
    {a : StateCall call.Value} (h : Says codec call response a) :
    codec.parse (.runtime call hash) response = a := by
  cases h with
  | failed e => rfl
  | noText hvalue =>
    have hread : readResponse codec.string (.ok _) = .error _ :=
      congrArg (Except.mapError Error.parseError) hvalue
    simp only [Codec.parse, hread]
    rfl
  | noHex hvalue htext =>
    rw [parse_runtime hash hvalue, Codec.unpack, htext]
    rfl
  | noResult hvalue htext hbytes =>
    rw [parse_runtime hash hvalue, unpack_of_hexOf htext, hbytes]
    rfl
  | rejected hvalue htext hbytes =>
    rw [parse_runtime hash hvalue, unpack_of_hexOf htext, hbytes]
    rfl
  | undecodable hvalue htext hbytes hreturned =>
    rw [parse_runtime hash hvalue, unpack_of_hexOf htext, hbytes]
    exact congrArg (fun r => match r with
      | .error text => StateCall.undecodable text
      | .ok value => .value value) hreturned
  | value hvalue htext hbytes hreturned =>
    rw [parse_runtime hash hvalue, unpack_of_hexOf htext, hbytes]
    exact congrArg (fun r => match r with
      | .error text => StateCall.undecodable text
      | .ok value => .value value) hreturned

variable (codec) in
/-- Every response says something. -/
theorem exists_said (call : RuntimeCall) (response : Response V) : ∃ a, Says codec call response a := by
  cases response with
  | error e => exact ⟨_, .failed e⟩
  | ok value =>
    cases hvalue : codec.string value with
    | error e => exact ⟨_, .noText hvalue⟩
    | ok text =>
      cases htext : Hex.decode (stripHexPrefix text) with
      | error e => exact ⟨_, .noHex hvalue htext⟩
      | ok bytes =>
        have hhex : HexOf text bytes := decode_stripHexPrefix_iff.mp htext
        cases hbytes : codec.decode bytes with
        | error e => exact ⟨_, .noResult hvalue hhex hbytes⟩
        | ok result =>
          cases result with
          | error e => exact ⟨_, .rejected hvalue hhex hbytes⟩
          | ok returned =>
            cases hreturned : codec.read call returned with
            | error e => exact ⟨_, .undecodable hvalue hhex hbytes hreturned⟩
            | ok v => exact ⟨_, .value hvalue hhex hbytes hreturned⟩

theorem said_iff {call : RuntimeCall} (hash : Option Hash) {response : Response V}
    {a : StateCall call.Value} :
    Says codec call response a ↔ codec.parse (.runtime call hash) response = a := by
  constructor
  · exact parse_of_said hash
  · rintro rfl
    obtain ⟨a, ha⟩ := exists_said codec call response
    rwa [parse_of_said hash ha]

/-- Whoever answers the requests, and however he changes in between: a program that makes calls
runs at the level of JSON as it does at the level of values. The answer it gets for a runtime
call is what the response says, and every response says exactly one thing. -/
theorem runs_over_json (codec : Codec V) (handler : Asked → σ → Response V × σ) :
    (∀ {ε α : Type} (p : Prog NodeCall NodeCall.Answer ε α) (s : σ),
      (p.through codec.lower).exec handler s = p.exec (codec.node handler) s) ∧
    (∀ call hash (s : σ), (callRuntime codec call hash).exec handler s =
      (runtimeCall call hash).exec (codec.node handler) s) ∧
    ∀ call hash asked (s : σ), codec.asked (.runtime call hash) = .ok asked →
      ∀ a, Says codec call (handler asked s).1 a ↔ a = (codec.node handler (.runtime call hash) s).1 := by
  refine ⟨fun p s => Prog.exec_through_eq exec_lower p s, exec_callRuntime, ?_⟩
  intro call hash asked s hasked a
  rw [said_iff hash, Codec.node, hasked]
  exact eq_comm

/-! ## Requests tell calls apart -/

/-- The libraries can read the parameters of the call back: `readData` the pair that SCALE
writes, `readCall` the parameters of a method. -/
def Codec.Readable (codec : Codec V) (readData : Bytes → Option (String × Bytes))
    (readCall : String × Bytes → Option RuntimeCall) : NodeCall → Prop
  | .runtime call _ => ∃ params, codec.serialize call = .ok params ∧
      readData (codec.encode (call.method, params)) = some (call.method, params) ∧
      readCall (call.method, params) = some call
  | _ => True

theorem hex_inj {bytes bytes' : Bytes} (h : "0x" ++ Hex.encode bytes = "0x" ++ Hex.encode bytes') :
    bytes = bytes' := by
  have hdigits : Hex.encode bytes = Hex.encode bytes' := by
    rw [← stripHexPrefix_append (Hex.encode bytes), h, stripHexPrefix_append]
  have hdecode := Hex.decode_eq_ok_iff.mpr (Hex.spells_encode bytes)
  rw [hdigits, Hex.decode_eq_ok_iff.mpr (Hex.spells_encode bytes')] at hdecode
  exact (Except.ok.inj hdecode).symm

theorem ofHash_inj {hash hash' : Hash} (h : Param.ofHash hash = .ofHash hash') : hash = hash' := by
  obtain ⟨bytes, hlen⟩ := hash
  obtain ⟨bytes', hlen'⟩ := hash'
  obtain rfl : bytes = bytes' := hex_inj (Param.string.inj h)
  rfl

theorem optionHash_inj {hash hash' : Option Hash}
    (h : hash.elim Param.null .ofHash = hash'.elim .null .ofHash) : hash = hash' := by
  cases hash with
  | none =>
    cases hash' with
    | none => rfl
    | some hash' => cases h
  | some hash =>
    cases hash' with
    | none => cases h
    | some hash' => exact congrArg some (ofHash_inj h)

theorem method_of_asked {call : NodeCall} {asked : Asked} (h : codec.asked call = .ok asked) :
    asked.method = call.method := by
  cases call with
  | runtime call hash =>
    cases hserialize : codec.serialize call with
    | error e => simp [Codec.asked, hserialize, Except.map] at h
    | ok params =>
      simp only [Codec.asked, hserialize, Except.map] at h
      cases h
      rfl
  | _ =>
    cases h
    rfl

/-- Two calls that are made with the same request are the same, if the libraries can read
their parameters back. -/
theorem call_of_asked {readData : Bytes → Option (String × Bytes)}
    {readCall : String × Bytes → Option RuntimeCall} {call call' : NodeCall} {asked : Asked}
    (h : codec.asked call = .ok asked) (h' : codec.asked call' = .ok asked)
    (hreadable : codec.Readable readData readCall call)
    (hreadable' : codec.Readable readData readCall call') : call = call' := by
  -- the method tells the kind of call, the parameters have the rest
  have hmethod : call.method = call'.method := (method_of_asked h).symm.trans (method_of_asked h')
  cases call with
  | runtime call hash =>
    cases call' with
    | runtime call' hash' =>
      obtain ⟨params, hserialize, hdata, hcall⟩ := hreadable
      obtain ⟨params', hserialize', hdata', hcall'⟩ := hreadable'
      simp only [Codec.asked, hserialize, hserialize', Except.map, Except.ok.injEq] at h h'
      have hparams := congrArg Asked.params (h.trans h'.symm)
      simp only [List.cons.injEq, Param.string.injEq, true_and, and_true] at hparams
      obtain ⟨hargs, hhash⟩ := hparams
      -- the arguments come back from their hex, and the call from its arguments
      rw [hex_inj hargs, hdata', Option.some.injEq] at hdata
      rw [hdata, hcall] at hcall'
      rw [Option.some.inj hcall', optionHash_inj hhash]
    | _ => simp [NodeCall.method] at hmethod
  | stateGetStorage key hash =>
    cases call' with
    | stateGetStorage key' hash' =>
      cases h
      have hparams := congrArg Asked.params (Except.ok.inj h')
      simp only [List.cons.injEq, Param.string.injEq, and_true] at hparams
      rw [hparams.1, ofHash_inj hparams.2]
    | _ => simp [NodeCall.method] at hmethod
  | chainGetBlockHash =>
    cases call' with
    | chainGetBlockHash => rfl
    | chainGetGenesisHash =>
      -- of these two only the parameters differ
      cases h
      cases h'
    | _ => simp [NodeCall.method] at hmethod
  | chainGetGenesisHash =>
    cases call' with
    | chainGetGenesisHash => rfl
    | chainGetBlockHash =>
      cases h
      cases h'
    | _ => simp [NodeCall.method] at hmethod
  | chainGetFinalizedHead =>
    cases call' with
    | chainGetFinalizedHead => rfl
    | _ => simp [NodeCall.method] at hmethod
  | chainGetHeader hash =>
    cases call' with
    | chainGetHeader hash' =>
      cases h
      have hparams := congrArg Asked.params (Except.ok.inj h')
      simp only [List.cons.injEq, and_true] at hparams
      rw [ofHash_inj hparams]
    | _ => simp [NodeCall.method] at hmethod
  | authorSubmitExtrinsic transaction =>
    cases call' with
    | authorSubmitExtrinsic transaction' =>
      cases h
      have hparams := congrArg Asked.params (Except.ok.inj h')
      simp only [List.cons.injEq, Param.string.injEq, and_true] at hparams
      rw [hparams]
    | _ => simp [NodeCall.method] at hmethod

/-- Different calls are made with different requests, if the libraries can read their parameters
back. -/
theorem requests_tell_apart {readData : Bytes → Option (String × Bytes)}
    {readCall : String × Bytes → Option RuntimeCall} {call call' : NodeCall}
    (hreadable : codec.Readable readData readCall call)
    (hreadable' : codec.Readable readData readCall call') (hne : call ≠ call') :
    codec.asked call ≠ codec.asked call' := by
  intro heq
  have hasked : ∃ asked, codec.asked call = .ok asked := by
    cases call with
    | runtime call hash =>
      obtain ⟨params, hserialize, -, -⟩ := hreadable
      exact ⟨_, congrArg (Except.map _) hserialize⟩
    | _ => exact ⟨_, rfl⟩
  obtain ⟨asked, hasked⟩ := hasked
  exact hne (call_of_asked hasked (heq.symm.trans hasked) hreadable hreadable')

/-! ### A balance -/

/-- JSON strings, and what SCALE and `bincode` write for a balance: short lengths are multiplied
by four. -/
def balanceCodec : Codec String where
  string := .ok
  optionString text := .ok (some text)
  hash _ := .error "invalid length 0"
  header _ := .error "missing field"
  encode
    | (method, params) =>
      let name := method.toUTF8.data.toList
      UInt8.ofNat (4 * name.length) :: name ++ UInt8.ofNat (4 * params.length) :: params
  decode
    | 0 :: _ :: returned => .ok (.ok returned)
    | 1 :: _ => .ok (.error "InvalidParams")
    | _ => .error "Error"
  serialize
    | .getBalance pubkey => .ok pubkey.bytes
    | _ => .error "unsupported"
  deserialize
    | .getBalance _, bytes =>
      if bytes.length = 8 then .ok (Bytes.toU64 bytes) else .error "Io(UnexpectedEof)"
    | _, _ => .error "unsupported"

def readBalanceData : Bytes → Option (String × Bytes)
  | [] => none
  | n :: rest =>
    let name := rest.take (n.toNat / 4)
    match rest.drop (n.toNat / 4) with
    | [] => none
    | _ :: params => some (String.ofList (name.map fun b => Char.ofNat b.toNat), params)

def readBalanceCall : String × Bytes → Option RuntimeCall
  | ("getBalance", params) =>
    if h : params.length = pubkeyBytes then some (.getBalance ⟨params, h⟩) else none
  | _ => none

/-- The balance of one key at two blocks. -/
theorem balances_told_apart :
    balanceCodec.asked (.runtime (.getBalance (.ofByte 7)) (some .zero)) ≠
      balanceCodec.asked (.runtime (.getBalance (.ofByte 7)) (some (.ofByte 1))) := by
  have hreadable : ∀ hash, balanceCodec.Readable readBalanceData readBalanceCall
      (.runtime (.getBalance (.ofByte 7)) hash) :=
    fun _ => ⟨_, rfl, by decide +kernel, by decide +kernel⟩
  exact requests_tell_apart (hreadable _) (hreadable _) (by decide)

end Client.Wire
