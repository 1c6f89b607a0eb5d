-- SUMMARY: The time interest-bearing mints are described at: the stored milliseconds, where seconds are meant.
import NoirSidecar.Client.Storage
import NoirSidecar.Rpc.Agreement
import NoirSidecar.Rpc.Indexed

/-!
# The time of interest

The storage holds milliseconds. What is handed on with the configuration of an
interest-bearing mint is to be seconds, and signed; it is the stored number as it is.
-/

namespace Solana

/-- The storage of the block holds this number of milliseconds. -/
def StoresMillis (node : Node) (hash : Hash) (m : UInt64) : Prop :=
  ∃ bytes, Client.Stores (node (.stateGetStorage Client.timestampKey hash)) bytes ∧
    bytes.length = 8 ∧ Bytes.toU64 bytes = m

/-- The seconds in a number of milliseconds, in full, and not negative. -/
def IsSeconds (m : UInt64) (timestamp : Client.UnixTimestamp) : Prop :=
  timestamp.toInt = m.toNat / 1000 ∧ 0 ≤ timestamp.toInt

/-- The time that goes with the interest of a mint, if it bears any, is right. -/
def SplTokenAdditionalData.AtTime (m : UInt64) (data : SplTokenAdditionalData) : Prop :=
  ∀ config timestamp, data.interestBearingConfig = some (config, timestamp) → IsSeconds m timestamp

/-- The same of the data handed to the encoder. -/
def HandedAtTime (m : UInt64) (additionalData : Option AccountAdditionalDataV2) : Prop :=
  ∀ data, additionalData = some ⟨some data⟩ → data.AtTime m

/-- The account is a mint that bears interest. -/
def InterestBearing (lib : Decoder) (mintAccount : Option Account) : Prop :=
  ∃ account mint config, mintAccount = some account ∧ lib.unpackMint account.data = .ok mint ∧
    mint.interestBearingConfig = some config

/-- The stored number is the seconds it stands for only if it is zero. -/
theorem isSeconds_iff (m : UInt64) : IsSeconds m m.toInt64 ↔ m = 0 := by
  have hint : m.toInt64.toInt =
      if 2 * m.toNat < 2 ^ 64 then (m.toNat : Int) else (m.toNat : Int) - (2 ^ 64 : Nat) :=
    BitVec.toInt_eq_toNat_cond m.toBitVec
  have hlt : m.toNat < 2 ^ 64 := m.toNat_lt
  rw [IsSeconds, hint, ← UInt64.toNat_inj, UInt64.toNat_zero]
  split <;> omega

variable {lib : Decoder} {orders : IterOrders} {node : Node} {chain : Pubkey → Option Account}
  {hash : Hash} {m : UInt64}

/-- The timestamp is read as it is stored. -/
theorem timestampOf_of_storesMillis (h : StoresMillis node hash m) :
    timestampOf node hash = .ok m.toInt64 := by
  obtain ⟨bytes, hstores, hlen, rfl⟩ := h
  have hreads : Client.ReadsTimestamp node hash := by
    rw [Client.readsTimestamp_iff]
    rintro ⟨bytes', hstores', hlen'⟩
    rw [hstores'.unique hstores] at hlen'
    exact hlen' hlen
  rw [timestampOf, (hreads.ok_iff _).mpr ⟨bytes, hstores, hlen, rfl⟩]
  rfl

/-! ## The data of one mint -/

/-- The data of a mint that does not unpack, or bears no interest, has no time in it. Any
other has the right time only if the stored number is zero. -/
theorem atTime_getAdditionalMintData_iff (account : Account) :
    (∀ data, getAdditionalMintData lib account.data m.toInt64 = .ok data → data.AtTime m) ↔
      m = 0 ∨ ¬ InterestBearing lib (some account) := by
  unfold getAdditionalMintData
  cases hmint : lib.unpackMint account.data with
  | error e =>
    refine iff_of_true nofun (.inr ?_)
    rintro ⟨_, mint, config, heq, hok, -⟩
    cases heq
    rw [hmint] at hok
    cases hok
  | ok mint =>
    cases hconfig : mint.interestBearingConfig with
    | none =>
      refine iff_of_true ?_ (.inr ?_)
      · rintro data heq config timestamp hsome
        cases heq
        rw [hconfig] at hsome
        cases hsome
      · rintro ⟨_, mint', config, heq, hok, hsome⟩
        cases heq
        rw [hmint] at hok
        cases hok
        rw [hconfig] at hsome
        cases hsome
    | some config =>
      have hbears : InterestBearing lib (some account) := ⟨account, mint, config, rfl, hmint, hconfig⟩
      rw [or_iff_left (not_not.mpr hbears), ← isSeconds_iff]
      constructor
      · exact fun hall => hall _ rfl config _ (by rw [hconfig]; rfl)
      · rintro hseconds data heq config' timestamp hsome
        cases heq
        rw [hconfig] at hsome
        cases hsome
        exact hseconds

theorem not_interestBearing_none : ¬ InterestBearing lib none := by
  rintro ⟨account, mint, config, heq, -⟩
  cases heq

/-- The same of the data found for the mint account, if there is one. -/
theorem handedAtTime_iff (mintAccount : Option Account) :
    HandedAtTime m (mintAccount.bind fun account =>
        (getAdditionalMintData lib account.data m.toInt64).toOption.map fun data => ⟨some data⟩) ↔
      m = 0 ∨ ¬ InterestBearing lib mintAccount := by
  cases mintAccount with
  | none => exact iff_of_true nofun (.inr not_interestBearing_none)
  | some account =>
    rw [← atTime_getAdditionalMintData_iff, HandedAtTime, Option.bind_some]
    cases getAdditionalMintData lib account.data m.toInt64 with
    | error e => exact iff_of_true nofun nofun
    | ok data => simp [Except.toOption]

/-! ## The three paths -/

/-- `getMintOwnerAndAdditionalData` gives a mint the right time. -/
def MintAtTime (lib : Decoder) (node : Node) (chain : Pubkey → Option Account) (hash : Hash)
    (m : UInt64) (mint : Pubkey) : Prop :=
  ∀ owner data, (getMintOwnerAndAdditionalData lib mint hash).run (node.serving chain) =
    .ok (owner, data) → data.AtTime m

/-- `getParsedTokenAccount` hands the encoder, whichever it is, the right time. -/
def AccountAtTime (lib : Decoder) (node : Node) (chain : Pubkey → Option Account) (hash : Hash)
    (m : UInt64) (pubkey : Pubkey) (account : Account) : Prop :=
  ∀ additionalData,
    (∀ encode, (getParsedTokenAccount (lib.encodingWith encode) pubkey account hash).run
      (node.serving chain) = .ok (encode pubkey account .jsonParsed additionalData none)) →
    HandedAtTime m additionalData

/-- `getParsedTokenAccounts` hands the encoder, whichever it is, the right time for every
account it returns. -/
def AccountsAtTime (lib : Decoder) (orders : IterOrders) (node : Node)
    (chain : Pubkey → Option Account) (hash : Hash) (m : UInt64)
    (keyedAccounts : List (Pubkey × Account))
    (overwriteAccounts : Option (HashMap Pubkey Account)) : Prop :=
  ∀ pubkey account additionalData,
    (∀ encode, ∃ parsed,
      (getParsedTokenAccounts (lib.encodingWith encode) orders keyedAccounts hash
        overwriteAccounts).run (node.serving chain) = .ok parsed ∧
      parsed.lookup pubkey = some (encode pubkey account .jsonParsed additionalData none)) →
    HandedAtTime m additionalData

theorem mintAtTime_iff (h : StoresMillis node hash m) (mint : Pubkey) :
    MintAtTime lib node chain hash m mint ↔
      m = 0 ∨ mint = SplToken.nativeMint ∨ ¬ InterestBearing lib (chain mint) := by
  have htime : (callNode (Client.getTimestamp hash)).run (node.serving chain) = .ok m.toInt64 := by
    rw [run_callNode, Client.getTimestamp_serving]
    exact timestampOf_of_storesMillis h
  unfold MintAtTime getMintOwnerAndAdditionalData
  by_cases hnative : mint = SplToken.nativeMint
  · refine iff_of_true ?_ (.inr (.inl hnative))
    rintro owner data hrun config timestamp hsome
    rw [if_pos hnative] at hrun
    cases hrun
    cases hsome
  · rw [or_iff_right hnative, if_neg hnative]
    simp only [Prog.run_bind, run_callNode, Client.getAccount_serving, Outcome.mapError_ok,
      Outcome.ok_bind]
    rw [run_callNode] at htime
    cases hchain : chain mint with
    | none => exact iff_of_true nofun (.inr not_interestBearing_none)
    | some account =>
      rw [← atTime_getAdditionalMintData_iff]
      simp only [Prog.run_bind, run_callNode, htime, Outcome.ok_bind, Prog.run_ofExcept,
        Prog.run_pure]
      cases getAdditionalMintData lib account.data m.toInt64 with
      | error e => exact iff_of_true nofun nofun
      | ok data => simp

theorem accountAtTime_iff (h : StoresMillis node hash m) (pubkey : Pubkey) (account : Account) :
    AccountAtTime lib node chain hash m pubkey account ↔
      m = 0 ∨ ¬ InterestBearing lib (mintAccountOf lib chain account) := by
  unfold AccountAtTime
  cases hmint : mintAccountOf lib chain account with
  | none =>
    -- without the mint account there is no additional data
    have hrun : ∀ encode, (getParsedTokenAccount (lib.encodingWith encode) pubkey account hash).run
        (node.serving chain) = .ok (encode pubkey account .jsonParsed none none) := by
      intro encode
      have hmint' : mintAccountOf (lib.encodingWith encode) chain account = none := hmint
      rw [run_getParsedTokenAccount, hmint']
      rfl
    simp only [hrun]
    refine iff_of_true (fun additionalData hall => ?_) (.inr not_interestBearing_none)
    rw [← (args_eq_of_encode fun encode => Outcome.ok.inj (hall encode)).1]
    exact nofun
  | some mintAccount =>
    have hrun : ∀ encode, (getParsedTokenAccount (lib.encodingWith encode) pubkey account hash).run
        (node.serving chain) =
          (Outcome.ofExcept (getAdditionalMintData lib mintAccount.data m.toInt64) >>= fun data =>
            .ok (encode pubkey account .jsonParsed (some ⟨some data⟩) none)) := by
      intro encode
      have hmint' : mintAccountOf (lib.encodingWith encode) chain account = some mintAccount := hmint
      rw [run_getParsedTokenAccount, hmint', timestampOf_of_storesMillis h]
      rfl
    simp only [hrun]
    rw [← atTime_getAdditionalMintData_iff]
    cases getAdditionalMintData lib mintAccount.data m.toInt64 with
    | error e =>
      refine iff_of_true (fun additionalData hall => ?_) nofun
      cases hall lib.encodeUiAccount
    | ok data =>
      constructor
      · intro hall data' heq
        cases heq
        exact hall (some ⟨some data⟩) (fun _ => rfl) data rfl
      · intro hall additionalData hencode
        rw [← (args_eq_of_encode fun encode => Outcome.ok.inj (hencode encode)).1]
        intro data' heq
        cases heq
        exact hall data rfl

/-- What the join finds for an account to hand to the encoder. -/
def joinedData (lib : Decoder) (chain : Pubkey → Option Account)
    (overwriteAccounts : Option (HashMap Pubkey Account)) (m : UInt64)
    (keyedAccounts : List (Pubkey × Account)) (pubkey : Pubkey) : Option AccountAdditionalDataV2 :=
  ((getMultipleTokenAccountMint lib keyedAccounts).lookup pubkey).bind
    (mintData lib (overlay overwriteAccounts chain) m.toInt64)

theorem joinedData_atTime_iff {keyedAccounts : List (Pubkey × Account)}
    (overwriteAccounts : Option (HashMap Pubkey Account)) {pubkey mintPubkey : Pubkey}
    (h : (getMultipleTokenAccountMint lib keyedAccounts).lookup pubkey = some mintPubkey) :
    HandedAtTime m (joinedData lib chain overwriteAccounts m keyedAccounts pubkey) ↔
      m = 0 ∨ ¬ InterestBearing lib (overlay overwriteAccounts chain mintPubkey) := by
  rw [← handedAtTime_iff, joinedData, h]
  rfl

/-- The entry of a key: the last account of the key, with what the join has found. -/
theorem lookup_getParsedTokenAccounts (lib : Decoder) (chain : Pubkey → Option Account)
    (h : StoresMillis node hash m) (orders : IterOrders)
    (keyedAccounts : List (Pubkey × Account)) (overwriteAccounts : Option (HashMap Pubkey Account))
    (encode : EncodeUiAccount) :
    ∃ parsed, (getParsedTokenAccounts (lib.encodingWith encode) orders keyedAccounts hash
        overwriteAccounts).run (node.serving chain) = .ok parsed ∧
      ∀ pubkey, parsed.lookup pubkey = ((HashMap.collect keyedAccounts).lookup pubkey).map
        fun account => encode pubkey account .jsonParsed
          (joinedData lib chain overwriteAccounts m keyedAccounts pubkey) none := by
  have htime : timestampOf (node.serving chain) hash = .ok m.toInt64 := by
    rw [timestampOf, Client.getTimestamp_serving]
    exact timestampOf_of_storesMillis h
  rw [run_getParsedTokenAccounts_of keyByKey_serving, htime]
  exact ⟨_, rfl, fun pubkey => lookup_parsedPairs _ _ _ pubkey⟩

/-- The encoder is handed what the join has found, if its answers are the entries of a key
whichever encoder it is. -/
theorem eq_joinedData (h : StoresMillis node hash m)
    {keyedAccounts : List (Pubkey × Account)} {overwriteAccounts : Option (HashMap Pubkey Account)}
    {pubkey : Pubkey} {account : Account} {additionalData : Option AccountAdditionalDataV2}
    (hencode : ∀ encode, ∃ parsed,
      (getParsedTokenAccounts (lib.encodingWith encode) orders keyedAccounts hash
        overwriteAccounts).run (node.serving chain) = .ok parsed ∧
      parsed.lookup pubkey = some (encode pubkey account .jsonParsed additionalData none)) :
    joinedData lib chain overwriteAccounts m keyedAccounts pubkey = additionalData := by
  have hfound : ∀ encode : EncodeUiAccount, ((HashMap.collect keyedAccounts).lookup pubkey).map
      (fun account => encode pubkey account .jsonParsed
        (joinedData lib chain overwriteAccounts m keyedAccounts pubkey) none) =
      some (encode pubkey account .jsonParsed additionalData none) := by
    intro encode
    obtain ⟨parsed, hrun, hlookup⟩ :=
      lookup_getParsedTokenAccounts lib chain h orders keyedAccounts overwriteAccounts encode
    obtain ⟨parsed', hrun', hsome⟩ := hencode encode
    rw [hrun] at hrun'
    cases hrun'
    rw [← hlookup, hsome]
  cases haccount : (HashMap.collect keyedAccounts).lookup pubkey with
  | none =>
    have hnone := hfound lib.encodeUiAccount
    rw [haccount] at hnone
    cases hnone
  | some account' =>
    have hcall : ∀ encode : EncodeUiAccount, encode pubkey account' .jsonParsed
        (joinedData lib chain overwriteAccounts m keyedAccounts pubkey) none =
        encode pubkey account .jsonParsed additionalData none := by
      intro encode
      have hsome := hfound encode
      rw [haccount] at hsome
      exact Option.some.inj hsome
    exact (args_eq_of_encode hcall).1

theorem accountsAtTime_iff (h : StoresMillis node hash m) (orders : IterOrders)
    (keyedAccounts : List (Pubkey × Account))
    (overwriteAccounts : Option (HashMap Pubkey Account)) :
    AccountsAtTime lib orders node chain hash m keyedAccounts overwriteAccounts ↔
      m = 0 ∨ ∀ pubkey mintPubkey,
        (getMultipleTokenAccountMint lib keyedAccounts).lookup pubkey = some mintPubkey →
          ¬ InterestBearing lib (overlay overwriteAccounts chain mintPubkey) := by
  constructor
  · intro hall
    rw [or_iff_not_imp_left]
    intro hm pubkey mintPubkey hmint
    obtain ⟨account, haccount⟩ := exists_account_of_mint hmint
    apply ((joinedData_atTime_iff overwriteAccounts hmint).mp ?_).resolve_left hm
    apply hall pubkey account
    intro encode
    obtain ⟨parsed, hrun, hlookup⟩ :=
      lookup_getParsedTokenAccounts lib chain h orders keyedAccounts overwriteAccounts encode
    exact ⟨parsed, hrun, by rw [hlookup, haccount, Option.map_some]⟩
  · intro hcondition pubkey account additionalData hencode
    rw [← eq_joinedData h hencode]
    cases hmint : (getMultipleTokenAccountMint lib keyedAccounts).lookup pubkey with
    | none =>
      rw [joinedData, hmint]
      exact nofun
    | some mintPubkey =>
      exact (joinedData_atTime_iff overwriteAccounts hmint).mpr
        (hcondition.imp_right fun hnot => hnot pubkey mintPubkey hmint)

/-- With `m` milliseconds in the storage, the time handed on with a mint is the seconds of
these if they are none, or the mint looked at is not there or bears no interest. -/
theorem timestamps_iff (h : StoresMillis node hash m) (lib : Decoder)
    (chain : Pubkey → Option Account) :
    (∀ mint, MintAtTime lib node chain hash m mint ↔
      m = 0 ∨ mint = SplToken.nativeMint ∨ ¬ InterestBearing lib (chain mint)) ∧
    (∀ pubkey account, AccountAtTime lib node chain hash m pubkey account ↔
      m = 0 ∨ ¬ InterestBearing lib (mintAccountOf lib chain account)) ∧
    ∀ orders keyedAccounts overwriteAccounts,
      AccountsAtTime lib orders node chain hash m keyedAccounts overwriteAccounts ↔
        m = 0 ∨ ∀ pubkey mintPubkey,
          (getMultipleTokenAccountMint lib keyedAccounts).lookup pubkey = some mintPubkey →
            ¬ InterestBearing lib (overlay overwriteAccounts chain mintPubkey) :=
  ⟨mintAtTime_iff h, accountAtTime_iff h, accountsAtTime_iff h⟩

/-! ## An interest-bearing mint -/

/-- A node that stores one second, in milliseconds. -/
def secondNode : Node
  | .stateGetStorage .. => .ok (some "0xe803000000000000")
  | call => Node.dead call

theorem storesMillis_secondNode (hash : Hash) : StoresMillis secondNode hash 1000 := by
  have htext : "0xe803000000000000" = "0x" ++ Hex.encode [232, 3, 0, 0, 0, 0, 0, 0] := by
    decide +kernel
  exact ⟨_, ⟨_, rfl, .inr ⟨_, htext, Hex.spells_encode _⟩⟩, rfl, by decide +kernel⟩

theorem interestBearing_someMint :
    InterestBearing tokenDecoder (chainWithMint interestMintAccount someMint) := by
  have hunpack : tokenDecoder.unpackMint interestMintAccount.data =
      .ok ⟨6, some ⟨none, 0, 500, 0, 500⟩⟩ := by decide +kernel
  exact ⟨_, _, _, if_pos rfl, hunpack, rfl⟩

/-- One second after the epoch a mint is described as if a thousand had passed. -/
theorem timestamps_not_seconds : ¬ ∀ (lib : Decoder) (node : Node) (chain : Pubkey → Option Account)
    (hash : Hash) (m : UInt64), StoresMillis node hash m →
    (∀ mint, MintAtTime lib node chain hash m mint) ∧
    (∀ pubkey account, AccountAtTime lib node chain hash m pubkey account) ∧
    ∀ orders keyedAccounts overwriteAccounts,
      AccountsAtTime lib orders node chain hash m keyedAccounts overwriteAccounts := by
  intro hall
  have hmint := (hall tokenDecoder secondNode (chainWithMint interestMintAccount) .zero 1000
    (storesMillis_secondNode .zero)).1 someMint
  rw [mintAtTime_iff (storesMillis_secondNode .zero)] at hmint
  rcases hmint with hzero | hnative | hnot
  · exact absurd hzero (by decide)
  · exact absurd hnative (by decide)
  · exact hnot interestBearing_someMint

/-- A mint without the extension. -/
theorem timestamps_without_interest :
    MintAtTime tokenDecoder secondNode tokenChain .zero 1000 someMint := by
  refine ((timestamps_iff (storesMillis_secondNode .zero) tokenDecoder tokenChain).1 _).mpr
    (.inr (.inr ?_))
  rintro ⟨account, mint, config, haccount, hmint, hconfig⟩
  have hunpack : tokenDecoder.unpackMint mintAccount.data = .ok ⟨6, none⟩ := by decide +kernel
  obtain rfl : mintAccount = account := Option.some.inj haccount
  rw [hunpack] at hmint
  cases hmint
  cases hconfig

end Solana
