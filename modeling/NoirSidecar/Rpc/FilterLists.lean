-- SUMMARY: What the routing of a filter list says about the accounts that pass it, and why the encoding of its bytes does not matter.
import NoirSidecar.Rpc.Indexed

/-!
# Filter lists

The routers run over the whole list and keep the last of what they find of each kind.
Whatever they keep stands for a filter of the list, which is as much as is needed: the
accounts looked for pass all of them. The routers only see raw bytes, so what they say of
a list depends on it having been optimized, and that on its having been verified.
-/

namespace Solana

/-! ## Accounts that pass a routed list -/

variable {programId : Pubkey} {offset : Nat} {filters : List RpcFilterType} {key : Pubkey}

/-- The account looks like a token account of the program: by its length, by its account
type, or by its state. -/
def TokenLike (programId : Pubkey) (account : Account) : Prop :=
  account.data.length = accountPackedLen ∨
    (programId = Token2022.id ∧ account.data[accountPackedLen]? = some Token2022.accountTypeAccount) ∨
    filterAllows .tokenAccountState account

/-- What is known of an account that passes all filters of a routed list. -/
theorem splTokenKeyFilter_sound {account : Account}
    (h : splTokenKeyFilter offset programId filters = some key)
    (hsize : account.data.length < 2 ^ 64)
    (hpass : ∀ filter ∈ filters, filterAllows filter account) :
    offset + 32 ≤ account.data.length ∧ account.data.field offset 32 = key.bytes ∧
      TokenLike programId account := by
  obtain ⟨-, ⟨compare, hmem, rfl, hraw⟩, htoken⟩ := splTokenKeyFilter_eq_some h
  have hlen : key.bytes.length = 32 := key.length_eq
  refine ⟨?_, field_of_splTokenKeyFilter h hpass, ?_⟩
  · rw [← hlen]
    exact Memcmp.length_of_bytesMatch hraw (hpass _ hmem)
  · rcases htoken with hmem | ⟨hprogram, typed, hmem, hoffset, hraw⟩ | hmem
    · have heq : UInt64.ofNat account.data.length = UInt64.ofNat accountPackedLen :=
        beq_iff_eq.mp (hpass _ hmem)
      refine .inl ?_
      have hnat := congrArg UInt64.toNat heq
      rwa [UInt64.toNat_ofNat_of_lt' hsize] at hnat
    · have hfield := Memcmp.field_of_bytesMatch hraw (hpass _ hmem)
      rw [hoffset, List.length_singleton, Bytes.field] at hfield
      refine .inr (.inl ⟨hprogram, ?_⟩)
      have hhead := congrArg List.head? hfield
      rwa [List.head?_take, if_neg (by decide), List.head?_drop] at hhead
    · exact .inr (.inr (hpass _ hmem))

/-- Routing is sound: a list routed to the owner index or to the mint index is one for a
token program, and lets through only accounts that look like token accounts of it and
have the key in the field the index is about. -/
theorem routing_sound (programId : Pubkey) (filters : List RpcFilterType) :
    (∀ owner, getSplTokenOwnerFilter programId filters = some owner →
      isKnownSplTokenId programId ∧ ∀ account : Account, account.data.length < 2 ^ 64 →
        (∀ filter ∈ filters, filterAllows filter account) →
          64 ≤ account.data.length ∧ account.data.field 32 32 = owner.bytes ∧
            TokenLike programId account) ∧
    ∀ mint, getSplTokenMintFilter programId filters = some mint →
      isKnownSplTokenId programId ∧ ∀ account : Account, account.data.length < 2 ^ 64 →
        (∀ filter ∈ filters, filterAllows filter account) →
          32 ≤ account.data.length ∧ account.data.field 0 32 = mint.bytes ∧
            TokenLike programId account :=
  ⟨fun _ h => ⟨(splTokenKeyFilter_eq_some h).1, fun _ => splTokenKeyFilter_sound h⟩,
    fun _ h => ⟨(splTokenKeyFilter_eq_some h).1, fun _ => splTokenKeyFilter_sound h⟩⟩

/-- A list that asks for the account type is routed to the owner index, and an account with
extensions passes it. -/
theorem routing_sound_extended :
    isKnownSplTokenId Token2022.id ∧
      64 ≤ (extendedAccount [Token2022.accountTypeAccount]).data.length ∧
      (extendedAccount [Token2022.accountTypeAccount]).data.field 32 32 = (Pubkey.ofByte 4).bytes ∧
      TokenLike Token2022.id (extendedAccount [Token2022.accountTypeAccount]) := by
  obtain ⟨hknown, hpass⟩ := (routing_sound Token2022.id ownerFilters).1 (.ofByte 4) (by decide +kernel)
  exact ⟨hknown, hpass _ (by decide +kernel) (by decide +kernel)⟩

/-! ## Verified lists -/

/-- The two filters differ at most in how their bytes are written. -/
def SameUpToEncoding : RpcFilterType → RpcFilterType → Prop
  | .memcmp compare, .memcmp compare' =>
    compare.offset = compare'.offset ∧ compare.decodedBytes = compare'.decodedBytes
  | filter, filter' => filter = filter'

/-- All filters of the list pass `verifyFilter`. -/
def Verified (base64Error : String → String) (filters : List RpcFilterType) : Prop :=
  ∀ filter ∈ filters, verifyFilter base64Error filter = .ok ()

variable {base64Error : String → String} {filters' : List RpcFilterType}

/-- The bytes of a filter that passes verification decode. -/
theorem decodedBytes_of_verifyFilter {compare : Memcmp}
    (h : verifyFilter base64Error (.memcmp compare) = .ok ()) :
    ∃ bytes, compare.decodedBytes = some bytes := by
  apply RpcFilterType.decodedBytes_of_verify
  unfold verifyFilter at h
  cases hverify : RpcFilterType.verify base64Error (.memcmp compare) with
  | ok u => rfl
  | error e =>
    rw [hverify] at h
    cases h

/-- What becomes of a filter whose bytes decode. -/
theorem convertToRawBytes_eq {compare : Memcmp} {bytes : Bytes}
    (h : compare.decodedBytes = some bytes) :
    compare.convertToRawBytes = .newRawBytes compare.offset bytes := by
  rw [Memcmp.convertToRawBytes, h]
  rfl

@[simp] theorem convertToRawBytes_idem (compare : Memcmp) :
    compare.convertToRawBytes.convertToRawBytes = compare.convertToRawBytes := by
  cases h : compare.decodedBytes with
  | some bytes =>
    rw [convertToRawBytes_eq h]
    rfl
  | none =>
    have hsame : compare.convertToRawBytes = compare := by rw [Memcmp.convertToRawBytes, h]
    rw [hsame, hsame]

/-- Optimizing twice is optimizing once. -/
theorem optimizeFilters_idem (filters : List RpcFilterType) :
    optimizeFilters (optimizeFilters filters) = optimizeFilters filters := by
  rw [optimizeFilters, optimizeFilters, List.map_map]
  refine List.map_congr_left fun filter _ => ?_
  cases filter with
  | memcmp compare => exact congrArg RpcFilterType.memcmp (convertToRawBytes_idem compare)
  | dataSize size => rfl
  | tokenAccountState => rfl

/-- All bytes of a verified list are raw after it has been optimized. -/
theorem raw_of_mem_optimizeFilters (h : Verified base64Error filters) {compare : Memcmp}
    (hmem : .memcmp compare ∈ optimizeFilters filters) :
    ∃ bytes, compare.rawBytesAsRef = some bytes := by
  obtain ⟨filter, hfilter, heq⟩ := List.mem_map.mp hmem
  cases filter with
  | dataSize size => cases heq
  | tokenAccountState => cases heq
  | memcmp compare' =>
    obtain ⟨bytes, hbytes⟩ := decodedBytes_of_verifyFilter (h _ hfilter)
    cases heq
    exact ⟨bytes, by rw [convertToRawBytes_eq hbytes]; rfl⟩

/-- Optimized, two verified lists that differ in how their bytes are written are one list. -/
theorem optimizeFilters_congr (h : Verified base64Error filters)
    (hsame : List.Forall₂ SameUpToEncoding filters filters') :
    optimizeFilters filters = optimizeFilters filters' := by
  induction hsame with
  | nil => rfl
  | @cons filter filter' filters filters' hfilter _ ih =>
    have htail : optimizeFilters filters = optimizeFilters filters' :=
      ih fun f hf => h f (List.mem_cons_of_mem _ hf)
    have hhead : optimizeFilters [filter] = optimizeFilters [filter'] := by
      cases filter with
      | dataSize size => rw [hfilter]
      | tokenAccountState => rw [hfilter]
      | memcmp compare =>
        cases filter' with
        | dataSize size => cases hfilter
        | tokenAccountState => cases hfilter
        | memcmp compare' =>
          obtain ⟨bytes, hbytes⟩ := decodedBytes_of_verifyFilter (h _ List.mem_cons_self)
          obtain ⟨hoffset, hdecoded⟩ := hfilter
          simp only [optimizeFilters, List.map_cons, List.map_nil,
            convertToRawBytes_eq hbytes, convertToRawBytes_eq (hdecoded ▸ hbytes), hoffset]
    calc optimizeFilters (filter :: filters) = optimizeFilters [filter] ++ optimizeFilters filters := rfl
      _ = optimizeFilters [filter'] ++ optimizeFilters filters' := by rw [hhead, htail]
      _ = optimizeFilters (filter' :: filters') := rfl

/-- Optimizing a verified list leaves only raw bytes, has nothing left to do a second time,
and does not change what the list lets through or where it is routed, in whichever way its
bytes were written. -/
theorem optimizeFilters_spec (base64Error : String → String) (filters : List RpcFilterType)
    (h : Verified base64Error filters) :
    (∀ compare, .memcmp compare ∈ optimizeFilters filters →
      ∃ bytes, compare.rawBytesAsRef = some bytes) ∧
    optimizeFilters (optimizeFilters filters) = optimizeFilters filters ∧
    (∀ account, (optimizeFilters filters).all (filterAllows · account) =
      filters.all (filterAllows · account)) ∧
    ∀ filters', Verified base64Error filters' → List.Forall₂ SameUpToEncoding filters filters' →
      ∀ programId,
        getSplTokenOwnerFilter programId (optimizeFilters filters) =
          getSplTokenOwnerFilter programId (optimizeFilters filters') ∧
        getSplTokenMintFilter programId (optimizeFilters filters) =
          getSplTokenMintFilter programId (optimizeFilters filters') := by
  refine ⟨fun compare => raw_of_mem_optimizeFilters h, optimizeFilters_idem filters,
    allows_optimizeFilters filters, fun filters' _ hsame programId => ?_⟩
  rw [optimizeFilters_congr h hsame]
  exact ⟨rfl, rfl⟩

/-- The filters of a client that asks for the accounts of an owner, with the bytes written by
`write`. -/
def writtenFilters (write : Bytes → MemcmpEncodedBytes) : List RpcFilterType :=
  [.dataSize 165, .memcmp ⟨SplToken.Account.ownerOffset, write (Pubkey.ofByte 4).bytes⟩]

/-- The same owner in base 58 and in base 64. -/
theorem optimizeFilters_spec_written :
    getSplTokenOwnerFilter SplToken.id
        (optimizeFilters (writtenFilters fun bytes => .base58 (Base58.encode bytes))) =
      getSplTokenOwnerFilter SplToken.id
        (optimizeFilters (writtenFilters fun bytes => .base64 (Base64.encode bytes))) := by
  refine ((optimizeFilters_spec (fun _ => "InvalidPadding") _ ?_).2.2.2 _ ?_ ?_ SplToken.id).1
  · intro filter hfilter
    simp only [writtenFilters, List.mem_cons, List.not_mem_nil, or_false] at hfilter
    rcases hfilter with rfl | rfl <;> decide +kernel
  · intro filter hfilter
    simp only [writtenFilters, List.mem_cons, List.not_mem_nil, or_false] at hfilter
    rcases hfilter with rfl | rfl <;> decide +kernel
  · refine .cons rfl (.cons ⟨rfl, ?_⟩ .nil)
    simp [Memcmp.decodedBytes, Except.toOption]

end Solana
