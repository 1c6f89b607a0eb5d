-- SUMMARY: A decoder of token accounts and mints: their layouts, and what is shown of them in each encoding.
import NoirSidecar.Rpc.Accounts

/-!
# Token accounts and mints decoded

A decoder that reads the layouts of the token programs. A mint is a record of 82 bytes,
which a Token-2022 mint fills up to the length of an account, and lets its type and its
extensions follow. A token account is shown as JSON only with the decimals of its mint.
-/

namespace SplToken

namespace Mint

/-- `Mint::LEN`. -/
def len : Nat := 82

/-- The decimals of a mint that is initialized. -/
def unpackDecimals (data : Bytes) : Except ProgramError UInt8 := do
  let _ ← Account.unpackOption Account.unpackKey (data.field 0 36)
  let _ ← Account.unpackOption Account.unpackKey (data.field 46 36)
  match data.field 44 2 with
  | [_, 0] => .error .uninitializedAccount
  | [decimals, 1] => .ok decimals
  | _ => .error .invalidAccountData

/-- A new mint, without authorities and supply. -/
def packNew (decimals : UInt8) : Bytes :=
  List.replicate 44 0 ++ [decimals, 1] ++ List.replicate 36 0

end Mint

end SplToken

namespace Token2022

open SplToken

def multisigLen : Nat := 355

/-- `AccountType::Mint`. -/
def accountTypeMint : UInt8 := 1

/-- The type of data that is longer than the record of an account. -/
def accountType (data : Bytes) : Option UInt8 :=
  if data.length = multisigLen then none else data[SplToken.Account.len]?

/-- `spl_token_2022::state::Account::valid_account_data`. -/
def validAccountData (data : Bytes) : Bool :=
  SplToken.validAccountData data ||
    accountType data == some accountTypeAccount && isInitializedAccount data

def toNatLe (bytes : Bytes) : Nat := Nat.ofDigits 256 (bytes.map UInt8.toNat)

/-- The value of the first extension of a type among at most `n`. -/
def extension (type : Nat) : Nat → Bytes → Option Bytes
  | 0, _ => none
  | n + 1, data =>
    let length := toNatLe (data.field 2 2)
    if data.length < 4 + length then none
    else if toNatLe (data.field 0 2) = type then some (data.field 4 length)
    else if toNatLe (data.field 0 2) = 0 then none
    else extension type n (data.drop (4 + length))

end Token2022

namespace Solana

/-- `ExtensionType::InterestBearingConfig`. -/
def interestBearingType : Nat := 10

def unpackInterestBearing (data : Bytes) : Option InterestBearingConfig :=
  if data.length = 52 then
    some {
      rateAuthority := (Pubkey.tryFrom (data.field 0 32)).filter (· ≠ .ofByte 0)
      initializationTimestamp := (data.field 32 8).toU64.toInt64
      preUpdateAverageRate := (data.field 40 2).toU64.toInt64.toInt16
      lastUpdateTimestamp := (data.field 42 8).toU64.toInt64
      currentRate := (data.field 50 2).toU64.toInt64.toInt16 }
  else none

/-- `StateWithExtensions::<Mint>::unpack`. -/
def unpackMint (data : Bytes) : Except ProgramError Mint :=
  if data.length = SplToken.Mint.len then
    (SplToken.Mint.unpackDecimals data).map fun decimals => ⟨decimals, none⟩
  else if Token2022.accountType data = some Token2022.accountTypeMint ∧
      (data.field SplToken.Mint.len (SplToken.Account.len - SplToken.Mint.len)).all (· == 0) then
    let extensions := data.drop (SplToken.Account.len + 1)
    (SplToken.Mint.unpackDecimals data).map fun decimals =>
      ⟨decimals, (Token2022.extension interestBearingType extensions.length extensions).bind
        unpackInterestBearing⟩
  else .error .invalidAccountData

def getTokenAccountMint (data : Bytes) : Option Pubkey :=
  if Token2022.validAccountData data then Pubkey.tryFrom (data.field SplToken.Account.mintOffset 32) else none

def uiState : SplToken.AccountState → String
  | .uninitialized => "uninitialized"
  | .initialized => "initialized"
  | .frozen => "frozen"

/-- What of a token account or a mint is shown as JSON. -/
def parseToken (data : Bytes) (additionalData : Option AccountAdditionalDataV2) : Option String :=
  match SplToken.Account.unpack (data.take SplToken.Account.len), Token2022.validAccountData data with
  | .ok account, true =>
    (additionalData.bind AccountAdditionalDataV2.splTokenAdditionalData).map fun additional =>
      "\x7b\"info\":\x7b\"mint\":\"" ++ account.mint.toString ++ "\",\"owner\":\"" ++
        account.owner.toString ++ "\",\"state\":\"" ++ uiState account.state ++
        "\",\"tokenAmount\":\x7b\"amount\":\"" ++ toString account.amount ++ "\",\"decimals\":" ++
        toString additional.decimals ++ "\x7d\x7d,\"type\":\"account\"\x7d"
  | _, _ => (unpackMint data).toOption.map fun mint =>
      "\x7b\"info\":\x7b\"decimals\":" ++ toString mint.decimals ++ "\x7d,\"type\":\"mint\"\x7d"

def encodeBs58 (data : Bytes) : String :=
  if data.length > maxBase58Bytes then "error: data too large for bs58 encoding" else Base58.encode data

/-- What cannot be parsed or compressed is shown in base 64. -/
def encodeUiAccount (_ : Pubkey) (account : Account) (encoding : UiAccountEncoding)
    (additionalData : Option AccountAdditionalDataV2) (dataSlice : Option UiDataSliceConfig) :
    UiAccount :=
  let slice := match dataSlice with
    | some s => account.data.field s.offset s.length
    | none => account.data
  let inBase64 := UiAccountData.binary (Base64.encode slice) .base64
  { lamports := account.lamports
    data := match encoding with
      | .binary => .legacyBinary (encodeBs58 slice)
      | .base58 => .binary (encodeBs58 slice) .base58
      | .base64 => inBase64
      | .base64Zstd => inBase64
      | .jsonParsed =>
        if isKnownSplTokenId account.owner then
          (parseToken account.data additionalData).elim inBase64 .json
        else inBase64
    owner := account.owner.toString
    executable := account.executable
    rentEpoch := account.rentEpoch
    space := some (UInt64.ofNat account.data.length) }

def tokenDecoder : Decoder := ⟨getTokenAccountMint, unpackMint, encodeUiAccount⟩

/-! ## Accounts -/

/-- The mint of the accounts below. -/
def someMint : Pubkey := .ofByte 3

def mintAccount : Account where
  lamports := 0
  data := SplToken.Mint.packNew 6
  owner := SplToken.id
  executable := false
  rentEpoch := 0

/-- A mint that has borne interest since the epoch. -/
def interestMintAccount : Account where
  lamports := 0
  data := SplToken.Mint.packNew 6 ++ List.replicate 83 0 ++ [Token2022.accountTypeMint, 10, 0, 52, 0] ++
    List.replicate 40 0 ++ [244, 1] ++ List.replicate 8 0 ++ [244, 1]
  owner := Token2022.id
  executable := false
  rentEpoch := 0

def someAccount : Account := newTokenAccount SplToken.id someMint (.ofByte 4)

/-- All keys but that of the mint are those of token accounts. -/
def chainWithMint (mint : Account) (pubkey : Pubkey) : Option Account :=
  if pubkey = someMint then some mint else some someAccount

def tokenChain : Pubkey → Option Account := chainWithMint mintAccount

example : unpackMint interestMintAccount.data = .ok ⟨6, some ⟨none, 0, 500, 0, 500⟩⟩ := by
  decide +kernel

end Solana
