import Irishub.Asset.SupplyCap

/-!
# Asset: the fee of an issue message

The fee of a token depends on the length of its symbol in bytes. `ValidateBasic` checks the
symbol in lower case and without the white space around it, but on a copy: the handler and the
ante handler (`asset/internal/keeper/ante.go`) compute the fee from the symbol of the message,
while the token is stored under the normalised one. White space makes a symbol longer, and so do
the two characters beyond ASCII whose lower case is an ASCII letter; a longer symbol costs less
(`issue_fee_matches_iff`).
-/

namespace Irishub.Asset
open Lib FungibleToken

section
variable (params : Params)

/-- Fee of a token with this source and symbol: what `NewAnteHandler` counts and the fee handlers
charge. -/
def issueFeeOf (source : AssetSource) (symbol : String) : Outcome Coin :=
  match source with
  | .native => getTokenIssueFee params symbol
  | .gateway => getGatewayTokenIssueFee params symbol
  | _ => raise .nilPointer

/-- Fee of a message in `NewAnteHandler`. -/
def Msg.anteFee : Msg → Outcome Coin
  | createGateway msg => getGatewayCreateFee params msg.moniker
  | issueToken msg => issueFeeOf params msg.source msg.symbol
  | mintToken msg =>
    let (space, symbol) := getTokenIDParts msg.tokenId
    if space = "" ∨ space = "i" then getTokenMintFee params symbol
    else if space ≠ "x" then getGatewayTokenMintFee params symbol
    else raise .nilPointer
  | _ => Coin.newCoin irisAtto 0

/-- `NewAnteHandler` for a payer with these coins and the messages before the first one of another
module. -/
def anteHandler (coins : Coins) (msgs : List Msg) : Outcome Unit := do
  let totalFee ← msgs.foldlM (fun totalFee msg => do Coins.add totalFee [← msg.anteFee params]) []
  require (Coins.isAllGTE coins totalFee) .errInsufficientCoins

/-- A symbol of an admitted length costs more than every longer text. -/
def FeeDecreases (source : AssetSource) : Prop :=
  ∀ {short long : String} {high low : Coin},
    sizeWithin short minimumAssetSymbolSize maximumAssetSymbolSize = true →
    byteLen short < byteLen long → issueFeeOf params source short = .ok high →
    issueFeeOf params source long = .ok low → low.amount < high.amount

end

section
variable {params : Params} {s s' : State} {msg : MsgIssueToken}

lemma issueFeeOf_congr {source : AssetSource} {symbol symbol' : String}
    (h : byteLen symbol = byteLen symbol') :
    issueFeeOf params source symbol = issueFeeOf params source symbol' := by
  cases source <;>
    simp only [issueFeeOf, getGatewayTokenIssueFee, getTokenIssueFee, calcFeeByBase,
      calcFeeFactor, h]

lemma State.indexToken_tokens {owner : Option Address} {token : FungibleToken}
    (h : s.indexToken owner token = .ok s') : s'.tokens = s.tokens := by
  unfold indexToken setTokens at h
  cases owner <;> split_ifs at h <;> simp only [bind_ok, pure_eq_ok] at h <;> grind

lemma State.issueToken_tokens {token : FungibleToken} (h : s.issueToken token = .ok s') :
    ∃ key ft, s'.tokens = s.tokens.set key ft ∧ ft.source = token.source ∧
      ft.symbol = token.symbol := by
  simp only [issueToken, addToken, setToken, bind_ok, require_ok, pure_eq_ok] at h
  obtain ⟨_, hgateway, ⟨s₂, token₂, owner₂⟩, ⟨_, _, _, _, ⟨token₁, owner⟩, howner, _,
    ⟨tokenId, _, rfl⟩, s₃, hindex, heq⟩, _, _, b, _, rfl⟩ := h
  obtain ⟨rfl, _, _⟩ : s₃ = s₂ ∧ token₁ = token₂ ∧ owner = owner₂ := by simpa using heq
  have hnames := (resolveOwner_eq_ok howner).1.trans (sameNames_stored token₁)
  exact ⟨_, _, indexToken_tokens hindex, hnames.source, hnames.symbol⟩

/-- Handler charges, and the ante handler counts, the fee of the symbol in the message; it is
the fee of the stored symbol exactly when the one in the message is ASCII and has no white space
around it. -/
theorem issue_fee_matches_iff (hfee : FeeDecreases params msg.source)
    (hv : msg.validateBasic = .ok ()) (h : handleIssueToken params s msg = .ok s') :
    ∃ charged b token key ft, Msg.anteFee params (.issueToken msg) = .ok charged ∧
      feeHandler params s.bank msg.owner charged = .ok b ∧
      { s with bank := b }.issueToken token = .ok s' ∧
      s'.tokens = s.tokens.set key ft ∧ ft.symbol = toLower (trimSpace msg.symbol) ∧
      (issueFeeOf params ft.source ft.symbol = .ok charged ↔
        trimSpace msg.symbol = msg.symbol ∧ ∀ c ∈ msg.symbol.toList, c.toNat < 0x80) := by
  have hmsg := MsgIssueToken.checked_of_validateBasic hv
  simp only [handleIssueToken, bind_ok] at h
  obtain ⟨token, htoken, b, hcharge, hissue⟩ := h
  obtain ⟨hsymbol, hsource, _⟩ := tokenOfMsg_ok hmsg htoken
  obtain ⟨charged, hcharged, hhandler⟩ : ∃ charged,
      issueFeeOf params msg.source msg.symbol = .ok charged ∧
        feeHandler params s.bank msg.owner charged = .ok b := by
    unfold issueFee at hcharge
    split at hcharge
    · rename_i hnative
      rw [hnative]
      exact bind_ok.mp hcharge
    · rename_i hgateway
      rw [hgateway]
      exact bind_ok.mp hcharge
    · rename_i hnative hgateway
      cases hs : msg.source with
      | native => exact absurd hs hnative
      | gateway => exact absurd hs hgateway
      | external => exact absurd hs hmsg.external
      | unknown n => exact absurd hs (hmsg.source n)
  obtain ⟨key, ft, htokens, hsource', hsymbol'⟩ := State.issueToken_tokens hissue
  refine ⟨charged, b, token, key, ft, hcharged, hhandler, hissue, htokens,
    hsymbol'.trans hsymbol, ?_⟩
  rw [hsource', hsymbol', hsource, hsymbol]
  obtain ⟨halnum, _, hsize, _⟩ := isAlphaNumeric_of_isWord hmsg.symbol
  obtain ⟨hle, hiff⟩ := byteLen_toLower_trimSpace (ascii_of_isAlphaNumeric halnum)
  rw [← hiff]
  constructor
  · intro hstored
    by_contra hne
    exact lt_irrefl _ (hfee hsize (by omega) hstored hcharged)
  · intro heq
    rw [issueFeeOf_congr heq]
    exact hcharged

end

/-- The factors that `calcFeeFactor` computes for names of up to nine bytes; longer names have
larger ones. -/
def factorOfLength : ℕ → Dec
  | 1 => ⟨0⟩
  | 2 => ⟨1600000000⟩
  | 3 => ⟨10000000000⟩
  | 4 => ⟨25400000000⟩
  | 5 => ⟨46100000000⟩
  | 6 => ⟨70800000000⟩
  | 7 => ⟨98400000000⟩
  | 8 => ⟨128400000000⟩
  | _ => ⟨160000000000⟩

/-- Base fee of 60000 iris, the default of the main network. -/
def lengthParams : Params :=
  { sampleParams with
    issueTokenBaseFee := ⟨irisAtto, 60000 * 10 ^ 18⟩
    feeFactor := factorOfLength }

/-- Account 1 can pay for a token. -/
def issuerState : State :=
  { sampleState with
    bank :=
      { accounts := Store.empty.set 1 ⟨[⟨"iris-atto", 10 ^ 23⟩], by decide, by decide⟩
        totalLoosenToken := ⟨[⟨"iris-atto", 10 ^ 23⟩], by decide, by decide⟩
        totalSupply := Store.empty } }

/-- Fees in iris of the symbols with three bytes and more. -/
def issueFees : List ℤ := [60000, 23622, 13015, 8474, 6097, 4672, 3750]

lemma issueFeeOf_lengthParams {symbol : String} (h : 3 ≤ byteLen symbol) :
    ∃ fee, issueFees[min (byteLen symbol) 9 - 3]? = some fee ∧
      issueFeeOf lengthParams .native symbol = .ok ⟨irisAtto, fee * 10 ^ 18⟩ := by
  have hfees : ∀ n ∈ List.range' 3 7, ∃ fee ∈ issueFees[n - 3]?,
      (do feeCoin (← (Dec.newDecFromInt (60000 * 10 ^ 18)).quo (factorOfLength n))) =
        .ok ⟨irisAtto, fee * 10 ^ 18⟩ := by
    decide +kernel
  have hfactor : factorOfLength (byteLen symbol) = factorOfLength (min (byteLen symbol) 9) := by
    by_cases hle : byteLen symbol ≤ 9
    · rw [min_eq_left hle]
    · rw [min_eq_right (by omega)]
      unfold factorOfLength
      split <;> first | omega | rfl
  have hname : assert (decide (0 < byteLen symbol)) .emptyFeeName = .ok () :=
    assert_ok.mpr (decide_eq_true (by omega))
  obtain ⟨fee, hfee, hcoin⟩ := hfees (min (byteLen symbol) 9) (by simp; omega)
  refine ⟨fee, hfee, ?_⟩
  rw [← hcoin]
  simp only [issueFeeOf, getTokenIssueFee, calcFeeByBase, calcFeeFactor, lengthParams]
  rw [hfactor, hname]
  rfl

lemma lengthParams_feeDecreases : FeeDecreases lengthParams .native := by
  intro short long high low hsize hlt hhigh hlow
  obtain ⟨hmin, hmax⟩ : 3 ≤ byteLen short ∧ byteLen short ≤ 8 := by
    simp only [sizeWithin, Bool.and_eq_true, decide_eq_true_eq] at hsize
    exact hsize
  obtain ⟨fee, hfee, hshort⟩ := issueFeeOf_lengthParams hmin
  obtain ⟨fee', hfee', hlong⟩ := issueFeeOf_lengthParams (hmin.trans hlt.le)
  cases hshort.symm.trans hhigh
  cases hlong.symm.trans hlow
  obtain ⟨hi, rfl⟩ := List.getElem?_eq_some_iff.mp hfee
  obtain ⟨hj, rfl⟩ := List.getElem?_eq_some_iff.mp hfee'
  have hsorted : issueFees.Pairwise (· > ·) := by decide
  have hless := List.pairwise_iff_getElem.mp hsorted _ _ hi hj (by omega)
  exact mul_lt_mul_of_pos_right hless (by decide)

/-- A blank before the symbol: 23622 iris are charged for a token that costs 60000. -/
theorem blank_symbol_costs_less :
    FeeDecreases lengthParams .native ∧
      MsgIssueToken.validateBasic { sampleIssue 0 with symbol := " abc" } = .ok () ∧
      (∃ s', handleIssueToken lengthParams issuerState { sampleIssue 0 with symbol := " abc" } =
        .ok s' ∧ (s'.tokens.get "i.abc").map (fun ft => ft.symbol) = some "abc") ∧
      Msg.anteFee lengthParams (.issueToken { sampleIssue 0 with symbol := " abc" }) =
        .ok ⟨irisAtto, 23622 * 10 ^ 18⟩ ∧
      issueFeeOf lengthParams .native "abc" = .ok ⟨irisAtto, 60000 * 10 ^ 18⟩ := by
  obtain ⟨s', hs', htest⟩ := of_returns
    (p := fun s : State => decide ((s.tokens.get "i.abc").map (fun ft => ft.symbol) = some "abc"))
    (x := handleIssueToken lengthParams issuerState { sampleIssue 0 with symbol := " abc" })
    (by decide +kernel)
  exact ⟨lengthParams_feeDecreases, by decide +kernel, ⟨s', hs', of_decide_eq_true htest⟩,
    by decide +kernel, by decide +kernel⟩

-- The Kelvin sign takes three bytes and is stored as `k`.
example :
    MsgIssueToken.validateBasic { sampleIssue 0 with symbol := "\u212aab" } = .ok () ∧
      toLower (trimSpace "\u212aab") = "kab" ∧ byteLen "\u212aab" = 5 := by
  decide +kernel

theorem sampleIssue_fee_matches :
    ∃ charged b token s' key ft,
      Msg.anteFee lengthParams (.issueToken (sampleIssue 0)) = .ok charged ∧
      feeHandler lengthParams issuerState.bank (some 1) charged = .ok b ∧
      { issuerState with bank := b }.issueToken token = .ok s' ∧
      s'.tokens = issuerState.tokens.set key ft ∧
      issueFeeOf lengthParams ft.source ft.symbol = .ok charged := by
  obtain ⟨s', hs', _⟩ := of_returns (p := fun _ : State => true)
    (x := handleIssueToken lengthParams issuerState (sampleIssue 0)) (by decide +kernel)
  obtain ⟨charged, b, token, key, ft, hante, hhandler, hissue, htokens, _, hiff⟩ :=
    issue_fee_matches_iff lengthParams_feeDecreases (by decide +kernel) hs'
  have hascii : ((sampleIssue 0).symbol.toList.all fun c => c.toNat < 0x80) = true := by
    decide +kernel
  exact ⟨charged, b, token, s', key, ft, hante, hhandler, hissue, htokens,
    hiff.mpr ⟨by decide +kernel, fun c hc => of_decide_eq_true (List.all_eq_true.mp hascii c hc)⟩⟩

end Irishub.Asset
