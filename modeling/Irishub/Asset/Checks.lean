import Irishub.Asset.Identifiers

/-!
# Asset: what the checks of the messages guarantee

The keeper stores what has passed `ValidateBasic`. `MsgIssueToken.Checked` lists what this says of
an issue message, and `FungibleToken.Sound` what every operation keeps of a stored token: its
fields are within the bounds of the checks. The names of a token (`SameNames`) never change once
it is stored.

**Results**

* `tokenOfMsg_sound`: a checked issue message makes a sound token.
* `editFields_sound`: an edit keeps a token sound.
* `tokenOfMsg_ok`: the default cap covers the initial supply exactly when it is small enough,
  because it is not scaled by the decimals of the token.
-/

namespace Irishub.Asset
open Lib List
open Bool (and_eq_true or_eq_true not_eq_true')

section
variable {s : String}

lemma isAlphaNumeric_toLower (h : isAlphaNumeric s = true) :
    isAlphaNumeric (toLower s) = true := by
  simp only [isAlphaNumeric, and_eq_true, all_eq_true, decide_eq_true_eq] at h ⊢
  simp only [toLower, String.toList_ofList]
  refine ⟨fun hnil => h.1 (map_eq_nil_iff.mp hnil), fun c hc => ?_⟩
  obtain ⟨d, hd, rfl⟩ := mem_map.mp hc
  have hlower := isLowerAlnum_iff.mp (isLowerAlnum_toLower (h.2 d hd))
  rw [or_eq_true, isAlpha_iff, isDigitChar_iff]
  omega

lemma isBeginWithAlpha_toLower (h : isBeginWithAlpha s = true) :
    isBeginWithAlpha (toLower s) = true := by
  unfold isBeginWithAlpha at h ⊢
  simp only [toLower, String.toList_ofList]
  cases hs : s.toList with
  | nil => simp [hs] at h
  | cons c r =>
    rw [hs] at h
    simp only [map_cons]
    rw [isAlpha, isLowerLetter_toLower h, Bool.true_or]

lemma sizeWithin_toLower (h : isAlphaNumeric s = true) (lo hi : ℕ) :
    sizeWithin (toLower s) lo hi = sizeWithin s lo hi := by
  rw [sizeWithin, sizeWithin, byteLen_of_isAlphaNumeric h,
    byteLen_of_isAlphaNumeric (isAlphaNumeric_toLower h), toList_toLower, length_map]

end

/-- Check of a minimum unit alias in `ValidateMsgIssueToken`. -/
def isMinUnitAlias (s : String) : Bool :=
  sizeWithin s minimumAssetMinUnitAliasSize maximumAssetMinUnitAliasSize &&
    isAlphaNumeric s && isBeginWithAlpha s

namespace FungibleToken
variable {ft ft' ft'' : FungibleToken}

/-- Fields the identifiers are computed from. -/
structure SameNames (ft ft' : FungibleToken) : Prop where
  source : ft'.source = ft.source
  symbol : ft'.symbol = ft.symbol
  gateway : ft.source = .gateway → ft'.gateway = ft.gateway

lemma SameNames.trans (h : SameNames ft ft') (h' : SameNames ft' ft'') : SameNames ft ft'' :=
  ⟨h'.source.trans h.source, h'.symbol.trans h.symbol,
    fun hs => (h'.gateway (h.source.trans hs)).trans (h.gateway hs)⟩

lemma SameNames.wellNamed (h : SameNames ft ft') (hft : ft.WellNamed) : ft'.WellNamed where
  symbol := by rw [h.symbol]; exact hft.symbol
  ne_iris := by rw [h.symbol]; exact hft.ne_iris
  gateway := by
    intro hs
    rw [h.source] at hs
    rw [h.gateway hs]
    exact hft.gateway hs
  source := by rw [h.source]; exact hft.source

lemma SameNames.key_eq (h : SameNames ft ft') : ft'.key = ft.key := by
  unfold key
  rw [h.source, h.symbol]
  cases hs : ft.source with
  | gateway => simp only [h.gateway hs]
  | _ => rfl

lemma SameNames.getDenom_eq (h : SameNames ft ft') : ft'.getDenom = ft.getDenom := by
  unfold getDenom getUniqueID
  rw [h.source, h.symbol]
  cases hs : ft.source with
  | gateway => simp only [h.gateway hs]
  | _ => rfl

/-- A token as `AddToken` stores it. -/
def filed (ft : FungibleToken) : FungibleToken :=
  if ft.source = .native then { ft with canonicalSymbol := "", gateway := "" } else ft.stored

lemma sameNames_stored (ft : FungibleToken) : SameNames ft ft.stored := by
  unfold stored
  split_ifs
  · exact ⟨rfl, rfl, fun _ => rfl⟩
  · exact ⟨rfl, rfl, fun _ => rfl⟩

lemma sameNames_filed (ft : FungibleToken) : SameNames ft ft.filed := by
  unfold filed
  split_ifs with hs
  · exact ⟨rfl, rfl, fun hg => by rw [hs] at hg; cases hg⟩
  · exact sameNames_stored ft

lemma filed_eq_self_iff : ft.filed = ft ↔
    if ft.source = .native then ft.canonicalSymbol = "" ∧ ft.gateway = ""
    else ft.source = .gateway → ft.owner = none := by
  unfold filed stored
  cases ft
  split_ifs <;> simp_all [eq_comm, and_comm]

lemma filed_filed (ft : FungibleToken) : ft.filed.filed = ft.filed := by
  rw [filed_eq_self_iff, (sameNames_filed ft).source]
  unfold filed stored
  split_ifs <;> simp_all

lemma supplies_filed (ft : FungibleToken) :
    ft.filed.initialSupply = ft.initialSupply ∧ ft.filed.maxSupply = ft.maxSupply := by
  unfold filed stored
  split_ifs <;> exact ⟨rfl, rfl⟩

/-- Fields of a stored token that every operation keeps within the checks. -/
structure Sound (ft : FungibleToken) : Prop where
  family : ft.family = .fungible
  owner : ft.source = .native → ft.owner.isSome = true
  name : byteLen ft.name ≤ maximumAssetNameSize
  symbol : contains ft.symbol iris = false
  minUnitAlias : ft.minUnitAlias = "" ∨ isMinUnitAlias ft.minUnitAlias = true
  decimal : ft.decimal ≤ maximumAssetDecimal
  initialSupply : 0 ≤ ft.initialSupply ∧ ft.initialSupply ≤ maximumAssetInitSupply * 10 ^ ft.decimal
  maxSupply : 0 ≤ ft.maxSupply ∧ ft.maxSupply ≤ maximumAssetMaxSupply * 10 ^ ft.decimal

/-- The owner of a token that is not native may change. -/
lemma Sound.with_owner (h : ft.Sound) {owner : Option Address}
    (howner : ft.source = .native → owner.isSome = true) : Sound { ft with owner := owner } :=
  ⟨h.family, howner, h.name, h.symbol, h.minUnitAlias, h.decimal, h.initialSupply, h.maxSupply⟩

lemma Sound.stored (h : ft.Sound) : ft.stored.Sound := by
  unfold FungibleToken.stored
  split_ifs with hs
  · exact h.with_owner (fun hn => by rw [hs] at hn; cases hn)
  · exact h

lemma Sound.filed (h : ft.Sound) : ft.filed.Sound := by
  unfold FungibleToken.filed
  split_ifs
  · exact ⟨h.family, h.owner, h.name, h.symbol, h.minUnitAlias, h.decimal, h.initialSupply,
      h.maxSupply⟩
  · exact h.stored

end FungibleToken

open FungibleToken

section
variable {msg msg' : MsgIssueToken} {token : FungibleToken}

lemma int64OfUint64_of_le {n : ℕ} (h : n ≤ maximumAssetMaxSupply) : int64OfUint64 n = n := by
  unfold maximumAssetMaxSupply at h
  unfold int64OfUint64
  rw [if_pos (by omega)]

def MsgIssueToken.DefaultCoversSupply (msg : MsgIssueToken) : Prop :=
  msg.maxSupply = 0 → msg.mintable = true →
    msg.initialSupply * 10 ^ msg.decimal ≤ maximumAssetMaxSupply

/-- What `ValidateBasic` of an issue message guarantees. -/
structure MsgIssueToken.Checked (msg : MsgIssueToken) : Prop where
  symbol : isWord (toLower (trimSpace msg.symbol)).toList = true
  no_iris : contains (toLower (trimSpace msg.symbol)) iris = false
  external : msg.source ≠ .external
  source : ∀ b, msg.source ≠ .unknown b
  owner : msg.source = .native → msg.owner.isSome = true
  name : byteLen (trimSpace msg.name) ≤ maximumAssetNameSize
  minUnitAlias : toLower (trimSpace msg.minUnitAlias) = "" ∨
    isMinUnitAlias (toLower (trimSpace msg.minUnitAlias)) = true
  decimal : msg.decimal ≤ maximumAssetDecimal
  initialSupply : msg.initialSupply ≤ maximumAssetInitSupply
  maxSupply : msg.maxSupply ≤ maximumAssetMaxSupply
  initial_le : msg.maxSupply ≠ 0 → msg.initialSupply ≤ msg.maxSupply

lemma MsgIssueToken.Checked.ne_iris (h : msg.Checked) : toLower (trimSpace msg.symbol) ≠ iris := by
  intro heq
  have hno := h.no_iris
  rw [heq] at hno
  exact absurd hno (by decide)

/-- The source check changes no field that is checked later. -/
lemma MsgIssueToken.checkSource_eq_ok (h : msg.checkSource = .ok msg') :
    msg'.checkFields = msg.checkFields ∧ (∀ b, msg.source ≠ .unknown b) ∧
      (msg.source = .native → msg.owner.isSome = true) := by
  unfold checkSource at h
  split at h
  · rename_i hs
    obtain ⟨_, howner, h⟩ := bind_ok.mp h
    cases h
    exact ⟨rfl, by simp [hs], fun _ => require_ok.mp howner⟩
  · rename_i hs
    cases h
    exact ⟨rfl, by simp [hs], by simp [hs]⟩
  · rename_i hs
    obtain ⟨_, _, h⟩ := bind_ok.mp h
    cases h
    exact ⟨rfl, by simp [hs], by simp [hs]⟩
  · cases h

lemma MsgIssueToken.checked_of_validateBasic (h : msg.validateBasic = .ok ()) : msg.Checked := by
  simp only [validateBasic, validateMsgIssueToken, bind_ok, require_ok, decide_eq_true_eq] at h
  obtain ⟨_, hexternal, _, ⟨msg', hsource, _, hfields, _⟩, _⟩ := h
  obtain ⟨hsame, hknown, howner⟩ := checkSource_eq_ok hsource
  rw [hsame] at hfields
  simp only [checkFields, bind_ok, require_ok, exists_const, and_eq_true, or_eq_true, not_eq_true',
    decide_eq_true_eq] at hfields
  obtain ⟨_, hname, ⟨⟨hsize, hbegin⟩, halnum⟩, hiris, halias, hinit, ⟨hle, hmax⟩, hdecimal⟩ :=
    hfields
  simp only [trim, defaultMaxSupply]
    at hknown howner hname hsize hbegin halnum hiris halias hinit hle hmax hdecimal
  have hword := isWord_toLower hsize hbegin halnum
  rw [toLower_toLower (ascii_of_isAlphaNumeric halnum)] at hword hiris
  refine ⟨hword, hiris, hexternal, hknown, howner, ?_, ?_, hdecimal, hinit, ?_, fun hne => ?_⟩
  · simp only [sizeWithin, and_eq_true, decide_eq_true_eq] at hname
    exact hname.2
  · refine halias.imp (fun hzero => ?_) (fun hvalid => ?_)
    · by_contra hne
      exact (byteLen_pos.mpr hne).ne' hzero
    · simpa only [isMinUnitAlias, and_eq_true] using hvalid
  · by_cases hzero : msg.maxSupply = 0
    · rw [hzero]
      exact Nat.zero_le _
    · simpa only [hzero, if_false] using hmax
  · simpa only [hne, if_false] using hle

lemma eq_of_tokenOfMsg (hmsg : msg.Checked) (h : tokenOfMsg msg = .ok token) :
    token = newFungibleToken msg.source msg.gateway msg.symbol msg.name msg.decimal
      msg.canonicalSymbol msg.minUnitAlias (msg.initialSupply * 10 ^ msg.decimal)
      (msg.maxSupply * 10 ^ msg.decimal) msg.mintable msg.owner := by
  have hinit : int64OfUint64 msg.initialSupply = msg.initialSupply :=
    int64OfUint64_of_le (hmsg.initialSupply.trans (by decide))
  simp only [tokenOfMsg, bind_ok, require_ok, pure_eq_ok,
    SdkInt.newIntWithDecimal, SdkInt.newIntFromBigInt_ok, hinit,
    int64OfUint64_of_le hmsg.maxSupply] at h
  obtain ⟨_, _, _, ⟨rfl, _⟩, _, ⟨rfl, _⟩, h⟩ := h
  exact h.symm

lemma tokenOfMsg_ok (hmsg : msg.Checked) (h : tokenOfMsg msg = .ok token) :
    token.symbol = toLower (trimSpace msg.symbol) ∧ token.source = msg.source ∧
      token.owner = msg.owner ∧
      (token.initialSupply ≤ token.maxSupply ↔ msg.DefaultCoversSupply) := by
  obtain rfl := eq_of_tokenOfMsg hmsg h
  refine ⟨rfl, rfl, rfl, ?_⟩
  have hpow : (0 : ℤ) < 10 ^ msg.decimal := by positivity
  simp only [newFungibleToken, newBaseToken, MsgIssueToken.DefaultCoversSupply]
  by_cases hzero : msg.maxSupply = 0
  · cases hmint : msg.mintable with
    | false => simp [hzero]
    | true =>
      simp only [hzero, Nat.cast_zero, zero_mul, if_true, forall_const, int64OfUint64_of_le le_rfl]
      exact_mod_cast Iff.rfl
  · have hne : (msg.maxSupply : ℤ) * 10 ^ msg.decimal ≠ 0 :=
      mul_ne_zero (by exact_mod_cast hzero) hpow.ne'
    have hle : (msg.initialSupply : ℤ) ≤ msg.maxSupply := by exact_mod_cast hmsg.initial_le hzero
    simp only [if_neg hne, hzero, false_implies, iff_true]
    exact mul_le_mul_of_nonneg_right hle hpow.le

lemma tokenOfMsg_sound (hmsg : msg.Checked) (h : tokenOfMsg msg = .ok token) : token.Sound := by
  obtain rfl := eq_of_tokenOfMsg hmsg h
  have hpow : (1 : ℤ) ≤ 10 ^ msg.decimal := one_le_pow₀ (by decide)
  have hle : (msg.initialSupply : ℤ) ≤ maximumAssetInitSupply := by
    exact_mod_cast hmsg.initialSupply
  have hle' : (msg.maxSupply : ℤ) ≤ maximumAssetMaxSupply := by exact_mod_cast hmsg.maxSupply
  have hinitial : (msg.initialSupply : ℤ) * 10 ^ msg.decimal ≤
      maximumAssetInitSupply * 10 ^ msg.decimal := mul_le_mul_of_nonneg_right hle (by omega)
  have hdefault : (maximumAssetMaxSupply : ℤ) ≤ maximumAssetMaxSupply * 10 ^ msg.decimal :=
    le_mul_of_one_le_right (by decide) hpow
  have hbound : (maximumAssetInitSupply : ℤ) * 10 ^ msg.decimal ≤
      maximumAssetMaxSupply * 10 ^ msg.decimal :=
    mul_le_mul_of_nonneg_right (by decide) (by omega)
  refine ⟨rfl, hmsg.owner, hmsg.name, hmsg.no_iris, hmsg.minUnitAlias, hmsg.decimal,
    ⟨mul_nonneg (by omega) (by omega), hinitial⟩, ?_⟩
  simp only [newFungibleToken, newBaseToken, int64OfUint64_of_le (le_refl maximumAssetMaxSupply)]
  split_ifs
  · exact ⟨by positivity, hdefault⟩
  · exact ⟨by positivity, hinitial.trans hbound⟩
  · exact ⟨by positivity, mul_le_mul_of_nonneg_right hle' (by omega)⟩

end

section
variable {s : State} {ft : FungibleToken} {msg : MsgEditToken} {maxSupply : ℤ}

lemma sameNames_withOwner (s : State) (ft : FungibleToken) : SameNames ft (s.withOwner ft) := by
  unfold State.withOwner
  split_ifs
  · exact ⟨rfl, rfl, fun _ => rfl⟩
  · exact ⟨rfl, rfl, fun _ => rfl⟩

lemma maxSupply_withOwner (s : State) (ft : FungibleToken) :
    (s.withOwner ft).maxSupply = ft.maxSupply := by
  unfold State.withOwner
  split_ifs <;> rfl

lemma FungibleToken.Sound.withOwner (h : ft.Sound) (s : State) : (s.withOwner ft).Sound := by
  unfold State.withOwner
  split_ifs with hs
  · exact h.with_owner (fun hn => by rw [hs] at hn; cases hn)
  · exact h

lemma editFields_sound (hft : ft.Sound) (hv : msg.validateBasic = .ok ())
    (hmax : 0 < maxSupply → maxSupply ≤ ft.maxSupply) :
    (State.editFields ft msg maxSupply).Sound := by
  simp only [MsgEditToken.validateBasic, bind_ok, require_ok, exists_const, or_eq_true,
    decide_eq_true_eq] at hv
  obtain ⟨hname, _, _, _, _, halias⟩ := hv
  refine ⟨hft.family, hft.owner, ?_, hft.symbol, ?_, hft.decimal, hft.initialSupply, ?_⟩ <;>
    simp only [State.editFields] <;> split_ifs with hne
  · exact hname.resolve_left (fun heq => hne heq.symm)
  · exact hft.name
  · exact Or.inr (halias.resolve_left (fun heq => hne heq.symm))
  · exact hft.minUnitAlias
  · exact ⟨hne.le, (hmax hne).trans hft.maxSupply.2⟩
  · exact hft.maxSupply

end

section
variable {g : Gateway} {moniker : String}

/-- `Gateway.Validate`. -/
def Gateway.validate (g : Gateway) : Outcome Unit := do
  validateMoniker g.moniker
  validateGatewayDesc (some g.identity) (some g.details) (some g.website)

lemma isWord_of_validateMoniker (h : validateMoniker moniker = .ok ()) :
    isWord (toLower moniker).toList = true := by
  simp only [validateMoniker, bind_ok, require_ok, and_eq_true] at h
  obtain ⟨_, hsize, _, hchars, _⟩ := h
  exact isWord_toLower hsize hchars.1 hchars.2

lemma validateMoniker_toLower (h : validateMoniker moniker = .ok ()) :
    validateMoniker (toLower moniker) = .ok () := by
  simp only [validateMoniker, bind_ok, require_ok, exists_const, and_eq_true] at h ⊢
  obtain ⟨hsize, ⟨hbegin, halnum⟩, hiris⟩ := h
  have hlower := isAlphaNumeric_toLower halnum
  rw [sizeWithin_toLower halnum, toLower_toLower (ascii_of_isAlphaNumeric hlower)]
  exact ⟨hsize, ⟨isBeginWithAlpha_toLower hbegin, hlower⟩, hiris⟩

lemma editGateway_validate {msg : MsgEditGateway} (hv : msg.validateBasic = .ok ())
    (hg : g.validate = .ok ()) : Gateway.validate { g with
      identity := (updated msg.identity).getD g.identity
      details := (updated msg.details).getD g.details
      website := (updated msg.website).getD g.website } = .ok () := by
  simp only [MsgEditGateway.validateBasic, Gateway.validate, validateGatewayDesc, bind_ok,
    require_ok, exists_const, Option.all_some] at hv hg ⊢
  obtain ⟨_, _, _, hidentity, hdetails, hwebsite⟩ := hv
  obtain ⟨u, hmoniker, hidentity', hdetails', hwebsite'⟩ := hg
  have hfield : ∀ {p : String → Bool} {f : Option String} {x : String}, f.all p = true →
      p x = true → p (f.getD x) = true := by
    intro p f x hf hx
    cases f with
    | none => exact hx
    | some y => exact hf
  exact ⟨u, hmoniker,
    hfield (p := fun y => decide (byteLen y ≤ maximumGatewayIdentitySize)) hidentity hidentity',
    hfield (p := fun y => decide (byteLen y ≤ maximumGatewayDetailsSize)) hdetails hdetails',
    hfield (p := fun y => decide (byteLen y ≤ maximumGatewayWebsiteSize)) hwebsite hwebsite'⟩

end
end Irishub.Asset
