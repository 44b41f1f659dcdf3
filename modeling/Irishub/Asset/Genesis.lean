import Irishub.Asset.SupplyCap

/-!
# Asset: genesis

`asset/genesis.go`: the export writes the stored tokens and gateways, and the
initialisation checks them as `ValidateMsgIssueToken` and `Gateway.Validate` do
and adds them to an empty store. The parameters of the module are left out.

The checks of an issue message are not all kept by the edits of a token: a name
may be emptied, and the maximal supply may be lowered below the initial supply
once tokens are burned, or starts below it because of its default. The exported
tokens can be added again exactly when neither happened (`Reissuable`).
-/

namespace Irishub.Asset
open Lib Store List State

structure GenesisState where
  tokens : List FungibleToken
  gateways : List Gateway
  deriving DecidableEq

def State.exportGenesis (s : State) : GenesisState := ⟨s.tokens.values, s.gateways.values⟩

/-- `uint64(amount.Div(exp).Int64())`. -/
def mainUnits (amount exp : ℤ) : Outcome ℕ := do
  let quo ← SdkInt.div amount exp
  assert (-(2 ^ 63) ≤ quo ∧ quo < 2 ^ 63) .int64OutOfBound
  return (quo % 2 ^ 64).toNat

/-- Message that `Tokens.Validate` builds from a token. -/
def FungibleToken.toMsgIssueToken (token : FungibleToken) : Outcome MsgIssueToken := do
  let exp ← SdkInt.newIntWithDecimal 1 token.decimal
  let initialSupply ← mainUnits token.initialSupply exp
  let maxSupply ← mainUnits token.maxSupply exp
  return {
    family := token.family
    source := token.source
    gateway := token.gateway
    symbol := token.symbol
    canonicalSymbol := token.canonicalSymbol
    name := token.name
    decimal := token.decimal
    minUnitAlias := token.minUnitAlias
    initialSupply := initialSupply
    maxSupply := maxSupply
    mintable := token.mintable
    owner := token.owner }

/-- Body of the loop of `Tokens.Validate`. -/
def FungibleToken.validate (token : FungibleToken) : Outcome Unit := do
  let msg ← token.toMsgIssueToken
  let _ ← msg.validateMsgIssueToken
  return ()

/-- `ValidateGenesis`. -/
def GenesisState.validate (data : GenesisState) : Outcome Unit := do
  data.gateways.forM Gateway.validate
  data.tokens.forM FungibleToken.validate

/-- Loop of `InitGenesis` over the gateways. -/
def State.initGateways (s : State) (gateways : List Gateway) : State :=
  gateways.foldl
    (fun s gateway => (s.setGateway gateway).setOwnerGateway gateway.owner gateway.moniker) s

/-- Loop of `InitGenesis` over the tokens. -/
def State.initTokens (s : State) (tokens : List FungibleToken) : Outcome State :=
  tokens.foldlM (fun s token => do return (← panicOnError (s.addToken token)).1) s

def State.initGenesis (s : State) (data : GenesisState) : Outcome State := do
  panicOnError data.validate
  (s.initGateways data.gateways).initTokens data.tokens

/-- Token has a name, and its maximal supply in main units, unless it is zero and stands for
the default, covers its initial supply. -/
def FungibleToken.Reissuable (ft : FungibleToken) : Prop :=
  trimSpace ft.name ≠ "" ∧ (ft.maxSupply / 10 ^ ft.decimal = 0 ∨
    ft.initialSupply / 10 ^ ft.decimal ≤ ft.maxSupply / 10 ^ ft.decimal)

instance (ft : FungibleToken) : Decidable ft.Reissuable := inferInstanceAs (Decidable (_ ∧ _))

/-- What the operations keep besides `Inv`. -/
structure State.Sound (s : State) : Prop where
  token : ∀ k ft, s.tokens.get k = some ft → ft.Sound
  listed : ∀ k ft, s.tokens.get k = some ft → ft.source = .gateway →
    ∃ g, s.gateways.get ft.gateway = some g
  gateway : ∀ k g, s.gateways.get k = some g → g.validate = .ok ()

section
variable {s : String}

lemma trimSpace_of_isAlphaNumeric (h : isAlphaNumeric s = true) : trimSpace s = s := by
  refine trimSpace_eq_self (fun c hc => ?_)
  simp only [isAlphaNumeric, Bool.and_eq_true, all_eq_true] at h
  have halnum := h.2 c hc
  rw [Bool.or_eq_true, isAlpha_iff, isDigitChar_iff] at halnum
  rw [← Bool.not_eq_true]
  simp only [Unicode.isSpace, Bool.or_eq_true, Bool.and_eq_true, decide_eq_true_eq, beq_iff_eq]
  omega

lemma isMinUnitAlias_trim (h : isMinUnitAlias s = true) :
    isMinUnitAlias (toLower (trimSpace s)) = true := by
  simp only [isMinUnitAlias, Bool.and_eq_true] at h ⊢
  rw [trimSpace_of_isAlphaNumeric h.1.2, sizeWithin_toLower h.1.2]
  exact ⟨⟨h.1.1, isAlphaNumeric_toLower h.1.2⟩, isBeginWithAlpha_toLower h.2⟩

end

section
open FungibleToken
variable {ft : FungibleToken} {x : ℤ} {d k : ℕ} {msg : MsgIssueToken}

lemma mainUnits_bounds (hnn : 0 ≤ x) (hle : x ≤ k * 10 ^ d) : 0 ≤ x / 10 ^ d ∧ x / 10 ^ d ≤ k := by
  have hpow : (0 : ℤ) < 10 ^ d := by positivity
  refine ⟨Int.ediv_nonneg hnn hpow.le, ?_⟩
  rw [← Int.mul_ediv_cancel (k : ℤ) hpow.ne']
  exact Int.ediv_le_ediv hpow hle

lemma mainUnits_eq (hnn : 0 ≤ x) (hle : x ≤ k * 10 ^ d) (hk : k < 2 ^ 63) :
    mainUnits x (10 ^ d) = .ok (x / 10 ^ d).toNat := by
  have hpow : (0 : ℤ) < 10 ^ d := by positivity
  obtain ⟨hquo, hquo'⟩ := mainUnits_bounds hnn hle
  have hassert : assert (-(2 ^ 63) ≤ x / 10 ^ d ∧ x / 10 ^ d < 2 ^ 63) .int64OutOfBound = .ok () :=
    assert_ok.mpr (by rw [decide_eq_true_eq]; omega)
  rw [mainUnits, SdkInt.div, if_neg hpow.ne', ok_bind, hassert, ok_bind, pure_ok,
    Int.emod_eq_of_lt hquo (by omega)]

lemma FungibleToken.Sound.toMsgIssueToken_eq (h : ft.Sound) : ft.toMsgIssueToken = .ok {
      family := ft.family
      source := ft.source
      gateway := ft.gateway
      symbol := ft.symbol
      canonicalSymbol := ft.canonicalSymbol
      name := ft.name
      decimal := ft.decimal
      minUnitAlias := ft.minUnitAlias
      initialSupply := (ft.initialSupply / 10 ^ ft.decimal).toNat
      maxSupply := (ft.maxSupply / 10 ^ ft.decimal).toNat
      mintable := ft.mintable
      owner := ft.owner } := by
  have hpow : (10 : ℤ) ^ ft.decimal ≤ 10 ^ 18 := pow_le_pow_right₀ (by decide) h.decimal
  have hexp : SdkInt.newIntWithDecimal 1 ft.decimal = .ok (10 ^ ft.decimal) := by
    rw [SdkInt.newIntWithDecimal, SdkInt.newIntFromBigInt_ok, one_mul, SdkInt.inRange_iff]
    have hpos : (0 : ℤ) < 10 ^ ft.decimal := by positivity
    exact ⟨rfl, by omega, by omega⟩
  rw [toMsgIssueToken, hexp, ok_bind,
    mainUnits_eq h.initialSupply.1 h.initialSupply.2 (by decide), ok_bind,
    mainUnits_eq h.maxSupply.1 h.maxSupply.2 (by decide), ok_bind, pure_ok]

lemma MsgIssueToken.checkSource_ok (hnative : msg.source = .native → msg.owner.isSome = true)
    (hgateway : msg.source = .gateway → sizeWithin msg.gateway 3 8 = true)
    (hsource : ∀ b, msg.source ≠ .unknown b) : ∃ msg', msg.checkSource = .ok msg' := by
  unfold MsgIssueToken.checkSource
  cases hs : msg.source with
  | native => exact ⟨_, bind_ok.mpr ⟨(), require_ok.mpr (hnative hs), rfl⟩⟩
  | external => exact ⟨msg, rfl⟩
  | gateway => exact ⟨_, bind_ok.mpr ⟨(), require_ok.mpr (hgateway hs), rfl⟩⟩
  | unknown b => exact absurd hs (hsource b)

lemma FungibleToken.Sound.checkFields_iff (hnamed : ft.WellNamed) (h : ft.Sound)
    (hmsg : ft.toMsgIssueToken = .ok msg) :
    msg.trim.defaultMaxSupply.checkFields = .ok () ↔ ft.Reissuable := by
  obtain ⟨halnum, hbegin, hsize, hlower⟩ := isAlphaNumeric_of_isWord hnamed.symbol
  rw [h.toMsgIssueToken_eq, Except.ok.injEq] at hmsg
  subst hmsg
  have hsymbol : toLower (trimSpace ft.symbol) = ft.symbol := by
    rw [trimSpace_of_isAlphaNumeric halnum, hlower]
  have hname : sizeWithin (trimSpace ft.name) 1 maximumAssetNameSize = true ↔
      trimSpace ft.name ≠ "" := by
    rw [← byteLen_pos, sizeWithin, Bool.and_eq_true, decide_eq_true_eq, decide_eq_true_eq]
    exact and_iff_left ((byteLen_trimSpace_le ft.name).trans h.name)
  have halias : (byteLen (toLower (trimSpace ft.minUnitAlias)) = 0 ||
      isMinUnitAlias (toLower (trimSpace ft.minUnitAlias))) = true := by
    rcases h.minUnitAlias with hempty | hvalid
    · rw [hempty]
      decide
    · rw [isMinUnitAlias_trim hvalid, Bool.or_true]
  simp only [MsgIssueToken.checkFields, MsgIssueToken.trim, MsgIssueToken.defaultMaxSupply,
    bind_ok, require_ok, hsymbol, hlower, exists_const, Bool.and_eq_true, decide_eq_true_eq]
  obtain ⟨hinit, hinit'⟩ := mainUnits_bounds h.initialSupply.1 h.initialSupply.2
  obtain ⟨hmax, hmax'⟩ := mainUnits_bounds h.maxSupply.1 h.maxSupply.2
  simp only [maximumAssetInitSupply, maximumAssetMaxSupply] at hinit' hmax' ⊢
  constructor
  · rintro ⟨_, hn, _, _, _, _, ⟨hle, _⟩, _⟩
    refine ⟨hname.mp hn, ?_⟩
    split_ifs at hle <;> omega
  · rintro ⟨hn, hle⟩
    refine ⟨h.family, hname.mpr hn, ⟨⟨hsize, hbegin⟩, halnum⟩, by rw [h.symbol]; rfl, halias,
      by omega, ?_, h.decimal⟩
    split_ifs <;> omega

lemma FungibleToken.Sound.validate_iff (hnamed : ft.WellNamed) (h : ft.Sound) :
    ft.validate = .ok () ↔ ft.Reissuable := by
  obtain ⟨msg, hmsg⟩ : ∃ msg, ft.toMsgIssueToken = .ok msg := ⟨_, h.toMsgIssueToken_eq⟩
  have hcheck := h.checkFields_iff hnamed hmsg
  have hsource : ∃ msg', msg.trim.defaultMaxSupply.checkSource = .ok msg' := by
    rw [h.toMsgIssueToken_eq, Except.ok.injEq] at hmsg
    subst hmsg
    refine MsgIssueToken.checkSource_ok h.owner (fun hs => ?_) hnamed.source
    obtain ⟨halnum, _, hsize, hlower⟩ := isAlphaNumeric_of_isWord (hnamed.gateway hs)
    simp only [MsgIssueToken.defaultMaxSupply, MsgIssueToken.trim,
      trimSpace_of_isAlphaNumeric halnum, hlower, hsize]
  obtain ⟨msg', hmsg'⟩ := hsource
  rw [← hcheck, ← (MsgIssueToken.checkSource_eq_ok hmsg').1]
  simp only [validate, hmsg, ok_bind, MsgIssueToken.validateMsgIssueToken, hmsg',
    bind_ok, pure_eq_ok, and_true]
  constructor
  · rintro ⟨_, _, hfields, _⟩
    exact hfields
  · intro hfields
    exact ⟨msg', (), hfields, rfl⟩

end

section
open FungibleToken
variable {signers : List Address} {covered : Prop} {s s' : State}

lemma Effect.sound (h : Effect signers covered s s') (hs : s.Sound) : s'.Sound := by
  cases h with
  | idle => exact hs
  | issue h => exact ⟨forall_set hs.token h.sound, forall_set hs.listed h.listed, hs.gateway⟩
  | mint => exact ⟨hs.token, hs.listed, hs.gateway⟩
  | rewrite hft hnames hsound =>
    refine ⟨forall_set hs.token (hsound (hs.token _ _ hft)), forall_set hs.listed (fun hg => ?_),
      hs.gateway⟩
    rw [hnames.source] at hg
    rw [hnames.gateway hg]
    exact hs.listed _ _ hft hg
  | gateway hword hvalid =>
    exact ⟨hs.token, fun k ft hft hg => exists_get_set (hs.listed k ft hft hg) _ _,
      forall_set hs.gateway (hvalid (hs.gateway _))⟩

end

section
open FungibleToken
variable {s t t' : State} {token : FungibleToken}

/-- `AddToken` needs the gateway of the token, and a free key. -/
lemma State.addToken_returns_iff (hnamed : token.WellNamed) :
    (∃ r, s.addToken token = .ok r) ↔ s.tokens.get token.key = none ∧
      (token.source = .gateway → ∃ g, s.gateways.get token.gateway = some g) := by
  have hresolve : (∃ r, s.resolveOwner token = .ok r) ↔
      (token.source = .gateway → ∃ g, s.gateways.get token.gateway = some g) := by
    unfold resolveOwner
    cases hs : token.source with
    | gateway => simp [bind_ok, getGateway_ok]
    | native | external | unknown b => simp
  rw [← hresolve]
  simp only [addToken_ok_iff hnamed]
  constructor
  · rintro ⟨_, hfree, token₁, owner, h, _⟩
    exact ⟨hfree, _, h⟩
  · rintro ⟨hfree, ⟨token₁, owner⟩, h⟩
    exact ⟨_, hfree, token₁, owner, h, rfl⟩

lemma State.initTokens_cons (hnamed : token.WellNamed) {tokens : List FungibleToken} :
    t.initTokens (token :: tokens) = .ok t' ↔ (∃ r, t.addToken token = .ok r) ∧
      (t.file token.filed).initTokens tokens = .ok t' := by
  rw [initTokens, foldlM_cons]
  simp only [bind_ok, panicOnError_ok, pure_eq_ok]
  constructor
  · rintro ⟨_, ⟨r, hadd, rfl⟩, hrest⟩
    obtain ⟨_, token₁, owner, _, rfl⟩ := (addToken_ok_iff hnamed).mp hadd
    exact ⟨⟨_, hadd⟩, hrest⟩
  · rintro ⟨⟨r, hadd⟩, hrest⟩
    refine ⟨_, ⟨r, hadd, rfl⟩, ?_⟩
    obtain ⟨_, token₁, owner, _, rfl⟩ := (addToken_ok_iff hnamed).mp hadd
    exact hrest

lemma State.initTokens_ok : ∀ (tokens : List FungibleToken) (t : State),
    (∀ token ∈ tokens, token.WellNamed ∧ t.tokens.get token.key = none ∧
      (token.source = .gateway → ∃ g, t.gateways.get token.gateway = some g)) →
    (tokens.map key).Nodup → ∃ t', t.initTokens tokens = .ok t'
  | [], t, _, _ => ⟨t, rfl⟩
  | token :: tokens, t, h, hnodup => by
    obtain ⟨hnamed, hadd⟩ := h token (by simp)
    obtain ⟨hnotin, hnodup⟩ := nodup_cons.mp hnodup
    obtain ⟨t', ht'⟩ := initTokens_ok tokens (t.file token.filed) (fun token' htoken' => by
      obtain ⟨hnamed', hfree', hgateway'⟩ := h token' (mem_cons_of_mem _ htoken')
      refine ⟨hnamed', (get_set_ne _ _ (fun heq => hnotin ?_)).trans hfree', hgateway'⟩
      rw [← (sameNames_filed token).key_eq, ← heq]
      exact mem_map_of_mem htoken') hnodup
    exact ⟨t', (initTokens_cons hnamed).mpr ⟨(addToken_returns_iff hnamed).mpr hadd, ht'⟩⟩

lemma State.initTokens_bank {tokens : List FungibleToken}
    (hnamed : ∀ token ∈ tokens, token.WellNamed) (h : t.initTokens tokens = .ok t') :
    t'.bank = t.bank := by
  induction tokens generalizing t with
  | nil =>
    cases h
    rfl
  | cons token tokens ih =>
    obtain ⟨_, hrest⟩ := (initTokens_cons (hnamed token (by simp))).mp h
    have hbank := ih (fun token' htoken' => hnamed token' (mem_cons_of_mem _ htoken')) hrest
    exact hbank

lemma State.initGateways_frame (gateways : List Gateway) (t : State) :
    (t.initGateways gateways).tokens = t.tokens ∧ (t.initGateways gateways).bank = t.bank ∧
      ∀ k, ((∃ g, t.gateways.get k = some g) ∨ ∃ g ∈ gateways, g.moniker = k) →
        ∃ g, (t.initGateways gateways).gateways.get k = some g := by
  induction gateways generalizing t with
  | nil => exact ⟨rfl, rfl, fun k hk => hk.resolve_right (by simp)⟩
  | cons g gateways ih =>
    obtain ⟨htokens, hbank, hget⟩ := ih ((t.setGateway g).setOwnerGateway g.owner g.moniker)
    refine ⟨htokens, hbank, fun k hk => hget k ?_⟩
    rcases hk with hk | ⟨g', hg', rfl⟩
    · exact Or.inl (exists_get_set hk _ _)
    · rcases mem_cons.mp hg' with rfl | hg'
      · exact Or.inl ⟨g', get_set_self _ _ _⟩
      · exact Or.inr ⟨g', hg', rfl⟩

lemma State.initGenesis_bank (hinv : s.Inv) (h : t.initGenesis s.exportGenesis = .ok t') :
    t'.bank = t.bank := by
  obtain ⟨_, _, h⟩ := bind_ok.mp h
  refine (initTokens_bank (fun token htoken => ?_) h).trans (initGateways_frame _ t).2.1
  obtain ⟨k, hk⟩ := mem_values.mp htoken
  exact (hinv.token k token hk).1

/-- An export is read back into an empty store exactly when every token is `Reissuable`. -/
lemma State.initGenesis_ok_iff (hinv : s.Inv) (hsound : s.Sound) (ht : t.tokens = empty) :
    (∃ t', t.initGenesis s.exportGenesis = .ok t') ↔
      ∀ k ft, s.tokens.get k = some ft → ft.Reissuable := by
  have hvalidate : panicOnError s.exportGenesis.validate = .ok () ↔
      ∀ k ft, s.tokens.get k = some ft → ft.Reissuable := by
    rw [panicOnError_ok, GenesisState.validate, bind_ok]
    constructor
    · rintro ⟨_, _, htokens⟩ k ft hft
      rw [← (hsound.token k ft hft).validate_iff (hinv.token k ft hft).1]
      exact forM_ok.mp htokens ft (mem_values.mpr ⟨k, hft⟩)
    · intro h
      refine ⟨(), forM_ok.mpr (fun g hg => ?_), forM_ok.mpr (fun ft hft => ?_)⟩
      · obtain ⟨k, hk⟩ := mem_values.mp hg
        exact hsound.gateway k g hk
      · obtain ⟨k, hk⟩ := mem_values.mp hft
        exact ((hsound.token k ft hk).validate_iff (hinv.token k ft hk).1).mpr (h k ft hk)
  rw [← hvalidate]
  constructor
  · rintro ⟨t', h⟩
    obtain ⟨_, h, _⟩ := bind_ok.mp h
    exact h
  · intro h
    obtain ⟨htokens, _, hgateways⟩ := initGateways_frame s.exportGenesis.gateways t
    have hkeys : s.exportGenesis.tokens.map key = s.tokens.entries.map Prod.fst := by
      simp only [exportGenesis, values, map_map]
      refine map_congr_left (fun e he => ?_)
      exact ((hinv.token e.1 e.2 (mem_entries.mp he)).2).symm
    obtain ⟨t', ht'⟩ := initTokens_ok s.exportGenesis.tokens
      (t.initGateways s.exportGenesis.gateways) (fun token htoken => by
        obtain ⟨k, hk⟩ := mem_values.mp htoken
        refine ⟨(hinv.token k token hk).1, by rw [htokens, ht, get_empty], fun hs => ?_⟩
        obtain ⟨g, hg⟩ := hsound.listed k token hk hs
        exact hgateways _ (Or.inr ⟨g, mem_values.mpr ⟨_, hg⟩, (hinv.gateway _ g hg).2⟩))
      (by rw [hkeys]; exact nodup_keys _)
    exact ⟨t', bind_ok.mpr ⟨(), h, ht'⟩⟩

end
end Irishub.Asset
