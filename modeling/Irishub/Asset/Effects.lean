import Irishub.Asset.Checks
import Irishub.Lib.Index

/-!
# Asset: what an operation does

`Effect` says once what the messages and the initialisation of the module do to the records, to
their indexes and to the bank: a token is issued, units of it are minted, a token is rewritten
under the names it has, or a gateway is written. The invariants of the module are proved of these
cases.

The first invariant is `State.Inv`: every stored token is named as the checks require and stands
under its own key, and every gateway is named by a word.

**Results**

* `handle_effect`, `init_effect`: every operation that returns has an effect.
* `Effect.inv`: an effect keeps `State.Inv`.
-/

namespace Irishub.Asset
open Lib FungibleToken State Store

/-- `GetSigners`. -/
def Msg.signers : Msg → List Address
  | issueToken msg => msg.owner.toList
  | createGateway msg => [msg.owner]
  | editGateway msg => [msg.owner]
  | editToken msg => [msg.owner]
  | transferGatewayOwner msg => [msg.owner]
  | mintToken msg => [msg.owner]
  | transferTokenOwner msg => [msg.srcOwner]

/-- What happens to the tokens: a message of the module, a burn, or the initialisation. -/
inductive Op
  | msg (m : Msg)
  | burn (owner : Address) (coins : Coins)
  | init

namespace Op

/-- `ValidateBasic`, for a burn that of `MsgBurn`. -/
def validateBasic : Op → Outcome Unit
  | msg m => m.validateBasic
  | burn _ coins => do
    require (coins ≠ []) .errInvalidCoins
    require coins.isValid .errInvalidCoins
  | init => .ok ()

def run (params : Params) (s : State) : Op → Outcome State
  | msg m => handle params s m
  | burn owner coins => do
    let b ← s.bank.burnCoins owner coins
    return { s with bank := b }
  | init => s.init

def DefaultCovered : Op → Prop
  | msg (.issueToken m) => m.DefaultCoversSupply
  | _ => True

end Op

/-- Entry of a native token in the index of tokens by owner. -/
def ownerTokenKey (id : String) (ft : FungibleToken) : Option (Address ×ₗ String) :=
  if ft.source = .native then ft.owner.map (fun owner => toLex (owner, id)) else none

/-- Entry of a gateway in the index of gateways by owner. -/
def ownerGatewayKey (moniker : String) (g : Gateway) : Option (Address ×ₗ String) :=
  some (toLex (g.owner, moniker))

/-- Every stored token is well named and stands under its own key; gateways are named by words. -/
structure State.Inv (s : State) : Prop where
  token : ∀ k ft, s.tokens.get k = some ft → ft.WellNamed ∧ k = ft.key
  gateway : ∀ k g, s.gateways.get k = some g → isWord k.toList = true ∧ g.moniker = k

def State.Issued (s : State) (d : String) : Prop :=
  ∃ k ft, s.tokens.get k = some ft ∧ ft.getDenom = d

/-- A new token, with its entries in the indexes. -/
def State.file (s : State) (ft : FungibleToken) : State :=
  { s with
    tokens := s.tokens.set ft.key ft
    tokensIndex := s.tokensIndex.set ft.key ft.key
    ownerTokens := reindex s.ownerTokens ft.key none (ownerTokenKey ft.key ft) }

/-- A gateway, new or in the place of an old one, with its entry in the index. -/
def State.fileGateway (s : State) (g : Gateway) : State :=
  { s with
    gateways := s.gateways.set g.moniker g
    ownerGateways := reindex s.ownerGateways g.moniker
      ((s.gateways.get g.moniker).bind (ownerGatewayKey g.moniker)) (ownerGatewayKey g.moniker g) }

/-- A fee is split between the community tax and the burning address, or there is none. -/
def Charged (signers : List Address) (b b' : Bank) : Prop :=
  b' = b ∨ ∃ acc ∈ signers, ∃ tax burned b₁,
    b.sendCoins acc communityTaxCoinsAccAddr [tax] = .ok b₁ ∧ b₁.burnCoins acc [burned] = .ok b'

/-- A token is issued, and its initial supply credited to a signer; the external tokens of `Init`
have no owner and start without supply. `covered` stands for what makes the cap high enough. -/
structure Issue (signers : List Address) (covered : Prop) (s : State) (ft : FungibleToken)
    (b₁ : Bank) : Prop where
  named : ft.WellNamed
  sound : ft.Sound
  filed : ft.filed = ft
  free : s.tokens.get ft.key = none
  listed : ft.source = .gateway → ∃ g, s.gateways.get ft.gateway = some g
  covers : ft.initialSupply ≤ ft.maxSupply ↔ covered
  credit : ∃ b owner, Charged signers s.bank b ∧ (∀ acc, owner = some acc → acc ∈ signers) ∧
    (owner = none → ft.initialSupply = 0) ∧
    creditOwner b owner ⟨ft.getDenom, ft.initialSupply⟩ = .ok b₁

/-- State after an issue: the supply is recorded as well. -/
def State.issued (s : State) (ft : FungibleToken) (b : Bank) : State :=
  { s.file ft with bank := b.setTotalSupply ⟨ft.getDenom, ft.initialSupply⟩ }

/-- What a successful operation does. -/
inductive Effect (signers : List Address) (covered : Prop) (s : State) : State → Prop
  | idle : Effect signers covered s s
  | issue {ft : FungibleToken} {b₁ : Bank} (h : Issue signers covered s ft b₁) :
      Effect signers covered s (s.issued ft b₁)
  | mint {k : String} {ft : FungibleToken} {acc : Address} {amount : ℤ} {issued : Coin}
      {b b₁ b₂ : Bank} (hft : s.tokens.get k = some ft) (hpos : 0 < amount)
      (hissued : s.bank.getTotalSupply ft.getDenom = some issued)
      (hmax : amount + issued.amount ≤ ft.maxSupply) (hfee : Charged signers s.bank b)
      (hincrease : b.increaseTotalSupply ⟨ft.getDenom, amount⟩ = .ok b₁)
      (hcredit : b₁.addCoins acc [⟨ft.getDenom, amount⟩] = .ok b₂) :
      Effect signers covered s { s with bank := b₂ }
  | rewrite {k : String} {ft ft' : FungibleToken} (hft : s.tokens.get k = some ft)
      (hnames : SameNames ft ft') (hsound : ft.Sound → ft'.Sound)
      (hfiled : ft.filed = ft → ft'.filed = ft')
      (hmax : ∀ c, s.bank.getTotalSupply ft.getDenom = some c → c.amount ≤ ft.maxSupply →
        c.amount ≤ ft'.maxSupply) :
      Effect signers covered s { s with
        tokens := s.tokens.set k ft'
        ownerTokens := reindex s.ownerTokens k (ownerTokenKey k ft) (ownerTokenKey k ft') }
  | gateway {g : Gateway} {b : Bank} (hword : isWord g.moniker.toList = true)
      (hvalid : (∀ old, s.gateways.get g.moniker = some old → old.validate = .ok ()) →
        g.validate = .ok ()) (hfee : Charged signers s.bank b) :
      Effect signers covered s { s.fileGateway g with bank := b }

section
variable {params : Params} {signers : List Address} {covered : Prop} {s s' : State} {b b' : Bank}
  {token ft : FungibleToken} {owner : Option Address} {k : String}

lemma State.Inv.eq_of_key (hinv : s.Inv) {k' : String} {ft' : FungibleToken}
    (hft : s.tokens.get k = some ft) (hft' : s.tokens.get k' = some ft') (hkey : ft.key = ft'.key) :
    ft = ft' := by
  rw [(hinv.token k ft hft).2, hkey, ← (hinv.token k' ft' hft').2, hft', Option.some.injEq] at hft
  exact hft.symm

lemma Effect.inv (h : Effect signers covered s s') (hs : s.Inv) : s'.Inv := by
  cases h with
  | idle => exact hs
  | issue h => exact ⟨forall_set hs.token ⟨h.named, rfl⟩, hs.gateway⟩
  | mint => exact ⟨hs.token, hs.gateway⟩
  | rewrite hft hnames =>
    obtain ⟨hnamed, hk⟩ := hs.token _ _ hft
    exact ⟨forall_set hs.token ⟨hnames.wellNamed hnamed, hk.trans hnames.key_eq.symm⟩, hs.gateway⟩
  | gateway hword => exact ⟨hs.token, forall_set hs.gateway ⟨hword, rfl⟩⟩

lemma issued_iff_of_tokens (h : s'.tokens = s.tokens) (d : String) : s'.Issued d ↔ s.Issued d := by
  rw [State.Issued, State.Issued, h]

lemma issued_iff_of_rewrite {ft' : FungibleToken} (hft : s.tokens.get k = some ft)
    (hnames : SameNames ft ft') (h : s'.tokens = s.tokens.set k ft') (d : String) :
    s'.Issued d ↔ s.Issued d := by
  rw [State.Issued, State.Issued, h]
  constructor
  · rintro ⟨k', ft'', hft'', rfl⟩
    rw [get_set] at hft''
    split_ifs at hft'' with hk
    · cases hft''
      exact ⟨k, ft, hft, hnames.getDenom_eq.symm⟩
    · exact ⟨k', ft'', hft'', rfl⟩
  · rintro ⟨k', ft'', hft'', rfl⟩
    by_cases hk : k' = k
    · rw [hk, hft, Option.some.injEq] at hft''
      exact ⟨k, ft', get_set_self _ _ _, by rw [hnames.getDenom_eq, hft'']⟩
    · exact ⟨k', ft'', (get_set_ne _ _ hk).trans hft'', rfl⟩

lemma getGateway_ok {moniker : String} {g : Gateway} :
    s.getGateway moniker = .ok g ↔ s.gateways.get moniker = some g := by
  unfold getGateway
  split <;> simp_all

lemma issuedSupply_ok {c : Coin} :
    s.issuedSupply token = .ok c ↔ s.bank.getTotalSupply token.getDenom = some c := by
  unfold issuedSupply
  split <;> simp_all

lemma findToken_ok {tokenId : String} (h : s.findToken tokenId = .ok token) :
    ∃ ft, s.tokens.get (keyToken tokenId) = some ft ∧ token = s.withOwner ft := by
  unfold findToken getToken at h
  split at h
  · cases h
  · rename_i ft hft
    cases h
    exact ⟨ft, hft, rfl⟩

lemma setToken_eq (h : token.WellNamed) :
    s.setToken token = .ok { s with tokens := s.tokens.set token.key token.stored } := by
  have hstored := (sameNames_stored token).wellNamed h
  have hid := hstored.getTokenID_eq
  rw [(sameNames_stored token).key_eq] at hid
  simp only [setToken, hid, ok_bind, pure_ok, h.keyToken_key]

lemma setTokens_none (hnamed : token.WellNamed) : s.setTokens none token =
    .ok { s with tokensIndex := s.tokensIndex.set token.key token.key } := by
  rw [setTokens, hnamed.getTokenID_eq, ok_bind]
  rfl

lemma setTokens_some (hnamed : token.WellNamed) (owner : Address) : s.setTokens (some owner) token =
      .ok { s with ownerTokens := s.ownerTokens.set (toLex (owner, token.key)) token.key } := by
  rw [setTokens, hnamed.getTokenID_eq, ok_bind]
  rfl

lemma indexToken_eq (hnamed : token.WellNamed)
    (howner : token.source = .native → owner = token.owner) :
    s.indexToken owner token = .ok { s with
      tokensIndex := s.tokensIndex.set token.key token.key
      ownerTokens := reindex s.ownerTokens token.key none (ownerTokenKey token.key token) } := by
  unfold indexToken ownerTokenKey
  by_cases hs : token.source = .native
  · rw [if_pos hs, if_pos hs, howner hs]
    cases token.owner with
    | none =>
      rw [setTokens_none hnamed, ok_bind, setTokens_none hnamed]
      simp only [Store.set_set]
      rfl
    | some a =>
      rw [setTokens_some hnamed, ok_bind, setTokens_none hnamed]
      rfl
  · rw [if_neg hs, if_neg hs, setTokens_none hnamed]
    rfl

/-- Token that `AddToken` stores, and the owner it returns. -/
lemma resolveOwner_eq_ok {token₁ : FungibleToken}
    (h : s.resolveOwner token = .ok (token₁, owner)) :
    SameNames token token₁ ∧ token₁.stored = token.filed ∧ token₁.owner = token.owner ∧
      token₁.initialSupply = token.initialSupply ∧
      (token.source = .native → owner = token.owner) ∧
      (token.source = .gateway →
        ∃ g, s.gateways.get token.gateway = some g ∧ owner = some g.owner) ∧
      (token.source = .external → owner = none) := by
  unfold resolveOwner at h
  split at h
  · rename_i hs
    obtain ⟨g, hg, hr⟩ := bind_ok.mp h
    cases hr
    exact ⟨⟨rfl, rfl, fun _ => rfl⟩, by simp [filed, hs], rfl, rfl, by simp [hs],
      fun _ => ⟨g, getGateway_ok.mp hg, rfl⟩, by simp [hs]⟩
  · rename_i hs
    cases h
    exact ⟨⟨rfl, rfl, by simp [hs]⟩, by simp [filed, stored, hs], rfl, rfl, fun _ => rfl,
      by simp [hs], by simp [hs]⟩
  · rename_i hgateway hnative
    cases h
    exact ⟨⟨rfl, rfl, fun _ => rfl⟩, by rw [filed, if_neg hnative], rfl, rfl,
      fun hn => absurd hn hnative, fun hg => absurd hg hgateway, fun _ => rfl⟩

/-- `AddToken` of a well-named token files it under a free key. -/
lemma addToken_ok_iff (hnamed : token.WellNamed) {r : State × FungibleToken × Option Address} :
    s.addToken token = .ok r ↔ s.tokens.get token.key = none ∧ ∃ token₁ owner,
      s.resolveOwner token = .ok (token₁, owner) ∧ r = (s.file token.filed, token₁, owner) := by
  have hfree : (!s.hasToken token.key) = true ↔ s.tokens.get token.key = none := by
    simp [hasToken, Store.has, hnamed.keyToken_key]
  -- the two writes after the owner is known
  have hwrites : ∀ {token₁ owner}, s.resolveOwner token = .ok (token₁, owner) →
      (s.setToken token₁ >>= fun s => s.indexToken owner token₁) = .ok (s.file token.filed) := by
    intro token₁ owner h
    obtain ⟨hsame, hstored, howner₁, _, howner, _⟩ := resolveOwner_eq_ok h
    have hkey : token.filed.key = token₁.key :=
      (sameNames_filed token).key_eq.trans hsame.key_eq.symm
    have hentry : ownerTokenKey token₁.key token.filed = ownerTokenKey token₁.key token₁ := by
      rw [← hstored, ownerTokenKey, ownerTokenKey, (sameNames_stored token₁).source]
      split_ifs with hs
      · rw [stored, if_neg (by simp [hs])]
      · rfl
    rw [setToken_eq (hsame.wellNamed hnamed), ok_bind, indexToken_eq (hsame.wellNamed hnamed)
      (fun hs => (howner (hsame.source ▸ hs)).trans howner₁.symm), State.file, hkey, hentry,
      ← hstored]
  simp only [addToken, hnamed.getTokenID_eq, ok_bind, bind_ok, require_ok, hfree, exists_const,
    pure_eq_ok, Prod.exists]
  refine and_congr_right (fun _ => exists₂_congr (fun token₁ owner => and_congr_right fun h => ?_))
  constructor
  · rintro ⟨s₁, hset, s₂, hindex, rfl⟩
    cases (bind_ok.mpr ⟨s₁, hset, hindex⟩).symm.trans (hwrites h)
    rfl
  · rintro rfl
    obtain ⟨s₁, hset, hindex⟩ := bind_ok.mp (hwrites h)
    exact ⟨s₁, hset, _, hindex, rfl⟩

/-- `IssueToken`, after a fee has been charged to the bank `b`. -/
lemma issueToken_issue (hinv : s.Inv) (hsymbol : isWord token.symbol.toList = true)
    (hiris : token.symbol ≠ iris) (hsource : ∀ n, token.source ≠ .unknown n)
    (hsound : token.Sound) (hcovers : token.initialSupply ≤ token.maxSupply ↔ covered)
    (howner : ∀ acc, token.owner = some acc → acc ∈ signers)
    (hexternal : token.source = .external → token.initialSupply = 0)
    (hfee : Charged signers s.bank b) (h : { s with bank := b }.issueToken token = .ok s') :
    ∃ b₁, Issue signers covered s token.filed b₁ ∧ s' = s.issued token.filed b₁ := by
  obtain ⟨_, hgateway, h⟩ := bind_ok.mp h
  have hgateway : token.source = .gateway →
      ∃ g, s.gateways.get token.gateway = some g ∧ some g.owner = token.owner := by
    intro hs
    simpa [checkGatewayOwner, hs, bind_ok, require_ok, getGateway_ok] using hgateway
  have hnamed : token.WellNamed := by
    refine ⟨hsymbol, hiris, fun hs => ?_, hsource⟩
    obtain ⟨g, hg, _⟩ := hgateway hs
    exact (hinv.gateway _ g hg).1
  have hfiled := sameNames_filed token
  obtain ⟨hinitial, hmax⟩ := supplies_filed token
  simp only [bind_ok, addToken_ok_iff hnamed, Coin.newCoin_ok, pure_eq_ok] at h
  obtain ⟨_, ⟨hfree, token₁, owner, hresolve, rfl⟩, _, ⟨rfl, _⟩, b₁, hcredit, rfl⟩ := h
  obtain ⟨hsame, _, _, hsupply, hnative, hlisted, hnone⟩ := resolveOwner_eq_ok hresolve
  have hdenom : token₁.getDenom = token.filed.getDenom :=
    hsame.getDenom_eq.trans hfiled.getDenom_eq.symm
  -- a native or gateway token is credited to the owner in the message
  have howned : owner = token.owner ∨ token.source = .external ∧ owner = none := by
    cases hs : token.source with
    | native => exact .inl (hnative hs)
    | gateway =>
      obtain ⟨g, hg, hcheck⟩ := hgateway hs
      obtain ⟨g', hg', rfl⟩ := hlisted hs
      cases hg.symm.trans hg'
      exact .inl hcheck
    | external => exact .inr ⟨rfl, hnone hs⟩
    | unknown n => exact absurd hs (hsource n)
  simp only [hdenom, hsupply, ← hinitial] at hcredit ⊢
  refine ⟨b₁, ⟨hfiled.wellNamed hnamed, hsound.filed, filed_filed token, ?_, fun hs => ?_, ?_,
    b, owner, hfee, fun acc hacc => ?_, fun hnobody => ?_, hcredit⟩, rfl⟩
  · rw [hfiled.key_eq]
    exact hfree
  · rw [hfiled.source] at hs
    obtain ⟨g, hg, _⟩ := hgateway hs
    exact ⟨g, by rw [hfiled.gateway hs]; exact hg⟩
  · rw [hinitial, hmax, hcovers]
  · rcases howned with heq | ⟨_, heq⟩
    · exact howner acc (heq ▸ hacc)
    · rw [heq] at hacc
      cases hacc
  · rw [hinitial]
    rcases howned with heq | ⟨hs, _⟩
    · cases hs : token.source with
      | native => exact absurd (hsound.owner hs) (by simp [← heq, hnobody])
      | gateway =>
        obtain ⟨g, _, hcheck⟩ := hgateway hs
        rw [← heq, hnobody] at hcheck
        cases hcheck
      | external => exact hexternal hs
      | unknown n => exact absurd hs (hsource n)
    · exact hexternal hs

lemma feeHandler_charged {acc : Option Address} {fee : Coin}
    (h : feeHandler params b acc fee = .ok b') : Charged acc.toList b b' := by
  simp only [feeHandler, bind_ok] at h
  obtain ⟨tax, _, amount, _, community, _, burned, _, h⟩ := h
  cases acc with
  | none => cases h
  | some acc =>
    obtain ⟨b₁, h1, h2⟩ := bind_ok.mp h
    exact Or.inr ⟨acc, by simp, community, burned, b₁, h1, h2⟩

lemma issueFee_charged {msg : MsgIssueToken} (h : issueFee params b msg = .ok b') :
    Charged msg.owner.toList b b' := by
  unfold issueFee at h
  split at h
  · obtain ⟨fee, _, h⟩ := bind_ok.mp h
    exact feeHandler_charged h
  · obtain ⟨fee, _, h⟩ := bind_ok.mp h
    exact feeHandler_charged h
  · cases h
    exact Or.inl rfl

lemma mintFee_charged {owner : Address} (h : State.mintFee params b token owner = .ok b') :
    Charged [owner] b b' := by
  unfold mintFee at h
  split at h
  · obtain ⟨fee, _, h⟩ := bind_ok.mp h
    exact feeHandler_charged h
  · obtain ⟨fee, _, h⟩ := bind_ok.mp h
    exact feeHandler_charged h
  · cases h
    exact Or.inl rfl

lemma handleIssueToken_issue {msg : MsgIssueToken} (hinv : s.Inv)
    (hv : msg.validateBasic = .ok ()) (h : handleIssueToken params s msg = .ok s') :
    ∃ ft b₁, Issue msg.owner.toList msg.DefaultCoversSupply s ft b₁ ∧ s' = s.issued ft b₁ := by
  have hmsg := MsgIssueToken.checked_of_validateBasic hv
  simp only [handleIssueToken, bind_ok] at h
  obtain ⟨token, htoken, b, hfee, hissue⟩ := h
  obtain ⟨hsymbol, hsource, howner, hcovers⟩ := tokenOfMsg_ok hmsg htoken
  exact ⟨_, issueToken_issue hinv (hsymbol ▸ hmsg.symbol) (hsymbol ▸ hmsg.ne_iris)
    (hsource ▸ hmsg.source) (tokenOfMsg_sound hmsg htoken) hcovers (by simp [howner])
    (fun hs => absurd (hsource ▸ hs) hmsg.external) (issueFee_charged hfee) hissue⟩

lemma mintToken_effect {msg : MsgMintToken} (hv : msg.validateBasic = .ok ())
    (h : s.mintToken params msg = .ok s') : Effect [msg.owner] covered s s' := by
  simp only [MsgMintToken.validateBasic, bind_ok, require_ok, Bool.and_eq_true,
    decide_eq_true_eq] at hv
  obtain ⟨_, ⟨hpos, hle⟩, _⟩ := hv
  simp only [mintToken, bind_ok, require_ok, decide_eq_true_eq, pure_eq_ok, issuedSupply_ok,
    SdkInt.newIntWithDecimal, SdkInt.newIntFromBigInt_ok, SdkInt.add_eq_ok, Coin.newCoin_ok,
    int64OfUint64_of_le hle] at h
  obtain ⟨_, htoken, _, howner, _, _, issued, hissued, _, _, _, ⟨rfl, _⟩, _, ⟨rfl, _⟩, _, hmax, b,
    hfee, _, ⟨rfl, _⟩, b₁, hincrease, b₂, hcredit, rfl⟩ := h
  obtain ⟨ft, hft, rfl⟩ := findToken_ok htoken
  rw [(sameNames_withOwner s ft).getDenom_eq] at hissued hincrease hcredit
  rw [maxSupply_withOwner] at hmax
  have hamount : (0 : ℤ) < msg.amount * 10 ^ (s.withOwner ft).decimal := by
    have : (0 : ℤ) < msg.amount := by exact_mod_cast hpos
    positivity
  obtain ⟨acc, hacc⟩ : ∃ acc, (msg.toAddr.orElse fun _ => (s.withOwner ft).owner) = some acc := by
    cases hto : msg.toAddr with
    | none => exact ⟨msg.owner, by simp [← howner]⟩
    | some acc => exact ⟨acc, rfl⟩
  rw [hacc] at hcredit
  exact .mint hft hamount hissued hmax (mintFee_charged hfee) hincrease hcredit

/-- An edit keeps the form in which tokens are stored, and the owner. -/
lemma editFields_filed {msg : MsgEditToken} {maxSupply : ℤ} :
    (ft.filed = ft → (editFields (s.withOwner ft) msg maxSupply).stored.filed =
      (editFields (s.withOwner ft) msg maxSupply).stored) ∧
    ∀ k, ownerTokenKey k (editFields (s.withOwner ft) msg maxSupply).stored =
      ownerTokenKey k ft := by
  rw [filed_eq_self_iff, filed_eq_self_iff]
  by_cases hn : ft.source = .native
  · simp [editFields, withOwner, stored, ownerTokenKey, hn]
  · by_cases hg : ft.source = .gateway <;>
      simp [editFields, withOwner, stored, ownerTokenKey, hg, hn]

lemma editToken_effect {msg : MsgEditToken} (hinv : s.Inv) (hv : msg.validateBasic = .ok ())
    (h : s.editToken msg = .ok s') : Effect [msg.owner] covered s s' := by
  simp only [editToken, bind_ok, require_ok, issuedSupply_ok, Bool.not_eq_true',
    Bool.and_eq_false_iff, Bool.or_eq_false_iff, decide_eq_false_iff_not, not_lt] at h
  obtain ⟨_, htoken, _, _, issued, hissued, maxSupply, _, _, hmax, hset⟩ := h
  obtain ⟨ft, hft, rfl⟩ := findToken_ok htoken
  obtain ⟨hnamed, hk⟩ := hinv.token _ _ hft
  have howner := sameNames_withOwner s ft
  have hedit : SameNames ft (editFields (s.withOwner ft) msg maxSupply) :=
    howner.trans ⟨rfl, rfl, fun _ => rfl⟩
  rw [howner.getDenom_eq] at hissued
  rw [maxSupply_withOwner] at hmax
  have heffect : Effect [msg.owner] covered s _ := .rewrite hft (hedit.trans (sameNames_stored _))
    (fun hsound => (editFields_sound (hsound.withOwner s) hv (fun hpos => ?_)).stored)
    editFields_filed.1 (fun c hc hold => ?_)
  · rw [reindex, if_pos (editFields_filed.2 _)] at heffect
    rw [setToken_eq (hedit.wellNamed hnamed), hedit.key_eq, ← hk] at hset
    cases hset
    exact heffect
  · rw [maxSupply_withOwner]
    omega
  · have hstored : ((editFields (s.withOwner ft) msg maxSupply).stored).maxSupply =
        if 0 < maxSupply then maxSupply else ft.maxSupply := by
      rw [← maxSupply_withOwner s ft]
      unfold stored
      split_ifs <;> simp_all [editFields]
    rw [hissued, Option.some.injEq] at hc
    rw [hstored, ← hc]
    split_ifs with hpos
    · omega
    · rw [hc]
      exact hold

lemma transferTokenOwner_effect {msg : MsgTransferTokenOwner} (hinv : s.Inv)
    (hv : msg.validateBasic = .ok ()) (h : s.transferTokenOwner msg = .ok s') :
    Effect [msg.srcOwner] covered s s' := by
  obtain ⟨_, hne, _⟩ := bind_ok.mp hv
  rw [require_ok, decide_eq_true_eq] at hne
  unfold transferTokenOwner getToken at h
  split at h
  · cases h
  · rename_i ft hft
    obtain ⟨hnamed, hk⟩ := hinv.token _ _ hft
    simp only [bind_ok, require_ok, decide_eq_true_eq] at h
    obtain ⟨_, hnative, _, howner, s₁, hset, _, hid, hindex⟩ := h
    have hsame : SameNames ft { ft with owner := some msg.dstOwner } := ⟨rfl, rfl, fun _ => rfl⟩
    have hnamed' := hsame.wellNamed hnamed
    have hstored : stored { ft with owner := some msg.dstOwner } =
        { ft with owner := some msg.dstOwner } := if_neg (by simp [hnative])
    rw [setToken_eq hnamed', hsame.key_eq, ← hk, hstored] at hset
    cases hset
    rw [hnamed.getTokenID_eq, ← hk] at hid
    cases hid
    rw [setTokens_some hnamed', hsame.key_eq, ← hk] at hindex
    cases hindex
    have hreindex : reindex s.ownerTokens (keyToken msg.tokenId)
        (ownerTokenKey (keyToken msg.tokenId) ft)
        (ownerTokenKey (keyToken msg.tokenId) { ft with owner := some msg.dstOwner }) =
        (s.ownerTokens.delete (toLex (msg.srcOwner, keyToken msg.tokenId))).set
          (toLex (msg.dstOwner, keyToken msg.tokenId)) (keyToken msg.tokenId) := by
      simp [ownerTokenKey, hnative, ← howner, reindex, Ne.symm hne]
    have heffect : Effect [msg.srcOwner] covered s _ := .rewrite hft hsame
      (fun hsound => hsound.with_owner (fun _ => rfl))
      (fun hfiled => ?_) (fun _ _ hold => hold)
    · rw [hreindex] at heffect
      exact heffect
    · rw [filed_eq_self_iff, if_pos hnative] at hfiled
      rw [filed_eq_self_iff, if_pos (by exact hnative)]
      exact hfiled

lemma handleMsgCreateGateway_effect {msg : MsgCreateGateway} (hv : msg.validateBasic = .ok ())
    (h : handleMsgCreateGateway params s msg = .ok s') : Effect [msg.owner] covered s s' := by
  obtain ⟨_, hmoniker, hdesc⟩ := bind_ok.mp hv
  simp only [handleMsgCreateGateway, gatewayCreateFeeHandler, createGateway, bind_ok, require_ok,
    pure_eq_ok] at h
  obtain ⟨b, ⟨fee, _, hfee⟩, _, hnew, rfl⟩ := h
  have hfree : s.gateways.get (toLower msg.moniker) = none := by simpa [Store.has] using hnew
  have heffect : Effect [msg.owner] covered s _ := .gateway
    (g := ⟨msg.owner, toLower msg.moniker, msg.identity, msg.details, msg.website⟩)
    (isWord_of_validateMoniker hmoniker)
    (fun _ => bind_ok.mpr ⟨(), validateMoniker_toLower hmoniker, hdesc⟩) (feeHandler_charged hfee)
  simp only [fileGateway, hfree] at heffect
  exact heffect

/-- A gateway is rewritten under its moniker. -/
lemma Effect.of_gateway {moniker : String} {g : Gateway} (g' : Gateway) (hinv : s.Inv)
    (hg : s.gateways.get moniker = some g) (hmoniker : g'.moniker = g.moniker)
    (hvalid : g.validate = .ok () → g'.validate = .ok ()) :
    Effect signers covered s { s with
      gateways := s.gateways.set g'.moniker g'
      ownerGateways := reindex s.ownerGateways g'.moniker (ownerGatewayKey g'.moniker g)
        (ownerGatewayKey g'.moniker g') } := by
  obtain ⟨hword, rfl⟩ := hinv.gateway moniker g hg
  rw [← hmoniker] at hword hg
  have heffect : Effect signers covered s _ :=
    .gateway (g := g') hword (fun hold => hvalid (hold g hg)) (Or.inl rfl)
  simp only [fileGateway, hg] at heffect
  exact heffect

lemma handle_effect {msg : Msg} (hinv : s.Inv) (hv : msg.validateBasic = .ok ())
    (h : handle params s msg = .ok s') :
    Effect msg.signers (Op.msg msg).DefaultCovered s s' := by
  cases msg with
  | issueToken msg =>
    obtain ⟨ft, b₁, hissue, rfl⟩ := handleIssueToken_issue hinv hv h
    exact .issue hissue
  | createGateway msg => exact handleMsgCreateGateway_effect hv h
  | editGateway msg =>
    simp only [handle, handleMsgEditGateway, editGateway, bind_ok, pure_eq_ok, getGateway_ok] at h
    obtain ⟨g, hg, _, _, rfl⟩ := h
    have heffect : Effect [msg.owner] True s _ :=
      .of_gateway _ hinv hg (by rfl) (editGateway_validate hv)
    rw [reindex, if_pos (by rfl)] at heffect
    exact heffect
  | editToken msg => exact editToken_effect hinv hv h
  | transferGatewayOwner msg =>
    obtain ⟨_, hne, _⟩ := bind_ok.mp hv
    simp only [handle, handleMsgTransferGatewayOwner, transferGatewayOwner, bind_ok, require_ok,
      decide_eq_true_eq, pure_eq_ok, getGateway_ok] at h hne
    obtain ⟨g, hg, _, howner, rfl⟩ := h
    have heffect : Effect [msg.owner] True s _ :=
      .of_gateway { g with owner := msg.toAddr } hinv hg rfl id
    have hreindex : ownerGatewayKey g.moniker { g with owner := msg.toAddr } ≠
        ownerGatewayKey g.moniker g := by
      simpa [ownerGatewayKey, ← howner] using hne
    rw [reindex, if_neg (by exact hreindex)] at heffect
    simp only [State.updateOwnerGateway, State.setGateway, howner]
    exact heffect
  | mintToken msg => exact mintToken_effect hv h
  | transferTokenOwner msg => exact transferTokenOwner_effect hinv hv h

lemma initToken_effect (hinv : s.Inv) (hsymbol : isWord token.symbol.toList = true)
    (hiris : token.symbol ≠ iris) (hsource : token.source = .external)
    (howner : token.owner = none) (hsound : token.Sound) (hzero : token.initialSupply = 0)
    (h : s.initToken token = .ok s') : Effect [] True s s' := by
  unfold initToken at h
  split at h
  · cases h
    exact Effect.idle
  · have hcovers : token.initialSupply ≤ token.maxSupply ↔ True := by
      simpa [hzero] using hsound.maxSupply.1
    have hissue : ∃ b₁, Issue [] True s token.filed b₁ ∧ s' = s.issued token.filed b₁ :=
      issueToken_issue hinv hsymbol hiris (by simp [hsource]) hsound hcovers (by simp [howner])
        (fun _ => hzero) (Or.inl rfl) h
    obtain ⟨b₁, hissue, rfl⟩ := hissue
    exact .issue hissue

lemma init_effect (hinv : s.Inv) (h : s.init = .ok s') :
    ∃ t, Effect [] True s t ∧ Effect [] True t s' := by
  simp only [init, bind_ok, SdkInt.newIntWithDecimal, SdkInt.newIntFromBigInt_ok] at h
  obtain ⟨_, ⟨rfl, _⟩, t, h1, _, ⟨rfl, _⟩, h2⟩ := h
  have hfirst := initToken_effect hinv (by decide +kernel) (by decide +kernel) rfl rfl
    ⟨rfl, fun hs => AssetSource.noConfusion hs, by decide +kernel, by decide +kernel,
      Or.inr (by decide +kernel), by decide +kernel, by decide +kernel, by decide +kernel⟩ rfl h1
  refine ⟨t, hfirst, initToken_effect (hfirst.inv hinv) (by decide +kernel) (by decide +kernel) rfl
    rfl ?_ rfl h2⟩
  exact ⟨rfl, fun hs => AssetSource.noConfusion hs, by decide +kernel, by decide +kernel,
    Or.inr (by decide +kernel), by decide +kernel, by decide +kernel, by decide +kernel⟩

end
end Irishub.Asset
