import Irishub.Asset.Effects

/-!
# Asset: the supply of a token and its cap

The supply record of a token is written only by the operations on that token, and
`State.SupplyCapped` says that no record exceeds the maximal supply of its token.

`NewBaseToken` replaces a maximal supply of zero by `10 ^ 12` without scaling it
by the decimals of the token, while the initial supply is scaled. An issue
message that asks for the default therefore keeps the cap exactly when its
scaled initial supply is at most `10 ^ 12` (`DefaultCoversSupply`).
-/

namespace Irishub.Asset
open Lib State Store

/-- No supply record exceeds the cap of its token. -/
def State.SupplyCapped (s : State) : Prop :=
  ∀ k ft, s.tokens.get k = some ft →
    ∀ c, s.bank.getTotalSupply ft.getDenom = some c → c.amount ≤ ft.maxSupply

section
variable {params : Params} {signers : List Address} {covered : Prop} {s s' : State} {b b' : Bank}
  {ft : FungibleToken} {k : String}

lemma State.Inv.getTotalSupply_eq (hinv : s.Inv) (hft : s.tokens.get k = some ft) (b : Bank) :
    b.getTotalSupply ft.getDenom = b.totalSupply.get k := by
  obtain ⟨hnamed, hk⟩ := hinv.token k ft hft
  rw [Bank.getTotalSupply, hnamed.totalSupplyStoreKey_getDenom, hk]

lemma creditOwner_supplyLE {owner : Option Address} {coin : Coin}
    (h : creditOwner b owner coin = .ok b') : b.SupplyLE b' := by
  cases owner with
  | none =>
    cases h
    exact .refl b
  | some owner => exact Bank.addCoins_supplyLE h

lemma Charged.supplyLE (h : Charged signers b b') : b.SupplyLE b' := by
  rcases h with rfl | ⟨acc, _, tax, burned, b₁, h1, h2⟩
  · exact .refl _
  · exact (Bank.sendCoins_supplyLE h1).trans (Bank.sendCoins_supplyLE h2)

lemma State.SupplyCapped.of_supplyLE (hcap : s.SupplyCapped) (ht : s'.tokens = s.tokens)
    (hle : s.bank.SupplyLE s'.bank) : s'.SupplyCapped := by
  intro k ft hft c' hc'
  rw [ht] at hft
  obtain ⟨c, hc, hle'⟩ := hle _ c' hc'
  exact hle'.trans (hcap k ft hft c hc)

/-- The caps hold in a bank where one record was written, if they hold of that record. -/
lemma State.SupplyCapped.setTotalSupply (hcap : s.SupplyCapped) (hinv : s.Inv)
    (hinv' : s'.Inv) (hft : s'.tokens.get k = some ft)
    (ht : ∀ k', k' ≠ k → s'.tokens.get k' = s.tokens.get k') (hle : s.bank.SupplyLE b)
    {amount : ℤ} (hamount : amount ≤ ft.maxSupply)
    (hle' : (b.setTotalSupply ⟨ft.getDenom, amount⟩).SupplyLE s'.bank) : s'.SupplyCapped := by
  have hkey : totalSupplyStoreKey ft.getDenom = k := by
    obtain ⟨hnamed, hk⟩ := hinv'.token k ft hft
    rw [hnamed.totalSupplyStoreKey_getDenom, hk]
  intro k' ft' hft' c' hc'
  rw [hinv'.getTotalSupply_eq hft'] at hc'
  obtain ⟨c, hc, hc'⟩ := hle' _ c' hc'
  refine hc'.trans ?_
  simp only [Bank.setTotalSupply, hkey, get_set] at hc
  split_ifs at hc with hk
  · rw [Option.some.injEq] at hc
    rw [hk, hft, Option.some.injEq] at hft'
    rw [← hc, ← hft']
    exact hamount
  · obtain ⟨c₀, hc₀, hle₀⟩ := hle _ c hc
    rw [ht k' hk] at hft'
    rw [← hinv.getTotalSupply_eq hft'] at hc₀
    exact hle₀.trans (hcap k' ft' hft' c₀ hc₀)

/-- An issue keeps the caps exactly when it is covered. -/
lemma Issue.capped_iff (h : Issue signers covered s ft b) (hinv : s.Inv) (hcap : s.SupplyCapped) :
    (s.issued ft b).SupplyCapped ↔ covered := by
  have hself : (s.issued ft b).tokens.get ft.key = some ft := get_set_self _ _ _
  rw [← h.covers]
  constructor
  · intro hcap'
    refine hcap' ft.key ft hself ⟨ft.getDenom, ft.initialSupply⟩ ?_
    simp only [State.issued, Bank.getTotalSupply, Bank.setTotalSupply, get_set_self]
  · intro hinit
    obtain ⟨b₀, owner, hfee, _, _, hcredit⟩ := h.credit
    exact hcap.setTotalSupply hinv (Effect.inv (.issue h) hinv) hself
      (fun k' hk => get_set_ne _ _ hk) (hfee.supplyLE.trans (creditOwner_supplyLE hcredit)) hinit
      (.refl _)

lemma Effect.capped (h : Effect signers covered s s') (hcovered : covered) (hinv : s.Inv)
    (hcap : s.SupplyCapped) : s'.SupplyCapped := by
  have hinv' := h.inv hinv
  cases h with
  | idle => exact hcap
  | issue h => exact (h.capped_iff hinv hcap).mpr hcovered
  | mint hft hpos hissued hmax hfee hincrease hcredit =>
    obtain ⟨total, htotal, rfl⟩ := Bank.increaseTotalSupply_eq hpos hincrease
    obtain ⟨c, hc, hle⟩ := hfee.supplyLE _ total htotal
    cases hc.symm.trans hissued
    refine hcap.setTotalSupply hinv hinv' hft (fun _ _ => rfl) hfee.supplyLE ?_
      (Bank.addCoins_supplyLE hcredit)
    linarith
  | @rewrite k ft ft' hft hnames hsound hfiled hmax =>
    intro k' ft'' hft'' c hc
    rw [get_set] at hft''
    split_ifs at hft'' with hk
    · cases hft''
      rw [hnames.getDenom_eq] at hc
      exact hmax c hc (hcap k ft hft c hc)
    · exact hcap k' ft'' hft'' c hc
  | gateway hword hvalid hfee => exact hcap.of_supplyLE rfl hfee.supplyLE

/-- An operation whose message, if it issues a token, is covered. -/
def CoveredStep (params : Params) (s s' : State) : Prop :=
  ∃ op : Op, op.validateBasic = .ok () ∧ op.DefaultCovered ∧ op.run params s = .ok s'

lemma CoveredStep.keeps (h : CoveredStep params s s') (hs : s.Inv ∧ s.SupplyCapped) :
    s'.Inv ∧ s'.SupplyCapped := by
  obtain ⟨op, hv, hcovered, hrun⟩ := h
  obtain ⟨hinv, hcap⟩ := hs
  cases op with
  | msg m =>
    have heffect := handle_effect hinv hv hrun
    exact ⟨heffect.inv hinv, heffect.capped hcovered hinv hcap⟩
  | burn owner coins =>
    simp only [Op.run, bind_ok, pure_eq_ok] at hrun
    obtain ⟨b, hb, rfl⟩ := hrun
    exact ⟨⟨hinv.token, hinv.gateway⟩, hcap.of_supplyLE rfl (Bank.sendCoins_supplyLE hb)⟩
  | init =>
    obtain ⟨t, h1, h2⟩ := init_effect hinv hrun
    have hinv1 := h1.inv hinv
    exact ⟨h2.inv hinv1, h2.capped trivial hinv1 (h1.capped trivial hinv hcap)⟩

/-- Nothing is issued or registered yet. -/
def State.Fresh (s : State) : Prop := s.tokens = Store.empty ∧ s.gateways = Store.empty

lemma State.Fresh.keeps (h : s.Fresh) : s.Inv ∧ s.SupplyCapped := by
  obtain ⟨ht, hg⟩ := h
  exact ⟨⟨by simp [ht], by simp [hg]⟩, by simp [SupplyCapped, ht]⟩

/-- In every state reached by covered operations no supply exceeds its cap, and there an issue
message keeps the caps if and only if it is covered. -/
theorem supply_le_maxSupply (hfresh : s.Fresh)
    (hrun : Relation.ReflTransGen (CoveredStep params) s s') :
    (∀ k ft, s'.tokens.get k = some ft → ∀ c, s'.bank.getTotalSupply ft.getDenom = some c →
      c.amount ≤ ft.maxSupply) ∧ ∀ (m : MsgIssueToken) (s'' : State), m.validateBasic = .ok () →
      handleIssueToken params s' m = .ok s'' →
      ((∀ k ft, s''.tokens.get k = some ft → ∀ c, s''.bank.getTotalSupply ft.getDenom = some c →
        c.amount ≤ ft.maxSupply) ↔ m.DefaultCoversSupply) := by
  have hkept : s'.Inv ∧ s'.SupplyCapped :=
    invariant_of_step (I := fun s => s.Inv ∧ s.SupplyCapped)
      (fun _ _ hs hstep => CoveredStep.keeps hstep hs) hrun hfresh.keeps
  refine ⟨hkept.2, fun m s'' hv hissue => ?_⟩
  obtain ⟨ft, b, h, rfl⟩ := handleIssueToken_issue hkept.1 hv hissue
  exact h.capped_iff hkept.1 hkept.2

end

def sampleParams : Params where
  assetTaxRate := ⟨4000000000⟩
  issueTokenBaseFee := ⟨irisAtto, 10 ^ 18⟩
  mintTokenFeeRatio := ⟨1000000000⟩
  createGatewayBaseFee := ⟨irisAtto, 10 ^ 18⟩
  gatewayAssetFeeRatio := ⟨1000000000⟩
  feeFactor := fun _ => Dec.one

/-- Account 1 holds ten iris; there are no tokens. -/
def sampleState : State where
  bank :=
    { accounts := Store.empty.set 1 ⟨[⟨"iris-atto", 10 ^ 19⟩], by decide, by decide⟩
      totalLoosenToken := ⟨[⟨"iris-atto", 10 ^ 19⟩], by decide, by decide⟩
      totalSupply := Store.empty }
  tokens := Store.empty
  tokensIndex := Store.empty
  ownerTokens := Store.empty
  gateways := Store.empty
  ownerGateways := Store.empty

def sampleIssue (decimal : ℕ) : MsgIssueToken where
  family := .fungible
  source := .native
  gateway := ""
  symbol := "abc"
  canonicalSymbol := ""
  name := "abc"
  decimal := decimal
  minUnitAlias := ""
  initialSupply := 2
  maxSupply := 0
  mintable := true
  owner := some 1

/-- Twelve decimals: the supply is twice the cap as soon as the token is issued. -/
theorem sampleIssue_exceeds_cap : sampleState.Fresh ∧ (sampleIssue 12).validateBasic = .ok () ∧
      ∃ s' ft c, handleIssueToken sampleParams sampleState (sampleIssue 12) = .ok s' ∧
        s'.tokens.get "i.abc" = some ft ∧ s'.bank.getTotalSupply ft.getDenom = some c ∧
        ft.maxSupply < c.amount := by
  refine ⟨⟨rfl, rfl⟩, by decide +kernel, ?_⟩
  obtain ⟨s', hs', hview⟩ := of_returns
    (p := fun s' => (s'.tokens.get "i.abc").any fun ft =>
      (s'.bank.getTotalSupply ft.getDenom).any fun c => decide (ft.maxSupply < c.amount))
    (x := handleIssueToken sampleParams sampleState (sampleIssue 12)) (by decide +kernel)
  simp only [Option.any_eq_true, decide_eq_true_eq] at hview
  obtain ⟨ft, hft, c, hc, hlt⟩ := hview
  exact ⟨s', ft, c, hs', hft, hc, hlt⟩

/-- Six decimals: the default cap covers the initial supply. -/
theorem sampleIssue_within_cap :
    ∃ s', handleIssueToken sampleParams sampleState (sampleIssue 6) = .ok s' ∧
      ∀ k ft, s'.tokens.get k = some ft → ∀ c, s'.bank.getTotalSupply ft.getDenom = some c →
        c.amount ≤ ft.maxSupply := by
  obtain ⟨s', hs', -⟩ := of_returns (p := fun _ => true)
    (x := handleIssueToken sampleParams sampleState (sampleIssue 6)) (by decide +kernel)
  have hcovered : (sampleIssue 6).DefaultCoversSupply := fun _ _ => by decide
  have hstep : CoveredStep sampleParams sampleState s' :=
    ⟨.msg (.issueToken (sampleIssue 6)), by decide +kernel, hcovered, hs'⟩
  exact ⟨s', hs', (supply_le_maxSupply ⟨rfl, rfl⟩ (.single hstep)).1⟩

end Irishub.Asset
