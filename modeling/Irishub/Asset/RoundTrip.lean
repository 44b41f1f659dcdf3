import Irishub.Asset.Owners

/-!
# Asset: export and initialisation

`InitGenesis` files the exported records one by one into a blank store. Since the records are
the exported ones and the indexes are determined by the records (`Indexes.unique`), the tokens,
the gateways and all indexes come back as they were, if the checks of the initialisation let them
through. After every run of the module the checks pass exactly when every stored token is
`Reissuable`.
-/

namespace Irishub.Asset
open Lib FungibleToken Store List

def validateRate (v : Dec) (code : SdkError) : Outcome Unit :=
  require (!(Dec.one < v || v < Dec.zero)) code

def validateAssetTaxRate (v : Dec) : Outcome Unit := validateRate v .codeInvalidAssetTaxRate

def validateMintTokenFeeRatio (v : Dec) : Outcome Unit :=
  validateRate v .codeInvalidMintTokenFeeRatio

def validateGatewayAssetFeeRatio (v : Dec) : Outcome Unit :=
  validateRate v .codeInvalidGatewayAssetFeeRatio

def validateIssueTokenBaseFee (coin : Coin) : Outcome Unit :=
  require (!(coin.amount < 0)) .codeInvalidIssueTokenBaseFee

def validateCreateGatewayBaseFee (coin : Coin) : Outcome Unit :=
  require (!(coin.amount < 0)) .codeInvalidCreateGatewayBaseFee

/-- `ValidateParams`. -/
def Params.validate (p : Params) : Outcome Unit := do
  validateAssetTaxRate p.assetTaxRate
  validateMintTokenFeeRatio p.mintTokenFeeRatio
  validateGatewayAssetFeeRatio p.gatewayAssetFeeRatio
  validateIssueTokenBaseFee p.issueTokenBaseFee
  validateCreateGatewayBaseFee p.createGatewayBaseFee

/-- `ValidateGenesis`, the parameters included. -/
def validateGenesis (params : Params) (data : GenesisState) : Outcome Unit := do
  params.validate
  data.validate

/-- `InitGenesis`, with the parameters that it stores. -/
def initGenesis (t : State) (params : Params) (data : GenesisState) : Outcome (Params × State) := do
  panicOnError (validateGenesis params data)
  let t ← (t.initGateways data.gateways).initTokens data.tokens
  return (params, t)

/-- Export of `s` is accepted, and initialises `t` to the same records and indexes. -/
def RoundTrips (params : Params) (s t : State) : Prop :=
  validateGenesis params s.exportGenesis = .ok () ∧
    ∃ t', initGenesis t params s.exportGenesis = .ok (params, t') ∧ t'.tokens = s.tokens ∧
      t'.tokensIndex = s.tokensIndex ∧ t'.ownerTokens = s.ownerTokens ∧
      t'.gateways = s.gateways ∧ t'.ownerGateways = s.ownerGateways

section
variable {s t t' : State}

lemma initGateways_indexed {gateways : List Gateway}
    (hfree : ∀ g ∈ gateways, t.gateways.get g.moniker = none)
    (hnodup : (gateways.map Gateway.moniker).Nodup) (ht : t.Indexed) :
    (t.initGateways gateways).Indexed ∧ (t.initGateways gateways).gateways =
      gateways.foldl (fun gs g => gs.set g.moniker g) t.gateways := by
  induction gateways generalizing t with
  | nil => exact ⟨ht, rfl⟩
  | cons g gateways ih =>
    obtain ⟨hnotin, hnodup⟩ := nodup_cons.mp hnodup
    have hstep := ht.fileGateway g
    rw [State.fileGateway, hfree g (by simp)] at hstep
    refine ih (fun g' hg' => ?_) hnodup hstep
    have hne : g'.moniker ≠ g.moniker := fun heq => hnotin (heq ▸ mem_map_of_mem hg')
    exact (get_set_ne _ _ hne).trans (hfree g' (mem_cons_of_mem _ hg'))

lemma initTokens_indexed {tokens : List FungibleToken}
    (hnamed : ∀ token ∈ tokens, token.WellNamed ∧ token.filed = token)
    (h : t.initTokens tokens = .ok t') (ht : t.Indexed) : t'.Indexed ∧ t'.gateways = t.gateways ∧
      t'.tokens = tokens.foldl (fun ts token => ts.set token.key token) t.tokens := by
  induction tokens generalizing t with
  | nil =>
    cases h
    exact ⟨ht, rfl, rfl⟩
  | cons token tokens ih =>
    obtain ⟨htoken, hfiled⟩ := hnamed token (by simp)
    obtain ⟨hadd, hrest⟩ := (State.initTokens_cons htoken).mp h
    rw [hfiled] at hrest
    exact ih (fun token' htoken' => hnamed token' (mem_cons_of_mem _ htoken')) hrest
      (ht.file ((State.addToken_returns_iff htoken).mp hadd).1)

lemma initGenesis_records (hs : s.Kept) (ht : t.Blank)
    (h : t.initGenesis s.exportGenesis = .ok t') : t'.tokens = s.tokens ∧
      t'.tokensIndex = s.tokensIndex ∧ t'.ownerTokens = s.ownerTokens ∧
      t'.gateways = s.gateways ∧ t'.ownerGateways = s.ownerGateways := by
  obtain ⟨_, _, h⟩ := bind_ok.mp h
  have hmoniker : ∀ k g, s.gateways.get k = some g → k = g.moniker :=
    fun k g hg => (hs.inv.gateway k g hg).2.symm
  have hmonikers : s.gateways.values.map Gateway.moniker = s.gateways.entries.map Prod.fst := by
    rw [Store.values, map_map]
    exact map_congr_left (fun e he => (hmoniker e.1 e.2 (mem_entries.mp he)).symm)
  have hnodup : (s.exportGenesis.gateways.map Gateway.moniker).Nodup := by
    change (s.gateways.values.map Gateway.moniker).Nodup
    rw [hmonikers]
    exact nodup_keys _
  obtain ⟨hindexed, hgateways⟩ := initGateways_indexed
    (fun g _ => by rw [ht.gateways, get_empty]) hnodup ht.kept.indexed
  have hnamed : ∀ token ∈ s.exportGenesis.tokens, token.WellNamed ∧ token.filed = token := by
    intro token htoken
    obtain ⟨k, hk⟩ := mem_values.mp htoken
    exact ⟨(hs.inv.token k token hk).1, hs.filed k token hk⟩
  obtain ⟨hindexed', hgateways', htokens'⟩ := initTokens_indexed hnamed h hindexed
  have htokens : t'.tokens = s.tokens := by
    rw [htokens', (State.initGateways_frame s.exportGenesis.gateways t).1, ht.tokens]
    exact foldl_set_values (fun k ft hft => (hs.inv.token k ft hft).2)
  have hall : t'.gateways = s.gateways := by
    rw [hgateways', hgateways, ht.gateways]
    exact foldl_set_values hmoniker
  refine ⟨htokens, hs.indexed.tokens.unique ?_, hs.indexed.owners.unique ?_, hall,
    hs.indexed.gateways.unique ?_⟩
  · rw [← htokens]
    exact hindexed'.tokens
  · rw [← htokens]
    exact hindexed'.owners
  · rw [← hall]
    exact hindexed'.gateways

lemma roundTrips_iff {params : Params} (hs : s.Kept) (ht : t.Blank) :
    RoundTrips params s t ↔ params.validate = .ok () ∧
      ∀ k ft, s.tokens.get k = some ft → ft.Reissuable := by
  rw [← State.initGenesis_ok_iff hs.inv hs.sound ht.tokens]
  constructor
  · rintro ⟨hvalidate, t', hinit, -⟩
    obtain ⟨_, hparams, hdata⟩ := bind_ok.mp hvalidate
    obtain ⟨_, -, hinit⟩ := bind_ok.mp hinit
    obtain ⟨t1, hrecords, -⟩ := bind_ok.mp hinit
    exact ⟨hparams, t1, bind_ok.mpr ⟨(), panicOnError_ok.mpr hdata, hrecords⟩⟩
  · rintro ⟨hparams, t', hinit⟩
    obtain ⟨_, hdata, hrecords⟩ := bind_ok.mp hinit
    have hvalidate : validateGenesis params s.exportGenesis = .ok () :=
      bind_ok.mpr ⟨(), hparams, panicOnError_ok.mp hdata⟩
    refine ⟨hvalidate, t', ?_, initGenesis_records hs ht hinit⟩
    exact bind_ok.mpr ⟨(), panicOnError_ok.mpr hvalidate, bind_ok.mpr ⟨t', hrecords, rfl⟩⟩

end

section
variable {params : Params} {s s' t : State}

/-- After every run the export can be read back into a blank store, with the same tokens, gateways
and indexes, exactly when the parameters are valid and every stored token is `Reissuable`. -/
theorem genesis_roundTrips_iff (hblank : s.Blank)
    (hrun : Relation.ReflTransGen (Step params) s s') (ht : t.Blank) :
    RoundTrips params s' t ↔ params.validate = .ok () ∧
      ∀ k ft, s'.tokens.get k = some ft → trimSpace ft.name ≠ "" ∧
        (ft.maxSupply / 10 ^ ft.decimal = 0 ∨
          ft.initialSupply / 10 ^ ft.decimal ≤ ft.maxSupply / 10 ^ ft.decimal) :=
  roundTrips_iff (kept_of_run hblank hrun) ht

def sampleRecords : List Op :=
  [.msg (.issueToken { sampleIssue 6 with maxSupply := 5 }),
    .msg (.createGateway ⟨1, "gate", "", "", ""⟩)]

theorem sampleRecords_roundTrip :
    ∃ s', sampleRecords.foldlM (Op.run sampleParams) sampleState = .ok s' ∧
      RoundTrips sampleParams s' sampleState := by
  obtain ⟨s', hs', hview⟩ := of_returns
    (p := fun s' : State => s'.tokens.values.all (fun ft => decide ft.Reissuable))
    (x := sampleRecords.foldlM (Op.run sampleParams) sampleState) (by decide +kernel)
  have hblank : sampleState.Blank := ⟨rfl, rfl, rfl, rfl, rfl⟩
  have hrun := run_of_ops (by decide +kernel) hs'
  refine ⟨s', hs', (genesis_roundTrips_iff hblank hrun hblank).mpr ⟨by decide +kernel, ?_⟩⟩
  intro k ft hft
  exact of_decide_eq_true (all_eq_true.mp hview ft (mem_values.mpr ⟨k, hft⟩))

def sampleRenaming : List Op :=
  [.msg (.issueToken (sampleIssue 6)),
    .msg (.editToken ⟨"i.abc", 1, doNotModify, doNotModify, 0, "", ""⟩)]

theorem sampleRenaming_rejected :
    (∀ op ∈ sampleRenaming, op.validateBasic = .ok ()) ∧ sampleState.Blank ∧
      ∃ s', sampleRenaming.foldlM (Op.run sampleParams) sampleState = .ok s' ∧
        validateGenesis sampleParams s'.exportGenesis = .error (.error .errInvalidAssetName) ∧
        ¬ RoundTrips sampleParams s' sampleState := by
  refine ⟨by decide +kernel, ⟨rfl, rfl, rfl, rfl, rfl⟩, ?_⟩
  obtain ⟨s', hs', hview⟩ := of_returns
    (p := fun s' : State => decide (validateGenesis sampleParams s'.exportGenesis =
      .error (.error .errInvalidAssetName)))
    (x := sampleRenaming.foldlM (Op.run sampleParams) sampleState) (by decide +kernel)
  rw [decide_eq_true_eq] at hview
  refine ⟨s', hs', hview, fun h => ?_⟩
  rw [h.1] at hview
  cases hview

end
end Irishub.Asset
