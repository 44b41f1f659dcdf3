import Irishub.Asset.Genesis

/-!
# Asset: the indexes by owner

Tokens and gateways are stored apart from the indexes that list them by owner. Every effect adds
a record with its entry, or moves the entry of a record along with its owner, and so keeps the
indexes exact (`State.Indexed`).

Only native tokens have an owner of their own; the owner of a gateway token is the one of its
gateway.
-/

namespace Irishub.Asset
open Lib FungibleToken State Option

/-- Indexes list the stored records and nothing else. -/
structure State.Indexed (s : State) : Prop where
  tokens : Indexes (fun id _ => some id) s.tokens s.tokensIndex
  owners : Indexes ownerTokenKey s.tokens s.ownerTokens
  gateways : Indexes ownerGatewayKey s.gateways s.ownerGateways

/-- Every stored token is as `AddToken` stores it. -/
def State.Filed (s : State) : Prop := ∀ k ft, s.tokens.get k = some ft → ft.filed = ft

section
variable {params : Params} {signers : List Address} {covered : Prop} {s s' : State} {id : String}
  {ft : FungibleToken}

lemma snd_of_ownerTokenKey {r : Address ×ₗ String} (h : ownerTokenKey id ft = some r) :
    (ofLex r).2 = id := by
  unfold ownerTokenKey at h
  split_ifs at h
  obtain ⟨a, -, rfl⟩ := map_eq_some_iff.mp h
  rfl

lemma State.Indexed.file (h : s.Indexed) (hfree : s.tokens.get ft.key = none) :
    (s.file ft).Indexed := by
  have howners := h.owners.reindex (fun _ _ _ => snd_of_ownerTokenKey) ft.key ft
  have htokens := h.tokens.reindex (fun _ _ _ hr => (some.inj hr).symm) ft.key ft
  rw [hfree] at howners htokens
  exact ⟨htokens, howners, h.gateways⟩

lemma State.Indexed.fileGateway (h : s.Indexed) (g : Gateway) : (s.fileGateway g).Indexed :=
  ⟨h.tokens, h.owners, h.gateways.reindex
    (fun _ _ _ hr => by cases hr; rfl : ∀ _ _ r, ownerGatewayKey _ _ = some r → (ofLex r).2 = _)
    g.moniker g⟩

lemma Effect.indexed (h : Effect signers covered s s') (hs : s.Indexed) : s'.Indexed := by
  cases h with
  | idle => exact hs
  | issue h => exact ⟨(hs.file h.free).tokens, (hs.file h.free).owners, hs.gateways⟩
  | mint => exact ⟨hs.tokens, hs.owners, hs.gateways⟩
  | @rewrite k ft ft' hft =>
    have howners := hs.owners.reindex (fun _ _ _ => snd_of_ownerTokenKey) k ft'
    rw [hft] at howners
    exact ⟨hs.tokens.rewrite hft rfl, howners, hs.gateways⟩
  | gateway => exact ⟨hs.tokens, hs.owners, (hs.fileGateway _).gateways⟩

lemma Effect.filed (h : Effect signers covered s s') (hs : s.Filed) : s'.Filed := by
  cases h with
  | idle | mint | gateway => exact hs
  | issue h => exact Store.forall_set hs h.filed
  | rewrite hft hnames hsound hfiled => exact Store.forall_set hs (hfiled (hs _ _ hft))

/-- What holds of the records and the indexes after every run. -/
structure State.Kept (s : State) : Prop where
  inv : s.Inv
  sound : s.Sound
  indexed : s.Indexed
  filed : s.Filed

lemma Effect.kept (h : Effect signers covered s s') (hs : s.Kept) : s'.Kept :=
  ⟨h.inv hs.inv, h.sound hs.sound, h.indexed hs.indexed, h.filed hs.filed⟩

/-- A checked operation that returns. -/
def Step (params : Params) (s s' : State) : Prop :=
  ∃ op : Op, op.validateBasic = .ok () ∧ op.run params s = .ok s'

lemma Step.kept (h : Step params s s') (hs : s.Kept) : s'.Kept := by
  obtain ⟨op, hv, hrun⟩ := h
  cases op with
  | msg m => exact (handle_effect hs.inv hv hrun).kept hs
  | burn owner coins =>
    obtain ⟨b, _, hb⟩ := bind_ok.mp hrun
    cases hb
    exact ⟨⟨hs.inv.token, hs.inv.gateway⟩, ⟨hs.sound.token, hs.sound.listed, hs.sound.gateway⟩,
      ⟨hs.indexed.tokens, hs.indexed.owners, hs.indexed.gateways⟩, hs.filed⟩
  | init =>
    obtain ⟨t, h1, h2⟩ := init_effect hs.inv hrun
    exact h2.kept (h1.kept hs)

/-- Nothing is stored yet; the accounts are arbitrary. -/
structure State.Blank (s : State) : Prop where
  tokens : s.tokens = Store.empty
  tokensIndex : s.tokensIndex = Store.empty
  ownerTokens : s.ownerTokens = Store.empty
  gateways : s.gateways = Store.empty
  ownerGateways : s.ownerGateways = Store.empty

lemma State.Blank.kept (h : s.Blank) : s.Kept := by
  have hfresh : s.Fresh := ⟨h.tokens, h.gateways⟩
  refine ⟨hfresh.keeps.1, ⟨?_, ?_, ?_⟩, ⟨?_, ?_, ?_⟩, ?_⟩
  · simp [h.tokens]
  · simp [h.tokens]
  · simp [h.gateways]
  · rw [h.tokens, h.tokensIndex]
    exact indexes_empty
  · rw [h.tokens, h.ownerTokens]
    exact indexes_empty
  · rw [h.gateways, h.ownerGateways]
    exact indexes_empty
  · simp [Filed, h.tokens]

lemma kept_of_run (hblank : s.Blank) (hrun : Relation.ReflTransGen (Step params) s s') : s'.Kept :=
  invariant_of_step (I := Kept) (fun _ _ hs hstep => Step.kept hstep hs) hrun hblank.kept

/-- After every run the indexes by owner hold an entry for an owner and an identifier exactly when
the native token with this identifier, or the gateway with this moniker, belongs to the owner. -/
theorem owner_indexes_exact (hblank : s.Blank) (hrun : Relation.ReflTransGen (Step params) s s')
    (owner : Address) : (∀ id, (∃ v, s'.ownerTokens.get (toLex (owner, id)) = some v) ↔
      ∃ k ft, s'.tokens.get k = some ft ∧ ft.source = .native ∧
        getTokenID ft.source ft.symbol ft.gateway = .ok id ∧ ft.owner = some owner) ∧
    ∀ moniker, (∃ v, s'.ownerGateways.get (toLex (owner, moniker)) = some v) ↔
      ∃ g, s'.gateways.get moniker = some g ∧ g.owner = owner := by
  have hkept := kept_of_run hblank hrun
  refine ⟨fun id => ?_, fun moniker => ?_⟩
  · constructor
    · rintro ⟨k, hk⟩
      obtain ⟨ft, hft, hentry⟩ := (hkept.indexed.owners _ k).mp hk
      obtain rfl : id = k := snd_of_ownerTokenKey hentry
      obtain ⟨hnamed, hkey⟩ := hkept.inv.token _ ft hft
      unfold ownerTokenKey at hentry
      split_ifs at hentry with hnative
      obtain ⟨a, ha, heq⟩ := map_eq_some_iff.mp hentry
      obtain rfl : a = owner := congrArg (fun r => (ofLex r).1) heq
      exact ⟨id, ft, hft, hnative, by rw [hnamed.getTokenID_eq, hkey], ha⟩
    · rintro ⟨k, ft, hft, hnative, hid, howner⟩
      obtain ⟨hnamed, hkey⟩ := hkept.inv.token _ ft hft
      rw [hnamed.getTokenID_eq, ← hkey, Except.ok.injEq] at hid
      subst hid
      exact ⟨k, (hkept.indexed.owners _ k).mpr ⟨ft, hft, by simp [ownerTokenKey, hnative, howner]⟩⟩
  · constructor
    · rintro ⟨k, hk⟩
      obtain ⟨g, hg, hentry⟩ := (hkept.indexed.gateways _ k).mp hk
      cases hentry
      exact ⟨g, hg, rfl⟩
    · rintro ⟨g, hg, rfl⟩
      exact ⟨moniker, (hkept.indexed.gateways _ moniker).mpr ⟨g, hg, rfl⟩⟩

/-- A run of checked operations. -/
lemma run_of_ops {ops : List Op} (hv : ∀ op ∈ ops, op.validateBasic = .ok ())
    (h : ops.foldlM (Op.run params) s = .ok s') : Relation.ReflTransGen (Step params) s s' :=
  reflTransGen_of_foldlM (fun op hop _ _ hrun => ⟨op, hv op hop, hrun⟩) h

def sampleTransfers : List Op :=
  [.msg (.issueToken (sampleIssue 6)), .msg (.transferTokenOwner ⟨1, 2, "i.abc"⟩),
    .msg (.createGateway ⟨1, "gate", "", "", ""⟩), .msg (.transferGatewayOwner ⟨1, "gate", 2⟩),
    .msg (.transferGatewayOwner ⟨2, "gate", 1⟩)]

theorem sampleTransfers_indexed :
    ∃ s', sampleTransfers.foldlM (Op.run sampleParams) sampleState = .ok s' ∧
      (∃ v, s'.ownerTokens.get (toLex (2, "i.abc")) = some v) ∧
      ∃ v, s'.ownerGateways.get (toLex (1, "gate")) = some v := by
  obtain ⟨s', hs', hview⟩ := of_returns
    (p := fun s' : State =>
      (s'.tokens.get "i.abc").any (fun ft : FungibleToken => decide (ft.source = .native ∧
        getTokenID ft.source ft.symbol ft.gateway = .ok "i.abc" ∧ ft.owner = some 2)) &&
      (s'.gateways.get "gate").any (fun g : Gateway => decide (g.owner = 1)))
    (x := sampleTransfers.foldlM (Op.run sampleParams) sampleState) (by decide +kernel)
  simp only [Bool.and_eq_true, any_eq_true, decide_eq_true_eq] at hview
  obtain ⟨⟨ft, hft, hrecord⟩, g, hg, howner⟩ := hview
  have hrun := run_of_ops (by decide +kernel) hs'
  have hblank : sampleState.Blank := ⟨rfl, rfl, rfl, rfl, rfl⟩
  exact ⟨s', hs', ((owner_indexes_exact hblank hrun 2).1 "i.abc").mpr ⟨_, ft, hft, hrecord⟩,
    ((owner_indexes_exact hblank hrun 1).2 "gate").mpr ⟨g, hg, howner⟩⟩

end
end Irishub.Asset
