import Irishub.App.Supplies
import Irishub.Asset.Genesis
import Irishub.Bank.Genesis

/-!
# Supplies across an export

The export writes accounts, tokens and gateways but no supply records, and
`InitChainer` rebuilds the records from the accounts. The two burning paths part
here: a burn lowers the record of a token and leaves the burned coins in the
account at the burning address, which is exported, and a token without any coins
has a record but no account to rebuild it from.
-/

namespace Irishub.App
open Lib Store List Bool
variable {env : Env} {s s' : State}

/-- Accounts and tokens of a genesis file. -/
structure GenesisFile where
  accounts : List Bank.GenesisAccount
  assets : Asset.GenesisState
  deriving DecidableEq

/-- `ExportAppStateAndValidators`, as far as accounts and tokens are concerned. -/
def State.exportGenesis (s : State) : GenesisFile := ⟨s.bank.fileAccounts, s.asset.exportGenesis⟩

def emptyBank : Bank := ⟨Store.empty, .empty, Store.empty⟩

/-- System accounts of `InitChainer`. -/
def initSystemAccounts : Outcome Bank := do
  let b ← emptyBank.addCoins burnedCoinsAccAddr []
  b.addCoins communityTaxCoinsAccAddr []

/-- `InitChainer`, as far as accounts and tokens are concerned. -/
def initChainer (file : GenesisFile) : Outcome Asset.State := do
  let b ← initSystemAccounts
  let b ← file.accounts.foldlM Bank.loadAccount b
  let b ← b.initTotalSupply
  let s : Asset.State := ⟨b, Store.empty, Store.empty, Store.empty, Store.empty, Store.empty⟩
  s.initGenesis file.assets

def State.SuppliesKept (s : State) : Prop :=
  ∃ t, initChainer s.exportGenesis = .ok t ∧ ∀ k ft, s.asset.tokens.get k = some ft →
    ∃ c, s.bank.getTotalSupply ft.getDenom = some c ∧ t.bank.getTotalSupply ft.getDenom = some c

/-- Accounts of a genesis block passed `InitChainer`: none is without a token, and their iris is
in the loose token counter. -/
structure State.Loaded (s : State) : Prop where
  fits : s.bank.Fits
  iris : SdkInt.InRange (s.bank.sumOf irisAtto)

/-- What is carried along a run. -/
structure Exportable (env : Env) (s : State) : Prop where
  supplied : Supplied env s
  sound : s.asset.Sound
  loaded : s.Loaded

section
open Bank Asset

lemma not_isVoucher_irisAtto : ¬IsVoucher irisAtto := by
  unfold IsVoucher
  decide

lemma State.Loaded.of_keeps (h : s.Loaded) (hkeeps : Keeps IsVoucher s.bank s'.bank) :
    s'.Loaded where
  fits := hkeeps.fits h.fits
  iris := by
    rw [hkeeps.sum _ not_isVoucher_irisAtto]
    exact h.iris

section
variable {b b1 b2 : Bank} {d : String} {amount : ℤ}

lemma fits_issue {owner : Option Address} (hd : d ≠ irisAtto) (hrange : SdkInt.InRange amount)
    (h : b.Fits) (hcredit : State.creditOwner b owner ⟨d, amount⟩ = .ok b1) :
    (b1.setTotalSupply ⟨d, amount⟩).Fits ∧
      (b1.setTotalSupply ⟨d, amount⟩).sumOf irisAtto = b.sumOf irisAtto := by
  cases owner with
  | none =>
    cases hcredit
    exact ⟨h.setTotalSupply hrange, rfl⟩
  | some acc =>
    have hcredit : b.addCoins acc [⟨d, amount⟩] = .ok b1 := hcredit
    have hsum := sumOf_addCoins hcredit irisAtto
    rw [Coins.denomSum_cons, Coins.denomSum_nil, Coin.amountIn_mk_of_ne hd.symm, add_zero,
      add_zero] at hsum
    exact ⟨(h.addCoins hcredit).setTotalSupply hrange, hsum⟩

lemma fits_mint {acc : Address} (hd : d ≠ irisAtto) (hpos : 0 < amount) (h : b.Fits)
    (hincrease : b.increaseTotalSupply ⟨d, amount⟩ = .ok b1)
    (hcredit : b1.addCoins acc [⟨d, amount⟩] = .ok b2) :
    b2.Fits ∧ b2.sumOf irisAtto = b.sumOf irisAtto := by
  refine ⟨(h.increaseTotalSupply hincrease).addCoins hcredit, ?_⟩
  obtain ⟨total, _, rfl⟩ := increaseTotalSupply_eq hpos hincrease
  rw [sumOf_addCoins hcredit, Coins.denomSum_cons, Coins.denomSum_nil,
    Coin.amountIn_mk_of_ne hd.symm,
    add_zero, add_zero]
  rfl

end

lemma inRange_initialSupply {ft : FungibleToken} (h : ft.Sound) :
    SdkInt.InRange ft.initialSupply := by
  have hpow : (10 : ℤ) ^ ft.decimal ≤ 10 ^ 18 := pow_le_pow_right₀ (by decide) h.decimal
  have hbound : (maximumAssetInitSupply : ℤ) * 10 ^ ft.decimal ≤ maximumAssetInitSupply * 10 ^ 18 :=
    mul_le_mul_of_nonneg_left hpow (by decide)
  obtain ⟨hnonneg, hle⟩ := h.initialSupply
  have htop := hle.trans hbound
  rw [SdkInt.inRange_iff]
  simp only [maximumAssetInitSupply] at htop
  omega

lemma State.Loaded.effect (h : s.Loaded) {t : Asset.State} {signers : List Address}
    {covered : Prop} (hinv : s.asset.Inv) (hsigned : burnedCoinsAccAddr ∉ signers)
    (heffect : Asset.Effect signers covered s.asset t) : State.Loaded { s with asset := t } := by
  cases heffect with
  | idle => exact h
  | issue hissue =>
    obtain ⟨b, owner, hfee, _, _, hcredit⟩ := hissue.credit
    have hkeeps := keeps_charged (V := IsVoucher) hsigned hfee
    obtain ⟨hfits, hsum⟩ := fits_issue hissue.named.getDenom_ne_iris
      (inRange_initialSupply hissue.sound) (hkeeps.fits h.fits) hcredit
    rw [hkeeps.sum _ not_isVoucher_irisAtto] at hsum
    exact ⟨hfits, hsum ▸ h.iris⟩
  | mint hft hpos _ _ hfee hincrease hcredit =>
    have hkeeps := keeps_charged (V := IsVoucher) hsigned hfee
    obtain ⟨hfits, hsum⟩ := fits_mint (hinv.token _ _ hft).1.getDenom_ne_iris hpos
      (hkeeps.fits h.fits) hincrease hcredit
    rw [hkeeps.sum _ not_isVoucher_irisAtto] at hsum
    exact ⟨hfits, hsum ▸ h.iris⟩
  | rewrite => exact h.of_keeps (.refl _)
  | gateway _ _ hfee => exact h.of_keeps (keeps_charged hsigned hfee)

lemma Exportable.step (hpools : PoolsApart env.swap) (h : Exportable env s)
    (hstep : Step env s s') : Exportable env s' := by
  have hsupplied := h.supplied.step hpools hstep
  obtain ⟨op, hsigned, hzero, hrun⟩ := hstep
  have hinv := h.supplied.inv
  cases op with
  | asset msg =>
    obtain ⟨hv, t, ht, rfl⟩ := run_asset hrun
    have heffect := handle_effect hinv hv ht
    exact ⟨hsupplied, heffect.sound h.sound, h.loaded.effect hinv hsigned heffect⟩
  | assetInit =>
    obtain ⟨t, ht, rfl⟩ := run_assetInit hrun
    obtain ⟨u, heffect, heffect'⟩ := init_effect hinv ht
    have hloaded : State.Loaded { s with asset := u } := h.loaded.effect hinv hsigned heffect
    exact ⟨hsupplied, heffect'.sound (heffect.sound h.sound),
      hloaded.effect (heffect.inv hinv) hsigned heffect'⟩
  | htlc op =>
    obtain ⟨t, ht, rfl⟩ := run_htlc hrun
    exact ⟨hsupplied, ⟨h.sound.token, h.sound.listed, h.sound.gateway⟩,
      h.loaded.of_keeps (keeps_htlcRun h.supplied.records hsigned hzero ht)⟩
  | swap msg =>
    obtain ⟨hv, b, hb, rfl⟩ := run_swap hrun
    have hsender : msg.sender ≠ burnedCoinsAccAddr := fun heq => hsigned (by simp [Op.signers, heq])
    exact ⟨hsupplied, ⟨h.sound.token, h.sound.listed, h.sound.gateway⟩,
      h.loaded.of_keeps (keeps_swapMsg hpools hsender hv hb)⟩

lemma State.Genesis.exportable (h : s.Genesis) (hloaded : s.Loaded) : Exportable env s where
  supplied := h.supplied
  sound := by
    obtain ⟨ht, hg⟩ := h.fresh
    refine ⟨fun k ft hft => ?_, fun k ft hft => ?_, fun k g hgw => ?_⟩
    · rw [ht, get_empty] at hft
      cases hft
    · rw [ht, get_empty] at hft
      cases hft
    · rw [hg, get_empty] at hgw
      cases hgw
  loaded := hloaded

end

section
variable {b : Bank}

open Bank Asset

lemma initSystemAccounts_eq : ∃ b, initSystemAccounts = .ok b ∧ (∀ a, b.getCoins a = .empty) ∧
    b.loosen = 0 ∧ b.totalSupply = empty ∧ (∀ d, b.sumOf d = 0) := by
  refine ⟨⟨(empty.set burnedCoinsAccAddr .empty).set communityTaxCoinsAccAddr .empty, .empty,
    empty⟩, by decide +kernel, fun a => ?_, rfl, rfl, fun d => ?_⟩
  · simp only [getCoins, get_set, get_empty]
    split_ifs <;> rfl
  · simp only [sumOf, total_set, contribution, get_set, total_empty]
    split_ifs <;> rfl

lemma Exportable.loadAccounts (h : Exportable env s) : ∃ b, (do
        let b ← initSystemAccounts
        s.exportGenesis.accounts.foldlM loadAccount b) = .ok b ∧ b.totalSupply = empty ∧
      (∀ d, b.sumOf d = s.bank.sumOf d) ∧ ∀ d, d ≠ irisAtto → (b.Listed d ↔ s.bank.Listed d) := by
  obtain ⟨b0, hb0, hempty, hloosen, hsupply, hsum0⟩ := initSystemAccounts_eq
  have hsums : ∀ d, (s.bank.fileAccounts.map (fun acc => Coins.denomSum d acc.2)).sum =
      s.bank.sumOf d := by
    intro d
    rw [sum_fileAccounts s.bank (fun _ cs => Coins.denomSum d cs) (fun _ => rfl)]
    simp only [sumOf, StoredCoins.amountOf_eq]
  have hmem : ∀ acc ∈ s.bank.fileAccounts, acc.2 = (s.bank.getCoins acc.1).coins ∧ acc.2 ≠ [] := by
    intro acc hacc
    obtain ⟨e, he, rfl⟩ := mem_map.mp hacc
    obtain ⟨he, hne⟩ := mem_filter.mp he
    have hget : s.bank.accounts.get e.1 = some e.2 := mem_entries.mp he
    refine ⟨by rw [getCoins, hget]; rfl, by simpa using hne⟩
  obtain ⟨b, hb, hsupply', hsum, hlisted⟩ := loadAccounts_ok s.bank.fileAccounts b0
    (fun acc hacc => by
      obtain ⟨hcoins, hne⟩ := hmem acc hacc
      refine ⟨?_, hempty acc.1⟩
      rw [hcoins] at hne ⊢
      exact ⟨(s.bank.getCoins acc.1).sorted, (s.bank.getCoins acc.1).nonneg,
        h.loaded.fits.filled _ hne⟩)
    (by
      have hnodup := nodup_keys s.bank.accounts
      rw [fileAccounts, map_map]
      exact (filter_sublist.map Prod.fst).nodup hnodup)
    (by rw [hloosen, hsums, zero_add]; exact h.loaded.iris)
  refine ⟨b, bind_ok.mpr ⟨b0, hb0, hb⟩, hsupply'.trans hsupply, fun d => ?_, fun d hd => ?_⟩
  · rw [hsum, hsum0, hsums, zero_add]
  · rw [hlisted d hd]
    have hnone : ¬b0.Listed d := by
      rintro ⟨c, hc, _⟩
      obtain ⟨a, ha⟩ := mem_allCoins.mp hc
      rw [hempty] at ha
      cases ha
    rw [or_iff_right hnone]
    constructor
    · rintro ⟨acc, hacc, c, hc, hcd⟩
      rw [(hmem acc hacc).1] at hc
      exact ⟨c, mem_allCoins.mpr ⟨acc.1, hc⟩, hcd⟩
    · rintro ⟨c, hc, hcd⟩
      obtain ⟨e, he, hc⟩ := mem_flatMap.mp hc
      refine ⟨(e.1, e.2.coins), mem_map.mpr ⟨e, mem_filter.mpr ⟨he, ?_⟩, rfl⟩, c, hc, hcd⟩
      exact decide_eq_true (ne_nil_of_mem hc)

/-- What the initialisation records for an issued token. -/
lemma Exportable.initTotalSupply (h : Exportable env s) {b' : Bank}
    (hsupply : b.totalSupply = empty) (hsum : ∀ d, b.sumOf d = s.bank.sumOf d)
    (hlisted : ∀ d, d ≠ irisAtto → (b.Listed d ↔ s.bank.Listed d))
    (hinit : b.initTotalSupply = .ok b') {d : String} (hd : s.asset.Issued d) :
    (0 < s.bank.sumOf d → b'.getTotalSupply d = some ⟨d, s.bank.sumOf d⟩) ∧
      (¬0 < s.bank.sumOf d → b'.getTotalSupply d = none) := by
  have htracked := h.supplied.tracked hd
  have hcounted : isCounted d = true := by
    have hV : ¬IsVoucher d := fun hV => htracked.voucher d hV rfl
    have hne : d ≠ iris := fun heq => absurd (heq ▸ htracked.suffix) (by decide)
    simp only [isCounted, and_eq_true, decide_eq_true_eq, not_eq_true']
    exact ⟨⟨htracked.ne_iris, hne⟩, not_eq_true _ ▸ hV⟩
  have hapart : ∀ d', isCounted d' = true → b.Listed d' →
      totalSupplyStoreKey d' = totalSupplyStoreKey d → d' = d := by
    intro d' hcounted' hl hkey
    simp only [isCounted, and_eq_true, decide_eq_true_eq, not_eq_true'] at hcounted'
    rw [hlisted d' hcounted'.1.1, h.loaded.fits.listed_iff hcounted'.1.1] at hl
    exact htracked.apart d' hl (by rw [IsVoucher, hcounted'.2]; decide) hcounted'.1.1 hkey
  obtain ⟨hsome, hnone⟩ := ((initTotalSupply_spec b).of_ok hinit) d hcounted hapart
  rw [hlisted d htracked.ne_iris, h.loaded.fits.listed_iff htracked.ne_iris] at hsome hnone
  refine ⟨fun hpos => by rw [hsome hpos, hsum], fun hzero => ?_⟩
  rw [hnone hzero, getTotalSupply, hsupply, get_empty]

lemma Exportable.initTotalSupply_ok (h : Exportable env s) (hsum : ∀ d, b.sumOf d = s.bank.sumOf d)
    (hburned : ∀ d, s.asset.Issued d → s.bank.balance burnedCoinsAccAddr d = 0) :
    ∃ b', b.initTotalSupply = .ok b' := by
  cases hinit : b.initTotalSupply with
  | ok b' => exact ⟨b', rfl⟩
  | error f =>
    exfalso
    obtain ⟨d, hcounted, hrange⟩ := (initTotalSupply_spec b).of_error hinit
    simp only [isCounted, and_eq_true, decide_eq_true_eq, not_eq_true'] at hcounted
    rw [hsum] at hrange
    apply hrange
    have hnn : 0 ≤ s.bank.sumOf d := (s.bank.balance_nonneg 0 d).trans (balance_le_sumOf s.bank 0 d)
    rcases hnn.eq_or_lt with hzero | hpos
    · rw [← hzero]
      decide
    · rcases h.supplied.held d hpos with hiris | hV | hissued
      · exact absurd hiris hcounted.1.1
      · rw [IsVoucher, hcounted.2] at hV
        cases hV
      · have hrec := h.supplied.recorded d hissued
        have hbound := h.loaded.fits.bounded _ _ hrec
        have hsplit := s.bank.sumOf_eq_circulating_add d
        rw [hburned d hissued] at hsplit
        rw [SdkInt.inRange_iff]
        simp only at hbound
        omega

lemma Exportable.kept_iff (h : Exportable env s) : s.SuppliesKept ↔
    ∀ k ft, s.asset.tokens.get k = some ft →
      s.bank.balance burnedCoinsAccAddr ft.getDenom = 0 ∧ 0 < s.bank.circulating ft.getDenom ∧
      ft.Reissuable := by
  obtain ⟨b, hb, hsupply, hsum, hlisted⟩ := h.loadAccounts
  have hrecord : ∀ {d}, s.asset.Issued d →
      s.bank.getTotalSupply d = some ⟨d, s.bank.circulating d⟩ := by
    intro d hd
    have hrec := h.supplied.recorded d hd
    rw [Recorded, add_zero] at hrec
    exact hrec
  constructor
  · rintro ⟨t, ht, hkept⟩ k ft hft
    simp only [initChainer, bind_ok] at ht hb
    obtain ⟨b0, hb0, b1, hb1, b', hinit, hasset⟩ := ht
    obtain ⟨b0', hb0', hb1'⟩ := hb
    cases hb0.symm.trans hb0'
    cases hb1.symm.trans hb1'
    have hissued : s.asset.Issued ft.getDenom := ⟨k, ft, hft, rfl⟩
    obtain ⟨hsome, hnone⟩ := h.initTotalSupply hsupply hsum hlisted hinit hissued
    obtain ⟨c, hc, hc'⟩ := hkept k ft hft
    rw [State.initGenesis_bank h.supplied.inv hasset] at hc'
    rw [hrecord hissued, Option.some.injEq] at hc
    have hreissuable := (State.initGenesis_ok_iff h.supplied.inv h.sound rfl).mp
      ⟨t, hasset⟩ k ft hft
    by_cases hpos : 0 < s.bank.sumOf ft.getDenom
    · rw [hsome hpos, ← hc, Option.some.injEq, Coin.mk.injEq] at hc'
      have hsplit := s.bank.sumOf_eq_circulating_add ft.getDenom
      exact ⟨by omega, by omega, hreissuable⟩
    · rw [hnone hpos] at hc'
      cases hc'
  · intro hcond
    obtain ⟨b', hinit⟩ := h.initTotalSupply_ok hsum (fun d hd => by
      obtain ⟨k, ft, hft, rfl⟩ := hd
      exact (hcond k ft hft).1)
    obtain ⟨t, ht⟩ := (State.initGenesis_ok_iff (t := ⟨b', empty, empty, empty,
      empty, empty⟩) h.supplied.inv h.sound rfl).mpr (fun k ft hft => (hcond k ft hft).2.2)
    refine ⟨t, ?_, fun k ft hft => ?_⟩
    · simp only [initChainer, bind_ok] at hb ⊢
      obtain ⟨b0, hb0, hb1⟩ := hb
      exact ⟨b0, hb0, b, hb1, b', hinit, ht⟩
    · obtain ⟨hburned, hpos, _⟩ := hcond k ft hft
      have hissued : s.asset.Issued ft.getDenom := ⟨k, ft, hft, rfl⟩
      have hsplit := s.bank.sumOf_eq_circulating_add ft.getDenom
      obtain ⟨hsome, _⟩ := h.initTotalSupply hsupply hsum hlisted hinit hissued
      refine ⟨_, hrecord hissued, ?_⟩
      rw [State.initGenesis_bank h.supplied.inv ht, hsome (by omega), hsplit, hburned, add_zero]

end

/-- In every state of every run whose steps meet the condition, the supply records come back from
an export unchanged exactly when no issued token was burned, each has coins, and each passes the
checks of an issue message again. -/
theorem suppliesKept_iff (hpools : PoolsApart env.swap) (hs : s.Genesis) (hloaded : s.Loaded)
    (hrun : Relation.ReflTransGen (Step env) s s') : s'.SuppliesKept ↔
      ∀ k ft, s'.asset.tokens.get k = some ft →
        s'.bank.balance burnedCoinsAccAddr ft.getDenom = 0 ∧ 0 < s'.bank.circulating ft.getDenom ∧
        ft.Reissuable := by
  have hexportable : Exportable env s' :=
    invariant_of_step (I := Exportable env) (fun _ _ h hstep => h.step hpools hstep) hrun
      (hs.exportable hloaded)
  exact hexportable.kept_iff

lemma sampleState_loaded : sampleState.Loaded := by
  have hcoins : ∀ a, ∀ c ∈ (sampleState.bank.getCoins a).coins, c.amount = 10 ^ 19 := by
    intro a c hc
    simp only [sampleState, State.bank, Asset.sampleState, Bank.getCoins, get_set, get_empty] at hc
    split_ifs at hc
    · rw [mem_singleton.mp hc]
    · cases hc
  refine ⟨⟨fun a hne => ?_, fun a c hc _ => ?_, fun k c hc => ?_⟩, by decide +kernel⟩
  · obtain ⟨c, hc⟩ := exists_mem_of_ne_nil _ hne
    exact ⟨c, hc, by rw [hcoins a c hc]; decide⟩
  · rw [hcoins a c hc]
    decide
  · cases hc

def recordsOf (k : String) (s : State) : Option (Option Coin × Option Coin) := do
  let ft ← s.asset.tokens.get k
  let t ← (initChainer s.exportGenesis).toOption
  return (s.bank.getTotalSupply ft.getDenom, t.bank.getTotalSupply ft.getDenom)

lemma not_suppliesKept_of_recordsOf {k : String} {c c' : Option Coin}
    (h : recordsOf k s = some (c, c')) (hne : c ≠ c') : ¬s.SuppliesKept := by
  rintro ⟨t, ht, hkept⟩
  cases hft : s.asset.tokens.get k with
  | none => simp [recordsOf, hft] at h
  | some ft =>
    obtain ⟨r, hr, hr'⟩ := hkept k ft hft
    simp only [recordsOf, hft, ht, Except.toOption, Option.bind_eq_bind, Option.bind_some,
      Option.pure_def, Option.some.injEq, Prod.mk.injEq] at h
    exact hne (by rw [← h.1, ← h.2, hr, hr'])

/-- Burned units are counted again, some of them or all, and a token without units loses its
record. -/
theorem burned_supply_returns :
    (∃ s, [sampleIssue, sampleBurn [⟨"xyz-min", 5⟩]].foldlM (Op.run sampleEnv) sampleState = .ok s ∧
      recordsOf "i.xyz" s = some (some ⟨"xyz-min", 1999995⟩, some ⟨"xyz-min", 2000000⟩) ∧
      ¬s.SuppliesKept) ∧
    (∃ s, [sampleIssue, sampleBurn [⟨"xyz-min", 2000000⟩]].foldlM (Op.run sampleEnv) sampleState =
        .ok s ∧ recordsOf "i.xyz" s = some (some ⟨"xyz-min", 0⟩, some ⟨"xyz-min", 2000000⟩) ∧
      ¬s.SuppliesKept) ∧ (∃ s, Op.assetInit.run sampleEnv sampleState = .ok s ∧
      recordsOf "x.btc" s = some (some ⟨"x.btc-min", 0⟩, none) ∧ ¬s.SuppliesKept) := by
  have hcase : ∀ (x : Outcome State) (k : String) (c c' : Option Coin), c ≠ c' →
      returns (fun s => decide (recordsOf k s = some (c, c'))) x = true →
      ∃ s, x = .ok s ∧ recordsOf k s = some (c, c') ∧ ¬s.SuppliesKept := by
    intro x k c c' hne htest
    obtain ⟨s, hs, hrecords⟩ := of_returns htest
    have hrecords := of_decide_eq_true hrecords
    exact ⟨s, hs, hrecords, not_suppliesKept_of_recordsOf hrecords hne⟩
  exact ⟨hcase _ _ _ _ (by decide) (by decide +kernel),
    hcase _ _ _ _ (by decide) (by decide +kernel),
    hcase _ _ _ _ (by decide) (by decide +kernel)⟩

/-- A token that was issued and never burned. -/
theorem issued_supply_kept :
    ∃ s, sampleIssue.run sampleEnv sampleState = .ok s ∧ s.SuppliesKept := by
  obtain ⟨s, hs, htest⟩ := of_returns
    (p := fun s : State => s.asset.tokens.entries.all (fun e =>
      decide (s.bank.balance burnedCoinsAccAddr e.2.getDenom = 0 ∧
        0 < s.bank.circulating e.2.getDenom ∧ e.2.Reissuable)))
    (x := sampleIssue.run sampleEnv sampleState) (by decide +kernel)
  have hissue : Step sampleEnv sampleState s :=
    ⟨sampleIssue, show burnedCoinsAccAddr ∉ [(1 : Address)] by decide, trivial, hs⟩
  refine ⟨s, hs, (suppliesKept_iff sampleEnv_poolsApart sampleState_genesis sampleState_loaded
    (.single hissue)).mpr (fun k ft hft => ?_)⟩
  exact of_decide_eq_true (all_eq_true.mp htest (k, ft) (mem_entries.mpr hft))

end Irishub.App
