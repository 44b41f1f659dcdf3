import Irishub.App.Held
import Irishub.Bank.Supplies

/-!
# Recorded supplies and balances

For every issued token the recorded supply is the amount that circulates, over
every run of the bank, asset, HTLC and coinswap modules, and a send or burn
message lowers the loose token counter by the iris coins it gives to the burning
address.

Both need that the lists of coins which messages give to the burning address have
no zero coins: the addition removes zero coins in place, and the loop that follows
then meets a coin twice.
-/

namespace Irishub.App
open Lib Store Coins Coin
variable {env : Env} {s s' : State} {b b' : Bank}

/-- The burning address signs nothing. -/
def Op.SignedByUsers (op : Op) : Prop := burnedCoinsAccAddr ∉ op.signers

/-- Coins that a message gives to the burning address have amounts other than zero. -/
def Op.BurnsNoZero : Op → Prop
  | htlc (.send msg) => ∀ x ∈ msg.outputs, x.address = burnedCoinsAccAddr →
      ∀ c ∈ x.coins, c.amount ≠ 0
  | htlc (.burn msg) => ∀ c ∈ msg.coins, c.amount ≠ 0
  | _ => True

/-- An operation of users that meets the condition. -/
def Step (env : Env) (s s' : State) : Prop :=
  ∃ op : Op, op.SignedByUsers ∧ op.BurnsNoZero ∧ op.run env s = .ok s'

/-- What is carried along a run. -/
structure Supplied (env : Env) (s : State) : Prop extends Held s where
  tables : Htlc.Tables env.sha256 s.htlc
  records : s.htlc.Records
  recorded : ∀ d, s.asset.Issued d → s.bank.Recorded d 0

section

lemma Supplied.tracked (h : Supplied env s) {d : String} (hd : s.asset.Issued d) :
    s.bank.Tracked IsVoucher d := by
  obtain ⟨k, ft, hft, rfl⟩ := hd
  obtain ⟨hnamed, _⟩ := h.inv.token k ft hft
  refine ⟨hnamed.getDenom_ne_iris, hnamed.hasSuffix_getDenom, fun u hu => ?_,
    fun d' hpos hV hiris hkey => ?_⟩
  · rw [hnamed.totalSupplyStoreKey_getDenom]
    exact hnamed.key_ne_of_colon hu.colon
  · rcases h.held d' hpos with heq | hV' | ⟨k', ft', hft', rfl⟩
    · exact absurd heq hiris
    · exact absurd hV' hV
    · obtain ⟨hnamed', _⟩ := h.inv.token k' ft' hft'
      rw [hnamed.totalSupplyStoreKey_getDenom, hnamed'.totalSupplyStoreKey_getDenom] at hkey
      rw [h.inv.eq_of_key hft' hft hkey]

end

section
open Bank

lemma Supplied.of_keeps (h : Supplied env s) (hheld : Held s')
    (htables : Htlc.Tables env.sha256 s'.htlc) (hrecords : s'.htlc.Records)
    (hissued : ∀ d, s'.asset.Issued d ↔ s.asset.Issued d)
    (hkeeps : Keeps IsVoucher s.bank s'.bank) : Supplied env s' where
  toHeld := hheld
  tables := htables
  records := hrecords
  recorded d hd := by
    rw [hissued] at hd
    exact hkeeps.recorded d 0 (h.tracked hd) (h.recorded d hd)

lemma keeps_charged {signers : List Address} {V : String → Prop}
    (hsigned : burnedCoinsAccAddr ∉ signers) (h : Asset.Charged signers b b') : Keeps V b b' := by
  rcases h with rfl | ⟨acc, hacc, tax, burned, b1, h1, h2⟩
  · exact Keeps.refl _
  · have hne : acc ≠ burnedCoinsAccAddr := fun heq => hsigned (heq ▸ hacc)
    have hsteady : ∀ c : Coin, Steady [c] := fun c => Steady.of_length_le (by simp)
    exact (keeps_sendCoins hne (fun _ => hsteady tax) h1).trans
      (keeps_sendCoins hne (fun _ => hsteady burned) h2)

section
open Coinswap
variable {swap : Coinswap.Env} {r : Coins} {V : String → Prop}

/-- No liquidity id hashes to the burning address. -/
def PoolsApart (swap : Coinswap.Env) : Prop :=
  ∀ uid, hasPrefix uid formatUniABSPrefix = true → swap.addressHash uid ≠ burnedCoinsAccAddr

lemma PoolsApart.getUniId (h : PoolsApart swap) {d d' uid : String}
    (huid : Coinswap.getUniId d d' = .ok uid) :
    getReservePoolAddr swap uid ≠ burnedCoinsAccAddr := by
  obtain ⟨coinName, _, rfl⟩ := getUniId_ok huid
  exact h _ (hasPrefix_append _ _)

lemma PoolsApart.poolAddr (h : PoolsApart swap) (t : String) :
    Coinswap.poolAddr swap t ≠ burnedCoinsAccAddr :=
  h _ (hasPrefix_append _ _)

lemma steady_of_newCoins {cs : Coins} (h : newCoins cs = .ok r) : r.Steady :=
  Steady.of_nonzero (nonzero_of_newCoins h)

lemma keeps_swapCoins {sender : Address} {recipient : Option Address}
    {sold bought : Coin} (hpools : PoolsApart swap) (hsender : sender ≠ burnedCoinsAccAddr)
    (h : swapCoins swap b sender recipient sold bought = .ok b') : Keeps V b b' := by
  simp only [swapCoins, bind_ok] at h
  obtain ⟨uid, huid, soldCoins, hsold, b1, h1, boughtCoins, hbought, h2⟩ := h
  exact (keeps_sendCoins hsender (fun _ => steady_of_newCoins hsold) h1).trans
    (keeps_sendCoins (hpools.getUniId huid) (fun _ => steady_of_newCoins hbought) h2)

lemma keeps_handleSwap {msg : MsgSwapOrder} (hpools : PoolsApart swap)
    (hsender : msg.input.address ≠ burnedCoinsAccAddr) (h : handleSwap swap b msg = .ok b') :
    Keeps V b b' := by
  cases trades_of_handleSwap h with
  | doubleExactOutput _ _ _ _ _ _ h1 h2 | doubleExactInput _ _ _ h1 _ _ _ h2 =>
    exact (keeps_swapCoins hpools hsender h1).trans (keeps_swapCoins hpools hsender h2)
  | exactOutput _ _ _ h1 | exactInput _ _ _ h1 => exact keeps_swapCoins hpools hsender h1

lemma denomSum_of_voucher {c : Coin} (hc : IsVoucher c.denom)
    (h : newCoins [c] = .ok r) (d : String) (hd : ¬IsVoucher d) : denomSum d r = 0 := by
  rw [denomSum_newCoins_singleton h]
  exact amountIn_of_isVoucher hc hd

lemma keeps_handleAddLiquidity {msg : MsgAddLiquidity} (hpools : PoolsApart swap)
    (hsender : msg.sender ≠ burnedCoinsAccAddr) (h : handleAddLiquidity swap b msg = .ok b') :
    Keeps IsVoucher b b' := by
  simp only [handleAddLiquidity, addLiquidity, bind_ok, newCoin_ok] at h
  obtain ⟨uid, huid, _, _, _, ⟨rfl, _⟩, ⟨amt, deposit⟩, _, _, _, deposits, hdeposits, b1, h1, u,
    hu, _, ⟨rfl, _⟩, mint, hmint, b2, h2, h3⟩ := h
  have hzero := denomSum_of_voucher (isVoucher_of_getUniDenom hu) hmint
  exact (keeps_sendCoins hsender (fun _ => steady_of_newCoins hdeposits) h1).trans
    ((keeps_addCoins (hpools.getUniId huid) hzero h2).trans (keeps_addCoins hsender hzero h3))

lemma keeps_handleRemoveLiquidity {msg : MsgRemoveLiquidity} (hpools : PoolsApart swap)
    (hsender : msg.sender ≠ burnedCoinsAccAddr) (hv : msg.validateBasic = .ok ())
    (h : handleRemoveLiquidity swap b msg = .ok b') : Keeps IsVoucher b b' := by
  simp only [MsgRemoveLiquidity.validateBasic, bind_ok] at hv
  obtain ⟨_, _, _, _, ⟨⟩, hu, _⟩ := hv
  have hvoucher : IsVoucher msg.withdrawLiquidity.denom := by
    simp only [checkUniDenom, require_ok, Bool.and_eq_true] at hu
    exact hu.2
  obtain ⟨_, hremove⟩ := eq_of_handleRemoveLiquidity rfl hu h
  simp only [removeLiquidity, bind_ok] at hremove
  obtain ⟨delta, hdelta, b1, h1, b2, h2, coins, hcoins, h3⟩ := hremove
  have hzero := denomSum_of_voucher hvoucher hdelta
  exact (keeps_subtractCoins (hpools.poolAddr _) hzero h1).trans
    ((keeps_subtractCoins hsender hzero h2).trans
      (keeps_sendCoins (hpools.poolAddr _) (fun _ => steady_of_newCoins hcoins) h3))

lemma keeps_swapMsg {msg : Msg} (hpools : PoolsApart swap)
    (hsender : msg.sender ≠ burnedCoinsAccAddr) (hv : msg.validateBasic = .ok ())
    (h : msg.handle swap b = .ok b') : Keeps IsVoucher b b' := by
  cases msg with
  | swap msg => exact keeps_handleSwap hpools hsender h
  | add msg => exact keeps_handleAddLiquidity hpools hsender h
  | remove msg => exact keeps_handleRemoveLiquidity hpools hsender hv h

end

section
open Htlc
variable {sha256 : Bytes → Bytes} {t t' : Htlc.State}

lemma steady_of_wellFormed {l : Bytes} {htlc : HTLC} (h : htlc.WellFormed l) :
    htlc.amount.Steady := by
  refine Steady.of_nonzero (fun c hc => ?_)
  have hpositive := h.positive
  simp only [isAllPositive, Bool.and_eq_true, List.all_eq_true] at hpositive
  have hpos : 0 < c.amount := by simpa [Coin.isPositive] using hpositive.2 c hc
  exact hpos.ne'

lemma keeps_htlcRun {V : String → Prop} {op : Htlc.Op} (hrecords : t.Records)
    (hsigned : burnedCoinsAccAddr ∉ op.signers) (hzero : (Op.htlc op).BurnsNoZero)
    (h : op.run sha256 t = .ok t') : Keeps V t.bank t'.bank := by
  have hlocked : htlcLockedCoinsAccAddr ≠ burnedCoinsAccAddr := by decide
  cases op with
  | create msg =>
    obtain ⟨_, _, bank, hsend, rfl⟩ := create_ok h
    exact keeps_sendCoins (fun heq => hsigned (by simp [Htlc.Op.signers, heq]))
      (fun heq => absurd heq hlocked) hsend
  | claim msg =>
    obtain ⟨htlc, bank, hget, _, _, hsend, rfl⟩ := claim_ok h
    exact keeps_sendCoins hlocked (fun _ => steady_of_wellFormed (hrecords _ _ hget)) hsend
  | refund msg =>
    obtain ⟨htlc, bank, hget, _, hsend, rfl⟩ := refund_eq_ok (run_refund h)
    exact keeps_sendCoins hlocked (fun _ => steady_of_wellFormed (hrecords _ _ hget)) hsend
  | send msg =>
    obtain ⟨bank, hbank, rfl⟩ := withBank_ok h
    refine keeps_deliverSend (fun x hx heq => hsigned ?_)
      (fun x hx haddr => Coins.Steady.of_nonzero (hzero x hx haddr)) hbank
    exact List.mem_map.mpr ⟨x, hx, heq⟩
  | burn msg =>
    obtain ⟨bank, hbank, rfl⟩ := withBank_ok h
    obtain ⟨_, _, hsend⟩ := bind_ok.mp hbank
    exact keeps_sendCoins (fun heq => hsigned (by simp [Htlc.Op.signers, heq]))
      (fun _ => Coins.Steady.of_nonzero hzero) hsend
  | beginBlock =>
    cases h
    rw [State.beginBlocker, (foldl_expireHTLC_frame _ _).1]
    exact Keeps.refl _

end

section
variable {ft : FungibleToken} {owner : Option Address} {amount : ℤ} {b1 b : Bank} {k : String}
  {t : Asset.State}

open Asset

lemma Held.sumOf_eq_zero (h : Held s) (hnamed : ft.WellNamed)
    (hnot : ¬s.asset.Issued ft.getDenom) : s.bank.sumOf ft.getDenom = 0 := by
  refine le_antisymm (not_lt.mp (fun hpos => ?_))
    ((s.bank.balance_nonneg 0 _).trans (balance_le_sumOf s.bank 0 _))
  rcases h.held _ hpos with heq | hV | hold
  · exact hnamed.getDenom_ne_iris heq
  · exact not_isVoucher_getDenom hnamed hV
  · exact hnot hold

lemma creditOwner_recorded {d0 : String}
    (howner : ∀ acc, owner = some acc → acc ≠ burnedCoinsAccAddr)
    (hnobody : owner = none → amount = 0)
    (hcredit : State.creditOwner b owner ⟨d0, amount⟩ = .ok b1) :
    b1.circulating d0 = b.circulating d0 + amount ∧
      ∀ d, d ≠ d0 → d ≠ irisAtto → hasSuffix d minDenomSuffix = true →
        b.Recorded d 0 → b1.Recorded d 0 := by
  cases owner with
  | none =>
    cases hcredit
    rw [hnobody rfl]
    exact ⟨by rw [add_zero], fun d _ _ _ hrec => hrec⟩
  | some acc =>
    have hcredit : b.addCoins acc [⟨d0, amount⟩] = .ok b1 := hcredit
    have hacc := howner acc rfl
    refine ⟨?_, fun d hd hiris hsuffix hrec => ?_⟩
    · rw [circulating_addCoins hcredit, if_neg hacc]
      simp [amountIn]
    · have hrec' := hrec.addCoins hiris hsuffix (fun heq => absurd heq hacc) hcredit
      simpa [amountIn, hd.symm] using hrec'

lemma key_ne_of_issued (hinv : s.asset.Inv)
    (hft : s.asset.tokens.get k = some ft) {d : String} (hd : s.asset.Issued d)
    (hne : d ≠ ft.getDenom) : totalSupplyStoreKey d ≠ totalSupplyStoreKey ft.getDenom := by
  obtain ⟨k', ft', hft', rfl⟩ := hd
  intro hkey
  rw [(hinv.token k' ft' hft').1.totalSupplyStoreKey_getDenom,
    (hinv.token k ft hft).1.totalSupplyStoreKey_getDenom] at hkey
  exact hne (congrArg FungibleToken.getDenom (hinv.eq_of_key hft' hft hkey))

/-- A new token: its record is set to what is credited, and nothing of it was held before. -/
lemma Supplied.issue (h : Supplied env s) {signers : List Address} {covered : Prop}
    (hsigned : burnedCoinsAccAddr ∉ signers) (hissue : Issue signers covered s.asset ft b1)
    (hheld : Held { s with asset := s.asset.issued ft b1 }) :
    Supplied env { s with asset := s.asset.issued ft b1 } := by
  obtain ⟨b, owner, hfee, howner, hnobody, hcredit⟩ := hissue.credit
  have hfee : Keeps IsVoucher s.bank b := keeps_charged hsigned hfee
  have hnamed := hissue.named
  have hself : (s.asset.issued ft b1).tokens.get ft.key = some ft := get_set_self _ _ _
  have hnot : ¬s.asset.Issued ft.getDenom := by
    rintro ⟨k', ft', hft', hdenom⟩
    obtain ⟨hnamed', hk'⟩ := h.inv.token k' ft' hft'
    rw [hk', ← hnamed'.totalSupplyStoreKey_getDenom, hdenom, hnamed.totalSupplyStoreKey_getDenom,
      hissue.free] at hft'
    cases hft'
  have hissued : ∀ d, (s.asset.issued ft b1).Issued d → d = ft.getDenom ∨ s.asset.Issued d := by
    rintro d ⟨k', ft', hft', rfl⟩
    simp only [State.issued, State.file, get_set] at hft'
    split_ifs at hft' with hk'
    · rw [Option.some.injEq] at hft'
      exact Or.inl (congrArg FungibleToken.getDenom hft'.symm)
    · exact Or.inr ⟨k', ft', hft', rfl⟩
  have hsum : b.sumOf ft.getDenom = 0 := by
    rw [hfee.sum _ (not_isVoucher_getDenom hnamed)]
    exact h.sumOf_eq_zero hnamed hnot
  have hcirculating : b.circulating ft.getDenom = 0 := by
    refine le_antisymm ((circulating_le_sumOf b _).trans hsum.le) ?_
    exact (b.balance_nonneg 0 _).trans (balance_le_circulating b (by decide) _)
  obtain ⟨hcirc, hothers⟩ := creditOwner_recorded
    (fun acc hacc heq => hsigned (heq ▸ howner acc hacc)) hnobody hcredit
  rw [hcirculating, zero_add] at hcirc
  refine ⟨hheld, h.tables.of_eq rfl rfl, h.records, fun d hd => ?_⟩
  show (b1.setTotalSupply ⟨ft.getDenom, ft.initialSupply⟩).Recorded d 0
  rcases hissued d hd with heq | hold
  · rw [heq, ← add_zero ft.initialSupply, ← hcirc]
    exact recorded_setTotalSupply b1 ft.getDenom 0
  · have hne : d ≠ ft.getDenom := fun heq => hnot (heq ▸ hold)
    have htracked := h.tracked hold
    have hkey := key_ne_of_issued (s := { s with asset := s.asset.issued ft b1 }) hheld.inv hself
      hd hne
    have hrec := hothers d hne htracked.ne_iris htracked.suffix
      (hfee.recorded d 0 htracked (h.recorded d hold))
    exact hrec.setTotalSupply hkey _

lemma Supplied.mint (h : Supplied env s) {acc : Address}
    (hheld : Held { s with asset.bank := b2 }) (hft : s.asset.tokens.get k = some ft)
    (hpos : 0 < amount) (hfee : Keeps IsVoucher s.bank b)
    (hincrease : b.increaseTotalSupply ⟨ft.getDenom, amount⟩ = .ok b1)
    (hcredit : b1.addCoins acc [⟨ft.getDenom, amount⟩] = .ok b2) :
    Supplied env { s with asset.bank := b2 } := by
  obtain ⟨total, htotal, hb1⟩ := increaseTotalSupply_eq hpos hincrease
  -- after the record has grown
  have hgrown : ∀ d, s.asset.Issued d → b1.Recorded d (amountIn ⟨ft.getDenom, amount⟩ d) := by
    intro d hd
    have hrec := hfee.recorded d 0 (h.tracked hd) (h.recorded d hd)
    by_cases heq : d = ft.getDenom
    · rw [heq, Recorded, add_zero, htotal, Option.some.injEq] at hrec
      rw [heq, hb1, hrec, amountIn_mk_self]
      exact recorded_setTotalSupply b ft.getDenom amount
    · rw [amountIn_mk_of_ne heq, hb1]
      exact hrec.setTotalSupply (key_ne_of_issued h.inv hft hd heq) _
  refine ⟨hheld, h.tables.of_eq rfl rfl, h.records, fun d hd => ?_⟩
  have hd : s.asset.Issued d := hd
  have htracked := h.tracked hd
  have hapart : KeyApart d [⟨ft.getDenom, amount⟩] :=
    keyApart_single (key_ne_of_issued h.inv hft hd) amount
  have hrec := (hgrown d hd).addCoins htracked.ne_iris htracked.suffix
    (fun _ => ⟨Steady.of_length_le (by simp), hapart⟩) hcredit
  rw [denomSum_cons, denomSum_nil, add_zero, sub_self] at hrec
  exact hrec

lemma Supplied.effect (h : Supplied env s) {signers : List Address} {covered : Prop}
    (hsigned : burnedCoinsAccAddr ∉ signers) (heffect : Effect signers covered s.asset t) :
    Supplied env { s with asset := t } := by
  have hheld := h.toHeld.effect heffect
  cases heffect with
  | idle => exact h
  | issue hissue => exact h.issue hsigned hissue hheld
  | mint hft hpos _ _ hfee hincrease hcredit =>
    exact h.mint hheld hft hpos (keeps_charged hsigned hfee) hincrease hcredit
  | rewrite hft hnames =>
    exact h.of_keeps hheld (h.tables.of_eq rfl rfl) h.records
      (issued_iff_of_rewrite hft hnames rfl) (.refl _)
  | gateway _ _ hfee =>
    exact h.of_keeps hheld (h.tables.of_eq rfl rfl) h.records (issued_iff_of_tokens rfl)
      (keeps_charged hsigned hfee)

end

end

lemma State.Genesis.supplied (h : s.Genesis) : Supplied env s where
  toHeld := h.held
  tables := Htlc.State.Genesis.tables ⟨h.htlcs, h.expireQueue⟩
  records l htlc hget := by
    change s.htlcs.get l = some htlc at hget
    rw [h.htlcs, get_empty] at hget
    cases hget
  recorded := by
    rintro d ⟨k, ft, hft, _⟩
    rw [h.fresh.1, get_empty] at hft
    cases hft

lemma Supplied.step (hpools : PoolsApart env.swap) (h : Supplied env s) (hstep : Step env s s') :
    Supplied env s' := by
  obtain ⟨op, hsigned, hzero, hrun⟩ := hstep
  have hheld := h.toHeld.run hrun
  cases op with
  | asset msg =>
    obtain ⟨hv, t, ht, rfl⟩ := run_asset hrun
    exact h.effect hsigned (Asset.handle_effect h.inv hv ht)
  | assetInit =>
    obtain ⟨t, ht, rfl⟩ := run_assetInit hrun
    obtain ⟨u, heffect, heffect'⟩ := Asset.init_effect h.inv ht
    exact (h.effect hsigned heffect).effect hsigned heffect'
  | htlc op =>
    obtain ⟨t, ht, rfl⟩ := run_htlc hrun
    exact h.of_keeps hheld (h.tables.run ht) (h.records.run h.tables ht)
      (Asset.issued_iff_of_tokens rfl) (keeps_htlcRun h.records hsigned hzero ht)
  | swap msg =>
    obtain ⟨hv, b, hb, rfl⟩ := run_swap hrun
    have hsender : msg.sender ≠ burnedCoinsAccAddr := fun heq => hsigned (by simp [Op.signers, heq])
    exact h.of_keeps hheld (h.tables.of_eq rfl rfl) h.records
      (Asset.issued_iff_of_tokens rfl) (keeps_swapMsg hpools hsender hv hb)

/-- In every state of every run whose steps meet the condition the record of an issued token is
what circulates of it, and there a send or burn message that meets the condition lowers the loose
token counter by the iris coins it gives to the burning address. -/
theorem supplies_are_circulating (hpools : PoolsApart env.swap) (hs : s.Genesis)
    (hrun : Relation.ReflTransGen (Step env) s s') :
    (∀ k ft, s'.asset.tokens.get k = some ft → s'.bank.getTotalSupply ft.getDenom =
      some ⟨ft.getDenom, s'.bank.circulating ft.getDenom⟩) ∧
    (∀ op : Htlc.Op, (∃ msg, op = .send msg) ∨ (∃ msg, op = .burn msg) →
      (Op.htlc op).SignedByUsers → (Op.htlc op).BurnsNoZero →
      ∀ s'', (Op.htlc op).run env s' = .ok s'' → s''.bank.loosen = s'.bank.loosen -
        (s''.bank.balance burnedCoinsAccAddr irisAtto -
          s'.bank.balance burnedCoinsAccAddr irisAtto)) := by
  have hsupplied : Supplied env s' :=
    invariant_of_step (I := Supplied env) (fun _ _ h hstep => h.step hpools hstep) hrun hs.supplied
  refine ⟨fun k ft hft => ?_, fun op hop hsigned hzero s'' hrun' => ?_⟩
  · have hrec := hsupplied.recorded ft.getDenom ⟨k, ft, hft, rfl⟩
    rw [Bank.Recorded, add_zero] at hrec
    exact hrec
  · obtain ⟨t, ht, rfl⟩ := run_htlc hrun'
    rcases hop with ⟨msg, rfl⟩ | ⟨msg, rfl⟩
    · obtain ⟨bank, hbank, rfl⟩ := Htlc.withBank_ok ht
      refine Bank.loosen_deliverSend (fun x hx heq => hsigned ?_)
        (fun x hx haddr => Coins.Steady.of_nonzero (hzero x hx haddr)) hbank
      exact List.mem_map.mpr ⟨x, hx, heq⟩
    · obtain ⟨bank, hbank, rfl⟩ := Htlc.withBank_ok ht
      exact Bank.loosen_deliverBurn
        (fun heq => hsigned (by simp [Op.signers, Htlc.Op.signers, heq]))
        (Steady.of_nonzero hzero) hbank

def sampleBurn (coins : Coins) : Op := .htlc (.burn ⟨1, coins⟩)

lemma sampleEnv_poolsApart : PoolsApart sampleEnv.swap := by
  intro uid huid
  have hne : uid ≠ "burnedCoins" := by
    rintro rfl
    exact absurd huid (by decide)
  show (if uid = "burnedCoins" then burnedCoinsAccAddr else 1000) ≠ burnedCoinsAccAddr
  rw [if_neg hne]
  decide

/-- With a zero coin before it, a burned coin is taken off twice: five units of the token that are
burned lower its record by ten, and seven iris coins lower the counter by fourteen. -/
theorem zero_coin_burns_twice :
    (∃ s', [sampleIssue, sampleBurn [⟨"www-min", 0⟩, ⟨"xyz-min", 5⟩]].foldlM (Op.run sampleEnv)
        sampleState = .ok s' ∧ s'.asset.tokens.has "i.xyz" = true ∧
      s'.bank.getTotalSupply "xyz-min" = some ⟨"xyz-min", 1999990⟩ ∧
      s'.bank.circulating "xyz-min" = 1999995) ∧
    (∃ s', (sampleBurn [⟨"abc-min", 0⟩, ⟨"iris-atto", 7⟩]).run sampleEnv sampleState = .ok s' ∧
      s'.bank.loosen = sampleState.bank.loosen - 14 ∧ s'.bank.balance burnedCoinsAccAddr irisAtto -
        sampleState.bank.balance burnedCoinsAccAddr irisAtto = 7) := by
  constructor
  · obtain ⟨s', hs', htest⟩ := of_returns
      (p := fun s' : State => decide (s'.asset.tokens.has "i.xyz" = true ∧
        s'.bank.getTotalSupply "xyz-min" = some ⟨"xyz-min", 1999990⟩ ∧
        s'.bank.circulating "xyz-min" = 1999995))
      (x := [sampleIssue, sampleBurn [⟨"www-min", 0⟩, ⟨"xyz-min", 5⟩]].foldlM (Op.run sampleEnv)
        sampleState) (by decide +kernel)
    exact ⟨s', hs', of_decide_eq_true htest⟩
  · obtain ⟨s', hs', htest⟩ := of_returns
      (p := fun s' : State => decide (s'.bank.loosen = sampleState.bank.loosen - 14 ∧
        s'.bank.balance burnedCoinsAccAddr irisAtto -
          sampleState.bank.balance burnedCoinsAccAddr irisAtto = 7))
      (x := (sampleBurn [⟨"abc-min", 0⟩, ⟨"iris-atto", 7⟩]).run sampleEnv sampleState)
      (by decide +kernel)
    exact ⟨s', hs', of_decide_eq_true htest⟩

/-- Without the zero coin the record follows the circulation. -/
theorem plain_burn_recorded : ∃ s s' ft, sampleIssue.run sampleEnv sampleState = .ok s ∧
      (sampleBurn [⟨"xyz-min", 5⟩]).run sampleEnv s = .ok s' ∧
      s'.asset.tokens.get "i.xyz" = some ft ∧
      s'.bank.getTotalSupply ft.getDenom = some ⟨ft.getDenom, s'.bank.circulating ft.getDenom⟩ := by
  obtain ⟨s, hs, htest⟩ := of_returns
    (p := fun s : State => returns (fun s' : State => (s'.asset.tokens.get "i.xyz").isSome)
      ((sampleBurn [⟨"xyz-min", 5⟩]).run sampleEnv s))
    (x := sampleIssue.run sampleEnv sampleState) (by decide +kernel)
  obtain ⟨s', hs', hsome⟩ := of_returns htest
  obtain ⟨ft, hft⟩ := Option.isSome_iff_exists.mp hsome
  have hissue : Step sampleEnv sampleState s :=
    ⟨sampleIssue, show burnedCoinsAccAddr ∉ [(1 : Address)] by decide, trivial, hs⟩
  have hburn : Step sampleEnv s s' := by
    refine ⟨sampleBurn [⟨"xyz-min", 5⟩],
      show burnedCoinsAccAddr ∉ [(1 : Address)] by decide, ?_, hs'⟩
    show ∀ c ∈ ([⟨"xyz-min", 5⟩] : Coins), c.amount ≠ 0
    decide
  have hrun := (Relation.ReflTransGen.single hissue).tail hburn
  exact ⟨s, s', ft, hs, hs', hft,
    (supplies_are_circulating sampleEnv_poolsApart sampleState_genesis hrun).1 "i.xyz" ft hft⟩

end Irishub.App
