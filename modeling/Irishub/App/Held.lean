import Irishub.App.Chain
import Irishub.Coinswap.Vouchers
import Irishub.Htlc.Genesis

/-!
# Where coins come from

Transfers, contracts and swaps leave the sum of every denomination over all
accounts alone, adding and removing liquidity changes the sum of a voucher, and
the asset module adds coins of the tokens it has on record. So whatever is held
after a run from a genesis of iris is iris, a voucher or an issued token
(`held_denominations`), whoever signs the messages.
-/

namespace Irishub.App
open Lib Store Coins Coin
variable {env : Env} {s s' : State} {b b' : Bank} {d : String}

/-- A voucher of a liquidity pool. -/
def IsVoucher (d : String) : Prop := hasPrefix d Coinswap.formatUniABSPrefix = true

/-- Chain has no tokens and no contracts yet, and all coins are iris. -/
structure State.Genesis (s : State) : Prop where
  fresh : s.asset.Fresh
  htlcs : s.htlcs = Store.empty
  expireQueue : s.expireQueue = Store.empty
  iris : ∀ d, d ≠ irisAtto → s.bank.sumOf d = 0

/-- Coins that exist are iris, vouchers and issued tokens. -/
structure Held (s : State) : Prop where
  inv : s.asset.Inv
  held : ∀ d, 0 < s.bank.sumOf d → d = irisAtto ∨ IsVoucher d ∨ s.asset.Issued d

section
variable {u : String}

lemma IsVoucher.colon (h : IsVoucher u) : ':' ∈ u.toList.takeWhile (· != '-') := by
  obtain ⟨r, rfl⟩ := hasPrefix_iff.mp h
  have hlist : (Coinswap.formatUniABSPrefix ++ r).toList =
      'u' :: 'n' :: 'i' :: ':' :: r.toList := by
    rw [String.toList_append]
    rfl
  rw [hlist]
  simp

lemma not_isVoucher_getDenom {ft : Asset.FungibleToken} (h : ft.WellNamed) :
    ¬IsVoucher ft.getDenom := fun hV =>
  h.colon_not_mem_getDenom ((List.takeWhile_sublist _).subset hV.colon)

lemma isVoucher_of_getUniDenom {uid : String} (h : Coinswap.getUniDenom uid = .ok u) :
    IsVoucher u := by
  obtain ⟨_, hcheck, hr⟩ := bind_ok.mp h
  simp only [Coinswap.checkUniId, require_ok, Bool.and_eq_true] at hcheck
  simp only [pure_eq_ok] at hr
  rw [← hr]
  obtain ⟨r, rfl⟩ := hasPrefix_iff.mp hcheck.2
  have hne : Coinswap.formatUniABSPrefix ++ r ≠ iris := by
    intro he
    have hiris := hcheck.2
    rw [he] at hiris
    exact absurd hiris (by decide)
  rw [getCoinMinDenom_of_valid hcheck.1 hne, IsVoucher, String.append_assoc]
  exact hasPrefix_append _ _

lemma amountIn_of_isVoucher {c : Coin} (hc : IsVoucher c.denom) (hd : ¬IsVoucher d) :
    c.amountIn d = 0 :=
  amountIn_of_ne (fun heq => hd (heq ▸ hc))

end

section
open Bank Coinswap
variable {swap : Coinswap.Env}

lemma sumOf_charged {signers : List Address} (h : Asset.Charged signers b b') (d : String) :
    b'.sumOf d = b.sumOf d := by
  rcases h with rfl | ⟨acc, _, tax, burned, b1, h1, h2⟩
  · rfl
  · exact (sumOf_sendCoins h2 d).trans (sumOf_sendCoins h1 d)

lemma sumOf_swapCoins {sender : Address} {recipient : Option Address} {sold bought : Coin}
    (h : swapCoins swap b sender recipient sold bought = .ok b') (d : String) :
    b'.sumOf d = b.sumOf d := by
  simp only [swapCoins, bind_ok] at h
  obtain ⟨_, _, _, _, b1, h1, _, _, h2⟩ := h
  exact (sumOf_sendCoins h2 d).trans (sumOf_sendCoins h1 d)

lemma sumOf_handleSwap {msg : MsgSwapOrder} (h : handleSwap swap b msg = .ok b') (d : String) :
    b'.sumOf d = b.sumOf d := by
  cases trades_of_handleSwap h with
  | doubleExactOutput _ _ _ _ _ _ h1 h2 | doubleExactInput _ _ _ h1 _ _ _ h2 =>
    exact (sumOf_swapCoins h2 d).trans (sumOf_swapCoins h1 d)
  | exactOutput _ _ _ h1 | exactInput _ _ _ h1 => exact sumOf_swapCoins h1 d

/-- A message of the coinswap module changes the sums of vouchers only. -/
lemma sumOf_swapMsg {msg : Coinswap.Msg} (hv : msg.validateBasic = .ok ())
    (h : msg.handle swap b = .ok b') (hd : ¬IsVoucher d) : b'.sumOf d = b.sumOf d := by
  cases msg with
  | swap msg => exact sumOf_handleSwap h d
  | add msg =>
    obtain ⟨mint, amount, _, hadd⟩ := eq_of_handleAddLiquidity hv h
    obtain ⟨u, hu, _⟩ := balance_addLiquidity hadd
    rw [sumOf_addLiquidity hadd hu, amountIn_of_isVoucher (isVoucher_of_getUniDenom hu) hd,
      mul_zero, add_zero]
  | remove msg =>
    obtain ⟨_, hu⟩ := amount_of_validateBasic hv
    obtain ⟨_, hremove⟩ := eq_of_handleRemoveLiquidity rfl hu h
    have hvoucher : IsVoucher msg.withdrawLiquidity.denom := by
      simp only [checkUniDenom, require_ok, Bool.and_eq_true] at hu
      exact hu.2
    rw [sumOf_removeLiquidity hremove, amountIn_of_isVoucher hvoucher hd, mul_zero, sub_zero]

end

section
variable {ft : Asset.FungibleToken} {t : Asset.State}

lemma Held.of_sums (h : Held s) (hinv : s'.asset.Inv)
    (hissued : ∀ d, s'.asset.Issued d ↔ s.asset.Issued d)
    (hsum : ∀ d, ¬IsVoucher d → s'.bank.sumOf d = s.bank.sumOf d) : Held s' where
  inv := hinv
  held d hpos := by
    by_cases hV : IsVoucher d
    · exact Or.inr (Or.inl hV)
    · rw [hsum d hV] at hpos
      rw [hissued]
      exact h.held d hpos

/-- Coins of one token are added that is on record afterwards. -/
lemma Held.of_added (h : Held s) (hinv : t.Inv) (hissued : ∀ d, s.asset.Issued d → t.Issued d)
    (hself : t.Issued ft.getDenom)
    (hsum : ∀ d, d ≠ ft.getDenom → t.bank.sumOf d = s.bank.sumOf d) :
    Held { s with asset := t } where
  inv := hinv
  held d hpos := by
    by_cases hd : d = ft.getDenom
    · exact Or.inr (Or.inr (hd ▸ hself))
    · change 0 < t.bank.sumOf d at hpos
      rw [hsum d hd] at hpos
      rcases h.held d hpos with heq | hV | hold
      · exact Or.inl heq
      · exact Or.inr (Or.inl hV)
      · exact Or.inr (Or.inr (hissued d hold))

lemma sumOf_creditOwner {owner : Option Address} {amount : ℤ} {d0 : String} (hd : d ≠ d0)
    (h : Asset.State.creditOwner b owner ⟨d0, amount⟩ = .ok b') : b'.sumOf d = b.sumOf d := by
  cases owner with
  | none =>
    cases h
    rfl
  | some acc =>
    have h : b.addCoins acc [⟨d0, amount⟩] = .ok b' := h
    rw [Bank.sumOf_addCoins h, denomSum_cons, denomSum_nil, amountIn_mk_of_ne hd, add_zero,
      add_zero]

lemma issued_of_set (htokens : t.tokens = s.asset.tokens.set ft.key ft)
    (hfree : s.asset.tokens.get ft.key = none) (h : s.asset.Issued d) : t.Issued d := by
  obtain ⟨k, ft', hft', rfl⟩ := h
  refine ⟨k, ft', ?_, rfl⟩
  rw [htokens, get_set_ne _ _ (fun heq => ?_)]
  · exact hft'
  · rw [heq, hfree] at hft'
    cases hft'

lemma Held.effect (h : Held s) {signers : List Address} {covered : Prop}
    (heffect : Asset.Effect signers covered s.asset t) : Held { s with asset := t } := by
  have hinv := heffect.inv h.inv
  cases heffect with
  | idle => exact h
  | @issue ft b₁ hissue =>
    obtain ⟨b, owner, hfee, _, _, hcredit⟩ := hissue.credit
    refine h.of_added hinv (fun d hd => issued_of_set rfl hissue.free hd)
      ⟨ft.key, ft, get_set_self _ _ _, rfl⟩ (fun d hd => ?_)
    have hset : (s.asset.issued ft b₁).bank.sumOf d = b₁.sumOf d := rfl
    rw [hset, sumOf_creditOwner hd hcredit, sumOf_charged hfee]
    rfl
  | @mint k ft _ _ _ _ _ _ hft hpos _ _ hfee hincrease hcredit =>
    refine h.of_added hinv (fun d hd => hd) ⟨k, ft, hft, rfl⟩ (fun d hd => ?_)
    obtain ⟨total, _, rfl⟩ := Bank.increaseTotalSupply_eq hpos hincrease
    rw [Bank.sumOf_addCoins hcredit, denomSum_cons, denomSum_nil, amountIn_mk_of_ne hd, add_zero,
      add_zero]
    exact sumOf_charged hfee d
  | rewrite hft hnames =>
    exact h.of_sums hinv (Asset.issued_iff_of_rewrite hft hnames rfl) (fun _ _ => rfl)
  | gateway _ _ hfee =>
    exact h.of_sums hinv (Asset.issued_iff_of_tokens rfl) (fun d _ => sumOf_charged hfee d)

end

lemma State.Genesis.held (h : s.Genesis) : Held s where
  inv := h.fresh.keeps.1
  held d hpos := by
    by_contra hnot
    push Not at hnot
    rw [h.iris d hnot.1] at hpos
    exact lt_irrefl _ hpos

lemma Held.run {op : Op} (h : Held s) (hrun : op.run env s = .ok s') : Held s' := by
  cases op with
  | asset msg =>
    obtain ⟨hv, t, ht, rfl⟩ := run_asset hrun
    exact h.effect (Asset.handle_effect h.inv hv ht)
  | assetInit =>
    obtain ⟨t, ht, rfl⟩ := run_assetInit hrun
    obtain ⟨u, heffect, heffect'⟩ := Asset.init_effect h.inv ht
    exact (h.effect heffect).effect heffect'
  | htlc op =>
    obtain ⟨t, ht, rfl⟩ := run_htlc hrun
    exact h.of_sums ⟨h.inv.token, h.inv.gateway⟩ (Asset.issued_iff_of_tokens rfl)
      (fun d _ => Htlc.sumOf_run ht d)
  | swap msg =>
    obtain ⟨hv, b, hb, rfl⟩ := run_swap hrun
    exact h.of_sums ⟨h.inv.token, h.inv.gateway⟩ (Asset.issued_iff_of_tokens rfl)
      (fun d hd => sumOf_swapMsg hv hb hd)

/-- No other coins come into being: what an account holds after a run is iris, the voucher of a
pool, or a token that was issued. -/
theorem held_denominations {ops : List Op} (hs : s.Genesis)
    (hrun : ops.foldlM (Op.run env) s = .ok s') {addr : Address} {d : String}
    (hheld : 0 < s'.bank.balance addr d) : d = irisAtto ∨ IsVoucher d ∨ s'.asset.Issued d := by
  have hall : Held s' :=
    invariant_of_foldlM (I := Held) (fun _ _ _ h hrun => h.run hrun) hrun hs.held
  exact hall.held d (hheld.trans_le (s'.bank.balance_le_sumOf addr d))

/-- The burning address is a hash as well, and not that of a liquidity id. -/
def sampleEnv : Env where
  params := Asset.sampleParams
  swap :=
    { addressHash := fun id => if id = "burnedCoins" then burnedCoinsAccAddr else 1000
      fee := 1 / 2 }
  sha256 := Htlc.sampleHash

def sampleState : State where
  asset := Asset.sampleState
  htlcs := Store.empty
  expireQueue := Store.empty
  height := 1

def sampleIssue : Op := .asset (.issueToken { Asset.sampleIssue 6 with symbol := "xyz" })

lemma sampleState_genesis : sampleState.Genesis where
  fresh := ⟨rfl, rfl⟩
  htlcs := rfl
  expireQueue := rfl
  iris d hd := by
    have hsum : sampleState.bank.sumOf d = Coin.amountIn ⟨irisAtto, 10 ^ 19⟩ d := by
      simp [sampleState, State.bank, Asset.sampleState, Bank.sumOf, Store.total, Store.set,
        empty, insertEntry, StoredCoins.amountOf_eq, irisAtto]
    rw [hsum, amountIn_mk_of_ne hd]

/-- An issued token is one of the coins that exist. -/
theorem held_after_issue : ∃ s, [sampleIssue].foldlM (Op.run sampleEnv) sampleState = .ok s ∧
    0 < s.bank.balance 1 "xyz-min" ∧
      ("xyz-min" = irisAtto ∨ IsVoucher "xyz-min" ∨ s.asset.Issued "xyz-min") := by
  obtain ⟨s, hs, htest⟩ := of_returns
    (p := fun s : State => decide (0 < s.bank.balance 1 "xyz-min"))
    (x := [sampleIssue].foldlM (Op.run sampleEnv) sampleState) (by decide +kernel)
  have hheld := of_decide_eq_true htest
  exact ⟨s, hs, hheld, held_denominations sampleState_genesis hs hheld⟩

end Irishub.App
