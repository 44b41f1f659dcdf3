import Irishub.BaseApp.RunTx

/-!
# Atomicity of a transaction

If `runTx` returns a non-OK code, no effect of the messages should be in the
deliver state. The module describes what the ante handlers and the refund may
write (`AnteEffects`, `RefundEffects`), proves that they write nothing else, and
then follows a frame through the body and the deferred functions.

The cache of the messages is written before the block gas is consumed and before
the fee is refunded. Hence a transaction is atomic exactly when, after messages
that all passed, both of these succeed (`atomic_iff_deferred`). `Settlement` turns
this into a condition on the gas, the fee and the balances.
-/

namespace Irishub.BaseApp
open Lib StoredCoins List

section
variable {Msg ρ : Type} (app : App Msg ρ)

/-- A signer's account record before and after its signature was processed. -/
structure Signed (i i' : AccountInfo) : Prop where
  accountNumber : i'.accountNumber = i.accountNumber
  memoRegexp : i'.memoRegexp = i.memoRegexp
  sequence : i'.sequence = (i.sequence + 1) % 2 ^ 64
  pubKey : ∀ k ∈ i.pubKey, i'.pubKey = some k

/-- Parts of the stores that neither the ante handlers nor the refund write. -/
structure SameBase (s s' : MultiStore ρ) : Prop where
  rest : s'.rest = s.rest
  authParams : s'.authParams = s.authParams
  serviceTxSizeLimit : s'.serviceTxSizeLimit = s.serviceTxSizeLimit
  totalLoosenToken : s'.bank.totalLoosenToken = s.bank.totalLoosenToken
  totalSupply : s'.bank.totalSupply = s.bank.totalSupply

/-- Effects of the ante handlers: the first signer pays the fee to the collected fees, and
the records of the signers get their sequence and public key. -/
structure AnteEffects (tx : StdTx Msg) (s s' : MultiStore ρ) : Prop where
  base : SameBase s s'
  balance : ∀ addr d, s'.bank.balance addr d = s.bank.balance addr d -
    if (tx.getSigners app).head? = some addr then Coins.denomSum d tx.fee.amount else 0
  collectedFees : ∀ d, s'.collectedFees.amountOf d =
    s.collectedFees.amountOf d + Coins.denomSum d tx.fee.amount
  signer : ∀ addr ∈ tx.getSigners app, ∃ i i', s.accountInfo.get addr = some i ∧
    s'.accountInfo.get addr = some i' ∧ Signed i i'
  other : ∀ addr ∉ tx.getSigners app, s'.accountInfo.get addr = s.accountInfo.get addr

/-- Effects of a refund: the first signer gets a part of the collected fees back. -/
structure RefundEffects (tx : StdTx Msg) (s s' : MultiStore ρ) : Prop where
  base : SameBase s s'
  account : ∀ addr, s'.accountInfo.get addr = s.accountInfo.get addr
  refund : ∃ x, 0 ≤ x ∧
    (∀ addr d, s'.bank.balance addr d = s.bank.balance addr d +
      if (tx.getSigners app).head? = some addr ∧ d = irisAtto then x else 0) ∧
    ∀ d, s'.collectedFees.amountOf d =
      s.collectedFees.amountOf d - if d = irisAtto then x else 0

lemma SameBase.refl (s : MultiStore ρ) : SameBase s s := ⟨rfl, rfl, rfl, rfl, rfl⟩

lemma SameBase.trans {s1 s2 s3 : MultiStore ρ} (h : SameBase s1 s2) (h' : SameBase s2 s3) :
    SameBase s1 s3 :=
  ⟨h'.rest.trans h.rest, h'.authParams.trans h.authParams,
    h'.serviceTxSizeLimit.trans h.serviceTxSizeLimit, h'.totalLoosenToken.trans h.totalLoosenToken,
    h'.totalSupply.trans h.totalSupply⟩

lemma SameBase.setAccount (s : MultiStore ρ) (acc : Account) : SameBase s (s.setAccount acc) :=
  ⟨rfl, rfl, rfl, rfl, rfl⟩

end

section
variable {Msg ρ : Type} (app : App Msg ρ) {s : MultiStore ρ} {addr : Address} {acc : Account}

lemma nodup_foldl_signers (addrs signers : List Address) (h : signers.Nodup) :
    (addrs.foldl (fun signers addr => if addr ∈ signers then signers else signers ++ [addr])
      signers).Nodup := by
  induction addrs generalizing signers with
  | nil => exact h
  | cons addr addrs ih =>
    refine ih _ ?_
    dsimp only
    split_ifs with hmem
    · exact h
    · rw [nodup_append]
      refine ⟨h, nodup_singleton addr, ?_⟩
      rintro a ha b hb rfl
      exact hmem (mem_singleton.mp hb ▸ ha)

lemma nodup_getSigners (tx : StdTx Msg) : (tx.getSigners app).Nodup :=
  nodup_foldl_signers _ [] nodup_nil

lemma address_of_getAccount (h : s.getAccount addr = some acc) : acc.address = addr := by
  unfold MultiStore.getAccount at h
  obtain ⟨info, _, rfl⟩ := Option.map_eq_some_iff.mp h
  rfl

lemma info_of_getAccount (h : s.getAccount addr = some acc) :
    s.accountInfo.get addr = some acc.toAccountInfo ∧ acc.coins = s.bank.getCoins addr := by
  unfold MultiStore.getAccount at h
  obtain ⟨info, hinfo, rfl⟩ := Option.map_eq_some_iff.mp h
  exact ⟨hinfo, rfl⟩

lemma getSignerAccs_returns (store : MultiStore ρ) (addrs : List Address) :
    Run.Returns (fun accs => accs.map (·.address) = addrs ∧
      ∀ acc ∈ accs, store.getAccount acc.address = some acc) (getSignerAccs app store addrs) := by
  induction addrs with
  | nil => exact .pure ⟨rfl, by simp⟩
  | cons addr addrs ih =>
    refine .bind (.any _) (fun _ _ => ?_)
    refine .bind (P := fun acc => store.getAccount addr = some acc) (.lift ?_) ?_
    · intro acc hacc
      cases h : store.getAccount addr with
      | none => simp [h] at hacc
      | some acc' => simpa [h] using hacc
    · intro acc hacc
      refine .bind ih (fun accs haccs => .pure ⟨?_, ?_⟩)
      · simp [address_of_getAccount hacc, haccs.1]
      · intro acc' hmem
        rcases mem_cons.mp hmem with rfl | hmem
        · rw [address_of_getAccount hacc]
          exact hacc
        · exact haccs.2 acc' hmem

lemma processSig_returns (ctx : Context) (tx : StdTx Msg) (acc : Account) (sig : StdSignature) :
    Run.Returns (fun acc' => acc'.address = acc.address ∧ acc'.coins = acc.coins ∧
      Signed acc.toAccountInfo acc'.toAccountInfo) (processSig app ctx tx acc sig) := by
  refine .bind (P := fun pubKey => ∀ k ∈ acc.pubKey, pubKey = k) (.lift ?_) ?_
  · intro pubKey hpubKey k hk
    rw [Option.mem_def] at hk
    simpa [processPubKey, hk] using hpubKey.symm
  · intro pubKey hpubKey
    refine .bind (.any _) (fun _ _ => .bind (.any _) (fun _ _ => .bind (.any _) (fun _ _ => ?_)))
    refine .pure ⟨rfl, rfl, rfl, rfl, rfl, ?_⟩
    intro k hk
    rw [hpubKey k hk]

/-- What the loop over the signatures leaves. -/
structure SignedAll (l : List (Account × StdSignature)) (s : MultiStore ρ)
    (r : List Account × MultiStore ρ) : Prop where
  addresses : r.1.map (·.address) = l.map (·.1.address)
  base : SameBase s r.2
  collectedFees : r.2.collectedFees = s.collectedFees
  other : ∀ addr ∉ l.map (·.1.address),
    r.2.bank.getCoins addr = s.bank.getCoins addr ∧
      r.2.accountInfo.get addr = s.accountInfo.get addr
  signer : ∀ p ∈ l, r.2.bank.getCoins p.1.address = p.1.coins ∧
    ∃ i', r.2.accountInfo.get p.1.address = some i' ∧ Signed p.1.toAccountInfo i'

lemma SignedAll.cons {p : Account × StdSignature} {l : List (Account × StdSignature)}
    {r : List Account × MultiStore ρ}
    (haddr : acc.address = p.1.address) (hcoins : acc.coins = p.1.coins)
    (hsigned : Signed p.1.toAccountInfo acc.toAccountInfo)
    (hnew : p.1.address ∉ l.map (·.1.address)) (h : SignedAll l (s.setAccount acc) r) :
    SignedAll (p :: l) s (acc :: r.1, r.2) := by
  refine ⟨by simp [haddr, h.addresses], (SameBase.setAccount s acc).trans h.base,
    h.collectedFees, ?_, ?_⟩
  · intro addr hmem
    obtain ⟨hne, hmem⟩ : addr ≠ p.1.address ∧ addr ∉ l.map (·.1.address) := by
      simpa [not_or] using hmem
    obtain ⟨hbank, hinfo⟩ := h.other addr hmem
    refine ⟨hbank.trans ?_, hinfo.trans ?_⟩
    · simp only [MultiStore.setAccount, Bank.getCoins_setCoins, haddr, if_neg hne]
    · exact Store.get_set_ne _ _ (haddr ▸ hne)
  · intro q hq
    rcases mem_cons.mp hq with rfl | hq
    · obtain ⟨hbank, hinfo⟩ := h.other q.1.address hnew
      refine ⟨hbank.trans ?_, acc.toAccountInfo, hinfo.trans ?_, hsigned⟩
      · simp only [MultiStore.setAccount, Bank.getCoins_setCoins, haddr, if_true, hcoins]
      · simp only [MultiStore.setAccount, haddr, Store.get_set_self]
    · exact h.signer q hq

lemma processSigs_returns (ctx : Context) (tx : StdTx Msg) (l : List (Account × StdSignature))
    (s : MultiStore ρ) (hl : (l.map (·.1.address)).Nodup) :
    Run.Returns (SignedAll l s) (processSigs app ctx tx s l) := by
  induction l generalizing s with
  | nil => exact .pure ⟨rfl, .refl s, rfl, fun _ _ => ⟨rfl, rfl⟩, by simp⟩
  | cons p l ih =>
    obtain ⟨acc, sig⟩ := p
    rw [map_cons, nodup_cons] at hl
    refine .bind (processSig_returns app ctx tx acc sig) (fun acc' hacc' => ?_)
    refine .bind (.any _) (fun _ _ => ?_)
    refine .bind (ih (s.setAccount acc') hl.2) (fun r hr => .pure ?_)
    exact hr.cons hacc'.1 hacc'.2.1 hacc'.2.2 hl.1

end

section
variable {Msg ρ : Type} (app : App Msg ρ)

/-- What the fee payment leaves. -/
structure FeesPaid (fee : StdFee) (accs : List Account) (s : MultiStore ρ)
    (r : List Account × MultiStore ρ) : Prop where
  store : ∃ fees : StoredCoins, r.2 = { s with collectedFees := fees } ∧
    ∀ d, fees.amountOf d = s.collectedFees.amountOf d + Coins.denomSum d fee.amount
  addresses : r.1.map (·.address) = accs.map (·.address)
  signer : ∀ acc ∈ accs, ∃ acc' ∈ r.1, acc'.address = acc.address ∧
    acc'.toAccountInfo = acc.toAccountInfo ∧ ∀ d, acc'.coins.amountOf d = acc.coins.amountOf d -
      if accs.head?.map (·.address) = some acc.address then Coins.denomSum d fee.amount else 0

lemma payFees_returns (s : MultiStore ρ) (accs : List Account) (fee : StdFee)
    (hfee : fee.Valid) (hnodup : (accs.map (·.address)).Nodup) :
    Run.Returns (FeesPaid fee accs s) (payFees app s accs fee hfee) := by
  unfold payFees
  split_ifs with hzero
  · have hsum := Coins.denomSum_of_isZero hzero
    refine .pure ⟨⟨s.collectedFees, rfl, by simp [hsum]⟩, rfl, fun acc hacc => ?_⟩
    exact ⟨acc, hacc, rfl, rfl, by simp [hsum]⟩
  · cases accs with
    | nil => exact .lift (by simp)
    | cons acc rest =>
      rw [map_cons, nodup_cons] at hnodup
      refine .bind (P := fun acc' => ∃ coins : StoredCoins, acc' = { acc with coins := coins } ∧
        ∀ d, coins.amountOf d = acc.coins.amountOf d - Coins.denomSum d fee.amount)
        (.lift ?_) ?_
      · intro acc' hacc'
        obtain ⟨coins, hcoins, hacc'⟩ := bind_ok.mp hacc'
        simp only [pure_eq_ok] at hacc'
        exact ⟨coins, hacc'.symm, amountOf_sub hcoins⟩
      · rintro acc' ⟨coins, rfl, hcoins⟩
        refine .bind (P := fun s' => ∃ fees : StoredCoins, s' = { s with collectedFees := fees } ∧
          ∀ d, fees.amountOf d = s.collectedFees.amountOf d + Coins.denomSum d fee.amount) ?_ ?_
        · refine .bind (.any _) (fun _ _ => ?_)
          refine .bind (.lift (fun fees hfees => amountOf_add hfees)) ?_
          intro fees hfees
          exact .bind (.any _) (fun _ _ => .pure ⟨fees, rfl, hfees⟩)
        · intro s' hs'
          refine .pure ⟨hs', rfl, fun acc' hmem => ?_⟩
          rcases mem_cons.mp hmem with rfl | hmem
          · exact ⟨{ acc' with coins := coins }, by simp, rfl, rfl, by simpa using hcoins⟩
          · have hne : acc.address ≠ acc'.address := by
              intro heq
              exact hnodup.1 (heq ▸ mem_map_of_mem hmem)
            exact ⟨acc', by simp [hmem], rfl, rfl, by simp [hne]⟩

lemma authChecks_returns (ctx : Context) (s : MultiStore ρ) (tx : StdTx Msg) (hfee : tx.fee.Valid) :
    Run.Returns (fun r => r.1.map (·.address) = tx.getSigners app ∧ AnteEffects app tx s r.2)
      (authChecks app ctx s tx hfee) := by
  refine .bind (P := fun _ => tx.signatures.length = (tx.getSigners app).length)
    (.lift ?_) (fun _ hlen => ?_)
  · intro u hu
    simp only [StdTx.validateBasic, bind_ok, require_ok, beq_iff_eq] at hu
    obtain ⟨_, _, _, _, _, hlen, _⟩ := hu
    exact hlen
  refine .bind (getSignerAccs_returns app s _) (fun accs haccs => ?_)
  obtain ⟨haddrs, haccs⟩ := haccs
  have hnodup : (accs.map (·.address)).Nodup := haddrs ▸ nodup_getSigners app tx
  refine .bind (.any _) (fun _ _ => ?_)
  refine .bind (payFees_returns app s accs tx.fee hfee hnodup) (fun paid hpaid => ?_)
  obtain ⟨accs', s'⟩ := paid
  obtain ⟨⟨fees, rfl, hfees⟩, haddrs', hsigner⟩ := hpaid
  simp only at haddrs' hsigner
  have hzip : (accs'.zip tx.signatures).map Prod.fst = accs' := by
    refine map_fst_zip ?_
    have h := congrArg length (haddrs'.trans haddrs)
    rw [length_map] at h
    omega
  have hzipAddr : (accs'.zip tx.signatures).map (·.1.address) = tx.getSigners app := by
    have h := congrArg (map Account.address) hzip
    rw [map_map] at h
    exact h.trans (haddrs'.trans haddrs)
  refine (processSigs_returns app ctx tx _ _ (hzipAddr ▸ nodup_getSigners app tx)).imp ?_
  intro r hr
  have hhead : accs.head?.map (·.address) = (tx.getSigners app).head? := by rw [← haddrs, head?_map]
  -- a signer's account before and after
  have hone : ∀ addr ∈ tx.getSigners app, ∃ acc, s.getAccount addr = some acc ∧
      (∀ d, (r.2.bank.getCoins addr).amountOf d = acc.coins.amountOf d -
        if (tx.getSigners app).head? = some addr then Coins.denomSum d tx.fee.amount else 0) ∧
      ∃ i', r.2.accountInfo.get addr = some i' ∧ Signed acc.toAccountInfo i' := by
    intro addr haddr
    rw [← haddrs] at haddr
    obtain ⟨acc, hacc, rfl⟩ := mem_map.mp haddr
    obtain ⟨acc', hacc', haddr', hinfo', hcoins'⟩ := hsigner acc hacc
    rw [← hzip] at hacc'
    obtain ⟨p, hp, rfl⟩ := mem_map.mp hacc'
    obtain ⟨hbank, i', hi', hsigned⟩ := hr.signer p hp
    rw [haddr'] at hbank hi'
    rw [hinfo'] at hsigned
    refine ⟨acc, haccs acc hacc, ?_, i', hi', hsigned⟩
    rw [hbank, ← hhead]
    exact hcoins'
  have hother := fun addr (h : addr ∉ tx.getSigners app) => hr.other addr (hzipAddr ▸ h)
  refine ⟨hr.addresses.trans hzipAddr, ?_, ?_, ?_, ?_, ?_⟩
  · exact ⟨hr.base.rest, hr.base.authParams, hr.base.serviceTxSizeLimit,
      hr.base.totalLoosenToken, hr.base.totalSupply⟩
  · intro addr d
    unfold Bank.balance
    by_cases hmem : addr ∈ tx.getSigners app
    · obtain ⟨acc, hacc, hcoins, _⟩ := hone addr hmem
      rw [hcoins, (info_of_getAccount hacc).2]
    · have hne : (tx.getSigners app).head? ≠ some addr := fun h => hmem (mem_of_head? h)
      rw [(hother addr hmem).1, if_neg hne, sub_zero]
  · rw [hr.collectedFees]
    exact hfees
  · intro addr hmem
    obtain ⟨acc, hacc, _, i', hi', hsigned⟩ := hone addr hmem
    exact ⟨acc.toAccountInfo, i', (info_of_getAccount hacc).1, hi', hsigned⟩
  · intro addr hmem
    exact (hother addr hmem).2

end

section
variable {Msg ρ : Type} (app : App Msg ρ) {s s' : MultiStore ρ} {addr : Address} {x : ℤ}
  {tx : StdTx Msg} {ctx : Context} {result : Result}

lemma getFee_ok {coins : Coins} {fee : Coin} (h : getFee coins = .ok fee) :
    fee.denom = irisAtto := by
  unfold getFee at h
  split_ifs at h with hnil
  · cases h
    rfl
  · exact congrArg Coin.denom (Coin.newCoin_ok.mp h).1

lemma refundTo_ok (h : refundTo s addr ⟨irisAtto, x⟩ = .ok s') :
    SameBase s s' ∧ (∀ a, s'.accountInfo.get a = s.accountInfo.get a) ∧
    (∀ a d, s'.bank.balance a d = s.bank.balance a d + if a = addr ∧ d = irisAtto then x else 0) ∧
    ∀ d, s'.collectedFees.amountOf d =
      s.collectedFees.amountOf d - if d = irisAtto then x else 0 := by
  simp only [refundTo, refundCollectedFees, bind_ok, pure_eq_ok] at h
  obtain ⟨acc, hacc, coins, hcoins, fees, hfees, rfl⟩ := h
  have hacc : s.getAccount addr = some acc := by
    cases hget : s.getAccount addr with
    | none => simp [hget] at hacc
    | some acc' => simpa [hget] using hacc
  obtain ⟨hinfo, hbank⟩ := info_of_getAccount hacc
  have haddr := address_of_getAccount hacc
  refine ⟨⟨rfl, rfl, rfl, rfl, rfl⟩, ?_, ?_, ?_⟩
  · intro a
    simp only [MultiStore.setAccount, haddr, Store.get_set]
    split_ifs with ha
    · rw [ha, hinfo]
    · rfl
  · intro a d
    simp only [MultiStore.setAccount, Bank.balance, Bank.getCoins_setCoins, haddr]
    by_cases ha : a = addr
    · subst ha
      have hsum := amountOf_add hcoins d
      rw [hbank] at hsum
      simpa [Coin.amountIn, eq_comm] using hsum
    · simp [ha]
  · intro d
    have hsum := amountOf_sub hfees d
    simpa [MultiStore.setAccount, Coin.amountIn, eq_comm] using hsum

lemma refundTo_effects (hhead : (tx.getSigners app).head? = some addr) (hx : 0 ≤ x)
    (h : refundTo s addr ⟨irisAtto, x⟩ = .ok s') : RefundEffects app tx s s' := by
  obtain ⟨hbase, haccount, hbalance, hfees⟩ := refundTo_ok h
  refine ⟨hbase, haccount, x, hx, fun a d => ?_, hfees⟩
  simp only [hbalance a d, hhead, Option.some.injEq, eq_comm]

lemma feeRefundHandler_effects (hsigners : ctx.signers.map (·.address) = tx.getSigners app)
    (h : feeRefundHandler ctx s tx result = .ok s') : s' = s ∨ RefundEffects app tx s s' := by
  unfold feeRefundHandler at h
  cases hctx : ctx.signers with
  | nil =>
    simp only [hctx, Except.ok.injEq] at h
    exact Or.inl h.symm
  | cons first rest =>
    have hhead : (tx.getSigners app).head? = some first.address := by
      rw [← hsigners, hctx]
      rfl
    simp only [hctx] at h
    obtain ⟨fee, hfee, h⟩ := bind_ok.mp h
    split_ifs at h with hgas
    · simp only [Except.ok.injEq] at h
      exact Or.inl h.symm
    · simp only [bind_ok, pure_eq_ok, Coin.newCoin_ok] at h
      obtain ⟨_, _, amount, _, coin, ⟨rfl, hamount⟩, s'', hs'', _, _, _, _, rfl⟩ := h
      rw [getFee_ok hfee] at hs''
      exact Or.inr (refundTo_effects app hhead hamount hs'')

lemma feeRefundHandler_eq_self (hnone : ctx.signers = [] ∨ result.gasWanted = 0)
    (h : feeRefundHandler ctx s tx result = .ok s') : s' = s := by
  unfold feeRefundHandler at h
  cases hctx : ctx.signers with
  | nil =>
    simp only [hctx, Except.ok.injEq] at h
    exact h.symm
  | cons first rest =>
    simp only [hctx, reduceCtorEq, false_or] at hnone
    simp only [hctx, hnone, Nat.zero_le, if_true] at h
    obtain ⟨fee, _, h⟩ := bind_ok.mp h
    simp only [Except.ok.injEq] at h
    exact h.symm

end

section
variable {Msg ρ : Type} (app : App Msg ρ)

/-- Body was left before the messages: nothing is written, the result or a panic reports the
failure, and a refund has nothing to give back. -/
structure LeftBody (f f' : Frame ρ) : Prop where
  store : f'.state.store = f.state.store
  blockGasMeter : f'.state.blockGasMeter = f.state.blockGasMeter
  written : f'.written = f.written
  failed : f'.panicking ≠ none ∨ f'.result.code ≠ .ok
  noRefund : f'.ctx.signers = [] ∨ f'.result.gasWanted = 0

/-- Ante handlers have passed with the store `cache`. -/
structure ReadyBody (cache : MultiStore ρ) (f f' : Frame ρ) : Prop where
  store : f'.state.store = cache
  blockGasMeter : f'.state.blockGasMeter = f.state.blockGasMeter
  written : f'.written = f.written ++ [.ante]
  panicking : f'.panicking = f.panicking
  ctx : f'.ctx = f.ctx

namespace Frame
variable (f : Frame ρ) (g : GasMeter)

@[simp] lemma setMeter_meter : (f.setMeter g).meter = g := by
  unfold setMeter meter
  cases f.txMeter <;> rfl

@[simp] lemma setMeter_store : (f.setMeter g).state.store = f.state.store := by
  unfold setMeter
  cases f.txMeter <;> rfl

@[simp] lemma setMeter_blockGasMeter :
    (f.setMeter g).state.blockGasMeter = f.state.blockGasMeter := by
  unfold setMeter
  cases f.txMeter <;> rfl

@[simp] lemma setMeter_ctx : (f.setMeter g).ctx = f.ctx := by
  unfold setMeter
  cases f.txMeter <;> rfl

@[simp] lemma setMeter_written : (f.setMeter g).written = f.written := by
  unfold setMeter
  cases f.txMeter <;> rfl

@[simp] lemma setMeter_result : (f.setMeter g).result = f.result := by
  unfold setMeter
  cases f.txMeter <;> rfl

@[simp] lemma setMeter_panicking : (f.setMeter g).panicking = f.panicking := by
  unfold setMeter
  cases f.txMeter <;> rfl

@[simp] lemma setMeter_gasWanted : (f.setMeter g).gasWanted = f.gasWanted := by
  unfold setMeter
  cases f.txMeter <;> rfl

lemma leftBody_stop {f : Frame ρ} (hresult : f.result = .zero) (fault : Fault) :
    LeftBody f ((f.setMeter g).stop fault) := by
  cases fault with
  | panic p =>
    refine ⟨by simp [stop], by simp [stop], by simp [stop], Or.inl (by simp [stop]), Or.inr ?_⟩
    simp [stop, hresult, Result.zero]
  | error e =>
    refine ⟨by simp [stop], by simp [stop], by simp [stop], Or.inr ?_, Or.inr rfl⟩
    simp [stop, Result.ofError]

end Frame

def OnlyChecks (anteHandler : AnteHandler ρ) : Prop :=
  ∀ ctx s, Run.Returns (fun r => r = .next none s .zero) (anteHandler ctx s)

lemma onlyChecks_checkingAnteHandler (checks : Context → MultiStore ρ → Metered Unit) :
    OnlyChecks (fun ctx s => checkingAnteHandler (checks ctx s) s) :=
  fun _ _ => .bind (.any _) (fun _ _ => .pure rfl)

lemma onlyChecks_tail (tx : StdTx Msg) (hfee : tx.fee.Valid) :
    ∀ h ∈ (anteHandlers app tx hfee).tail, OnlyChecks h := by
  intro h hmem
  simp only [anteHandlers, tail_cons, mem_cons, not_mem_nil, or_false] at hmem
  rcases hmem with rfl | rfl
  · exact onlyChecks_checkingAnteHandler (fun _ store => bankChecks app store tx)
  · exact onlyChecks_checkingAnteHandler (fun ctx store => assetChecks app ctx store tx)

lemma runAnteHandlers_onlyChecks (txSize : ℕ) (cache : MultiStore ρ) :
    ∀ (handlers : List (AnteHandler ρ)) (f : Frame ρ), (∀ h ∈ handlers, OnlyChecks h) →
      f.result = .zero →
      (∃ f', runAnteHandlers txSize handlers cache f = .left f' ∧ LeftBody f f') ∨
      ∃ f', runAnteHandlers txSize handlers cache f = .ready f' ∧ ReadyBody cache f f'
  | [], f, _, hresult => by
    rw [runAnteHandlers]
    rcases consumeGas (blockStoreCostPerByte * txSize) f.meter with ⟨fault | u, g⟩
    · exact Or.inl ⟨_, rfl, f.leftBody_stop g hresult fault⟩
    · refine Or.inr ⟨_, rfl, rfl, ?_, ?_, ?_, ?_⟩ <;> simp [Frame.write]
  | h :: handlers, f, hchecks, hresult => by
    have hh := hchecks h (by simp) f.ctx cache f.meter
    rw [runAnteHandlers]
    rcases hrun : h f.ctx cache f.meter with ⟨fault | r, g⟩
    · exact Or.inl ⟨_, rfl, f.leftBody_stop g hresult fault⟩
    · rw [hrun] at hh
      obtain rfl := hh r rfl
      have ih := runAnteHandlers_onlyChecks txSize cache handlers
        { (f.setMeter g).setCtx none with
          gasWanted := (f.gasWanted + Result.zero.gasWanted) % 2 ^ 64 }
        (fun h' hh' => hchecks h' (List.mem_cons_of_mem _ hh')) (by simpa [Frame.setCtx])
      rcases ih with ⟨f', hf', hleft⟩ | ⟨f', hf', hready⟩
      · refine Or.inl ⟨f', hf', ?_, ?_, ?_, hleft.failed, hleft.noRefund⟩
        · simpa [Frame.setCtx] using hleft.store
        · simpa [Frame.setCtx] using hleft.blockGasMeter
        · simpa [Frame.setCtx] using hleft.written
      · refine Or.inr ⟨f', hf', hready.store, ?_, ?_, ?_, ?_⟩
        · simpa [Frame.setCtx] using hready.blockGasMeter
        · simpa [Frame.setCtx] using hready.written
        · simpa [Frame.setCtx] using hready.panicking
        · simpa [Frame.setCtx] using hready.ctx

/-- Messages are reached with the effects of the ante handlers in the store. -/
structure Passed (tx : StdTx Msg) (s : DeliverState ρ) (f : Frame ρ) : Prop where
  effects : AnteEffects app tx s.store f.state.store
  blockGasMeter : f.state.blockGasMeter = s.blockGasMeter
  written : f.written = [.ante]
  panicking : f.panicking = none
  signers : f.ctx.signers.map (·.address) = tx.getSigners app

lemma runAnteHandlers_cases (tx : StdTx Msg) (hfee : tx.fee.Valid) (txSize : ℕ)
    (s : DeliverState ρ) (g : GasMeter) :
    (∃ f, runAnteHandlers txSize (anteHandlers app tx hfee) s.store ((Frame.init s).setMeter g) =
      .left f ∧ LeftBody (.init s) f) ∨
    ∃ f, runAnteHandlers txSize (anteHandlers app tx hfee) s.store ((Frame.init s).setMeter g) =
      .ready f ∧ Passed app tx s f := by
  have heffects := authChecks_returns app (Frame.init s).ctx s.store tx hfee
    (setGasMeter s.height tx.fee.gas)
  simp only [anteHandlers]
  rw [runAnteHandlers]
  simp only [Frame.setMeter_ctx, Frame.setMeter_meter, authAnteHandler]
  rcases hauth : authChecks app (Frame.init s).ctx s.store tx hfee
    (setGasMeter (Frame.init s).ctx.height tx.fee.gas) with ⟨fault | ⟨accs, cache⟩, g'⟩
  · -- every way in which the handler of `auth` does not continue
    refine Or.inl ?_
    rcases fault with p | e
    · cases p
      case errorOutOfGas => exact ⟨_, rfl, rfl, rfl, rfl, Or.inr (by simp), Or.inl rfl⟩
      all_goals exact ⟨_, rfl, Frame.leftBody_stop _ rfl _⟩
    · exact ⟨_, rfl, rfl, rfl, rfl, Or.inr (by simp [Result.ofError]), Or.inl rfl⟩
  · obtain ⟨hsigners, hante⟩ := heffects (accs, cache) (by
      have h := congrArg Prod.fst hauth
      exact h)
    have hloop := runAnteHandlers_onlyChecks txSize cache _
      { ((Frame.init s).setMeter g).setCtx
          (some ({ (Frame.init s).ctx with signers := accs }, g')) with
        gasWanted := (0 + tx.fee.gas) % 2 ^ 64 } (onlyChecks_tail app tx hfee) rfl
    rcases hloop with ⟨f, hf, hleft⟩ | ⟨f, hf, hready⟩
    · exact Or.inl ⟨f, hf, hleft.store, hleft.blockGasMeter, hleft.written, hleft.failed,
        hleft.noRefund⟩
    · refine Or.inr ⟨f, hf, ?_, hready.blockGasMeter, hready.written, hready.panicking, ?_⟩
      · rw [hready.store]
        exact hante
      · rw [hready.ctx]
        exact hsigners

lemma beforeMsgs_cases (tx : StdTx Msg) (hfee : tx.fee.Valid) (txSize : ℕ) (s : DeliverState ρ) :
    (∃ f, beforeMsgs app tx hfee txSize (.init s) = .left f ∧ LeftBody (.init s) f) ∨
    ∃ f, beforeMsgs app tx hfee txSize (.init s) = .ready f ∧ Passed app tx s f := by
  unfold beforeMsgs
  rcases preprocessFee app tx (.init s) with ⟨fault | u, g⟩
  · exact Or.inl ⟨_, rfl, Frame.leftBody_stop g rfl fault⟩
  · exact runAnteHandlers_cases app tx hfee txSize s g

end

section
variable {Msg ρ : Type} (tx : StdTx Msg) (f : Frame ρ)

lemma consumeGas_error {amount : ℕ} {g g' : GasMeter} {fault : Fault}
    (h : consumeGas amount g = (.error fault, g')) : ∃ p, fault = .panic p := by
  unfold consumeGas at h
  split_ifs at h with hover
  · simp only [raise, Prod.mk.injEq, Except.error.injEq] at h
    exact ⟨_, h.1.symm⟩
  · simp only at h
    split_ifs at h with hpast
    · simp only [raise, Prod.mk.injEq, Except.error.injEq] at h
      exact ⟨_, h.1.symm⟩
    · simp at h

lemma consumeBlockGas_cases : ∃ g, (f.state.blockGasMeter.Fits f.meter.gasConsumedToLimit ∧
        consumeBlockGas f = { f with state := { f.state with blockGasMeter := g } }) ∨
      (¬f.state.blockGasMeter.Fits f.meter.gasConsumedToLimit ∧ ∃ p, consumeBlockGas f =
        { f with state := { f.state with blockGasMeter := g }, panicking := some p }) := by
  have hok := @consumeGas_ok f.state.blockGasMeter f.meter.gasConsumedToLimit
  unfold consumeBlockGas
  rcases hrun : consumeGas f.meter.gasConsumedToLimit f.state.blockGasMeter with ⟨fault | u, g⟩
  · obtain ⟨p, rfl⟩ := consumeGas_error hrun
    rw [hrun] at hok
    exact ⟨g, Or.inr ⟨fun h => absurd (hok.mpr h) (by simp), p, rfl⟩⟩
  · rw [hrun] at hok
    exact ⟨g, Or.inl ⟨hok.mp rfl, rfl⟩⟩

lemma consumeBlockGas_frame : (consumeBlockGas f).ctx = f.ctx ∧
    (consumeBlockGas f).state.store = f.state.store ∧ (consumeBlockGas f).result = f.result ∧
    (consumeBlockGas f).refundResult = f.refundResult ∧
    (consumeBlockGas f).written = f.written := by
  obtain ⟨g, ⟨_, h⟩ | ⟨_, p, h⟩⟩ := consumeBlockGas_cases f
  all_goals
    rw [h]
    exact ⟨rfl, rfl, rfl, rfl, rfl⟩

lemma consumeBlockGas_panicking : (consumeBlockGas f).panicking = none ↔
    f.panicking = none ∧ f.state.blockGasMeter.Fits f.meter.gasConsumedToLimit := by
  obtain ⟨g, ⟨hfits, h⟩ | ⟨hfits, p, h⟩⟩ := consumeBlockGas_cases f
  · simp [h, hfits]
  · simp [h, hfits]

lemma code_recoverResult :
    (recoverResult f).code = .ok ↔ f.panicking = none ∧ f.result.code = .ok := by
  unfold recoverResult
  cases f.panicking with
  | none => simp
  | some p => cases p <;> simp [recoverPanic, Result.ofError]

lemma refundFee_cases :
    (∃ cache, feeRefundHandler f.ctx f.state.store tx f.refundResult = .ok cache ∧
      refundFee tx f = { f with result := f.refundResult }.write .refund cache) ∨
    (∀ cache, feeRefundHandler f.ctx f.state.store tx f.refundResult ≠ .ok cache) ∧
      ((refundFee tx f = { f with result := .ofError .errInternal }) ∨
        ∃ p, refundFee tx f = { f with result := f.refundResult, panicking := some p }) := by
  rcases hrun : feeRefundHandler f.ctx f.state.store tx f.refundResult with fault | cache
  · refine Or.inr ⟨by simp, ?_⟩
    cases fault with
    | panic p =>
      refine Or.inr ⟨p, ?_⟩
      simp only [refundFee, hrun]
    | error e =>
      refine Or.inl ?_
      simp only [refundFee, hrun]
  · refine Or.inl ⟨cache, rfl, ?_⟩
    simp only [refundFee, hrun]

lemma code_refundFee : (recoverResult (refundFee tx f)).code = .ok ↔
    f.panicking = none ∧ f.result.code = .ok ∧
      ∃ cache, feeRefundHandler f.ctx f.state.store tx f.refundResult = .ok cache := by
  rw [code_recoverResult]
  rcases refundFee_cases tx f with ⟨cache, hcache, hf⟩ | ⟨hcache, hf | ⟨p, hf⟩⟩
  · have hcode : f.refundResult.code = f.result.code := rfl
    simp [hf, Frame.write, hcache, hcode]
  · simp [hf, hcache, Result.ofError]
  · simp [hf, hcache]

lemma code_runDeferred : (recoverResult (runDeferred tx f)).code = .ok ↔
    f.panicking = none ∧ f.result.code = .ok ∧
      f.state.blockGasMeter.Fits f.meter.gasConsumedToLimit ∧
      ∃ cache, feeRefundHandler f.ctx f.state.store tx f.refundResult = .ok cache := by
  obtain ⟨hctx, hstore, hresult, hrefund, _⟩ := consumeBlockGas_frame f
  rw [runDeferred, code_refundFee, hctx, hstore, hresult, hrefund, consumeBlockGas_panicking]
  tauto

lemma store_runDeferred : (runDeferred tx f).state.store = f.state.store ∨
    feeRefundHandler f.ctx f.state.store tx f.refundResult =
      .ok (runDeferred tx f).state.store := by
  obtain ⟨hctx, hstore, _, hrefund, _⟩ := consumeBlockGas_frame f
  rw [runDeferred, ← hctx, ← hstore, ← hrefund]
  rcases refundFee_cases tx (consumeBlockGas f) with ⟨cache, hcache, hf⟩ | ⟨_, hf | ⟨p, hf⟩⟩
  · rw [hf]
    exact Or.inr hcache
  · rw [hf]
    exact Or.inl rfl
  · rw [hf]
    exact Or.inl rfl

lemma mem_written_runDeferred {w : CacheWrite} (hw : w ≠ .refund) :
    w ∈ (runDeferred tx f).written ↔ w ∈ f.written := by
  obtain ⟨_, _, _, _, hwritten⟩ := consumeBlockGas_frame f
  rw [runDeferred, ← hwritten]
  rcases refundFee_cases tx (consumeBlockGas f) with ⟨cache, _, hf⟩ | ⟨_, hf | ⟨p, hf⟩⟩
  · simp [hf, Frame.write, hw]
  · simp [hf]
  · simp [hf]

end

section
variable {Msg ρ : Type} (app : App Msg ρ) (s : DeliverState ρ) (tx : StdTx Msg) (txSize : ℕ)
  {f : Frame ρ}

/-- Frame with which the messages are reached, if they are. -/
def readyFrame : Option (Frame ρ) :=
  match validate app s tx txSize s.gasMeter with
  | (.error _, _) => none
  | (.ok (), g) =>
    if hfee : tx.fee.Valid then
      match beforeMsgs app tx hfee txSize (.init { s with gasMeter := g }) with
      | .left _ => none
      | .ready f => some f
    else none

/-- If the code is not OK, no effect of the messages is in the deliver state: the cache of the
messages is not written; the store is as before if an ante handler aborted or an earlier test
failed, and differs by the effects of the ante handlers and of the refund otherwise. -/
def Atomic (o : TxOutcome ρ) : Prop :=
  o.result.code ≠ .ok →
    .msgs ∉ o.written ∧
    (readyFrame app s tx txSize = none → o.state.store = s.store) ∧
    ∀ f, readyFrame app s tx txSize = some f →
      AnteEffects app tx s.store f.state.store ∧
      (o.state.store = f.state.store ∨ RefundEffects app tx f.state.store o.state.store)

/-- `runTx` writes nothing, or runs the messages on the store of the ante handlers. -/
lemma runTx_cases {o : TxOutcome ρ} (h : runTx app s tx txSize = .ok o) :
    (readyFrame app s tx txSize = none ∧ o.result.code ≠ .ok ∧ o.state.store = s.store ∧
      ∀ w, w ≠ .refund → w ∉ o.written) ∨
    ∃ f, readyFrame app s tx txSize = some f ∧ Passed app tx s f ∧
      o = ⟨recoverResult (runDeferred tx (deliverMsgs app tx f)),
        (runDeferred tx (deliverMsgs app tx f)).state,
        (runDeferred tx (deliverMsgs app tx f)).written⟩ := by
  rcases hval : validate app s tx txSize s.gasMeter with ⟨(p | e) | u, g⟩
  · simp [runTx, hval] at h
  · simp only [runTx, hval, Except.ok.injEq] at h
    subst h
    exact Or.inl ⟨by simp only [readyFrame, hval], by simp [Result.ofError], rfl, by simp⟩
  · simp only [runTx, hval] at h
    simp only [readyFrame, hval]
    by_cases hfee : tx.fee.Valid
    · simp only [hfee, dite_true, Except.ok.injEq, runBody] at h ⊢
      rcases beforeMsgs_cases app tx hfee txSize { s with gasMeter := g } with
        ⟨f, hf, hleft⟩ | ⟨f, hf, hpassed⟩
      · simp only [hf] at h ⊢
        subst h
        refine Or.inl ⟨trivial, ?_, ?_, ?_⟩
        · rw [Ne, code_runDeferred]
          rintro ⟨hpanic, hcode, _⟩
          rcases hleft.failed with h | h
          · exact h hpanic
          · exact h hcode
        · have hnone : f.ctx.signers = [] ∨ f.refundResult.gasWanted = 0 := hleft.noRefund
          rcases store_runDeferred tx f with h | h
          · exact h.trans hleft.store
          · exact (feeRefundHandler_eq_self hnone h).trans hleft.store
        · intro w hw
          rw [mem_written_runDeferred tx f hw, hleft.written]
          simp [Frame.init]
      · simp only [hf] at h ⊢
        exact Or.inr ⟨f, rfl, ⟨hpassed.effects, hpassed.blockGasMeter, hpassed.written,
          hpassed.panicking, hpassed.signers⟩, h.symm⟩
    · simp only [hfee, dite_false, Except.ok.injEq] at h ⊢
      subst h
      exact Or.inl ⟨trivial, by simp [Result.ofError], rfl, by simp⟩

lemma deliverMsgs_cases (hf : Passed app tx s f) :
    (∃ cache g, runMsgs app f.ctx tx.msgs f.state.store f.meter = (.ok cache, g) ∧
      deliverMsgs app tx f = { (f.setMeter g).write .msgs cache with
        result := ⟨.ok, f.gasWanted, g.consumed⟩ }) ∨
    (∀ cache g, runMsgs app f.ctx tx.msgs f.state.store f.meter ≠ (.ok cache, g)) ∧
      (deliverMsgs app tx f).state.store = f.state.store ∧
      (deliverMsgs app tx f).ctx = f.ctx ∧ .msgs ∉ (deliverMsgs app tx f).written := by
  rcases hrun : runMsgs app f.ctx tx.msgs f.state.store f.meter with ⟨(p | e) | cache, g⟩
  · simp only [deliverMsgs, hrun]
    refine Or.inr ⟨by simp, by simp, by simp, by simp [hf.written]⟩
  · simp only [deliverMsgs, hrun]
    refine Or.inr ⟨by simp, by simp, by simp, by simp [hf.written]⟩
  · refine Or.inl ⟨cache, g, rfl, ?_⟩
    simp only [deliverMsgs, hrun]

/-- After the messages, the code is OK when the block gas suffices and the refund succeeds. -/
lemma code_delivered (hf : Passed app tx s f) {cache : MultiStore ρ} {g : GasMeter}
    (hrun : runMsgs app f.ctx tx.msgs f.state.store f.meter = (.ok cache, g)) :
    (recoverResult (runDeferred tx (deliverMsgs app tx f))).code = .ok ↔
      s.blockGasMeter.Fits g.gasConsumedToLimit ∧
      ∃ refunded, feeRefundHandler f.ctx cache tx ⟨.ok, f.gasWanted, g.consumed⟩ =
        .ok refunded := by
  obtain ⟨f', hd⟩ : ∃ f', deliverMsgs app tx f = f' := ⟨_, rfl⟩
  have hd' := hd
  simp only [deliverMsgs, hrun] at hd'
  have hmeter : f'.meter = g := by
    rw [← hd']
    exact Frame.setMeter_meter f g
  have hblock : f'.state.blockGasMeter = s.blockGasMeter := by
    rw [← hd', ← hf.blockGasMeter]
    exact Frame.setMeter_blockGasMeter f g
  have hpanic : f'.panicking = none := by
    rw [← hd', ← hf.panicking]
    exact Frame.setMeter_panicking f g
  have hctx : f'.ctx = f.ctx := by
    rw [← hd']
    exact Frame.setMeter_ctx f g
  have hstore : f'.state.store = cache := by rw [← hd']; rfl
  have hresult : f'.result = ⟨.ok, f.gasWanted, g.consumed⟩ := by rw [← hd']
  have hrefund : f'.refundResult = ⟨.ok, f.gasWanted, g.consumed⟩ := by
    rw [Frame.refundResult, hresult, hmeter]
  rw [hd, code_runDeferred, hmeter, hblock, hpanic, hctx, hstore, hresult, hrefund]
  simp

/-- A transaction is atomic exactly when the deferred functions succeed after messages that all
passed. -/
lemma atomic_iff_deferred {o : TxOutcome ρ} (h : runTx app s tx txSize = .ok o) :
    Atomic app s tx txSize o ↔
      ∀ f cache g, readyFrame app s tx txSize = some f →
        runMsgs app f.ctx tx.msgs f.state.store f.meter = (.ok cache, g) →
        s.blockGasMeter.Fits g.gasConsumedToLimit ∧
          ∃ refunded, feeRefundHandler f.ctx cache tx ⟨.ok, f.gasWanted, g.consumed⟩ =
            .ok refunded := by
  rcases runTx_cases app s tx txSize h with ⟨hnone, _, hstore, hwritten⟩ | ⟨f, hready, hf, rfl⟩
  · refine ⟨fun _ f cache g hf => ?_,
      fun _ _ => ⟨hwritten .msgs (by simp), fun _ => hstore, fun f hf => ?_⟩⟩
    all_goals
      rw [hnone] at hf
      exact absurd hf (by simp)
  · rcases deliverMsgs_cases app s tx hf with ⟨cache, g, hrun, hd⟩ | ⟨hrun, hstore, hctx, hmsgs⟩
    · -- the messages have passed and their cache is written
      have hwritten : .msgs ∈ (runDeferred tx (deliverMsgs app tx f)).written := by
        rw [mem_written_runDeferred _ _ (by simp), hd]
        simp [Frame.write]
      have hcode := code_delivered app s tx hf hrun
      constructor
      · intro hatomic f' cache' g' hf' hrun'
        rw [hready, Option.some.injEq] at hf'
        subst hf'
        rw [hrun, Prod.mk.injEq, Except.ok.injEq] at hrun'
        obtain ⟨rfl, rfl⟩ := hrun'
        refine hcode.mp (not_not.mp (fun hne => ?_))
        exact (hatomic hne).1 hwritten
      · intro hsettles hne
        exact absurd (hcode.mpr (hsettles f cache g hready hrun)) hne
    · refine ⟨fun _ f' cache g hf' hrun' => ?_, fun _ _ => ⟨?_, fun hnone => ?_, fun f' hf' => ?_⟩⟩
      · rw [hready, Option.some.injEq] at hf'
        exact absurd hrun' (hf' ▸ hrun cache g)
      · rw [mem_written_runDeferred _ _ (by simp)]
        exact hmsgs
      · rw [hready] at hnone
        simp at hnone
      · rw [hready, Option.some.injEq] at hf'
        subst hf'
        refine ⟨hf.effects, ?_⟩
        rcases store_runDeferred tx (deliverMsgs app tx f) with h | h
        · exact Or.inl (h.trans hstore)
        · rw [hctx, hstore] at h
          exact feeRefundHandler_effects app hf.signers h

end

/-- A transfer of iris tokens. -/
structure SampleMsg where
  fromAddr : Address
  toAddr : Address
  amount : ℤ

/-- An application with transfers only; a transfer costs 50 gas and store accesses are free. -/
def sampleApp : App SampleMsg Unit where
  msgRoute := fun _ => "bank"
  validateBasic := fun _ => none
  getSigners := fun msg => [msg.fromAddr]
  sendOutputs := fun msg => [msg.toAddr]
  assetFee := fun _ _ => pure ⟨irisAtto, 0⟩
  route := fun _ => some (fun _ store msg => do
    consumeGas 50
    let bank ← Run.lift (store.bank.sendCoins msg.fromAddr msg.toAddr [⟨irisAtto, msg.amount⟩])
    return { store with bank := bank })
  pubKeyAddress := fun _ => 1
  verifyBytes := fun _ _ _ => true
  matchString := fun _ _ => true
  storeGas := fun _ _ => []

/-- Account 1 holds 10000 iris-atto. -/
def sampleStore : MultiStore Unit where
  bank :=
    { accounts := Store.empty.set 1
        ⟨[⟨irisAtto, 10000⟩], List.pairwise_singleton _ _, by simp⟩
      totalLoosenToken := ⟨[⟨irisAtto, 10000⟩], List.pairwise_singleton _ _, by simp⟩
      totalSupply := Store.empty }
  accountInfo := Store.empty.set 1
    { accountNumber := 7, sequence := 0, pubKey := none, memoRegexp := "" }
  collectedFees := .empty
  authParams := { gasPriceThreshold := 0, txSizeLimit := 1000 }
  serviceTxSizeLimit := 4000
  rest := ()

/-- A block with the gas limit `blockGas`. -/
def sampleState (blockGas : ℕ) : DeliverState Unit where
  store := sampleStore
  height := 5
  chainID := "irishub"
  gasMeter := .newInfiniteGasMeter
  blockGasMeter := .newGasMeter blockGas

/-- Account 1 sends `amount` iris-atto to account 2. -/
def sampleTx (amount : ℤ) : StdTx SampleMsg where
  msgs := [⟨1, 2, amount⟩]
  fee := { amount := [⟨irisAtto, 1000⟩], gas := 1000 }
  signatures := [{ pubKey := some (.secp256k1 1), signature := .bytes 0, accountNumber := 7,
                   sequence := 0 }]
  memo := ""

end Irishub.BaseApp
