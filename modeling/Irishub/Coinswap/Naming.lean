import Irishub.Coinswap.PoolValue
import Mathlib.Data.List.TakeWhile

/-!
# Coinswap: the names of the pools

The pool of a token is found by its uni id, which is cut out of a denomination or
built from one in several places: a deposit and a swap form it from the token, a
withdrawal from the liquidity denomination. For every minimum unit the grammar
allows without a prefix of its own, all of them arrive at the same id
(`uniId_of_plain`), and the token can be read back from it, so that two tokens never
share a pool. The ids of a message (`Msg.uniIds`) are those of the pools that its
handler pays and is paid by (`balance_of_handle`).

**Results**

* `pool_naming`: the ids of plain denominations, and the pools of a message.
-/

namespace Irishub.Coinswap
open Lib List

/-- A valid minimum unit other than iris-atto, for which the group `([a-z][0-9a-z]{2}[:])?` of
the grammar is empty. -/
structure PlainDenom (d : String) : Prop where
  valid : isCoinMinDenomValid d = true
  ne_iris : d ≠ irisAtto
  no_abs : stripAbs d.toList = d.toList

/-- Uni ids under which the handler of a message looks up its pools. -/
def Msg.uniIds : Msg → List (Outcome String)
  | swap msg =>
    if msg.isDoubleSwap then
      [getUniId msg.input.coin.denom irisAtto, getUniId irisAtto msg.output.coin.denom]
    else [getUniId msg.input.coin.denom msg.output.coin.denom]
  | add msg => [getUniId irisAtto msg.maxToken.denom]
  | remove msg =>
    match getCoinNameByDenom msg.withdrawLiquidity.denom with
    | none => [fail .errIllegalDenom]
    | some uniId => [.ok uniId]

/-- Accounts that sign a message or are named by it: the sender, and the recipient of a swap. -/
def Msg.parties : Msg → List Address
  | swap msg => [msg.input.address, msg.output.address.getD msg.input.address]
  | add msg => [msg.sender]
  | remove msg => [msg.sender]

section
variable {env : Env} {b b' : Bank} {a : Address} {d : String}

lemma balance_swapCoins_of_ne {sender : Address} {recipient : Option Address} {sold bought : Coin}
    (h : swapCoins env b sender recipient sold bought = .ok b') (hsender : a ≠ sender)
    (hrecipient : a ≠ recipient.getD sender)
    (hpool : ∀ uid, getUniId sold.denom bought.denom = .ok uid → a ≠ getReservePoolAddr env uid) :
    b'.balance a d = b.balance a d := by
  obtain ⟨uid, huid, hbalance⟩ := balance_swapCoins h
  rw [hbalance, if_neg hsender, if_neg (hpool uid huid), if_neg (hpool uid huid),
    if_neg hrecipient]
  ring

lemma balance_handleSwap_of_ne {msg : MsgSwapOrder} (h : handleSwap env b msg = .ok b')
    (ha : a ∉ (Msg.swap msg).parties)
    (hpools : ∀ uid, .ok uid ∈ (Msg.swap msg).uniIds → a ≠ getReservePoolAddr env uid) :
    b'.balance a d = b.balance a d := by
  simp only [Msg.parties, mem_cons, not_mem_nil, or_false, not_or] at ha
  obtain ⟨hsender, hrecipient⟩ := ha
  simp only [Msg.uniIds] at hpools
  cases trades_of_handleSwap h with
  | doubleExactOutput hdouble _ _ _ _ _ hfirst hsecond
  | doubleExactInput hdouble _ _ hfirst _ _ _ hsecond =>
    rw [if_pos hdouble] at hpools
    rw [balance_swapCoins_of_ne hsecond hsender hrecipient
        (fun uid huid => hpools uid (by simp only [mem_cons]; exact .inr (.inl huid.symm))),
      balance_swapCoins_of_ne hfirst hsender hrecipient
        (fun uid huid => hpools uid (by simp only [mem_cons]; exact .inl huid.symm))]
  | exactOutput hsingle _ _ hswap | exactInput hsingle _ _ hswap =>
    rw [hsingle] at hpools
    exact balance_swapCoins_of_ne hswap hsender hrecipient
      (fun uid huid => hpools uid (by simp [huid]))

/-- A message moves coins of its parties and of the pools with its uni ids only. -/
lemma balance_of_handle {msg : Msg} (hv : msg.validateBasic = .ok ())
    (h : msg.handle env b = .ok b') (ha : a ∉ msg.parties)
    (hpools : ∀ uid, .ok uid ∈ msg.uniIds → a ≠ getReservePoolAddr env uid) :
    b'.balance a d = b.balance a d := by
  cases msg with
  | swap msg => exact balance_handleSwap_of_ne h ha hpools
  | add msg =>
    have hsender : a ≠ msg.sender := by simpa [Msg.parties] using ha
    have htoken := (token_of_validateBasic hv).1
    have hpool : a ≠ getReservePoolAddr env (uniId msg.maxToken.denom) :=
      hpools _ (by simp [Msg.uniIds, getUniId_iris_left htoken])
    obtain ⟨_, _, _, hadd⟩ := eq_of_handleAddLiquidity hv h
    obtain ⟨_, _, _, hbalance⟩ := balance_addLiquidity hadd
    simp [hbalance, hsender, hpool]
  | remove msg =>
    have hsender : a ≠ msg.sender := by simpa [Msg.parties] using ha
    simp only [Msg.validateBasic, MsgRemoveLiquidity.validateBasic, bind_ok, require_ok] at hv
    obtain ⟨_, _, _, _, ⟨⟩, hcheck, _⟩ := hv
    have hpool : a ≠ getReservePoolAddr env
        (uniId (trimPrefix msg.withdrawLiquidity.denom formatUniABSPrefix)) :=
      hpools _ (by simp [Msg.uniIds, getCoinNameByDenom_uniDenom hcheck])
    obtain ⟨_, hremove⟩ := eq_of_handleRemoveLiquidity rfl hcheck h
    simp [balance_removeLiquidity hremove, poolAddr, hsender, hpool]

end

section
variable {d : String} {s u : List Char} {c : Char}

lemma stripAbs_of_append (h : stripAbs (s ++ u) = s ++ u) : stripAbs s = s := by
  unfold stripAbs
  split
  · rename_i a b c r
    split_ifs with hp
    · simp only [cons_append, stripAbs, if_pos hp] at h
      have hlength := congrArg List.length h
      simp only [length_cons, length_append] at hlength
      omega
    · rfl
  · rfl

/-- A text splits in one way at a separator that occurs in neither of the first parts. -/
lemma append_cons_inj {s' u' : List Char} (hs : c ∉ s) (hu : c ∉ u)
    (h : s ++ c :: u = s' ++ c :: u') : s = s' ∧ u = u' := by
  rcases append_eq_append_iff.mp h with ⟨x, rfl, hx⟩ | ⟨x, rfl, hx⟩
  · cases x with
    | nil =>
      simp only [nil_append, List.cons.injEq, true_and] at hx
      exact ⟨by simp, hx⟩
    | cons e x =>
      simp only [cons_append, List.cons.injEq] at hx
      exact absurd (hx.2 ▸ by simp) hu
  · cases x with
    | nil =>
      simp only [nil_append, List.cons.injEq, true_and] at hx
      exact ⟨by simp, hx.symm⟩
    | cons e x =>
      simp only [cons_append, List.cons.injEq] at hx
      exact absurd (by simp [hx.1]) hs

lemma exists_dropWhile_of_mem {l : List Char} (h : c ∈ l) : ∃ u, l.dropWhile (· != c) = c :: u := by
  induction l with
  | nil => simp at h
  | cons e l ih =>
    by_cases he : e = c
    · exact ⟨l, by simp [he]⟩
    · obtain ⟨u, hu⟩ := ih ((mem_cons.mp h).resolve_left (Ne.symm he))
      exact ⟨u, by rw [dropWhile_cons_of_pos (by simpa using he), hu]⟩

lemma PlainDenom.split (h : PlainDenom d) :
    ∃ name : List Char, d.toList = name ++ ['-', 'm', 'i', 'n'] ∧ '-' ∉ name ∧
      isWord (stripSource name) = true := by
  have hmatch := matchDenom_of_isCoinMinDenomValid h.valid
  obtain ⟨r, hr⟩ := hasSuffix_iff.mp (hasSuffix_of_isCoinMinDenomValid h.valid h.ne_iris).1
  have hsplit : d.toList = r.toList ++ '-' :: ['m', 'i', 'n'] := by
    rw [hr, String.toList_append]
    rfl
  unfold matchDenom at hmatch
  split at hmatch
  · rename_i u hu
    simp only [Bool.and_eq_true, all_eq_true] at hmatch
    have hfirst : '-' ∉ d.toList.takeWhile (· != '-') := fun hmem => by
      simpa using mem_takeWhile_imp hmem
    have hunit : '-' ∉ u := fun hmem => absurd (hmatch.2.1.1 _ hmem) (by decide)
    obtain ⟨hname, rfl⟩ :=
      append_cons_inj hfirst hunit ((takeWhile_append_cons hu).symm.trans hsplit)
    have hname' := hmatch.1
    have habs : stripAbs r.toList = r.toList := stripAbs_of_append (hsplit ▸ h.no_abs)
    rw [hname, matchCoinName, habs] at hname'
    exact ⟨r.toList, hsplit, hname ▸ hfirst, hname'⟩
  · rename_i hnone
    obtain ⟨u, hu⟩ := exists_dropWhile_of_mem (c := '-') (l := d.toList) (by rw [hsplit]; simp)
    exact absurd hu (hnone u)

lemma stripAbs_uni (name : List Char) : stripAbs ('u' :: 'n' :: 'i' :: ':' :: name) = name := by
  unfold stripAbs
  exact if_pos (by decide)

lemma toList_uni (s : String) :
    (formatUniABSPrefix ++ s).toList = 'u' :: 'n' :: 'i' :: ':' :: s.toList := by
  rw [String.toList_append]
  rfl

lemma PlainDenom.not_uni (h : PlainDenom d) : hasPrefix d formatUniABSPrefix = false := by
  by_contra hp
  obtain ⟨r, rfl⟩ := hasPrefix_iff.mp (by simpa using hp)
  have habs := h.no_abs
  rw [toList_uni, stripAbs_uni] at habs
  have hlength := congrArg List.length habs
  simp only [length_cons] at hlength
  omega

lemma PlainDenom.isToken (h : PlainDenom d) : IsToken d := ⟨h.valid, h.ne_iris, h.not_uni⟩

lemma PlainDenom.checkUniId (h : PlainDenom d) : checkUniId (uniId d) = .ok () := by
  obtain ⟨name, hname, -, hword⟩ := h.split
  have hd : d = String.ofList name ++ minDenomSuffix := by
    rw [← String.toList_inj, String.toList_append, String.toList_ofList, hname]
    rfl
  have hlist : (uniId d).toList = 'u' :: 'n' :: 'i' :: ':' :: name := by
    rw [uniId, hd, trimSuffix_append, toList_uni, String.toList_ofList]
  rw [Coinswap.checkUniId, require_ok, Bool.and_eq_true, isCoinNameValid, hlist, matchCoinName,
    stripAbs_uni]
  exact ⟨hword, hasPrefix_append _ _⟩

lemma matchDenom_append {name : List Char} (hdash : '-' ∉ name) (hname : matchCoinName name = true)
    (hu : (u.all isLowerLetter && 3 ≤ u.length && u.length ≤ 5) = true) :
    matchDenom (name ++ '-' :: u) = true := by
  have hpos : ∀ c ∈ name, (c != '-') = true := fun c hc => by
    simpa using fun he : c = '-' => hdash (he ▸ hc)
  rw [matchDenom, dropWhile_append_of_pos hpos, takeWhile_append_of_pos hpos]
  simpa [hname] using hu

lemma PlainDenom.checkUniDenom (h : PlainDenom d) : checkUniDenom (uniDenom d) = .ok () := by
  obtain ⟨name, hname, hdash, hword⟩ := h.split
  have hmatch : matchDenom (uniDenom d).toList = true := by
    rw [uniDenom, toList_uni, hname]
    change matchDenom (('u' :: 'n' :: 'i' :: ':' :: name) ++ '-' :: ['m', 'i', 'n']) = true
    refine matchDenom_append ?_ ?_ (by decide)
    · simpa using hdash
    · rw [matchCoinName, stripAbs_uni]
      exact hword
  have hsuffix : hasSuffix (uniDenom d) minDenomSuffix = true := by
    obtain ⟨r, hr⟩ := hasSuffix_iff.mp h.isToken.hasSuffix
    exact hasSuffix_iff.mpr ⟨formatUniABSPrefix ++ r, by rw [uniDenom, hr, String.append_assoc]⟩
  have hiris : hasPrefix (uniDenom d) "iris-" = false := by
    rw [hasPrefix, uniDenom, toList_uni]
    rfl
  have hvalid : isCoinMinDenomValid (uniDenom d) = true := by
    rw [isCoinMinDenomValid, if_neg (by simp [hsuffix, hiris])]
    exact hmatch
  rw [Coinswap.checkUniDenom, require_ok, Bool.and_eq_true]
  exact ⟨hvalid, hasPrefix_append _ _⟩

end

section
variable {d d' : String}

lemma uniId_of_plain (h : PlainDenom d) :
    getUniId irisAtto d = .ok (uniId d) ∧ getUniId d irisAtto = .ok (uniId d) ∧
      getUniDenom (uniId d) = .ok (uniDenom d) ∧ getCoinMinDenomFromUniDenom (uniDenom d) = .ok d ∧
      getCoinNameByDenom (uniDenom d) = some (uniId d) := by
  have htrim : trimPrefix (uniDenom d) formatUniABSPrefix = d := trimPrefix_append _ _
  have hname := getCoinNameByDenom_uniDenom h.checkUniDenom
  rw [htrim] at hname
  have hmin : getCoinMinDenom (uniId d) = uniDenom d := by
    have hvalid := h.checkUniId
    rw [checkUniId, require_ok, Bool.and_eq_true] at hvalid
    rw [getCoinMinDenom_of_valid hvalid.1 uniId_ne_iris, uniId_append h.isToken]
  refine ⟨getUniId_iris_left h.isToken, getUniId_iris_right h.isToken, ?_, ?_, hname⟩
  · rw [getUniDenom, h.checkUniId, ok_bind, hmin]
    rfl
  · rw [getCoinMinDenomFromUniDenom, h.checkUniDenom, ok_bind, htrim]
    rfl

lemma uniId_inj (h : PlainDenom d) (h' : PlainDenom d') (heq : uniId d = uniId d') : d = d' := by
  have happend := congrArg (· ++ minDenomSuffix) heq
  simp only [uniId_append h.isToken, uniId_append h'.isToken] at happend
  have htrim := congrArg (trimPrefix · formatUniABSPrefix) happend
  simpa only [uniDenom, trimPrefix_append] using htrim

lemma uniIds_of_validateBasic {msg : Msg} (hv : msg.validateBasic = .ok ())
    (hplain : ∀ t ∈ msg.tokens, PlainDenom t) :
    msg.uniIds = msg.tokens.map (fun t => .ok (uniId t)) := by
  cases msg with
  | add msg =>
    rw [Msg.uniIds, Msg.tokens, (uniId_of_plain (hplain _ (mem_singleton_self _))).1]
    rfl
  | remove msg =>
    simp only [Msg.validateBasic, MsgRemoveLiquidity.validateBasic, bind_ok, require_ok] at hv
    obtain ⟨_, _, _, _, ⟨⟩, hcheck, _⟩ := hv
    simp only [Msg.uniIds, getCoinNameByDenom_uniDenom hcheck]
    rfl
  | swap msg =>
    obtain ⟨hin, hout, -, -, hne⟩ := swappable_of_validateBasic hv
    by_cases hs : msg.input.coin.denom = irisAtto
    · have ho : msg.output.coin.denom ≠ irisAtto := fun ho => hne (hs.trans ho.symm)
      have htokens : (Msg.swap msg).tokens = [msg.output.coin.denom] := by simp [Msg.tokens, hs, ho]
      rw [htokens] at hplain ⊢
      have hid := (uniId_of_plain (hplain _ (mem_singleton_self _))).1
      simp [Msg.uniIds, MsgSwapOrder.isDoubleSwap, hs, hid]
    · by_cases ho : msg.output.coin.denom = irisAtto
      · have htokens : (Msg.swap msg).tokens = [msg.input.coin.denom] := by
          simp [Msg.tokens, hs, ho]
        rw [htokens] at hplain ⊢
        have hid := (uniId_of_plain (hplain _ (mem_singleton_self _))).2.1
        simp [Msg.uniIds, MsgSwapOrder.isDoubleSwap, ho, hid]
      · have htokens : (Msg.swap msg).tokens = [msg.input.coin.denom, msg.output.coin.denom] := by
          simp [Msg.tokens, hs, ho]
        rw [htokens] at hplain ⊢
        have hsold := (uniId_of_plain (hplain msg.input.coin.denom (by simp))).2.1
        have hbought := (uniId_of_plain (hplain msg.output.coin.denom (by simp))).1
        simp [Msg.uniIds, MsgSwapOrder.isDoubleSwap, hs, ho, hsold, hbought]

/-- Names of the pools: every plain denomination has a uni id, the same from both sides and
from its liquidity denomination, from which it is read back; different denominations have
different ids; a message for such tokens looks up exactly their pools, and moves coins of its
parties and of these pools only. -/
theorem pool_naming :
    (∀ d, PlainDenom d → ∃ id u, getUniId irisAtto d = .ok id ∧ getUniId d irisAtto = .ok id ∧
      getUniDenom id = .ok u ∧ getCoinMinDenomFromUniDenom u = .ok d ∧
      getCoinNameByDenom u = some id) ∧
    (∀ d d', PlainDenom d → PlainDenom d' → getUniId irisAtto d = getUniId irisAtto d' → d = d') ∧
    (∀ msg : Msg, msg.validateBasic = .ok () → (∀ t ∈ msg.tokens, PlainDenom t) →
      msg.uniIds = msg.tokens.map (getUniId irisAtto)) ∧
    ∀ (env : Env) (b b' : Bank) (msg : Msg), msg.validateBasic = .ok () →
      (∀ t ∈ msg.tokens, PlainDenom t) → msg.handle env b = .ok b' →
      ∀ a, a ∉ msg.parties → (∀ t ∈ msg.tokens, a ≠ poolAddr env t) →
        ∀ d, b'.balance a d = b.balance a d := by
  refine ⟨fun d h => ⟨uniId d, uniDenom d, uniId_of_plain h⟩, ?_, ?_, ?_⟩
  · intro d d' h h' heq
    rw [(uniId_of_plain h).1, (uniId_of_plain h').1, Except.ok.injEq] at heq
    exact uniId_inj h h' heq
  · intro msg hv hplain
    rw [uniIds_of_validateBasic hv hplain]
    exact map_congr_left (fun t ht => (uniId_of_plain (hplain t ht)).1.symm)
  · intro env b b' msg hv hplain h a ha hpools d
    refine balance_of_handle hv h ha (fun uid huid => ?_)
    rw [uniIds_of_validateBasic hv hplain] at huid
    obtain ⟨t, ht, heq⟩ := mem_map.mp huid
    cases heq
    exact hpools t ht

theorem btc_pool_naming :
    ∃ id u, getUniId irisAtto "btc-min" = .ok id ∧ getUniId "btc-min" irisAtto = .ok id ∧
      getUniDenom id = .ok u ∧ getCoinMinDenomFromUniDenom u = .ok "btc-min" ∧
      getCoinNameByDenom u = some id :=
  pool_naming.1 "btc-min" ⟨by decide +kernel, by decide, by decide +kernel⟩

end
end Irishub.Coinswap
