import Irishub.Service.RequestKeys

/-!
# Service: request identifiers

An identifier is the expiration height, the request height and the counter in decimal,
joined by `-`, and `ConvertRequestID` splits it at every `-`. Two things can go wrong
with the identifier of an accepted request. The counter is an `int16` and becomes
negative after `2 ^ 15` requests of one block, so that the identifier splits into four
parts; and a height that is no `int64` cannot be read.
-/

namespace Irishub.Service
open Lib List

section
variable {req : SvcRequest} {e r : ℕ}

lemma dash_notMem_toDigits (n : ℕ) : '-' ∉ Nat.toDigits 10 n := by
  intro h
  exact absurd (isDigit_of_mem_toDigits h) (by decide)

/-- The fields between the dashes; the sign of a negative counter is a dash of its own. -/
lemma splitOn_requestID (he : req.expirationHeight = e) (hr : req.requestHeight = r) :
    req.requestID.toList.splitOn '-' = Nat.toDigits 10 e :: Nat.toDigits 10 r ::
      match req.requestIntraTxCounter with
      | .ofNat c => [Nat.toDigits 10 c]
      | .negSucc c => [[], Nat.toDigits 10 (c + 1)] := by
  rw [← splitOn_intercalate '-' (fun part hpart => ?_) (cons_ne_nil _ _)]
  · congr 1
    cases hc : req.requestIntraTxCounter <;>
      simp [SvcRequest.requestID, he, hr, hc, Int.toString_eq_repr, Int.repr, Nat.toList_repr,
        List.intercalate, List.intersperse]
  · have hdash : ∀ n, '-' ∉ Nat.toDigits 10 n := fun _ => dash_notMem_toDigits _
    cases req.requestIntraTxCounter <;> aesop

/-- An identifier is read back for `int64` heights and a counter that is not negative. -/
lemma convertRequestID_requestID_iff (he : 0 ≤ req.expirationHeight) (hr : 0 ≤ req.requestHeight)
    (hc : -2 ^ 15 ≤ req.requestIntraTxCounter ∧ req.requestIntraTxCounter < 2 ^ 15) :
    convertRequestID req.requestID =
        some (req.expirationHeight, req.requestHeight, req.requestIntraTxCounter) ↔
      req.expirationHeight < 2 ^ 63 ∧ req.requestHeight < 2 ^ 63 ∧
        0 ≤ req.requestIntraTxCounter := by
  obtain ⟨e, he⟩ := Int.eq_ofNat_of_zero_le he
  obtain ⟨r, hr⟩ := Int.eq_ofNat_of_zero_le hr
  cases hcounter : req.requestIntraTxCounter with
  | ofNat c =>
    rw [hcounter] at hc
    have hnarrow : toInt16 (c : ℤ) = c := by
      simp only [Int.ofNat_eq_natCast] at hc
      unfold toInt16
      omega
    have hsmall : (c : ℤ) < 2 ^ 63 := by
      simp only [Int.ofNat_eq_natCast] at hc
      omega
    rw [convertRequestID, splitOn_requestID he hr, hcounter]
    dsimp only
    rw [parseInt_toDigits, parseInt_toDigits, parseInt_toDigits, he, hr, if_pos hsmall]
    split_ifs with h1 h2 <;> simp [hnarrow] <;> omega
  | negSucc c =>
    rw [convertRequestID, splitOn_requestID he hr, hcounter]
    simp

end

section
variable {env : Env} {s : State} {l : Logged} {r : SvcRequest}

lemma pairwise_of_nodup_counters {reqs : List SvcRequest}
    (h : ∀ height : ℤ, ((reqs.filter (fun r => r.requestHeight = height)).map
      (·.requestIntraTxCounter)).Nodup) :
    reqs.Pairwise (fun r r' => r.requestHeight ≠ r'.requestHeight ∨
      r.requestIntraTxCounter ≠ r'.requestIntraTxCounter) := by
  induction reqs with
  | nil => exact .nil
  | cons r reqs ih =>
    refine pairwise_cons.mpr ⟨fun r' hr' => ?_, ih (fun height => ?_)⟩
    · by_cases hheight : r.requestHeight = r'.requestHeight
      · have hnodup := h r.requestHeight
        rw [filter_cons_of_pos (by simp), map_cons, nodup_cons] at hnodup
        refine .inr (fun hcounter => hnodup.1 ?_)
        rw [hcounter]
        exact mem_map_of_mem (mem_filter.mpr ⟨hr', by simp [hheight]⟩)
      · exact .inl hheight
    · refine (h height).sublist (List.Sublist.map _ ?_)
      exact (sublist_cons_self r reqs).filter _

/-- Accepted requests have different places in the expiration index and different identifiers,
from which their numbers are read back. -/
structure Logged.IDsInvertible (l : Logged) : Prop where
  keys : (Log.accepted l.log).Pairwise (fun r r' =>
    getRequestsByExpirationIndexKeyByReq r ≠ getRequestsByExpirationIndexKeyByReq r')
  ids : (Log.accepted l.log).Pairwise (fun r r' => r.requestID ≠ r'.requestID)
  inverse : ∀ r ∈ Log.accepted l.log, convertRequestID r.requestID =
    some (r.expirationHeight, r.requestHeight, r.requestIntraTxCounter)

lemma Logged.Inv.counter_nonneg (h : l.Inv env)
    (hfew : ∀ height, (Log.acceptedAt l.log height).length ≤ 2 ^ 15)
    (hr : r ∈ Log.accepted l.log) : 0 ≤ r.requestIntraTxCounter := by
  obtain ⟨i, hi, hcounter⟩ := h.counter_of_mem hr
  have hle := hfew r.requestHeight
  rw [hcounter]
  unfold toInt16
  omega

lemma Logged.Inv.nodup_counters (h : l.Inv env)
    (hfew : ∀ height, (Log.acceptedAt l.log height).length ≤ 2 ^ 15) (height : ℤ) :
    ((Log.acceptedAt l.log height).map (·.requestIntraTxCounter)).Nodup := by
  rw [h.counters]
  refine (nodup_map_iff_inj_on nodup_range).mpr (fun i hi j hj heq => ?_)
  have hle := hfew height
  rw [mem_range] at hi hj
  unfold toInt16 at heq
  omega

lemma Logged.Inv.inverse_iff (h : l.Inv env) (hr : r ∈ Log.accepted l.log) :
    convertRequestID r.requestID =
        some (r.expirationHeight, r.requestHeight, r.requestIntraTxCounter) ↔
      r.expirationHeight < 2 ^ 63 ∧ 0 ≤ r.requestIntraTxCounter := by
  obtain ⟨hpos, -, hexpires⟩ := h.accepted r hr
  have htimeout := h.backed.timeout_pos
  obtain ⟨i, -, hcounter⟩ := h.counter_of_mem hr
  have hrange := toInt16_range i
  rw [← hcounter] at hrange
  rw [convertRequestID_requestID_iff (by omega) (by omega) hrange]
  omega

lemma Logged.Inv.idsInvertible (h : l.Inv env)
    (hfew : ∀ height, (Log.acceptedAt l.log height).length ≤ 2 ^ 15)
    (hexpires : ∀ r ∈ Log.accepted l.log, r.expirationHeight < 2 ^ 63) : l.IDsInvertible := by
  have hinverse : ∀ r ∈ Log.accepted l.log, convertRequestID r.requestID =
      some (r.expirationHeight, r.requestHeight, r.requestIntraTxCounter) := fun r hr =>
    (h.inverse_iff hr).mpr ⟨hexpires r hr, h.counter_nonneg hfew hr⟩
  have hdistinct : (Log.accepted l.log).Pairwise (fun r r' =>
      r.requestHeight ≠ r'.requestHeight ∨ r.requestIntraTxCounter ≠ r'.requestIntraTxCounter) :=
    pairwise_of_nodup_counters (h.nodup_counters hfew)
  refine ⟨?_, ?_, hinverse⟩
  · refine hdistinct.imp_of_mem (fun {r r'} hr hr' hne heq => ?_)
    obtain ⟨he, hh, hc⟩ := convertRequestID_range (hinverse r hr)
    obtain ⟨he', hh', hc'⟩ := convertRequestID_range (hinverse r' hr')
    obtain ⟨-, hheight, hcounter⟩ := getRequestsByExpirationIndexKey_inj he hh hc he' hh' hc' heq
    exact hne.elim (fun h => h hheight) (fun h => h hcounter)
  · refine hdistinct.imp_of_mem (fun {r r'} hr hr' hne heq => ?_)
    have hsame := hinverse r hr
    rw [heq, hinverse r' hr'] at hsame
    simp only [Option.some.injEq, Prod.mk.injEq] at hsame
    exact hne.elim (fun h => h hsame.2.1.symm) (fun h => h hsame.2.2.symm)

/-- Whatever a run has accepted, its identifiers are unique and invertible exactly when no block
accepted more than `2 ^ 15` requests and every request expires at an `int64` height. -/
theorem requestIDs_invertible_iff (hs : s.Initial)
    (hrun : Relation.ReflTransGen (LoggedStep env) ⟨s, []⟩ l) :
    l.IDsInvertible ↔ (∀ height, (Log.acceptedAt l.log height).length ≤ 2 ^ 15) ∧
      ∀ r ∈ Log.accepted l.log, r.expirationHeight < 2 ^ 63 := by
  have h : l.Inv env := Logged.Inv.run hs hrun
  refine ⟨fun hids => ⟨fun height => ?_, fun r hr => ?_⟩, fun hcond =>
    h.idsInvertible hcond.1 hcond.2⟩
  · by_contra hmany
    -- the counter of request number `2 ^ 15` of the block is negative
    have hmem : toInt16 (2 ^ 15 : ℕ) ∈
        (Log.acceptedAt l.log height).map (·.requestIntraTxCounter) := by
      rw [h.counters]
      exact mem_map_of_mem (f := fun i : ℕ => toInt16 i) (mem_range.mpr (by omega))
    obtain ⟨r, hr, hcounter⟩ := mem_map.mp hmem
    have haccepted : r ∈ Log.accepted l.log := mem_of_mem_filter hr
    have hnonneg := ((h.inverse_iff haccepted).mp (hids.inverse r haccepted)).2
    rw [hcounter] at hnonneg
    exact absurd hnonneg (by decide)
  · exact ((h.inverse_iff hr).mp (hids.inverse r hr)).1

/-- Two requests of one block have identifiers that can be read. -/
theorem sampleAnswer_ids : ∃ l, Relation.ReflTransGen (LoggedStep sampleEnv) ⟨sampleState, []⟩ l ∧
      Log.accepted l.log = [sampleAccepted 0, sampleAccepted 1] ∧ l.IDsInvertible := by
  obtain ⟨l, hrun, hlog⟩ := @loggedRun_of_returns sampleEnv ⟨sampleState, []⟩ sampleAnswerOps
    (fun l => decide (Log.accepted l.log = [sampleAccepted 0, sampleAccepted 1]))
    (by decide +kernel) (by decide +kernel)
  rw [decide_eq_true_eq] at hlog
  refine ⟨l, hrun, hlog, (requestIDs_invertible_iff sampleState_initial hrun).mpr ⟨?_, ?_⟩⟩
  · intro height
    have hle : (Log.acceptedAt l.log height).length ≤ (Log.accepted l.log).length :=
      length_filter_le _ _
    rw [hlog] at hle
    exact hle.trans (by decide)
  · rw [hlog]
    decide

/-- Identifier of request number `2 ^ 15` of a block cannot be read. -/
theorem crowded_block_unreadable_id : sampleState.Initial ∧
      ∃ l req, Relation.ReflTransGen (LoggedStep sampleEnv) ⟨sampleState, []⟩ l ∧
        (Log.accepted l.log).length = 2 ^ 15 + 1 ∧ req ∈ Log.accepted l.log ∧
        req.requestID = "6-1--32768" ∧ convertRequestID req.requestID = none := by
  obtain ⟨l, hrun, haccepted, -, -⟩ := sampleRequests_run (2 ^ 15 + 1) (by decide)
  refine ⟨sampleState_initial, l, sampleAccepted (-2 ^ 15), hrun, ?_, ?_, by decide +kernel,
    by decide +kernel⟩
  · rw [haccepted, length_map, length_range]
  · rw [haccepted]
    exact mem_map.mpr ⟨2 ^ 15, mem_range.mpr (by decide), by decide +kernel⟩

end
end Irishub.Service
