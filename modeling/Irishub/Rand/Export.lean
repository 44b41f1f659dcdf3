import Irishub.Lib.Decimal
import Irishub.Rand.Requests

/-!
# Rand: export of the pending requests

`rand/genesis.go`. The export groups the pending requests by the height that is
left to them, as a decimal text; the import puts them back under that height and
under the id that is computed anew. In the database the queue is ordered by the
text of the height, which changes the order of the groups only, and the map of the
groups is imported in any order.
-/

namespace Irishub.Rand
open Lib State Store List

section

/-- Height left at `blockHeight`; `int64` numbers wrap. -/
def leftHeight (blockHeight height : ℤ) : ℤ := (height - blockHeight + 1).bmod (2 ^ 64)

/-- One request in `ExportGenesis`. -/
def exportRequest (blockHeight : ℤ) (pendingRequests : Store String (List Request))
    (e : (ℤ ×ₗ Bytes) × Request) : Store String (List Request) :=
  let left := formatInt (leftHeight blockHeight (ofLex e.1).1)
  pendingRequests.set left ((pendingRequests.get left).getD [] ++ [e.2])

def State.exportGenesis (s : State) : Store String (List Request) :=
  s.randRequestQueue.entries.foldl (exportRequest s.height) .empty

variable (sha256 : Bytes → Bytes)

/-- One request in `InitGenesis`. -/
def State.importRequest (s : State) (height : String) (request : Request) : State :=
  match parseInt height.toList with
  | none => s
  | some h => s.enqueueRandRequest h (generateRequestID sha256 request) request

/-- `InitGenesis`, with the entries of the map in the order in which they are visited. -/
def State.initGenesis (s : State) (data : List (String × List Request)) : State :=
  data.foldl (fun s e => e.2.foldl (fun s request => s.importRequest sha256 e.1 request) s) s

def Reachable (s : State) : Prop :=
  ∃ (height : ℕ) (data : List (String × List Request)) (ops : List Op) (l : History),
    ops.foldlM (Op.run sha256) ⟨State.initGenesis sha256 ⟨.empty, .empty, height⟩ data, [], []⟩ =
      .ok l ∧ l.state = s

/-- Queue of `s'` is that of `s` with the first block in place of the present one. -/
def Restarts (s s' : State) : Prop :=
  ∀ height reqID, s'.randRequestQueue.get (toLex (1 + (height - s.height), reqID)) =
    s.randRequestQueue.get (toLex (height, reqID))

/-- Every pending request is under its id and an `int64` height. -/
def Keyed (s : State) : Prop :=
  ∀ k request, s.randRequestQueue.get k = some request →
    (ofLex k).2 = generateRequestID sha256 request ∧ -2 ^ 63 ≤ (ofLex k).1 ∧ (ofLex k).1 < 2 ^ 63

end

section
variable {h blockHeight height : ℤ}

lemma range_leftHeight (blockHeight height : ℤ) :
    -2 ^ 63 ≤ leftHeight blockHeight height ∧ leftHeight blockHeight height < 2 ^ 63 := by
  unfold leftHeight
  rw [Int.bmod_def]
  split_ifs <;> omega

lemma range_destHeight (height : ℕ) (blockInterval : UInt64) :
    -2 ^ 63 ≤ destHeight height blockInterval ∧ destHeight height blockInterval < 2 ^ 63 := by
  unfold destHeight
  rw [Int.bmod_def]
  split_ifs <;> omega

lemma leftHeight_eq_iff : leftHeight blockHeight height = 1 + (height - blockHeight) ↔
      -2 ^ 63 ≤ height - blockHeight + 1 ∧ height - blockHeight + 1 < 2 ^ 63 := by
  unfold leftHeight
  rw [Int.bmod_def]
  split_ifs <;> omega

lemma leftHeight_inj {height' : ℤ} (hlow : -2 ^ 63 ≤ height)
    (hhigh : height < 2 ^ 63) (hlow' : -2 ^ 63 ≤ height') (hhigh' : height' < 2 ^ 63)
    (h : leftHeight blockHeight height = leftHeight blockHeight height') : height = height' := by
  unfold leftHeight at h
  rw [Int.bmod_def, Int.bmod_def] at h
  split_ifs at h <;> omega

end

section
variable {sha256 : Bytes → Bytes} {s : State} {request : Request} {k : ℤ ×ₗ Bytes}

lemma mem_exportGenesis {left : String} :
    (∃ requests, s.exportGenesis.get left = some requests ∧ request ∈ requests) ↔
      ∃ k, s.randRequestQueue.get k = some request ∧
        left = formatInt (leftHeight s.height (ofLex k).1) := by
  have hloop : ∀ (es : List ((ℤ ×ₗ Bytes) × Request)) (p : Store String (List Request)),
      (∃ requests, (es.foldl (exportRequest s.height) p).get left = some requests ∧
          request ∈ requests) ↔ (∃ requests, p.get left = some requests ∧ request ∈ requests) ∨
          ∃ k, (k, request) ∈ es ∧ left = formatInt (leftHeight s.height (ofLex k).1) := by
    intro es
    induction es with
    | nil => simp
    | cons e es ih =>
      intro p
      rw [foldl_cons, ih]
      have hfirst : (∃ requests, (exportRequest s.height p e).get left = some requests ∧
          request ∈ requests) ↔ (∃ requests, p.get left = some requests ∧ request ∈ requests) ∨
            e.2 = request ∧ left = formatInt (leftHeight s.height (ofLex e.1).1) := by
        simp only [exportRequest, get_set]
        split_ifs with hleft
        · subst hleft
          cases p.get (formatInt (leftHeight s.height (ofLex e.1).1)) <;> simp [eq_comm]
        · simp [hleft]
      rw [hfirst, or_assoc]
      refine or_congr_right ?_
      simp only [mem_cons]
      constructor
      · rintro (⟨rfl, hleft⟩ | ⟨k, hk, hleft⟩)
        · exact ⟨e.1, .inl rfl, hleft⟩
        · exact ⟨k, .inr hk, hleft⟩
      · rintro ⟨k, rfl | hk, hleft⟩
        · exact .inl ⟨rfl, hleft⟩
        · exact .inr ⟨k, hk, hleft⟩
  have hstart := hloop s.randRequestQueue.entries .empty
  simp only [get_empty, reduceCtorEq, false_and, exists_const, false_or, mem_entries] at hstart
  exact hstart

def Imports (sha256 : Bytes → Bytes) (data : List (String × List Request)) (k : ℤ ×ₗ Bytes)
    (request : Request) : Prop :=
  ∃ e ∈ data, request ∈ e.2 ∧ ∃ h, parseInt e.1.toList = some h ∧
    k = toLex (h, generateRequestID sha256 request)

lemma get_importRequest {height : String} {request' : Request}
    (hget : (s.importRequest sha256 height request).randRequestQueue.get k = some request') :
    s.randRequestQueue.get k = some request' ∨ request' = request ∧
      ∃ h, parseInt height.toList = some h ∧ k = toLex (h, generateRequestID sha256 request) := by
  unfold importRequest at hget
  split at hget
  · exact .inl hget
  · rename_i h hparse
    simp only [enqueueRandRequest, get_set] at hget
    split_ifs at hget with hk
    · exact .inr ⟨(Option.some.inj hget).symm, h, hparse, hk⟩
    · exact .inl hget

lemma exists_get_importRequest (height : String) (request : Request)
    (h : ∃ request', s.randRequestQueue.get k = some request') :
    ∃ request', (s.importRequest sha256 height request).randRequestQueue.get k = some request' := by
  unfold importRequest
  split
  · exact h
  · exact exists_get_set h _ _

lemma get_initGenesis (sha256 : Bytes → Bytes) (s : State) (data : List (String × List Request))
    (k : ℤ ×ₗ Bytes) :
    (∀ request, (s.initGenesis sha256 data).randRequestQueue.get k = some request →
      s.randRequestQueue.get k = some request ∨ Imports sha256 data k request) ∧
    ((∃ request, s.randRequestQueue.get k = some request ∨ Imports sha256 data k request) →
      ∃ request, (s.initGenesis sha256 data).randRequestQueue.get k = some request) := by
  -- the two loops are one over the requests with the heights of their groups
  have hflat : s.initGenesis sha256 data =
      (data.flatMap (fun e => e.2.map (fun request => (e.1, request)))).foldl
        (fun s p => s.importRequest sha256 p.1 p.2) s := by
    simp only [initGenesis, foldl_flatMap, foldl_map]
  have hmem : ∀ request, Imports sha256 data k request ↔
      ∃ height, (height, request) ∈ data.flatMap (fun e => e.2.map (fun r => (e.1, r))) ∧
        ∃ h, parseInt height.toList = some h ∧ k = toLex (h, generateRequestID sha256 request) := by
    intro request
    simp only [Imports, mem_flatMap, mem_map, Prod.mk.injEq]
    constructor
    · rintro ⟨e, he, hrequest, hparse⟩
      exact ⟨e.1, ⟨e, he, request, hrequest, rfl, rfl⟩, hparse⟩
    · rintro ⟨_, ⟨e, he, _, hrequest, rfl, rfl⟩, hparse⟩
      exact ⟨e, he, hrequest, hparse⟩
  simp only [hmem]
  rw [hflat]
  clear hflat hmem
  generalize data.flatMap (fun e => e.2.map (fun r => (e.1, r))) = pairs
  induction pairs generalizing s with
  | nil => simp
  | cons p pairs ih =>
    obtain ⟨hback, hforth⟩ := ih (s.importRequest sha256 p.1 p.2)
    rw [foldl_cons]
    constructor
    · intro request hget
      rcases hback request hget with hget | ⟨height, hpair, hparse⟩
      · rcases get_importRequest hget with hget | ⟨rfl, hparse⟩
        · exact .inl hget
        · exact .inr ⟨p.1, mem_cons_self, hparse⟩
      · exact .inr ⟨height, mem_cons_of_mem _ hpair, hparse⟩
    · rintro ⟨request, hget | ⟨height, hpair, hparse⟩⟩
      · obtain ⟨request', hget'⟩ := exists_get_importRequest p.1 p.2 ⟨request, hget⟩
        exact hforth ⟨request', .inl hget'⟩
      · rcases mem_cons.mp hpair with rfl | hpair
        · obtain ⟨h, hh, rfl⟩ := hparse
          refine hforth ⟨request, .inl ?_⟩
          simp only [importRequest, hh, enqueueRandRequest, get_set_self]
        · exact hforth ⟨request, .inr ⟨height, hpair, hparse⟩⟩

end

section
variable {sha256 : Bytes → Bytes} {s : State} {l l' : History}

lemma Keyed.run {op : Op} (hkeyed : Keyed sha256 l.state) (h : op.run sha256 l = .ok l') :
    Keyed sha256 l'.state := by
  cases op with
  | request txBytes msg =>
    obtain ⟨_, _, hl'⟩ := bind_ok.mp h
    cases hl'
    exact forall_set hkeyed ⟨rfl, range_destHeight _ _⟩
  | beginBlock lastBlockHash timestamp =>
    obtain ⟨s', hhandled, rfl⟩ := beginBlock_ok h
    exact fun k request hget => hkeyed k request (hhandled.dequeued k request hget)

lemma Reachable.keyed (h : Reachable sha256 s) : Keyed sha256 s := by
  obtain ⟨height, data, ops, l, hrun, rfl⟩ := h
  refine invariant_of_foldlM (I := fun l : History => Keyed sha256 l.state)
    (fun l l' op hl hop => hl.run hop) hrun ?_
  intro k request hget
  rcases (get_initGenesis sha256 _ data k).1 request hget with hnone | ⟨e, _, _, h, hparse, rfl⟩
  · cases hnone
  · exact ⟨rfl, range_of_parseInt hparse⟩

/-- Queue after an export and an import: every request at the height that is left. -/
lemma get_restarted (hkeyed : Keyed sha256 s) {order : List (String × List Request)}
    (horder : order.Perm s.exportGenesis.entries) {height : ℤ} {reqID : Bytes}
    {request : Request} {newHeight : ℕ} :
    (State.initGenesis sha256 ⟨.empty, .empty, newHeight⟩ order).randRequestQueue.get
        (toLex (height, reqID)) = some request ↔
      ∃ old, s.randRequestQueue.get (toLex (old, reqID)) = some request ∧
        leftHeight s.height old = height := by
  have himports : ∀ k request, Imports sha256 order k request ↔
      ∃ old, s.randRequestQueue.get (toLex (old, generateRequestID sha256 request)) =
          some request ∧ k = toLex (leftHeight s.height old, generateRequestID sha256 request) := by
    intro k request
    constructor
    · rintro ⟨e, he, hrequest, h, hparse, rfl⟩
      obtain ⟨k, hk, hleft⟩ := mem_exportGenesis.mp
        ⟨e.2, mem_entries.mp (horder.mem_iff.mp he), hrequest⟩
      obtain ⟨hlow, hhigh⟩ := range_leftHeight s.height (ofLex k).1
      rw [hleft, parseInt_formatInt hlow hhigh, Option.some.injEq] at hparse
      refine ⟨(ofLex k).1, ?_, by rw [hparse]⟩
      rw [← (hkeyed k request hk).1]
      exact hk
    · rintro ⟨old, hold, rfl⟩
      obtain ⟨requests, hget, hrequest⟩ := mem_exportGenesis.mpr ⟨_, hold, rfl⟩
      obtain ⟨hlow, hhigh⟩ := range_leftHeight s.height old
      exact ⟨_, horder.mem_iff.mpr (mem_entries.mpr hget), hrequest, _,
        parseInt_formatInt hlow hhigh, rfl⟩
  obtain ⟨hback, hforth⟩ := get_initGenesis sha256 ⟨.empty, .empty, newHeight⟩ order
    (toLex (height, reqID))
  have hfrom : ∀ request, (initGenesis sha256 ⟨.empty, .empty, newHeight⟩
      order).randRequestQueue.get (toLex (height, reqID)) = some request →
      ∃ old, s.randRequestQueue.get (toLex (old, reqID)) = some request ∧
        leftHeight s.height old = height := by
    intro request hget
    rcases hback request hget with hnone | himport
    · cases hnone
    · obtain ⟨old, hold, hkey⟩ := (himports _ _).mp himport
      obtain ⟨rfl, rfl⟩ := Prod.mk.inj (toLex.injective hkey)
      exact ⟨old, hold, rfl⟩
  refine ⟨hfrom request, ?_⟩
  rintro ⟨old, hold, rfl⟩
  have hid : reqID = generateRequestID sha256 request := (hkeyed _ _ hold).1
  have himport : Imports sha256 order (toLex (leftHeight s.height old, reqID)) request := by
    refine (himports _ _).mpr ⟨old, ?_, ?_⟩
    · rw [← hid]
      exact hold
    · rw [← hid]
  obtain ⟨request', hget⟩ := hforth ⟨request, .inr himport⟩
  -- another request under this key would have the same height and id before
  obtain ⟨old', hold', hleft⟩ := hfrom request' hget
  have hrange := (hkeyed _ _ hold).2
  have hrange' := (hkeyed _ _ hold').2
  have hsame : old' = old := leftHeight_inj hrange'.1 hrange'.2 hrange.1 hrange.2 hleft
  rw [hsame, hold, Option.some.injEq] at hold'
  rw [hget, hold']

/-- Pending requests survive an export exactly when no height that is left to them wraps. -/
theorem export_restarts_iff (hreach : Reachable sha256 s) {order : List (String × List Request)}
    (horder : order.Perm s.exportGenesis.entries) (newHeight : ℕ) :
    Restarts s (State.initGenesis sha256 ⟨.empty, .empty, newHeight⟩ order) ↔
      ∀ height reqID, s.randRequestQueue.has (toLex (height, reqID)) = true →
        -2 ^ 63 ≤ height - s.height + 1 ∧ height - s.height + 1 < 2 ^ 63 := by
  have hkeyed := hreach.keyed
  constructor
  · intro hrestarts height reqID hhas
    obtain ⟨request, hget⟩ := Option.isSome_iff_exists.mp hhas
    have hnew := (hrestarts height reqID).trans hget
    obtain ⟨old, _, hleft⟩ := (get_restarted hkeyed horder).mp hnew
    have hrange := range_leftHeight s.height old
    omega
  · intro hfits height reqID
    refine Option.ext (fun request => ?_)
    rw [get_restarted hkeyed horder]
    constructor
    · rintro ⟨old, hold, hleft⟩
      have hsame := leftHeight_eq_iff.mpr (hfits old reqID (by rw [Store.has, hold]; rfl))
      have hold' : old = height := by omega
      rw [← hold']
      exact hold
    · intro hget
      exact ⟨height, hget,
        leftHeight_eq_iff.mpr (hfits height reqID (by rw [Store.has, hget]; rfl))⟩

/-- A request of block 5 for `2 ^ 63` blocks later, three blocks after it was made. -/
def strandedRun : List Op :=
  [.request (.ofNat 1) ⟨.ofNat 7, 9223372036854775808⟩, .beginBlock [] 1000, .beginBlock [] 1005,
    .beginBlock [] 1010]

/-- Height left to it wraps: after the import it waits for a height of the far future. -/
theorem stranded_export_moves :
    ∃ l, strandedRun.foldlM (Op.run id) ⟨State.initGenesis id ⟨.empty, .empty, 5⟩ [], [], []⟩ =
        .ok l ∧ ¬Restarts l.state (State.initGenesis id ⟨.empty, .empty, 0⟩
          l.state.exportGenesis.entries) := by
  obtain ⟨l, hrun, htest⟩ := of_returns
    (p := fun l : History => decide (l.state.height = 8 ∧ l.state.randRequestQueue.get
        (toLex (5 - 2 ^ 63, generateRequestID id ⟨5, .ofNat 7, .ofNat 1⟩)) =
          some ⟨5, .ofNat 7, .ofNat 1⟩ ∧
      (initGenesis id ⟨.empty, .empty, 0⟩ l.state.exportGenesis.entries).randRequestQueue.get
        (toLex (-2 - 2 ^ 63, generateRequestID id ⟨5, .ofNat 7, .ofNat 1⟩)) = none))
    (x := strandedRun.foldlM (Op.run id)
      ⟨initGenesis id ⟨.empty, .empty, 5⟩ [], [], []⟩) (by decide +kernel)
  obtain ⟨hheight, hold, hnew⟩ := of_decide_eq_true htest
  refine ⟨l, hrun, fun hrestarts => ?_⟩
  have hsame := hrestarts (5 - 2 ^ 63) (generateRequestID id ⟨5, .ofNat 7, .ofNat 1⟩)
  rw [hold, hheight] at hsame
  exact Option.some_ne_none _ (hsame.symm.trans hnew)

/-- Four requests of two blocks: one has been answered, two are pending for the height 6 and one
for the height 15. -/
def pendingRun : List Op :=
  [.request (.ofNat 1) ⟨.ofNat 7, 1⟩, .request (.ofNat 2) ⟨.ofNat 7, 5⟩, .beginBlock [] 1000,
    .beginBlock [] 1005, .request (.ofNat 3) ⟨.ofNat 8, 3⟩, .request (.ofNat 4) ⟨.ofNat 9, 12⟩,
    .beginBlock [] 1010]

theorem sampleRun_restarts :
    ∃ l, pendingRun.foldlM (Op.run id) ⟨State.initGenesis id ⟨.empty, .empty, 1⟩ [], [], []⟩ =
        .ok l ∧ l.state.height = 4 ∧ l.state.rands.entries.length = 1 ∧
      l.state.randRequestQueue.entries.map (fun e => (ofLex e.1).1) = [6, 6, 15] ∧
      Restarts l.state (State.initGenesis id ⟨.empty, .empty, 0⟩
        l.state.exportGenesis.entries) := by
  obtain ⟨l, hrun, htest⟩ := of_returns
    (p := fun l : History => decide (l.state.height = 4 ∧ l.state.rands.entries.length = 1 ∧
        l.state.randRequestQueue.entries.map (fun e => (ofLex e.1).1) = [6, 6, 15]) &&
      l.state.randRequestQueue.entries.all (fun e =>
        decide (-2 ^ 63 ≤ (ofLex e.1).1 - l.state.height + 1 ∧
          (ofLex e.1).1 - l.state.height + 1 < 2 ^ 63)))
    (x := pendingRun.foldlM (Op.run id) ⟨initGenesis id ⟨.empty, .empty, 1⟩ [], [], []⟩)
    (by decide +kernel)
  obtain ⟨hstate, hfits⟩ := Bool.and_eq_true_iff.mp htest
  obtain ⟨hheight, hrands, hpending⟩ := of_decide_eq_true hstate
  refine ⟨l, hrun, hheight, hrands, hpending, (export_restarts_iff
    ⟨1, [], pendingRun, l, hrun, rfl⟩ (List.Perm.refl _) 0).mpr (fun height reqID hhas => ?_)⟩
  obtain ⟨request, hget⟩ := Option.isSome_iff_exists.mp hhas
  exact of_decide_eq_true (all_eq_true.mp hfits _ (mem_entries.mpr hget))

end
end Irishub.Rand
