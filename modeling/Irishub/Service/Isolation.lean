import Irishub.Lib.Separated
import Irishub.Service.RequestKeys

/-!
# Service: services do not share keys

The keys of definitions, methods and bindings join their parts with a zero byte. The
name of a service has no zero byte and neither has the text of an address, but a chain
id may have any bytes. The chain id of one service can therefore contain the chain id
and the name of another, followed by a zero byte; `Continues` says so.
-/

namespace Irishub.Service
open Lib State Store List

section

/-- What `ValidateBasic` demands of the chain id and the name of a service. -/
structure AcceptedService (chainId name : String) : Prop where
  chainId_ne : byteLen chainId ≠ 0
  chainId_le : byteLen chainId ≤ 50
  name_valid : validServiceName name = true
  name_le : byteLen name ≤ 70

lemma AcceptedService.of_define {env : Env} {msg : MsgSvcDef}
    (h : msg.validateBasic env = .ok ()) : AcceptedService msg.chainId msg.name := by
  simp only [MsgSvcDef.validateBasic, MsgSvcDef.ensureLength, ensureNameLength,
    ensureChainIdLength, bind_ok, require_ok, decide_eq_true_eq] at h
  obtain ⟨_, hchain, _, hname, _, _, _, ⟨_, hnameLen, _, hchainLen, _⟩, _⟩ := h
  exact ⟨hchain, hchainLen, hname, hnameLen⟩

lemma AcceptedService.of_ref {ref : BindingRef} (h : ref.validateBasic = .ok ()) :
    AcceptedService ref.defChainID ref.defName := by
  simp only [BindingRef.validateBasic, ensureNameLength, ensureChainIdLength, bind_ok,
    require_ok, decide_eq_true_eq] at h
  obtain ⟨_, hchain, _, _, _, hchainLen, _, _, _, hname, hnameLen⟩ := h
  exact ⟨hchain, hchainLen, hname, hnameLen⟩

variable {chainId name : String}

lemma AcceptedService.zero_notMem (h : AcceptedService chainId name) : '\x00' ∉ name.toList := by
  intro hmem
  have hvalid := h.name_valid
  simp only [validServiceName, Bool.and_eq_true, all_eq_true] at hvalid
  exact absurd (hvalid.2 _ hmem) (by decide)

lemma AcceptedService.name_ne_nil (h : AcceptedService chainId name) : name.toList ≠ [] := by
  intro hnil
  have hvalid := h.name_valid
  simp [validServiceName, byteLen, hnil] at hvalid

/-- Texts of addresses are different and have no zero byte. -/
structure Env.AddressTexts (env : Env) : Prop where
  injective : Function.Injective env.addrString
  zero_notMem : ∀ a, '\x00' ∉ (env.addrString a).toList

end

section
variable {env : Env} {c n c' n' : String} {b : String} {p : Address}

lemma getServiceDefinitionKey_toList (c n : String) :
    (getServiceDefinitionKey c n).toList = c.toList ++ '\x00' :: n.toList := by
  simp only [getServiceDefinitionKey, getStringsKey, String.toList_intercalate, map_cons, map_nil]
  simp [List.intercalate, List.intersperse]

lemma getMethodPropertyKey_toList (c n : String) (id : ℤ) : (getMethodPropertyKey c n id).toList =
      c.toList ++ '\x00' :: (n.toList ++ '\x00' :: (stringOfRune id).toList) := by
  simp only [getMethodPropertyKey, getStringsKey, String.toList_intercalate, map_cons, map_nil]
  simp [List.intercalate, List.intersperse]

lemma getServiceBindingKey_toList (env : Env) (c n b : String) (p : Address) :
    (getServiceBindingKey env c n b p).toList = c.toList ++ '\x00' ::
      (n.toList ++ '\x00' :: (b.toList ++ '\x00' :: (env.addrString p).toList)) := by
  simp only [getServiceBindingKey, getStringsKey, String.toList_intercalate, map_cons, map_nil]
  simp [List.intercalate, List.intersperse]

lemma getMethodsSubspaceKey_toList (c n : String) :
    (getMethodsSubspaceKey c n).toList = joined '\x00' c.toList n.toList := by
  simp only [getMethodsSubspaceKey, getStringsKey, String.toList_append,
    String.toList_intercalate, map_cons, map_nil]
  simp [List.intercalate, List.intersperse, joined]

lemma getBindingsSubspaceKey_toList (c n : String) :
    (getBindingsSubspaceKey c n).toList = joined '\x00' c.toList n.toList :=
  getMethodsSubspaceKey_toList c n

/-- Chain id `c'` begins with the chain id and the name of the service, up to a zero byte or
the end. -/
def Continues (c n c' : String) : Prop :=
  hasPrefix (c' ++ "\x00") (getMethodsSubspaceKey c n) = true

instance (c n c' : String) : Decidable (Continues c n c') := inferInstanceAs (Decidable (_ = _))

lemma continues_iff : Continues c n c' ↔
    joined '\x00' c.toList n.toList <+: c'.toList ++ ['\x00'] := by
  rw [Continues, hasPrefix, isPrefixOf_iff_prefix, getMethodsSubspaceKey_toList,
    String.toList_append]
  rfl

lemma getServiceDefinitionKey_inj (h : AcceptedService c n) (h' : AcceptedService c' n')
    (heq : getServiceDefinitionKey c n = getServiceDefinitionKey c' n') : c = c' ∧ n = n' := by
  have hlist := congrArg String.toList heq
  rw [getServiceDefinitionKey_toList, getServiceDefinitionKey_toList] at hlist
  obtain ⟨hc, hn⟩ := last_part_inj h.zero_notMem h'.zero_notMem hlist
  exact ⟨String.toList_injective hc, String.toList_injective hn⟩

lemma getServiceBindingKey_inj (henv : env.AddressTexts) {b' : String} {p' : Address}
    (heq : getServiceBindingKey env c n b p = getServiceBindingKey env c n b' p') :
    b = b' ∧ p = p' := by
  have hlist := congrArg String.toList heq
  rw [getServiceBindingKey_toList, getServiceBindingKey_toList, append_cancel_left_eq,
    List.cons.injEq, append_cancel_left_eq, List.cons.injEq] at hlist
  obtain ⟨hb, hp⟩ := last_part_inj (henv.zero_notMem p) (henv.zero_notMem p') hlist.2.2
  exact ⟨String.toList_injective hb, henv.injective (String.toList_injective hp)⟩

lemma hasPrefix_getMethodPropertyKey_iff (h : AcceptedService c n) (h' : AcceptedService c' n')
    (id : ℤ) : hasPrefix (getMethodPropertyKey c' n' id) (getMethodsSubspaceKey c n) = true ↔
      (c = c' ∧ n = n') ∨ Continues c n c' := by
  rw [hasPrefix, isPrefixOf_iff_prefix, getMethodPropertyKey_toList,
    getMethodsSubspaceKey_toList, continues_iff]
  constructor
  · intro hbegins
    rcases joined_begins h.zero_notMem h'.zero_notMem hbegins with ⟨hc, hn⟩ | hinside | ⟨x, _, hx⟩
    · exact .inl ⟨String.toList_injective hc, String.toList_injective hn⟩
    · exact .inr hinside
    · -- the number of the method is too short to hold another part
      have hname := length_pos_iff.mpr h.name_ne_nil
      have hlength := hx.length_le
      have hinside := (first_part_begins h'.zero_notMem hx).length_le
      simp only [stringOfRune_toList, length_append, length_cons, length_nil] at hlength hinside
      omega
  · rintro (⟨rfl, rfl⟩ | hinside)
    · exact joined_begins_append _ _ _ _
    · refine hinside.trans ?_
      simp

lemma hasPrefix_getServiceBindingKey (h : AcceptedService c n) (h' : AcceptedService c' n')
    (hbegins : hasPrefix (getServiceBindingKey env c' n' b p) (getBindingsSubspaceKey c n) = true) :
    (c = c' ∧ n = n') ∨ Continues c n c' ∨ Continues c' n' c := by
  rw [hasPrefix, isPrefixOf_iff_prefix, getServiceBindingKey_toList,
    getBindingsSubspaceKey_toList] at hbegins
  rcases joined_begins h.zero_notMem h'.zero_notMem hbegins with ⟨hc, hn⟩ | hinside | ⟨x, hc, hx⟩
  · exact .inl ⟨String.toList_injective hc, String.toList_injective hn⟩
  · exact .inr (.inl (continues_iff.mpr hinside))
  · refine .inr (.inr (continues_iff.mpr ?_))
    rw [hc]
    exact joined_begins_of_inside h'.zero_notMem hx

lemma hasPrefix_getServiceBindingKey_self (env : Env) (c n b : String) (p : Address) :
    hasPrefix (getServiceBindingKey env c n b p) (getBindingsSubspaceKey c n) = true := by
  rw [hasPrefix, isPrefixOf_iff_prefix, getServiceBindingKey_toList, getBindingsSubspaceKey_toList]
  exact joined_begins_append _ _ _ _

/-- Keys of the second service are not among those of the first. -/
structure Isolated (env : Env) (c n c' n' : String) : Prop where
  definition : getServiceDefinitionKey c n ≠ getServiceDefinitionKey c' n'
  binding : ∀ b p b' p', getServiceBindingKey env c n b p ≠ getServiceBindingKey env c' n' b' p'
  methods : ∀ id, hasPrefix (getMethodPropertyKey c' n' id) (getMethodsSubspaceKey c n) = false
  bindings : ∀ b p,
    hasPrefix (getServiceBindingKey env c' n' b p) (getBindingsSubspaceKey c n) = false

lemma isolated_of_not_continues (h : AcceptedService c n) (h' : AcceptedService c' n')
    (hne : ¬(c = c' ∧ n = n')) (hc : ¬Continues c n c') (hc' : ¬Continues c' n' c) :
    Isolated env c n c' n' := by
  have hbindings : ∀ b p,
      hasPrefix (getServiceBindingKey env c' n' b p) (getBindingsSubspaceKey c n) = false := by
    intro b p
    rw [Bool.eq_false_iff]
    intro hbegins
    rcases hasPrefix_getServiceBindingKey h h' hbegins with heq | hcont | hcont
    · exact hne heq
    · exact hc hcont
    · exact hc' hcont
  refine ⟨fun heq => hne (getServiceDefinitionKey_inj h h' heq), ?_, ?_, hbindings⟩
  · intro b p b' p' heq
    have hself := hasPrefix_getServiceBindingKey_self env c n b p
    rw [heq, hbindings b' p'] at hself
    exact absurd hself (by decide)
  · intro id
    rw [Bool.eq_false_iff, ne_eq, hasPrefix_getMethodPropertyKey_iff h h']
    exact not_or.mpr ⟨hne, hc⟩

/-- Two services are isolated exactly when neither continues the other. -/
lemma isolated_iff (h : AcceptedService c n) (h' : AcceptedService c' n')
    (hne : ¬(c = c' ∧ n = n')) : (Isolated env c n c' n' ∧ Isolated env c' n' c n) ↔
      ¬Continues c n c' ∧ ¬Continues c' n' c := by
  have hne' : ¬(c' = c ∧ n' = n) := fun heq => hne ⟨heq.1.symm, heq.2.symm⟩
  constructor
  · rintro ⟨hiso, hiso'⟩
    constructor
    · intro hcont
      have hmethods := hiso.methods 1
      rw [(hasPrefix_getMethodPropertyKey_iff h h' 1).mpr (.inr hcont)] at hmethods
      exact absurd hmethods (by decide)
    · intro hcont
      have hmethods := hiso'.methods 1
      rw [(hasPrefix_getMethodPropertyKey_iff h' h 1).mpr (.inr hcont)] at hmethods
      exact absurd hmethods (by decide)
  · rintro ⟨hc, hc'⟩
    exact ⟨isolated_of_not_continues h h' hne hc hc', isolated_of_not_continues h' h hne' hc' hc⟩

end

section
variable {env : Env} {s s' : State} {l l' : Logged} {c n : String}

/-- Tables of the services. -/
structure Catalogue where
  definitions : Store String SvcDef
  methods : Store String MethodProperty
  bindings : Store String SvcBinding

def State.catalogue (s : State) : Catalogue where
  definitions := s.definitions
  methods := s.methods
  bindings := s.bindings

/-- Every method and every binding is filed under the keys of a defined service. -/
structure Catalogue.Filed (env : Env) (cat : Catalogue) : Prop where
  definitions : ∀ k d, cat.definitions.get k = some d →
    k = getServiceDefinitionKey d.chainId d.name ∧ AcceptedService d.chainId d.name
  methods : ∀ k m, cat.methods.get k = some m → ∃ k' d, cat.definitions.get k' = some d ∧
    k = getMethodPropertyKey d.chainId d.name m.id
  bindings : ∀ k b, cat.bindings.get k = some b → k = b.key env ∧
    ∃ k' d, cat.definitions.get k' = some d ∧ d.chainId = b.defChainID ∧ d.name = b.defName

lemma Catalogue.Filed.define (h : s.catalogue.Filed env) {msg : MsgSvcDef}
    {stored : Store String MethodProperty} (hv : msg.validateBasic env = .ok ())
    (hfree : s.definitions.get (getServiceDefinitionKey msg.chainId msg.name) = none)
    (hstored : ∀ k m, stored.get k = some m → s.methods.get k = some m ∨
      k = getMethodPropertyKey msg.chainId msg.name m.id) :
    Catalogue.Filed env
      { s.catalogue with
        definitions := s.definitions.set (getServiceDefinitionKey msg.chainId msg.name) msg.toSvcDef
        methods := stored } := by
  -- a definition that is stored stays
  have hkept : ∀ {k d}, s.definitions.get k = some d →
      (s.definitions.set (getServiceDefinitionKey msg.chainId msg.name) msg.toSvcDef).get k =
        some d := by
    intro k d hd
    rw [get_set_ne]
    · exact hd
    · rintro rfl
      rw [hfree] at hd
      simp at hd
  refine ⟨forall_set h.definitions ⟨rfl, .of_define hv⟩, ?_, ?_⟩
  · intro k m hm
    rcases hstored k m hm with hold | hnew
    · obtain ⟨k', d, hd, hk⟩ := h.methods k m hold
      exact ⟨k', d, hkept hd, hk⟩
    · exact ⟨_, msg.toSvcDef, get_set_self _ _ _, hnew⟩
  · intro k b hb
    obtain ⟨hk, k', d, hd, hservice⟩ := h.bindings k b hb
    exact ⟨hk, k', d, hkept hd, hservice⟩

lemma Catalogue.Filed.write (h : s.catalogue.Filed env) {tested : Prop} {log : Log}
    {b : SvcBinding} (hw : BindingWrite env tested s log b) :
    Catalogue.Filed env
      { s.catalogue with bindings := s.bindings.set (b.key env) b } := by
  refine ⟨h.definitions, h.methods, forall_set h.bindings ⟨rfl, ?_⟩⟩
  rcases hw.ref with ⟨hvalid, hdefined⟩ | ⟨old, hold, href⟩
  · obtain ⟨d, hd⟩ := Option.isSome_iff_exists.mp hdefined
    obtain ⟨hkey, haccepted⟩ := h.definitions _ d hd
    obtain ⟨hchain, hname⟩ :=
      getServiceDefinitionKey_inj (AcceptedService.of_ref hvalid) haccepted hkey
    exact ⟨_, d, hd, hchain.symm, hname.symm⟩
  · obtain ⟨_, k', d, hd, hchain, hname⟩ := h.bindings _ old hold
    have hchain' : b.defChainID = old.defChainID := congrArg BindingRef.defChainID href
    have hname' : b.defName = old.defName := congrArg BindingRef.defName href
    exact ⟨k', d, hd, hchain.trans hchain'.symm, hname.trans hname'.symm⟩

lemma Catalogue.Filed.effect (h : s.catalogue.Filed env) {tested : Prop} {log : Log}
    (he : Effect env tested s log s') : s'.catalogue.Filed env := by
  cases he.change with
  | define msg hvalid hfree hstored => exact h.define hvalid hfree hstored
  | write hw => exact h.write hw
  | accept | book => exact h

lemma State.Initial.filed (hs : s.Initial) : s.catalogue.Filed env where
  definitions k d hd := by simp [State.catalogue, hs.definitions] at hd
  methods k m hm := by simp [State.catalogue, hs.methods] at hm
  bindings k b hb := by simp [State.catalogue, hs.bindings] at hb

def State.ownMethods (s : State) (chainId name : String) : List MethodProperty :=
  (s.methods.entries.filter (fun e => e.1 = getMethodPropertyKey chainId name e.2.id)).map Prod.snd

def State.ownBindings (s : State) (chainId name : String) : List SvcBinding :=
  (s.bindings.entries.filter
    (fun e => e.2.defChainID = chainId ∧ e.2.defName = name)).map Prod.snd

def State.Separate (s : State) (chainId name : String) : Prop :=
  ∀ k d, s.definitions.get k = some d →
    ¬Continues chainId name d.chainId ∧ ¬Continues d.chainId d.name chainId

lemma Catalogue.Filed.getMethods_eq (hf : s.catalogue.Filed env)
    (h : AcceptedService c n) (hsep : s.Separate c n) : s.getMethods c n = s.ownMethods c n := by
  unfold getMethods ownMethods
  congr 1
  refine filter_congr (fun e he => ?_)
  obtain ⟨k', d, hd, hk⟩ := hf.methods e.1 e.2 (mem_entries.mp he)
  obtain ⟨_, haccepted⟩ := hf.definitions k' d hd
  rw [Bool.eq_iff_iff, decide_eq_true_eq]
  constructor
  · intro hbegins
    rw [hk, hasPrefix_getMethodPropertyKey_iff h haccepted] at hbegins
    rcases hbegins with ⟨rfl, rfl⟩ | hcont
    · exact hk
    · exact absurd hcont (hsep k' d hd).1
  · intro hown
    rw [hown, hasPrefix_getMethodPropertyKey_iff h h]
    exact .inl ⟨rfl, rfl⟩

lemma Catalogue.Filed.serviceBindingsIterator_eq (hf : s.catalogue.Filed env)
    (h : AcceptedService c n) (hsep : s.Separate c n) :
    s.serviceBindingsIterator c n = s.ownBindings c n := by
  unfold serviceBindingsIterator ownBindings
  congr 1
  refine filter_congr (fun e he => ?_)
  obtain ⟨hk, k', d, hd, hchain, hname⟩ := hf.bindings e.1 e.2 (mem_entries.mp he)
  obtain ⟨_, haccepted⟩ := hf.definitions k' d hd
  obtain ⟨hcont, hcont'⟩ := hsep k' d hd
  rw [hchain, hname] at haccepted hcont'
  rw [hchain] at hcont
  rw [Bool.eq_iff_iff, decide_eq_true_eq, hk]
  constructor
  · intro hbegins
    rcases hasPrefix_getServiceBindingKey h haccepted hbegins with ⟨hc, hn⟩ | hbad | hbad
    · exact ⟨hc.symm, hn.symm⟩
    · exact absurd hbad hcont
    · exact absurd hbad hcont'
  · rintro ⟨rfl, rfl⟩
    exact hasPrefix_getServiceBindingKey_self env _ _ _ _

/-- Which keys of accepted services are different, and what the iterators yield in every state of
a run. -/
theorem services_isolated (henv : env.AddressTexts) :
    (∀ c n c' n', AcceptedService c n → AcceptedService c' n' →
      getServiceDefinitionKey c n = getServiceDefinitionKey c' n' → c = c' ∧ n = n') ∧
    (∀ c n b b' p p', getServiceBindingKey env c n b p = getServiceBindingKey env c n b' p' →
      b = b' ∧ p = p') ∧
    (∀ c n c' n', AcceptedService c n → AcceptedService c' n' → ¬(c = c' ∧ n = n') →
      ((Isolated env c n c' n' ∧ Isolated env c' n' c n) ↔
        ¬Continues c n c' ∧ ¬Continues c' n' c)) ∧
    (∀ s l c n, s.Initial → Relation.ReflTransGen (LoggedStep env) ⟨s, []⟩ l →
      AcceptedService c n → l.state.Separate c n → l.state.getMethods c n = l.state.ownMethods c n ∧
        l.state.serviceBindingsIterator c n = l.state.ownBindings c n) := by
  refine ⟨fun _ _ _ _ => getServiceDefinitionKey_inj, fun _ _ _ _ _ _ =>
    getServiceBindingKey_inj henv, fun _ _ _ _ => isolated_iff, ?_⟩
  intro s l c n hs hrun haccepted hsep
  have hfiled : l.state.catalogue.Filed env :=
    Logged.kept (I := fun s _ => s.catalogue.Filed env) (fun _ _ _ _ _ _ hf he => hf.effect he)
      (fun _ _ _ _ _ hf => hf) hs hs.filed hrun
  exact ⟨hfiled.getMethods_eq haccepted hsep, hfiled.serviceBindingsIterator_eq haccepted hsep⟩

lemma sampleEnv_addressTexts : sampleEnv.AddressTexts where
  injective := by
    intro a b h
    have hdigits : Nat.toDigits 10 a = Nat.toDigits 10 b := by
      rw [← Nat.toList_repr, ← Nat.toList_repr]
      exact congrArg String.toList h
    have hvalue := congrArg (fun cs => Nat.ofDigitChars 10 cs 0) hdigits
    simpa [Nat.ofDigitChars_toDigits] using hvalue
  zero_notMem := by
    intro a hmem
    have hdigit : '\x00' ∈ Nat.toDigits 10 a := by
      rw [← Nat.toList_repr]
      exact hmem
    exact absurd (Nat.isDigit_of_mem_toDigits (by decide) (by decide) hdigit) (by decide)

lemma sampleService_accepted : AcceptedService "chain" "service" :=
  ⟨by decide +kernel, by decide +kernel, by decide +kernel, by decide +kernel⟩

/-- Account 1 defines a service on the chain `chain`, and account 2 another one; each binds its
own. -/
def twoServiceOps (chainId : String) : List Op :=
  sampleBindOps ++
    [.deliver (.define
      { name := "other", chainId := chainId, description := "", tags := [], author := 2
        authorDescription := "", idlContent := "idl" }),
     .deliver (.bind
      { defName := "other", defChainID := chainId, bindChainID := "chain", provider := 2
        bindingType := .localBinding, deposit := [⟨"iris-atto", 1000⟩]
        prices := [⟨"iris-atto", 1⟩], level := ⟨1, 1⟩ })]

/-- Two services of one chain are isolated, and the iterators of the first yield its method and
its binding and not those of the second. -/
theorem sampleService_isolated : Isolated sampleEnv "chain" "service" "chain" "other" ∧
      ∃ l, Relation.ReflTransGen (LoggedStep sampleEnv) ⟨sampleState, []⟩ l ∧
        l.state.definitions.entries.length = 2 ∧ l.state.bindings.entries.length = 2 ∧
        (l.state.ownMethods "chain" "service").length = 1 ∧
        (l.state.ownBindings "chain" "service").length = 1 ∧
        l.state.getMethods "chain" "service" = l.state.ownMethods "chain" "service" ∧
        l.state.serviceBindingsIterator "chain" "service" =
          l.state.ownBindings "chain" "service" := by
  obtain ⟨_, _, hisolated, hiterators⟩ := services_isolated sampleEnv_addressTexts
  have hother : AcceptedService "chain" "other" :=
    ⟨by decide +kernel, by decide +kernel, by decide +kernel, by decide +kernel⟩
  refine ⟨?_, ?_⟩
  · exact ((hisolated _ _ _ _ sampleService_accepted hother (by decide)).mpr
      ⟨by decide +kernel, by decide +kernel⟩).1
  · obtain ⟨l, hrun, hstored⟩ := @loggedRun_of_returns sampleEnv ⟨sampleState, []⟩
      (twoServiceOps "chain")
      (fun l => decide (l.state.definitions.entries.length = 2 ∧
        l.state.bindings.entries.length = 2 ∧
        (l.state.ownMethods "chain" "service").length = 1 ∧
        (l.state.ownBindings "chain" "service").length = 1 ∧
        ∀ e ∈ l.state.definitions.entries, ¬Continues "chain" "service" e.2.chainId ∧
          ¬Continues e.2.chainId e.2.name "chain")) (by decide +kernel) (by decide +kernel)
    rw [decide_eq_true_eq] at hstored
    obtain ⟨hdefinitions, hbindings, hmethods, hown, hcontinues⟩ := hstored
    have hsep : l.state.Separate "chain" "service" := fun k d hd =>
      hcontinues (k, d) (mem_entries.mpr hd)
    exact ⟨l, hrun, hdefinitions, hbindings, hmethods, hown,
      hiterators sampleState l _ _ sampleState_initial hrun sampleService_accepted hsep⟩

/-- Iterators of the first service also yield what belongs to the second, and the two have
binding keys in common. -/
theorem continued_service_intrudes :
    AcceptedService "chain" "service" ∧ AcceptedService "chain\x00service" "other" ∧
      sampleState.Initial ∧ getServiceBindingKey sampleEnv "chain" "service" "other\x00chain" 1 =
        getServiceBindingKey sampleEnv "chain\x00service" "other" "chain" 1 ∧
      ∃ l, Relation.ReflTransGen (LoggedStep sampleEnv) ⟨sampleState, []⟩ l ∧
        (l.state.ownMethods "chain" "service").length = 1 ∧
        (l.state.getMethods "chain" "service").length = 2 ∧
        (l.state.ownBindings "chain" "service").length = 1 ∧
        (l.state.serviceBindingsIterator "chain" "service").length = 2 := by
  refine ⟨sampleService_accepted, ?_, sampleState_initial, by decide +kernel, ?_⟩
  · exact ⟨by decide +kernel, by decide +kernel, by decide +kernel, by decide +kernel⟩
  · obtain ⟨l, hrun, hlengths⟩ := @loggedRun_of_returns sampleEnv ⟨sampleState, []⟩
      (twoServiceOps "chain\x00service")
      (fun l => decide ((l.state.ownMethods "chain" "service").length = 1 ∧
        (l.state.getMethods "chain" "service").length = 2 ∧
        (l.state.ownBindings "chain" "service").length = 1 ∧
        (l.state.serviceBindingsIterator "chain" "service").length = 2))
      (by decide +kernel) (by decide +kernel)
    exact ⟨l, hrun, by simpa using hlengths⟩

end
end Irishub.Service
