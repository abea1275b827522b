import CommonsOperator.RestarterSystem

/-!
# No lost change

When nothing is left to do, every StatefulSet in the store should have the annotations
computed from the stores. It does as long as every listing that is published with a
difference comes with a request that is still to be served (`KeepsTriggers`) : the end of a
listing publishes objects and makes no request, and the requests made for the objects listed
may have been served from the old store by then.

`Covered` is the invariant, for each StatefulSet in the store : a request is on its way, or a
reconcile is under way that has read nothing out of date or will change the object, or the
annotations are up to date.
-/

set_option linter.unusedSectionVars false

namespace CommonsOperator.StatefulSetController

open Transition

/-! ## The property -/

/-- Nothing is left to do. -/
structure Quiescent (s : System) : Prop where
  config : ∀ kind, (s.config kind).queue = []
  stses : s.stses.queue = []
  pending : ∀ ref, s.pending ref = false
  running : ∀ ref, s.running ref = none

/-- The object has the annotations, and no others that the controller owns. An annotation that
somebody else owns is not removed by an apply of the controller. -/
def HasAnnotations (live : ManagedAnnotations) (annotations : BTreeMap String String) : Prop :=
  ∀ key, live.entries[key]? = annotations[key]? ∨
    annotations[key]? = none ∧ fieldManager ∉ live.owners key

/-- Once nothing is left to do, every StatefulSet in the store has the annotations computed
from the stores. -/
def NoLostChange (s : System) : Prop :=
  Quiescent s → ∀ ref sts, s.stses.reflector.published ref = some (.ok sts) →
    sts.metadata.ns ≠ none →
      ∃ annotations, getUpdatedRestarterAnnotations sts
          ⟨.ok (s.config .configMap).reflector.published,
            .ok (s.config .secret).reflector.published⟩ = .ok annotations ∧
        HasAnnotations (s.live ref) annotations

/-! ## The condition -/

/-- A request for the object is made, or will be when the items emitted so far are
delivered. -/
inductive Awaited (s : System) (ref : ObjectRef) : Prop where
  | pending (h : s.pending ref = true)
  | stses {event object} (h : event ∈ s.stses.queue) (ha : event.appliedObject = some object)
      (href : guardRef object = ref)
  | config {kind event} (h : event ∈ (s.config kind).queue) (ht : event.touchedObject ≠ none)

/-- The reconcile is past reading the store of the kind. -/
def Phase.HasRead : Phase → Kind → Prop
  | .started _, _ => False
  | .readConfigMaps _ _, kind => kind = .configMap
  | .computed _, _ => True

/-- The reconcile will change the annotations `live`, or who owns them. -/
def Phase.Changes (live : ManagedAnnotations) : Phase → Prop
  | .started _ => False
  | .readConfigMaps _ annotations =>
    ∃ name, live.ChangesAt fieldManager annotations (annotationKey .configMap name)
  | .computed annotations => live.apply fieldManager annotations ≠ live

/-- The end of a listing is delivered only if every StatefulSet it makes a difference to has a
request on its way, or a reconcile that will read the listing or change the object. -/
structure KeepsTriggers (s : System) (l : Label) : Prop where
  config : ∀ kind queue, l = .deliver kind → (s.config kind).queue = .initDone :: queue →
    ∀ ref sts ns, s.stses.reflector.published ref = some (.ok sts) → sts.metadata.ns = some ns →
      SameVersions kind sts ns (s.config kind).reflector.published
          (s.config kind).reflector.buffer ∨
        Awaited s ref ∨
        ∃ phase, s.running ref = some phase ∧ (¬phase.HasRead kind ∨ phase.Changes (s.live ref))
  stses : ∀ queue, l = .deliverSts → s.stses.queue = .initDone :: queue →
    ∀ ref sts, s.stses.reflector.buffer ref = some (.ok sts) →
      (∃ sts', s.stses.reflector.published ref = some (.ok sts') ∧ SameInputs sts' sts) ∨
        Awaited s ref ∨ ∃ phase, s.running ref = some phase ∧ phase.Changes (s.live ref)

/-! ## The invariant -/

/-- What the reconcile has read is what it would read now. -/
def Phase.Current (s : System) (sts : StatefulSet) (ns : String) : Phase → Prop
  | .started sts' => SameInputs sts' sts
  | .readConfigMaps sts' annotations => SameInputs sts' sts ∧
    annotations = BTreeMap.extend ∅
      (trackedAnnotations .configMap sts ns (s.config .configMap).reflector.published)
  | .computed annotations => annotations = restarterMap sts ns
      (s.config .configMap).reflector.published (s.config .secret).reflector.published

/-- Why the StatefulSet in the store will have the annotations computed from the stores. -/
inductive Covered (s : System) (ref : ObjectRef) (sts : StatefulSet) (ns : String) : Prop where
  | awaited (h : Awaited s ref)
  | changes {phase} (hr : s.running ref = some phase) (h : phase.Changes (s.live ref))
  | current {phase} (hr : s.running ref = some phase) (h : phase.Current s sts ns)
  | upToDate (hr : s.running ref = none)
      (h : HasAnnotations (s.live ref) (restarterMap sts ns
        (s.config .configMap).reflector.published (s.config .secret).reflector.published))

/-- Every StatefulSet in the store is covered. -/
def AllCovered (s : System) : Prop :=
  ∀ ref sts ns, s.stses.reflector.published ref = some (.ok sts) → sts.metadata.ns = some ns →
    Covered s ref sts ns

theorem noLostChange_of_allCovered {s : System} (h : AllCovered s) : NoLostChange s := by
  intro hq ref sts hsts hns
  obtain ⟨ns, hns⟩ := Option.ne_none_iff_exists'.1 hns
  rw [getUpdatedRestarterAnnotations_ok hns]
  cases h ref sts ns hsts hns with
  | awaited h =>
    cases h with
    | pending h => exact nomatch h.symm.trans (hq.pending ref)
    | stses h => exact nomatch (hq.stses ▸ h)
    | config h => exact nomatch (hq.config _ ▸ h)
  | changes hr => exact nomatch hr.symm.trans (hq.running ref)
  | current hr => exact nomatch hr.symm.trans (hq.running ref)
  | upToDate _ h => exact ⟨_, rfl, h⟩

/-! ## What keeps an object covered -/

/-- The step leaves alone the versions that the StatefulSet tracks, its reconcile and the
object in the cluster. -/
structure SameReads (s s' : System) (ref : ObjectRef) (sts : StatefulSet) (ns : String) :
    Prop where
  versions : ∀ kind, SameVersions kind sts ns (s.config kind).reflector.published
    (s'.config kind).reflector.published
  running : s'.running ref = s.running ref
  live : s'.live ref = s.live ref

theorem SameReads.covered {s s' : System} {ref : ObjectRef} {sts : StatefulSet} {ns : String}
    (h : SameReads s s' ref sts ns) (ha : Awaited s ref → Awaited s' ref)
    (hc : Covered s ref sts ns) : Covered s' ref sts ns := by
  have hmap := restarterMap_congr (SameInputs.refl sts) (h.versions .configMap) (h.versions .secret)
  cases hc with
  | awaited hw => exact .awaited (ha hw)
  | changes hr hch => exact .changes (h.running.trans hr) (h.live ▸ hch)
  | current hr hcur =>
    rename_i phase
    refine .current (h.running.trans hr) ?_
    cases phase with
    | started sts₀ => exact hcur
    | readConfigMaps sts₀ annotations =>
      refine ⟨hcur.1, hcur.2.trans ?_⟩
      exact extend_trackedAnnotations_congr (SameInputs.refl sts) (h.versions .configMap) ∅
    | computed annotations => exact hcur.trans hmap
  | upToDate hr hu =>
    refine .upToDate (h.running.trans hr) ?_
    rw [h.live, ← hmap]
    exact hu

theorem SameInputs.covered {s : System} {ref : ObjectRef} {sts sts' : StatefulSet} {ns : String}
    (h : SameInputs sts sts') (hc : Covered s ref sts ns) : Covered s ref sts' ns := by
  have hmap : ∀ cms secrets, restarterMap sts ns cms secrets = restarterMap sts' ns cms secrets :=
    fun cms secrets => restarterMap_congr h (fun _ _ _ => rfl) fun _ _ _ => rfl
  cases hc with
  | awaited hw => exact .awaited hw
  | changes hr hch => exact .changes hr hch
  | current hr hcur =>
    rename_i phase
    refine .current hr ?_
    cases phase with
    | started sts₀ => exact hcur.trans h
    | readConfigMaps sts₀ annotations =>
      refine ⟨hcur.1.trans h, hcur.2.trans ?_⟩
      exact extend_trackedAnnotations_congr h (fun _ _ _ => rfl) ∅
    | computed annotations => exact hcur.trans (hmap _ _)
  | upToDate hr hu => exact .upToDate hr (hmap _ _ ▸ hu)

/-! ## The steps -/

theorem Awaited.deliver {s : System} {ref : ObjectRef} {kind : Kind}
    {event : WatchEvent PartialObjectMeta} {queue : List (WatchEvent PartialObjectMeta)}
    (hq : (s.config kind).queue = event :: queue) (ht : event.touchedObject = none)
    {s' : System} (hc : s'.config = Function.update s.config kind
      ⟨queue, (s.config kind).reflector.observe objectRef event⟩) (hst : s'.stses = s.stses)
    (hp : s.pending ref = true → s'.pending ref = true) (h : Awaited s ref) : Awaited s' ref := by
  cases h with
  | pending h => exact .pending (hp h)
  | stses h ha href => exact .stses (hst ▸ h) ha href
  | config h ht' =>
    rename_i kind' event'
    by_cases hk : kind' = kind
    · subst hk
      rw [hq] at h
      rcases List.mem_cons.1 h with rfl | h
      · exact (ht' ht).elim
      · exact .config (by rw [hc, Function.update_self]; exact h) ht'
    · have he : (s'.config kind').queue = (s.config kind').queue := by
        rw [hc, Function.update_of_ne hk]
      exact .config (he ▸ h) ht'

/-- A store that the reconcile has yet to read does not matter. -/
theorem Phase.Current.of_not_hasRead {s s' : System} {sts : StatefulSet} {ns : String} {kind : Kind}
    {phase : Phase} (h : phase.Current s sts ns) (hread : ¬phase.HasRead kind)
    (hother : ∀ kind', kind' ≠ kind → s'.config kind' = s.config kind') :
    phase.Current s' sts ns := by
  cases phase with
  | started sts₀ => exact h
  | readConfigMaps sts₀ annotations =>
    have hk : s'.config .configMap = s.config .configMap :=
      hother .configMap fun hk => hread hk.symm
    exact ⟨h.1, by rw [hk]; exact h.2⟩
  | computed annotations => exact (hread trivial).elim

theorem allCovered_deliver {s s' : System} {kind : Kind} (hs : AllCovered s)
    (hok : KeepsTriggers s (.deliver kind)) (h : step s (.deliver kind) = some s') :
    AllCovered s' := by
  obtain ⟨event, queue, hq, hs'⟩ := step_deliver h
  have hconfig : s'.config = Function.update s.config kind
      ⟨queue, (s.config kind).reflector.observe objectRef event⟩ := by rw [hs']
  have hstses : s'.stses = s.stses := by rw [hs']
  have hrunning : s'.running = s.running := by rw [hs']
  have hlive : s'.live = s.live := by rw [hs']
  intro ref sts ns hsts hns
  rw [hstses] at hsts
  have hpending : s'.pending = triggerAll event s.stses.reflector.published s.pending := by rw [hs']
  cases ht : event.touchedObject with
  | some object =>
    exact .awaited (.pending (by rw [hpending, triggerAll_of_touched ht hsts]))
  | none =>
    have haw : Awaited s ref → Awaited s' ref :=
      Awaited.deliver hq ht hconfig hstses fun h => by rw [hpending, triggerAll_of_pending h]
    have hother : ∀ kind', kind' ≠ kind → s'.config kind' = s.config kind' := fun kind' hk => by
      rw [hconfig, Function.update_of_ne hk]
    have hself : (s'.config kind).reflector =
        (s.config kind).reflector.observe objectRef event := by
      rw [hconfig, Function.update_self]
    have hcovered := hs ref sts ns hsts hns
    have hreads : SameVersions kind sts ns (s.config kind).reflector.published
        (s'.config kind).reflector.published → SameReads s s' ref sts ns := by
      refine fun hv => ⟨fun kind' => ?_, by rw [hrunning], by rw [hlive]⟩
      by_cases hk : kind' = kind
      · exact hk ▸ hv
      · rw [hother kind' hk]
        exact fun _ _ _ => rfl
    by_cases hd : event = .initDone
    · subst hd
      rcases hok.config kind queue rfl hq ref sts ns hsts hns with hv | hw | ⟨phase, hr, hphase⟩
      · exact (hreads (hself ▸ hv)).covered haw hcovered
      · exact .awaited (haw hw)
      · have hr' : s'.running ref = some phase := by rw [hrunning, hr]
        rcases hphase with hread | hch
        · cases hcovered with
          | awaited hw => exact .awaited (haw hw)
          | changes hr'' hch => exact .changes (by rw [hrunning, hr'']) (hlive ▸ hch)
          | current hr'' hcur =>
            obtain rfl := Option.some.inj (hr.symm.trans hr'')
            exact .current hr' (hcur.of_not_hasRead hread hother)
          | upToDate hr'' => exact nomatch hr.symm.trans hr''
        · exact .changes hr' (hlive ▸ hch)
    · refine (hreads ?_).covered haw hcovered
      rw [hself, Reflector.published_observe_of_untouched ht hd]
      exact fun _ _ _ => rfl

theorem allCovered_deliverSts {s s' : System} (hs : AllCovered s)
    (hok : KeepsTriggers s .deliverSts) (h : step s .deliverSts = some s') : AllCovered s' := by
  obtain ⟨event, queue, hq, hs'⟩ := step_deliverSts h
  have hconfig : s'.config = s.config := by rw [hs']
  have hstses : s'.stses = ⟨queue, s.stses.reflector.observe guardRef event⟩ := by rw [hs']
  have hpending : s'.pending = triggerSelf event s.pending := by rw [hs']
  have hrunning : s'.running = s.running := by rw [hs']
  have hlive : s'.live = s.live := by rw [hs']
  intro ref sts ns hsts hns
  rw [hstses] at hsts
  by_cases hr : ∃ object, event.appliedObject = some object ∧ guardRef object = ref
  · obtain ⟨object, ha, rfl⟩ := hr
    exact .awaited (.pending (by rw [hpending, triggerSelf_of_applied ha]))
  have haw : Awaited s ref → Awaited s' ref := by
    intro hw
    cases hw with
    | pending hp => exact .pending (by rw [hpending, triggerSelf_of_pending hp])
    | stses he ha href =>
      rw [hq] at he
      rcases List.mem_cons.1 he with rfl | he
      · exact (hr ⟨_, ha, href⟩).elim
      · exact .stses (by rw [hstses]; exact he) ha href
    | config he ht => exact .config (hconfig ▸ he) ht
  have hreads : ∀ sts, SameReads s s' ref sts ns := fun sts =>
    ⟨fun kind => by rw [hconfig]; exact fun _ _ _ => rfl, by rw [hrunning], by rw [hlive]⟩
  by_cases hd : event = .initDone
  · subst hd
    rcases hok.stses queue rfl hq ref sts hsts with ⟨sts', hsts', hin⟩ | hw | ⟨phase, hr, hch⟩
    · exact (hreads sts).covered haw (hin.covered (hs ref sts' ns hsts' (hin.ns.trans hns)))
    · exact .awaited (haw hw)
    · exact .changes (by rw [hrunning, hr]) (hlive ▸ hch)
  · rcases Reflector.published_of_observe hd hsts with ⟨rfl, he⟩ | hold
    · exact (hr ⟨_, rfl, he⟩).elim
    · exact (hreads sts).covered haw (hs ref sts ns hold hns)

theorem Awaited.mono {s s' : System} {ref : ObjectRef} (hw : Awaited s ref)
    (hconfig : ∀ kind event, event ∈ (s.config kind).queue → event ∈ (s'.config kind).queue)
    (hqueue : ∀ event, event ∈ s.stses.queue → event ∈ s'.stses.queue)
    (hpending : s.pending ref = true → s'.pending ref = true) : Awaited s' ref := by
  cases hw with
  | pending hp => exact .pending (hpending hp)
  | stses he ha href => exact .stses (hqueue _ he) ha href
  | config he ht => exact .config (hconfig _ _ he) ht

/-- A step of the reconcile of another object. -/
theorem Covered.of_ne {s s' : System} {ref : ObjectRef} {sts : StatefulSet} {ns : String}
    (hc : Covered s ref sts ns) (hconfig : s'.config = s.config)
    (hqueue : ∀ event, event ∈ s.stses.queue → event ∈ s'.stses.queue)
    (hpending : s'.pending ref = s.pending ref) (hrunning : s'.running ref = s.running ref)
    (hlive : s'.live ref = s.live ref) : Covered s' ref sts ns := by
  refine SameReads.covered ⟨fun kind => ?_, hrunning, hlive⟩ (fun hw => ?_) hc
  · rw [hconfig]
    exact fun _ _ _ => rfl
  · exact hw.mono (fun _ _ he => hconfig ▸ he) hqueue hpending.trans

/-- The object changes in the cluster, and its reconcile may end. -/
theorem allCovered_setLive {s s' : System} {ref : ObjectRef} {annotations : ManagedAnnotations}
    {sts : StatefulSet} (href : guardRef (.ok sts) = ref) (hs : AllCovered s)
    (hrunning : ∀ ref', ref' ≠ ref → s'.running ref' = s.running ref')
    (hs' : s' = { s.setLive ref annotations sts with running := s'.running }) :
    AllCovered s' := by
  intro ref' sts' ns hsts hns
  by_cases hr : ref' = ref
  · -- the API server has emitted the object
    subst hr
    have hq : .apply (.ok sts) ∈ s'.stses.queue := by
      rw [hs']
      exact List.mem_append_right _ List.mem_cons_self
    exact .awaited (.stses hq rfl href)
  · rw [hs'] at hsts
    refine (hs ref' sts' ns hsts hns).of_ne (by rw [hs']; rfl) (fun event he => ?_)
      (by rw [hs']; rfl) (hrunning ref' hr) ?_
    · rw [hs']
      exact List.mem_append_left _ he
    · rw [hs']
      exact Function.update_of_ne hr _ _

theorem allCovered_emit {s : System} (hs : AllCovered s) (kind : Kind)
    (event : WatchEvent PartialObjectMeta) :
    AllCovered { s with
      config := Function.update s.config kind ((s.config kind).emit event) } := by
  have hemit : ∀ kind',
      ((Function.update s.config kind ((s.config kind).emit event)) kind').reflector =
        (s.config kind').reflector ∧ ∀ event', event' ∈ (s.config kind').queue →
        event' ∈ ((Function.update s.config kind ((s.config kind).emit event)) kind').queue := by
    intro kind'
    by_cases hk : kind' = kind
    · subst hk
      rw [Function.update_self]
      exact ⟨rfl, fun event' he => List.mem_append_left _ he⟩
    · rw [Function.update_of_ne hk]
      exact ⟨rfl, fun event' he => he⟩
  intro ref sts ns hsts hns
  refine SameReads.covered (s := s) ⟨fun kind' => ?_, rfl, rfl⟩
    (fun hw => hw.mono (fun kind' => ?_) (fun _ he => he) id) (hs ref sts ns hsts hns)
  · simp only
    rw [(hemit kind').1]
    exact fun _ _ _ => rfl
  · exact (hemit kind').2

theorem allCovered_start {s s' : System} {ref : ObjectRef} (hs : AllCovered s)
    (h : step s (.start ref) = some s') : AllCovered s' := by
  obtain ⟨-, -, rfl⟩ := step_start h
  intro ref' sts ns hsts hns
  by_cases hr : ref' = ref
  · subst hr
    exact .current (beginReconcile_self hsts _) (SameInputs.refl sts)
  · exact (hs ref' sts ns hsts hns).of_ne rfl (fun _ he => he) (Function.update_of_ne hr _ _)
      (beginReconcile_of_ne hr _ _) rfl

/-- A reconcile goes on to the next phase. -/
theorem allCovered_phase {s : System} {ref : ObjectRef} {phase phase' : Phase} (hs : AllCovered s)
    (hrun : s.running ref = some phase)
    (hchanges : phase.Changes (s.live ref) → phase'.Changes (s.live ref))
    (hcurrent : ∀ sts ns, sts.metadata.ns = some ns → phase.Current s sts ns →
      phase'.Current s sts ns) :
    AllCovered { s with running := Function.update s.running ref (some phase') } := by
  intro ref' sts ns hsts hns
  have hc := hs ref' sts ns hsts hns
  by_cases hr : ref' = ref
  · subst hr
    cases hc with
    | awaited hw => exact .awaited (hw.mono (fun _ _ he => he) (fun _ he => he) id)
    | changes hr' hch =>
      obtain rfl := Option.some.inj (hrun.symm.trans hr')
      exact .changes (Function.update_self _ _ _) (hchanges hch)
    | current hr' hcur =>
      obtain rfl := Option.some.inj (hrun.symm.trans hr')
      exact .current (Function.update_self _ _ _) (hcurrent sts ns hns hcur)
    | upToDate hr' => exact nomatch hrun.symm.trans hr'
  · exact hc.of_ne rfl (fun _ he => he) rfl (Function.update_of_ne hr _ _) rfl

theorem allCovered_readConfigMaps {s s' : System} {ref : ObjectRef} (hs : AllCovered s)
    (h : step s (.readConfigMaps ref) = some s') : AllCovered s' := by
  obtain ⟨sts₀, ns₀, hrun, hns₀, rfl⟩ := step_readConfigMaps h
  refine allCovered_phase hs hrun False.elim fun sts ns hns hin => ⟨hin, ?_⟩
  obtain rfl : ns₀ = ns := Option.some.inj (hns₀.symm.trans (hin.ns.trans hns))
  exact extend_trackedAnnotations_congr hin (fun _ _ _ => rfl) ∅

theorem allCovered_readSecrets {s s' : System} {ref : ObjectRef} (hs : AllCovered s)
    (h : step s (.readSecrets ref) = some s') : AllCovered s' := by
  obtain ⟨sts₀, annotations, ns₀, hrun, hns₀, rfl⟩ := step_readSecrets h
  refine allCovered_phase hs hrun ?_ ?_
  · rintro ⟨name, hch⟩
    -- the Secrets do not touch the annotations of the ConfigMaps
    refine (hch.congr ?_).apply_ne
    rw [getElem?_extend_trackedAnnotations_of_not]
    intro name' _ he
    cases (annotationKey_inj he).1
  · rintro sts ns hns ⟨hin, rfl⟩
    obtain rfl : ns₀ = ns := Option.some.inj (hns₀.symm.trans (hin.ns.trans hns))
    exact extend_trackedAnnotations_congr hin (fun _ _ _ => rfl) _

theorem allCovered_patch {s s' : System} {ref : ObjectRef} {sts₀ : StatefulSet} (hs : AllCovered s)
    (h : step s (.patch ref sts₀) = some s') : AllCovered s' := by
  obtain ⟨annotations, hrun, href, ⟨hlive, rfl⟩ | rfl⟩ := step_patch h
  · intro ref' sts ns hsts hns
    have hc := hs ref' sts ns hsts hns
    by_cases hr : ref' = ref
    · subst hr
      cases hc with
      | awaited hw => exact .awaited (hw.mono (fun _ _ he => he) (fun _ he => he) id)
      | changes hr' hch =>
        obtain rfl := Option.some.inj (hrun.symm.trans hr')
        exact (hch hlive).elim
      | current hr' hcur =>
        obtain rfl := Option.some.inj (hrun.symm.trans hr')
        refine .upToDate (Function.update_self _ _ _) fun key => ?_
        rw [← hcur]
        exact ManagedMap.of_apply_eq hlive key
      | upToDate hr' => exact nomatch hrun.symm.trans hr'
    · exact hc.of_ne rfl (fun _ he => he) rfl (Function.update_of_ne hr _ _) rfl
  · exact allCovered_setLive href hs (fun ref' hr => Function.update_of_ne hr _ _) rfl

theorem allCovered_step {s s' : System} {l : Label} (hs : AllCovered s) (hok : KeepsTriggers s l)
    (h : step s l = some s') : AllCovered s' := by
  cases l with
  | emit kind event =>
    obtain rfl := Option.some.inj h
    exact allCovered_emit hs kind event
  | emitSts event =>
    obtain rfl := Option.some.inj h
    intro ref sts ns hsts hns
    exact (hs ref sts ns hsts hns).of_ne rfl (fun _ he => List.mem_append_left _ he) rfl rfl rfl
  | deliver kind => exact allCovered_deliver hs hok h
  | deliverSts => exact allCovered_deliverSts hs hok h
  | start ref => exact allCovered_start hs h
  | readConfigMaps ref => exact allCovered_readConfigMaps hs h
  | readSecrets ref => exact allCovered_readSecrets hs h
  | patch ref sts => exact allCovered_patch hs h
  | fail ref error =>
    obtain ⟨_, -, rfl⟩ := step_fail h
    intro ref' sts ns hsts hns
    by_cases hr : ref' = ref
    · subst hr
      exact .awaited (.pending (Function.update_self _ _ _))
    · exact (hs ref' sts ns hsts hns).of_ne rfl (fun _ he => he) (Function.update_of_ne hr _ _)
        (Function.update_of_ne hr _ _) rfl
  | write ref annotations sts =>
    obtain ⟨href, rfl⟩ := step_write h
    exact allCovered_setLive href hs (fun _ _ => rfl) rfl

/-- No configuration change is lost, in every run in which the end of a listing is delivered
only while every StatefulSet it makes a difference to has a request on its way, or a
reconcile that has yet to read the listing or will change the object. -/
theorem no_lost_change {live : ObjectRef → ManagedAnnotations} {ls : List Label} {s : System}
    (hok : Along step KeepsTriggers (System.new live) ls)
    (h : run step (System.new live) ls = some s) : NoLostChange s :=
  noLostChange_of_allCovered
    (hok.run_invariant (fun _ _ _ hs hok h => allCovered_step hs hok h)
      (fun _ _ _ hsts => nomatch hsts) h)

/-! ## Two runs -/

/-- Items of the watch of the ConfigMaps or the Secrets, each delivered as it is emitted. -/
def observeConfig (kind : Kind) (events : List (WatchEvent PartialObjectMeta)) : List Label :=
  events.flatMap fun event => [.emit kind event, .deliver kind]

/-- Items of the watch of the StatefulSets, each delivered as it is emitted. -/
def observeSts (events : List (WatchEvent StatefulSetGuard)) : List Label :=
  events.flatMap fun event => [.emitSts event, .deliverSts]

/-- A reconcile from the request to the apply. -/
def reconcileAll (ref : ObjectRef) (sts : StatefulSet) : List Label :=
  [.start ref, .readConfigMaps ref, .readSecrets ref, .patch ref sts]

def webRef : ObjectRef :=
  ⟨"web", some "prod"⟩

/-- A StatefulSet that mounts the ConfigMap `cfg`. -/
def web : StatefulSet :=
  mountsConfigMap "web" "prod" "cfg"

/-- The ConfigMap `cfg`, of a resource version. -/
def cfg (resourceVersion : String) : PartialObjectMeta :=
  ⟨⟨some "cfg", some "prod", some "u", some resourceVersion, none, none⟩⟩

/-- The first listings of all three watches. -/
def firstListings : List Label :=
  observeConfig .configMap [.init, .initApply (cfg "1"), .initDone] ++
    observeConfig .secret [.init, .initDone] ++
    observeSts [.init, .initApply (.ok web), .initDone]

theorem keepsTriggers_of_ne {s : System} {l : Label} (h : ∀ kind, l ≠ .deliver kind)
    (hsts : l ≠ .deliverSts) : KeepsTriggers s l :=
  ⟨fun kind _ hl => (h kind hl).elim, fun _ hl => (hsts hl).elim⟩

/-- Nothing is in the store, and what has been listed was requested. -/
theorem keepsTriggers_of_unpublished (requested : List ObjectRef) {s : System} {l : Label}
    (hp : ∀ ref, s.stses.reflector.published ref = none)
    (hb : ∀ ref, ref ∉ requested → s.stses.reflector.buffer ref = none)
    (hr : ∀ ref ∈ requested, s.pending ref = true) : KeepsTriggers s l := by
  refine ⟨fun _ _ _ _ ref _ _ hsts => ?_, fun _ _ _ ref _ hsts => ?_⟩
  · exact nomatch (hp ref).symm.trans hsts
  · by_cases hmem : ref ∈ requested
    · exact Or.inr (Or.inl (.pending (hr ref hmem)))
    · exact nomatch (hb ref hmem).symm.trans hsts

/-- No end of a listing is on its way. -/
structure Unlisted (s : System) : Prop where
  config : ∀ kind, .initDone ∉ (s.config kind).queue
  stses : .initDone ∉ s.stses.queue

theorem Unlisted.keepsTriggers {s : System} (hs : Unlisted s) (l : Label) : KeepsTriggers s l := by
  constructor
  · rintro kind queue rfl hq
    exact (hs.config kind (hq ▸ List.mem_cons_self)).elim
  · rintro queue rfl hq
    exact (hs.stses (hq ▸ List.mem_cons_self)).elim

theorem Unlisted.setLive {s : System} (hs : Unlisted s) (ref : ObjectRef)
    (annotations : ManagedAnnotations) (sts : StatefulSet) :
    Unlisted (s.setLive ref annotations sts) := by
  refine ⟨hs.config, fun hmem => ?_⟩
  rcases List.mem_append.1 hmem with hmem | hmem
  · exact hs.stses hmem
  · exact nomatch List.mem_singleton.1 hmem

/-- Only the API server ends a listing. -/
theorem Unlisted.of_step {s s' : System} {l : Label} (hs : Unlisted s)
    (hl : ∀ kind, l ≠ .emit kind .initDone) (hl' : l ≠ .emitSts .initDone)
    (h : step s l = some s') : Unlisted s' := by
  cases l with
  | emit kind event =>
    obtain rfl := Option.some.inj h
    refine ⟨fun kind' hmem => ?_, hs.stses⟩
    by_cases hk : kind' = kind
    · subst hk
      simp only [Function.update_self] at hmem
      rcases List.mem_append.1 hmem with hmem | hmem
      · exact hs.config kind' hmem
      · exact hl kind' (by rw [List.mem_singleton.1 hmem])
    · simp only [Function.update_of_ne hk] at hmem
      exact hs.config kind' hmem
  | emitSts event =>
    obtain rfl := Option.some.inj h
    refine ⟨hs.config, fun hmem => ?_⟩
    rcases List.mem_append.1 hmem with hmem | hmem
    · exact hs.stses hmem
    · exact hl' (by rw [List.mem_singleton.1 hmem])
  | deliver kind =>
    obtain ⟨event, queue, hq, rfl⟩ := step_deliver h
    refine ⟨fun kind' hmem => hs.config kind' ?_, hs.stses⟩
    by_cases hk : kind' = kind
    · subst hk
      simp only [Function.update_self] at hmem
      exact hq ▸ List.mem_cons_of_mem _ hmem
    · simpa only [Function.update_of_ne hk] using hmem
  | deliverSts =>
    obtain ⟨event, queue, hq, rfl⟩ := step_deliverSts h
    exact ⟨hs.config, fun hmem => hs.stses (hq ▸ List.mem_cons_of_mem _ hmem)⟩
  | start ref =>
    obtain ⟨-, -, rfl⟩ := step_start h
    exact ⟨hs.config, hs.stses⟩
  | readConfigMaps ref =>
    obtain ⟨_, _, _, _, rfl⟩ := step_readConfigMaps h
    exact ⟨hs.config, hs.stses⟩
  | readSecrets ref =>
    obtain ⟨_, _, _, _, _, rfl⟩ := step_readSecrets h
    exact ⟨hs.config, hs.stses⟩
  | patch ref sts =>
    obtain ⟨annotations, -, -, ⟨-, rfl⟩ | rfl⟩ := step_patch h
    · exact ⟨hs.config, hs.stses⟩
    · have hset := hs.setLive ref ((s.live ref).apply fieldManager annotations) sts
      exact ⟨hset.config, hset.stses⟩
  | fail ref error =>
    obtain ⟨_, -, rfl⟩ := step_fail h
    exact ⟨hs.config, hs.stses⟩
  | write ref annotations sts =>
    obtain ⟨-, rfl⟩ := step_write h
    exact hs.setLive ref annotations sts

/-- A run without a listing that comes to its end. -/
theorem Unlisted.along {s : System} {ls : List Label} (hs : Unlisted s)
    (hl : ∀ kind, .emit kind .initDone ∉ ls) (hl' : .emitSts .initDone ∉ ls) :
    Along step KeepsTriggers s ls := by
  have hlabels : Along step
      (fun _ l => (∀ kind, l ≠ .emit kind .initDone) ∧ l ≠ .emitSts .initDone) s ls :=
    along_of_forall fun l hmem _ =>
      ⟨fun kind he => hl kind (he ▸ hmem), fun he => hl' (he ▸ hmem)⟩
  exact along_of_invariant (fun _ _ _ hs hl h => Unlisted.of_step hs hl.1 hl.2 h)
    (fun _ l hs _ => Unlisted.keepsTriggers hs l) hs hlabels

/-- The annotations of nobody. -/
def unannotated : ObjectRef → ManagedAnnotations :=
  fun _ => ManagedMap.empty

/-- The object comes back from its apply, and is reconciled once more. -/
def reconciledTwice : List Label :=
  reconcileAll webRef web ++ [.deliverSts] ++ reconcileAll webRef web

theorem keepsTriggers_reconciledTwice :
    Along step KeepsTriggers (System.new unannotated) (firstListings ++ reconciledTwice) := by
  iterate 14
    refine ⟨keepsTriggers_of_unpublished [] (fun _ => rfl) (fun _ _ => rfl) nofun, ?_⟩
    rintro _ ⟨⟩
  refine ⟨keepsTriggers_of_ne nofun nofun, ?_⟩
  rintro _ ⟨⟩
  -- the listing of the StatefulSets ends, and they have been requested
  refine ⟨keepsTriggers_of_unpublished [webRef] (fun _ => rfl)
    (fun ref hr => Function.update_of_ne (fun h => hr (List.mem_singleton.2 h)) _ _)
    (fun ref hr => by rw [List.mem_singleton.1 hr]; rfl), ?_⟩
  rintro _ ⟨⟩
  exact Unlisted.along ⟨fun kind => by cases kind <;> exact List.not_mem_nil, List.not_mem_nil⟩
    (fun kind => by simp [reconciledTwice, reconcileAll]) (by simp [reconciledTwice, reconcileAll])

/-- Nothing is in the store, requested or under way but the object. -/
structure OnlyFor (ref : ObjectRef) (s : System) : Prop where
  stses : s.stses.Forall (guardRef · = ref)
  keyed : s.stses.reflector.Keyed guardRef
  pending : ∀ ref', ref' ≠ ref → s.pending ref' = false
  running : ∀ ref', ref' ≠ ref → s.running ref' = none

theorem onlyFor_new (ref : ObjectRef) (live : ObjectRef → ManagedAnnotations) :
    OnlyFor ref (System.new live) :=
  ⟨⟨fun _ hmem => (List.not_mem_nil hmem).elim, Reflector.forall_new⟩, Reflector.keyed_new,
    fun _ _ => rfl, fun _ _ => rfl⟩

/-- The label is not about another StatefulSet. -/
def Label.IsOf (ref : ObjectRef) : Label → Prop
  | .emitSts event => ∀ object, event.appliedObject = some object → guardRef object = ref
  | .write ref' _ _ => ref' = ref
  | _ => True

namespace OnlyFor

variable {ref ref' : ObjectRef} {s s' : System}

theorem published (h : OnlyFor ref s) (hr : ref' ≠ ref) :
    s.stses.reflector.published ref' = none := by
  refine Option.eq_none_iff_forall_ne_some.2 fun object ho => hr ?_
  rw [← h.keyed.published ref' object ho, h.stses.reflector.published ref' object ho]

/-- A reconcile is of the object. -/
theorem eq_of_running (h : OnlyFor ref s) {phase : Phase} (hr : s.running ref' = some phase) :
    ref' = ref := by
  by_contra hne
  rw [h.running ref' hne] at hr
  cases hr

theorem setRunning (h : OnlyFor ref s) (next : Option Phase) :
    OnlyFor ref { s with running := Function.update s.running ref next } :=
  ⟨h.stses, h.keyed, h.pending,
    fun ref' hr => (Function.update_of_ne hr _ _).trans (h.running ref' hr)⟩

theorem setLive (h : OnlyFor ref s) {sts : StatefulSet} (href : guardRef (.ok sts) = ref)
    (annotations : ManagedAnnotations) : OnlyFor ref (s.setLive ref annotations sts) :=
  ⟨h.stses.emit fun _ ho => Option.some.inj ho ▸ href, h.keyed, h.pending, h.running⟩

theorem of_step {l : Label} (h : OnlyFor ref s) (hl : l.IsOf ref) (hs : step s l = some s') :
    OnlyFor ref s' := by
  cases l with
  | emit kind event =>
    obtain rfl := Option.some.inj hs
    exact ⟨h.stses, h.keyed, h.pending, h.running⟩
  | emitSts event =>
    obtain rfl := Option.some.inj hs
    exact ⟨h.stses.emit hl, h.keyed, h.pending, h.running⟩
  | deliver kind =>
    obtain ⟨event, queue, -, rfl⟩ := step_deliver hs
    refine ⟨h.stses, h.keyed, fun ref' hr => ?_, h.running⟩
    simp [triggerAll, h.pending ref' hr, h.published hr]
  | deliverSts =>
    obtain ⟨event, queue, hq, rfl⟩ := step_deliverSts hs
    have hevent := h.stses.queue event (hq ▸ List.mem_cons_self)
    refine ⟨⟨fun event' hmem => h.stses.queue event' (hq ▸ List.mem_cons_of_mem _ hmem),
      h.stses.reflector.observe hevent⟩, h.keyed.observe event, fun ref' hr => ?_, h.running⟩
    cases ha : event.appliedObject with
    | none => simpa only [triggerSelf, ha] using h.pending ref' hr
    | some object =>
      simpa only [triggerSelf, ha, hevent object ha, Function.update_of_ne hr] using
        h.pending ref' hr
  | start ref' =>
    obtain ⟨hpending, -, rfl⟩ := step_start hs
    obtain rfl : ref' = ref := by
      by_contra hr
      rw [h.pending ref' hr] at hpending
      cases hpending
    refine ⟨h.stses, h.keyed, fun ref hr => ?_, fun ref hr => ?_⟩
    · exact (Function.update_of_ne hr _ _).trans (h.pending ref hr)
    · exact (beginReconcile_of_ne hr _ _).trans (h.running ref hr)
  | readConfigMaps ref' =>
    obtain ⟨_, _, hrun, -, rfl⟩ := step_readConfigMaps hs
    obtain rfl := h.eq_of_running hrun
    exact h.setRunning _
  | readSecrets ref' =>
    obtain ⟨_, _, _, hrun, -, rfl⟩ := step_readSecrets hs
    obtain rfl := h.eq_of_running hrun
    exact h.setRunning _
  | patch ref' sts =>
    obtain ⟨annotations, hrun, href, ⟨-, rfl⟩ | rfl⟩ := step_patch hs
    · obtain rfl := h.eq_of_running hrun
      exact h.setRunning _
    · obtain rfl := h.eq_of_running hrun
      exact (h.setLive href _).setRunning _
  | fail ref' error =>
    obtain ⟨_, hrun, rfl⟩ := step_fail hs
    obtain rfl := h.eq_of_running hrun
    refine ⟨h.stses, h.keyed, fun ref hr => ?_, fun ref hr => ?_⟩
    · exact (Function.update_of_ne hr _ _).trans (h.pending ref hr)
    · exact (Function.update_of_ne hr _ _).trans (h.running ref hr)
  | write ref' annotations sts =>
    obtain ⟨href, rfl⟩ := step_write hs
    obtain rfl : ref' = ref := hl
    exact h.setLive href annotations

theorem of_run {ls : List Label} (h : OnlyFor ref s) (hl : ∀ l ∈ ls, l.IsOf ref)
    (hs : run step s ls = some s') : OnlyFor ref s' := by
  have hlabels : Along step (fun _ l => Label.IsOf ref l) s ls :=
    along_of_forall fun l hmem _ => hl l hmem
  exact hlabels.run_invariant (fun _ _ _ h hl hs => OnlyFor.of_step h hl hs) h hs

end OnlyFor

/-- The object itself is neither requested nor under way, and no item is on its way. -/
def System.doneWith (ref : ObjectRef) (s : System) : Bool :=
  !s.pending ref && (s.running ref).isNone && s.stses.queue.isEmpty &&
    (s.config .configMap).queue.isEmpty && (s.config .secret).queue.isEmpty

theorem OnlyFor.quiescent {ref : ObjectRef} {s : System} (hs : OnlyFor ref s)
    (h : s.doneWith ref = true) : Quiescent s := by
  simp only [System.doneWith, Bool.and_eq_true, Bool.not_eq_true', Option.isNone_iff_eq_none,
    List.isEmpty_iff] at h
  obtain ⟨⟨⟨⟨hpending, hrunning⟩, hstses⟩, hcms⟩, hsecrets⟩ := h
  refine ⟨fun kind => by cases kind <;> assumption, hstses, fun ref' => ?_, fun ref' => ?_⟩
  · by_cases hr : ref' = ref
    · exact hr ▸ hpending
    · exact hs.pending ref' hr
  · by_cases hr : ref' = ref
    · exact hr ▸ hrunning
    · exact hs.running ref' hr

theorem isOf_reconciledTwice : ∀ l ∈ firstListings ++ reconciledTwice, l.IsOf webRef := by
  have hweb : guardRef (.ok web) = webRef := rfl
  simp [firstListings, reconciledTwice, observeConfig, observeSts, reconcileAll, Label.IsOf,
    WatchEvent.appliedObject, hweb]

/-- The StatefulSet is in the store. -/
def System.stores (ref : ObjectRef) (s : System) : Bool :=
  match s.stses.reflector.published ref with
  | some (.ok sts) => sts.metadata.ns.isSome
  | _ => false

/-- The listings are over before the first reconcile, and in the end nothing is left to do. -/
theorem no_lost_change_reconciledTwice :
    ∃ s, run step (System.new unannotated) (firstListings ++ reconciledTwice) = some s ∧
      Quiescent s ∧ s.stores webRef ∧ NoLostChange s := by
  obtain ⟨s, hs, hdone⟩ := (Option.any_eq_true _ _).1
    (show (run step (System.new unannotated) (firstListings ++ reconciledTwice)).any
      (fun s => s.doneWith webRef && s.stores webRef) from by decide +kernel)
  obtain ⟨hdone, hstores⟩ := Bool.and_eq_true_iff.1 hdone
  have honly := (onlyFor_new webRef unannotated).of_run isOf_reconciledTwice hs
  exact ⟨s, hs, honly.quiescent hdone, hstores, no_lost_change keepsTriggers_reconciledTwice hs⟩

/-- The ConfigMap has changed while its watch was broken. The reconcile that is requested when
the new listing comes to it runs before the listing is over. -/
def relisted : List Label :=
  firstListings ++ observeConfig .configMap [.init, .initApply (cfg "2")] ++
    reconcileAll webRef web ++ observeConfig .configMap [.initDone]

/-- The annotations of the old version of the ConfigMap. -/
def oldAnnotations : BTreeMap String String :=
  restarterMap web "prod" (singleStore ⟨"cfg", some "prod"⟩ "u" "1") fun _ => none

/-- An object has the annotations of the old version. -/
def annotatedBefore : ObjectRef → ManagedAnnotations :=
  fun _ => ManagedMap.empty.apply fieldManager oldAnnotations

theorem isOf_relisted : ∀ l ∈ relisted, l.IsOf webRef := by
  have hweb : guardRef (.ok web) = webRef := rfl
  simp [relisted, firstListings, observeConfig, observeSts, reconcileAll, Label.IsOf,
    WatchEvent.appliedObject, hweb]

/-- The object in the store is to have the annotation `new` for the ConfigMap `cfg`, and has
`old`. -/
def outdatedBy (old new : String) (s : System) : Bool :=
  match s.stses.reflector.published webRef with
  | some (.ok sts) =>
    decide (sts.metadata.ns = some "prod") &&
      decide ((s.live webRef).entries[annotationKey .configMap "cfg"]? = some old) &&
      decide ((restarterMap sts "prod" (s.config .configMap).reflector.published
        (s.config .secret).reflector.published)[annotationKey .configMap "cfg"]? = some new)
  | _ => false

theorem not_noLostChange_of_outdatedBy {old new : String} (hne : old ≠ new) {s : System}
    (hs : Quiescent s) (h : outdatedBy old new s = true) : ¬NoLostChange s := by
  unfold outdatedBy at h
  split at h
  · rename_i sts hsts
    simp only [Bool.and_eq_true, decide_eq_true_eq] at h
    obtain ⟨⟨hns, hold⟩, hnew⟩ := h
    intro hlost
    obtain ⟨annotations, ha, hlive⟩ := hlost hs webRef sts hsts (by rw [hns]; exact nofun)
    rw [getUpdatedRestarterAnnotations_ok hns] at ha
    obtain rfl := Except.ok.inj ha
    rcases hlive (annotationKey .configMap "cfg") with heq | ⟨hnone, -⟩
    · rw [hold, hnew] at heq
      exact hne (Option.some.inj heq)
    · exact nomatch hnew.symm.trans hnone
  · cases h

theorem lost_change_relisted :
    ¬∀ (live : ObjectRef → ManagedAnnotations) (ls : List Label) s,
      run step (System.new live) ls = some s → NoLostChange s := by
  intro h
  obtain ⟨s, hs, hdone⟩ := (Option.any_eq_true _ _).1
    (show (run step (System.new annotatedBefore) relisted).any
      (fun s => s.doneWith webRef && outdatedBy "u/1" "u/2" s) from by decide +kernel)
  obtain ⟨hdone, houtdated⟩ := Bool.and_eq_true_iff.1 hdone
  have honly := (onlyFor_new webRef annotatedBefore).of_run isOf_relisted hs
  exact not_noLostChange_of_outdatedBy (by decide) (honly.quiescent hdone) houtdated (h _ _ s hs)

end CommonsOperator.StatefulSetController
