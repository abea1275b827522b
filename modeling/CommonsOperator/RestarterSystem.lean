import CommonsOperator.Reflector
import CommonsOperator.ServerSideApply
import CommonsOperator.StatefulSetReconcile
import CommonsOperator.Transition

/-!
# The StatefulSet restarter

The system `start` sets up : a watch of the ConfigMaps and one of the Secrets, each item of
which that touches an object makes a request for every StatefulSet in the store
(`triggerAll`), the watch of the StatefulSets, which makes one for each object applied
(`triggerSelf`), and the applier, which runs the requests.

A reconcile reads the StatefulSet when it starts, the ConfigMap store and the Secret store
when it gets to them, and then sends its apply; other steps come between (`Phase`). With none
between, they are `reconcile` (`phases_eq_reconcile`). `live` has the annotations of the pod
template of each StatefulSet in the cluster, with their managers; an apply that changes them
makes the API server emit the StatefulSet on its watch.
-/

set_option linter.unusedSectionVars false

namespace CommonsOperator.StatefulSetController

open Transition

/-- `DeserializeGuard<StatefulSet>`. -/
abbrev StatefulSetGuard :=
  Except InvalidObject StatefulSet

/-- The reference to a StatefulSet, valid or not. -/
def guardRef : StatefulSetGuard → ObjectRef
  | .ok sts => ObjectRef.fromObj sts.metadata
  | .error invalid => ObjectRef.fromObj invalid.metadata

/-- The annotations of a pod template, with their managers. -/
abbrev ManagedAnnotations :=
  ManagedMap String String String

/-- How far a reconcile has come. -/
inductive Phase where
  /-- It has the StatefulSet. -/
  | started (sts : StatefulSet)
  /-- It has read the ConfigMaps. -/
  | readConfigMaps (sts : StatefulSet) (annotations : BTreeMap String String)
  /-- It has read the Secrets too, and has what it will send. -/
  | computed (annotations : BTreeMap String String)

structure System where
  /-- The watches of the ConfigMaps and of the Secrets. -/
  config : Kind → Watch ObjectRef PartialObjectMeta
  /-- The getters of the store get it, as some item was delivered. -/
  opened : Kind → Bool
  stses : Watch ObjectRef StatefulSetGuard
  /-- A reconcile was requested. -/
  pending : ObjectRef → Bool
  running : ObjectRef → Option Phase
  live : ObjectRef → ManagedAnnotations

/-- The operator has just started. -/
def System.new (live : ObjectRef → ManagedAnnotations) : System :=
  ⟨fun _ => Watch.new, fun _ => false, Watch.new, fun _ => false, fun _ => none, live⟩

inductive Label where
  /-- The API server emits an item on the watch of the ConfigMaps or the Secrets. -/
  | emit (kind : Kind) (event : WatchEvent PartialObjectMeta)
  /-- The API server emits an item on the watch of the StatefulSets. -/
  | emitSts (event : WatchEvent StatefulSetGuard)
  /-- An item of the watch of the ConfigMaps or the Secrets is delivered. -/
  | deliver (kind : Kind)
  /-- An item of the watch of the StatefulSets is delivered. -/
  | deliverSts
  /-- The applier runs a request. -/
  | start (ref : ObjectRef)
  | readConfigMaps (ref : ObjectRef)
  | readSecrets (ref : ObjectRef)
  /-- The apply succeeds, on the object that is now `sts`. -/
  | patch (ref : ObjectRef) (sts : StatefulSet)
  /-- The reconcile fails, and is requested again. -/
  | fail (ref : ObjectRef) (error : Error)
  /-- Somebody else writes annotations of the template, and the object is now `sts`. -/
  | write (ref : ObjectRef) (annotations : ManagedAnnotations) (sts : StatefulSet)

/-- `trigger_all` : an item that touches an object requests every StatefulSet in the store. -/
def triggerAll (event : WatchEvent PartialObjectMeta) (store : Store StatefulSetGuard)
    (pending : ObjectRef → Bool) : ObjectRef → Bool :=
  fun ref => pending ref || (event.touchedObject.isSome && (store ref).isSome)

/-- `trigger_self` : an item that applies a StatefulSet requests it. -/
def triggerSelf (event : WatchEvent StatefulSetGuard) (pending : ObjectRef → Bool) :
    ObjectRef → Bool :=
  match event.appliedObject with
  | some object => Function.update pending (guardRef object) true
  | none => pending

theorem triggerAll_of_touched {event : WatchEvent PartialObjectMeta} {object : PartialObjectMeta}
    (h : event.touchedObject = some object) {store : Store StatefulSetGuard} {ref : ObjectRef}
    {guard : StatefulSetGuard} (hs : store ref = some guard) (pending : ObjectRef → Bool) :
    triggerAll event store pending ref = true := by
  simp [triggerAll, h, hs]

theorem triggerAll_of_pending {pending : ObjectRef → Bool} {ref : ObjectRef}
    (h : pending ref = true) (event : WatchEvent PartialObjectMeta)
    (store : Store StatefulSetGuard) : triggerAll event store pending ref = true := by
  simp [triggerAll, h]

theorem triggerSelf_of_applied {event : WatchEvent StatefulSetGuard} {object : StatefulSetGuard}
    (h : event.appliedObject = some object) (pending : ObjectRef → Bool) :
    triggerSelf event pending (guardRef object) = true := by
  simp [triggerSelf, h]

theorem triggerSelf_of_pending {pending : ObjectRef → Bool} {ref : ObjectRef}
    (h : pending ref = true) (event : WatchEvent StatefulSetGuard) :
    triggerSelf event pending ref = true := by
  cases ha : event.appliedObject with
  | none => simp [triggerSelf, ha, h]
  | some object =>
    by_cases hr : ref = guardRef object
    · rw [hr, triggerSelf_of_applied ha]
    · simp [triggerSelf, ha, hr, h]

/-- The applier looks up the object of a request. Nothing runs for an object that is not
there, nor for one that is invalid, for which the error policy awaits a change. -/
def beginReconcile (store : Store StatefulSetGuard) (ref : ObjectRef)
    (running : ObjectRef → Option Phase) : ObjectRef → Option Phase :=
  match store ref with
  | some (.ok sts) => Function.update running ref (some (.started sts))
  | _ => running

theorem beginReconcile_self {store : Store StatefulSetGuard} {ref : ObjectRef} {sts : StatefulSet}
    (h : store ref = some (.ok sts)) (running : ObjectRef → Option Phase) :
    beginReconcile store ref running ref = some (.started sts) := by
  simp [beginReconcile, h]

theorem beginReconcile_of_ne {ref ref' : ObjectRef} (h : ref' ≠ ref)
    (store : Store StatefulSetGuard) (running : ObjectRef → Option Phase) :
    beginReconcile store ref running ref' = running ref' := by
  rcases hs : store ref with _ | (_ | sts) <;> simp [beginReconcile, hs, h]

/-- The annotations of an object in the cluster change, and its watch says so. -/
def System.setLive (s : System) (ref : ObjectRef) (annotations : ManagedAnnotations)
    (sts : StatefulSet) : System :=
  { s with
    live := Function.update s.live ref annotations
    stses := s.stses.emit (.apply (.ok sts)) }

/-- A manager applies annotations, with force. An apply that changes nothing is not emitted. -/
def System.applied (s : System) (ref : ObjectRef) (manager : String)
    (annotations : BTreeMap String String) (sts : StatefulSet) : System :=
  let applied := (s.live ref).apply manager annotations
  if applied = s.live ref then s else s.setLive ref applied sts

def step (s : System) : Label → Option System
  | .emit kind event =>
    some { s with config := Function.update s.config kind ((s.config kind).emit event) }
  | .emitSts event => some { s with stses := s.stses.emit event }
  | .deliver kind =>
    ((s.config kind).deliver objectRef).map fun (event, watch) =>
      { s with
        config := Function.update s.config kind watch
        opened := Function.update s.opened kind true
        pending := triggerAll event s.stses.reflector.published s.pending }
  | .deliverSts =>
    (s.stses.deliver guardRef).map fun (event, watch) =>
      { s with stses := watch, pending := triggerSelf event s.pending }
  | .start ref =>
    if s.stses.reflector.ready ∧ s.pending ref ∧ (s.running ref).isNone then
      some { s with
        pending := Function.update s.pending ref false
        running := beginReconcile s.stses.reflector.published ref s.running }
    else none
  | .readConfigMaps ref =>
    match s.running ref with
    | some (.started sts) =>
      if s.opened .configMap then
        sts.metadata.ns.map fun ns =>
          let annotations := BTreeMap.extend ∅
            (trackedAnnotations .configMap sts ns (s.config .configMap).reflector.published)
          { s with
            running := Function.update s.running ref (some (.readConfigMaps sts annotations)) }
      else none
    | _ => none
  | .readSecrets ref =>
    match s.running ref with
    | some (.readConfigMaps sts annotations) =>
      if s.opened .secret then
        sts.metadata.ns.map fun ns =>
          let annotations := BTreeMap.extend annotations
            (trackedAnnotations .secret sts ns (s.config .secret).reflector.published)
          { s with running := Function.update s.running ref (some (.computed annotations)) }
      else none
    | _ => none
  | .patch ref sts =>
    match s.running ref with
    | some (.computed annotations) =>
      if guardRef (.ok sts) = ref then
        some { s.applied ref fieldManager annotations sts with
          running := Function.update s.running ref none }
      else none
    | _ => none
  | .fail ref error =>
    match s.running ref, errorPolicy error with
    | some _, .requeue _ =>
      some { s with
        running := Function.update s.running ref none
        pending := Function.update s.pending ref true }
    | _, _ => none
  | .write ref annotations sts =>
    if guardRef (.ok sts) = ref then some (s.setLive ref annotations sts) else none

/-! ## What a step does -/

theorem step_deliver {s s' : System} {kind : Kind} (h : step s (.deliver kind) = some s') :
    ∃ event queue, (s.config kind).queue = event :: queue ∧
      s' = { s with
        config := Function.update s.config kind
          ⟨queue, (s.config kind).reflector.observe objectRef event⟩
        opened := Function.update s.opened kind true
        pending := triggerAll event s.stses.reflector.published s.pending } := by
  obtain ⟨⟨event, watch⟩, hd, rfl⟩ := Option.map_eq_some_iff.1 h
  obtain ⟨queue, hq, rfl⟩ := Watch.deliver_eq_some.1 hd
  exact ⟨event, queue, hq, rfl⟩

theorem step_deliverSts {s s' : System} (h : step s .deliverSts = some s') :
    ∃ event queue, s.stses.queue = event :: queue ∧
      s' = { s with
        stses := ⟨queue, s.stses.reflector.observe guardRef event⟩
        pending := triggerSelf event s.pending } := by
  obtain ⟨⟨event, watch⟩, hd, rfl⟩ := Option.map_eq_some_iff.1 h
  obtain ⟨queue, hq, rfl⟩ := Watch.deliver_eq_some.1 hd
  exact ⟨event, queue, hq, rfl⟩

theorem step_start {s s' : System} {ref : ObjectRef} (h : step s (.start ref) = some s') :
    s.pending ref = true ∧ s.running ref = none ∧
      s' = { s with
        pending := Function.update s.pending ref false
        running := beginReconcile s.stses.reflector.published ref s.running } := by
  simp only [step, Option.ite_none_right_eq_some, Option.some.injEq,
    Option.isNone_iff_eq_none] at h
  exact ⟨h.1.2.1, h.1.2.2, h.2.symm⟩

theorem step_readConfigMaps {s s' : System} {ref : ObjectRef}
    (h : step s (.readConfigMaps ref) = some s') :
    ∃ sts ns, s.running ref = some (.started sts) ∧ sts.metadata.ns = some ns ∧
      s' = { s with
        running := Function.update s.running ref (some (.readConfigMaps sts
          (BTreeMap.extend ∅ (trackedAnnotations .configMap sts ns
            (s.config .configMap).reflector.published)))) } := by
  simp only [step] at h
  split at h
  · rename_i sts hr
    simp only [Option.ite_none_right_eq_some, Option.map_eq_some_iff] at h
    obtain ⟨-, ns, hns, rfl⟩ := h
    exact ⟨sts, ns, hr, hns, rfl⟩
  · cases h

theorem step_readSecrets {s s' : System} {ref : ObjectRef}
    (h : step s (.readSecrets ref) = some s') :
    ∃ sts annotations ns, s.running ref = some (.readConfigMaps sts annotations) ∧
      sts.metadata.ns = some ns ∧
      s' = { s with
        running := Function.update s.running ref (some (.computed (BTreeMap.extend annotations
          (trackedAnnotations .secret sts ns (s.config .secret).reflector.published)))) } := by
  simp only [step] at h
  split at h
  · rename_i sts annotations hr
    simp only [Option.ite_none_right_eq_some, Option.map_eq_some_iff] at h
    obtain ⟨-, ns, hns, rfl⟩ := h
    exact ⟨sts, annotations, ns, hr, hns, rfl⟩
  · cases h

theorem step_patch {s s' : System} {ref : ObjectRef} {sts : StatefulSet}
    (h : step s (.patch ref sts) = some s') :
    ∃ annotations, s.running ref = some (.computed annotations) ∧ guardRef (.ok sts) = ref ∧
      (((s.live ref).apply fieldManager annotations = s.live ref ∧
          s' = { s with running := Function.update s.running ref none }) ∨
        s' = { s.setLive ref ((s.live ref).apply fieldManager annotations) sts with
          running := Function.update s.running ref none }) := by
  simp only [step, System.applied] at h
  split at h
  · rename_i annotations hr
    simp only [Option.ite_none_right_eq_some, Option.some.injEq] at h
    obtain ⟨href, h⟩ := h
    refine ⟨annotations, hr, href, ?_⟩
    split at h
    · rename_i he
      exact Or.inl ⟨he, h.symm⟩
    · exact Or.inr h.symm
  · cases h

theorem step_fail {s s' : System} {ref : ObjectRef} {error : Error}
    (h : step s (.fail ref error) = some s') :
    ∃ phase, s.running ref = some phase ∧
      s' = { s with
        running := Function.update s.running ref none
        pending := Function.update s.pending ref true } := by
  simp only [step] at h
  split at h
  · rename_i phase _ hr _
    exact ⟨phase, hr, (Option.some.inj h).symm⟩
  · cases h

theorem step_write {s s' : System} {ref : ObjectRef} {annotations : ManagedAnnotations}
    {sts : StatefulSet} (h : step s (.write ref annotations sts) = some s') :
    guardRef (.ok sts) = ref ∧ s' = s.setLive ref annotations sts := by
  simp only [step, Option.ite_none_right_eq_some, Option.some.injEq] at h
  exact ⟨h.1, h.2.symm⟩

/-! ## The phases and the reconciler -/

/-- What the reconcilers read. -/
def System.ctx (s : System) : Ctx :=
  ⟨.ok (s.config .configMap).reflector.published, .ok (s.config .secret).reflector.published⟩

/-- The API server serves the request of a reconcile, on the object that is now `sts`. -/
def System.servePatch (sts : StatefulSet) (request : PatchRequest) :
    StateM System (Except String Unit) := fun s =>
  match request.params.fieldManager with
  | some manager =>
    (.ok (), s.applied ⟨request.name, some request.ns⟩ manager request.apply.annotations sts)
  | none => (.error "a field manager is required", s)

theorem applied_setRunning (s : System) (running : ObjectRef → Option Phase) (ref : ObjectRef)
    (manager : String) (annotations : BTreeMap String String) (sts : StatefulSet) :
    ({ s with running } : System).applied ref manager annotations sts =
      { s.applied ref manager annotations sts with running } := by
  unfold System.applied
  dsimp only
  split <;> rfl

/-- The phases of a reconcile with no other step between them do what `reconcile` does. -/
theorem phases_eq_reconcile {s t : System} {ref : ObjectRef} {sts sts' : StatefulSet}
    (hr : s.running ref = some (.started sts)) (hname : sts.metadata.name = some ref.name)
    (hns : sts.metadata.ns = ref.ns)
    (h : run step s [.readConfigMaps ref, .readSecrets ref, .patch ref sts'] = some t) :
    ∃ u, (reconcile (.ok sts) s.ctx (System.servePatch sts')).exec s = (.ok .awaitChange, u) ∧
      t = { u with running := Function.update s.running ref none } := by
  simp only [run_cons_eq_some, run_nil, Option.some.injEq] at h
  obtain ⟨_, hcms, _, hsecrets, _, hpatch, rfl⟩ := h
  obtain ⟨_, ns, hstarted, hns', rfl⟩ := step_readConfigMaps hcms
  obtain rfl := Phase.started.inj (Option.some.inj (hr.symm.trans hstarted))
  obtain ⟨sts₁, annotations, ns₁, hread, hns₁, rfl⟩ := step_readSecrets hsecrets
  simp only [Function.update_self, Option.some.injEq, Phase.readConfigMaps.injEq] at hread
  obtain ⟨rfl, rfl⟩ := hread
  obtain rfl : ns₁ = ns := Option.some.inj (hns₁.symm.trans hns')
  have hannotations := getUpdatedRestarterAnnotations_ok hns'
    (s.config .configMap).reflector.published (s.config .secret).reflector.published
  have hrequest := reconcileRequest_eq_ok.2 ⟨ns₁, ref.name, _, hns', hname, hannotations, rfl⟩
  refine ⟨_, exec_reconcile_eq_ok.2 ⟨sts, _, rfl, hrequest, rfl, rfl, rfl⟩, ?_⟩
  have href : (⟨ref.name, some ns₁⟩ : ObjectRef) = ref := by rw [← hns', hns]
  simp only [step, Function.update_self, Option.ite_none_right_eq_some, Option.some.injEq] at hpatch
  rw [← hpatch.2, applied_setRunning]
  simp only [System.servePatch, StateT.run, href, Function.update_idem]
  rfl

end CommonsOperator.StatefulSetController
