import CommonsOperator.PodReconcile
import CommonsOperator.Reflector
import CommonsOperator.Transition

/-!
# The Pod restarter

The Pods of the cluster, the watch that lags behind them, the clock, and the reconciles of the
Pod controller. A reconcile takes the Pod from the store (`start`), decides by the clock
(`decide`), and waits for an answer if it sends an eviction. The API server may accept the
request as long as the reconcile waits for it, and the answer may be lost after that. A
reconcile that fails is run again five seconds later, on what is in the store then.

A StatefulSet recreates its Pods under their names, and the request names no uid, so the
eviction decided for one Pod may hit its successor. `evicts_only_expired` : whenever the
eviction hits the Pod that was read, that Pod has expired, as long as Pods keep the expiry
annotations they were created with.
-/

set_option linter.unusedSectionVars false

namespace CommonsOperator.PodController

open Transition

/-- How far a reconcile has come with a Pod. -/
inductive Phase where
  /-- It has the Pod. -/
  | started (pod : PartialObjectMeta)
  /-- It has sent its request. -/
  | sent (pod : PartialObjectMeta) (request : EvictRequest)
  /-- The API server has accepted the request, and the answer is on its way. -/
  | accepted (pod : PartialObjectMeta)

/-- The Pod as it was read. -/
def Phase.pod : Phase → PartialObjectMeta
  | started pod => pod
  | sent pod _ => pod
  | accepted pod => pod

structure System where
  now : Int
  pods : List PartialObjectMeta
  /-- The annotations of all Pods created so far, by their uids. -/
  instances : String → Option (Option (BTreeMap String String))
  watch : Watch ObjectRef PartialObjectMeta
  /-- When a Pod is to be reconciled. -/
  scheduled : ObjectRef → Option Int
  running : ObjectRef → Option Phase

namespace System

/-- The operator has just started, and there are no Pods. -/
def new (now : Int) : System :=
  ⟨now, [], fun _ => none, Watch.new, fun _ => none, fun _ => none⟩

/-- The Pod that has the name. -/
def live (s : System) (ref : ObjectRef) : Option PartialObjectMeta :=
  s.pods.find? fun pod => objectRef pod = ref

/-- The Pod that the eviction of a reconcile hits if it is accepted now. -/
def hit (s : System) (ref : ObjectRef) : Option PartialObjectMeta :=
  match s.running ref with
  | some (.sent _ request) => (s.live request.target).filter request.admits
  | _ => none

/-- The item is emitted on the watch. -/
def emit (s : System) (event : WatchEvent PartialObjectMeta) : System :=
  { s with watch := s.watch.emit event }

/-- The items are emitted on the watch, in order. -/
def emitAll (s : System) (events : List (WatchEvent PartialObjectMeta)) : System :=
  events.foldl emit s

/-- A Pod that is to terminate. -/
def terminating (timestamp : String) (pod : PartialObjectMeta) : PartialObjectMeta :=
  { pod with metadata := { pod.metadata with
    deletionTimestamp := some (pod.metadata.deletionTimestamp.getD timestamp) } }

/-- A Pod with other annotations. -/
def annotated (annotations : Option (BTreeMap String String)) (pod : PartialObjectMeta) :
    PartialObjectMeta :=
  { pod with metadata := { pod.metadata with annotations } }

/-- A Pod is changed in place, and the watch tells of it. -/
def change (s : System) (f : PartialObjectMeta → PartialObjectMeta) (pod : PartialObjectMeta) :
    System :=
  { s with
    pods := s.pods.map fun pod' => if objectRef pod' = objectRef pod then f pod' else pod'
    watch := s.watch.emit (.apply (f pod)) }

/-- The deletion of a Pod begins, or goes on. -/
def terminate (s : System) (timestamp : String) (pod : PartialObjectMeta) : System :=
  s.change (terminating timestamp) pod

/-- Of two times a Pod is scheduled for, the earlier one counts. -/
def schedule (s : System) (ref : ObjectRef) (time : Int) : System :=
  { s with
    scheduled := Function.update s.scheduled ref (some ((s.scheduled ref).elim time (min time))) }

/-- A reconcile is over. -/
def finish (s : System) (ref : ObjectRef) (action : Action) : System :=
  let s := { s with running := Function.update s.running ref none }
  match action with
  | .awaitChange => s
  | .requeue nanoseconds => s.schedule ref (s.now + nanoseconds)

end System

inductive Label where
  /-- Time passes, in nanoseconds. -/
  | tick (nanoseconds : Nat)
  /-- A Pod is created, under a name that is free. -/
  | create (pod : PartialObjectMeta)
  /-- Somebody changes the annotations of a Pod. -/
  | annotate (ref : ObjectRef) (annotations : Option (BTreeMap String String))
  /-- Somebody deletes a Pod. -/
  | delete (ref : ObjectRef) (timestamp : String)
  /-- A Pod is gone. -/
  | remove (ref : ObjectRef)
  /-- The watch lists the Pods again. -/
  | relist
  /-- An item of the watch is delivered. -/
  | deliver
  /-- The applier runs what is scheduled. -/
  | start (ref : ObjectRef)
  | decide (ref : ObjectRef)
  /-- The API server accepts the eviction. -/
  | accept (ref : ObjectRef) (timestamp : String)
  /-- The answer arrives. -/
  | succeed (ref : ObjectRef)
  /-- The request was refused, or it or its answer was lost. -/
  | fail (ref : ObjectRef) (message : String)

variable (parse : String → Except String DateTime)

def step (s : System) : Label → Option System
  | .tick nanoseconds => some { s with now := s.now + nanoseconds }
  | .create pod =>
    match pod.metadata.uid with
    | none => none
    | some uid =>
      if (s.live (objectRef pod)).isNone ∧ (s.instances uid).isNone then
        some ({ s with
          pods := s.pods ++ [pod]
          instances := Function.update s.instances uid (some pod.metadata.annotations) }.emit
            (.apply pod))
      else none
  | .annotate ref annotations => (s.live ref).map fun pod =>
      s.change (System.annotated annotations) pod
  | .delete ref timestamp => (s.live ref).map fun pod => s.terminate timestamp pod
  | .remove ref =>
    (s.live ref).map fun pod =>
      { s with pods := s.pods.filter fun pod' => objectRef pod' ≠ ref }.emit (.delete pod)
  | .relist => some (s.emitAll (.init :: s.pods.map .initApply ++ [.initDone]))
  | .deliver =>
    (s.watch.deliver objectRef).map fun (event, watch) =>
      let s := { s with watch }
      match event.appliedObject with
      | some pod => s.schedule (objectRef pod) s.now
      | none => s
  | .start ref =>
    if s.watch.reflector.ready ∧ (s.scheduled ref).any (· ≤ s.now) ∧ (s.running ref).isNone then
      some { s with
        scheduled := Function.update s.scheduled ref none
        running := Function.update s.running ref
          ((s.watch.reflector.published ref).map Phase.started) }
    else none
  | .decide ref =>
    match s.running ref with
    | some (.started pod) =>
      match decision parse s.now pod with
      | .ok (.evict request) =>
        some { s with running := Function.update s.running ref (some (.sent pod request)) }
      | .ok (.finish action) => some (s.finish ref action)
      | .error error => some (s.finish ref (errorPolicy error))
    | _ => none
  | .accept ref timestamp =>
    match s.running ref, s.hit ref with
    | some phase, some pod =>
      some { s.terminate timestamp pod with
        running := Function.update s.running ref (some (.accepted phase.pod)) }
    | _, _ => none
  | .succeed ref =>
    match s.running ref with
    | some (.accepted _) => some (s.finish ref .awaitChange)
    | _ => none
  | .fail ref message =>
    match s.running ref with
    | some (.sent _ _) => some (s.finish ref (errorPolicy (.evictPod message)))
    | some (.accepted _) => some (s.finish ref (errorPolicy (.evictPod message)))
    | _ => none

/-! ## The property and the condition -/

/-- An eviction that is accepted hits a Pod that has expired. -/
def EvictsExpired (s : System) (l : Label) : Prop :=
  ∀ ref timestamp pod, l = .accept ref timestamp → s.hit ref = some pod →
    Expired parse s.now pod.metadata.annotations

/-- An eviction that is accepted hits the Pod that was read. -/
def HitsSameInstance (s : System) (l : Label) : Prop :=
  ∀ ref timestamp phase pod, l = .accept ref timestamp → s.running ref = some phase →
    s.hit ref = some pod → phase.pod.metadata.uid = pod.metadata.uid

/-- A change in place keeps the expiry annotations of the Pod. -/
def KeepsExpiry (s : System) (l : Label) : Prop :=
  ∀ ref annotations, l = .annotate ref annotations → ∀ pod ∈ s.pods, objectRef pod = ref →
    expiryAnnotations annotations = expiryAnnotations pod.metadata.annotations

/-! ## The invariant -/

/-- The Pod is one that was created, with the expiry annotations it was created with. -/
def Known (instances : String → Option (Option (BTreeMap String String)))
    (pod : PartialObjectMeta) : Prop :=
  ∃ uid annotations, pod.metadata.uid = some uid ∧ instances uid = some annotations ∧
    expiryAnnotations pod.metadata.annotations = expiryAnnotations annotations

/-- Pods with the same uid have the same expiry annotations. -/
theorem Known.expiryAnnotations_eq {instances : String → Option (Option (BTreeMap String String))}
    {pod pod' : PartialObjectMeta} (h : Known instances pod) (h' : Known instances pod')
    (huid : pod.metadata.uid = pod'.metadata.uid) :
    expiryAnnotations pod.metadata.annotations = expiryAnnotations pod'.metadata.annotations := by
  obtain ⟨uid, annotations, hu, hi, he⟩ := h
  obtain ⟨uid', annotations', hu', hi', he'⟩ := h'
  obtain rfl := Option.some.inj (hu.symm.trans (huid.trans hu'))
  obtain rfl := Option.some.inj (hi.symm.trans hi')
  rw [he, he']

theorem known_update {instances : String → Option (Option (BTreeMap String String))} {uid : String}
    (hfresh : instances uid = none) (annotations : Option (BTreeMap String String))
    {pod : PartialObjectMeta} (h : Known instances pod) :
    Known (Function.update instances uid (some annotations)) pod := by
  obtain ⟨uid', annotations', hu, hi, he⟩ := h
  refine ⟨uid', annotations', hu, ?_, he⟩
  rw [Function.update_of_ne, hi]
  rintro rfl
  exact nomatch hfresh.symm.trans hi

theorem known_terminating {instances : String → Option (Option (BTreeMap String String))}
    {pod : PartialObjectMeta} (h : Known instances pod) (timestamp : String) :
    Known instances (System.terminating timestamp pod) :=
  h

variable {parse}

/-- The Pod of a reconcile was created, and has expired if its eviction was sent. -/
structure PhaseInv (parse : String → Except String DateTime) (now : Int)
    (instances : String → Option (Option (BTreeMap String String))) (phase : Phase) : Prop where
  known : Known instances phase.pod
  expired : ∀ pod request, phase = .sent pod request → Expired parse now pod.metadata.annotations

structure Inv (parse : String → Except String DateTime) (s : System) : Prop where
  pods : ∀ pod ∈ s.pods, Known s.instances pod
  watch : s.watch.Forall (Known s.instances)
  running : ∀ ref phase, s.running ref = some phase → PhaseInv parse s.now s.instances phase

theorem inv_new (now : Int) : Inv parse (System.new now) :=
  ⟨fun _ h => (nomatch h), ⟨fun _ h => (nomatch h), Reflector.forall_new⟩, fun _ _ h => (nomatch h)⟩

section

variable {s : System}

theorem Inv.known_live (hs : Inv parse s) {ref : ObjectRef} {pod : PartialObjectMeta}
    (h : s.live ref = some pod) : Known s.instances pod :=
  hs.pods pod (List.mem_of_find?_eq_some h)

theorem live_of_hit {ref : ObjectRef} {pod : PartialObjectMeta} (h : s.hit ref = some pod) :
    ∃ read request, s.running ref = some (.sent read request) ∧
      s.live request.target = some pod := by
  unfold System.hit at h
  split at h
  · rename_i read request hr
    exact ⟨read, request, hr, (Option.filter_eq_some_iff.1 h).1⟩
  · cases h

theorem Inv.emit (hs : Inv parse s) {event : WatchEvent PartialObjectMeta}
    (he : ∀ pod, event.appliedObject = some pod → Known s.instances pod) :
    Inv parse (s.emit event) :=
  ⟨hs.pods, hs.watch.emit he, hs.running⟩

theorem Inv.emitAll {events : List (WatchEvent PartialObjectMeta)} (hs : Inv parse s)
    (he : ∀ event ∈ events, ∀ pod, event.appliedObject = some pod → Known s.instances pod) :
    Inv parse (s.emitAll events) := by
  induction events generalizing s with
  | nil => exact hs
  | cons event events ih =>
    exact ih (hs.emit (he event List.mem_cons_self)) fun event' h =>
      he event' (List.mem_cons_of_mem _ h)

theorem Inv.schedule (hs : Inv parse s) (ref : ObjectRef) (time : Int) :
    Inv parse (s.schedule ref time) :=
  ⟨hs.pods, hs.watch, hs.running⟩

theorem Inv.setRunning (hs : Inv parse s) (ref : ObjectRef) {x : Option Phase}
    (hx : ∀ phase, x = some phase → PhaseInv parse s.now s.instances phase) :
    Inv parse { s with running := Function.update s.running ref x } := by
  refine ⟨hs.pods, hs.watch, fun ref' phase h => ?_⟩
  simp only [Function.update_apply] at h
  split at h
  · exact hx phase h
  · exact hs.running ref' phase h

theorem Inv.finish (hs : Inv parse s) (ref : ObjectRef) (action : Action) :
    Inv parse (s.finish ref action) := by
  have hs' := hs.setRunning ref (x := none) fun _ h => nomatch h
  cases action with
  | awaitChange => exact hs'
  | requeue nanoseconds => exact hs'.schedule ref _

/-- A change in place that keeps what is known of the Pod. -/
theorem Inv.change (hs : Inv parse s) {f : PartialObjectMeta → PartialObjectMeta}
    {pod : PartialObjectMeta} (hpod : Known s.instances (f pod))
    (hf : ∀ pod' ∈ s.pods, objectRef pod' = objectRef pod → Known s.instances (f pod')) :
    Inv parse (s.change f pod) := by
  refine ⟨fun pod' h => ?_, hs.watch.emit fun pod' h => ?_, hs.running⟩
  · obtain ⟨pod'', hmem, rfl⟩ := List.mem_map.1 h
    split
    · rename_i href
      exact hf pod'' hmem href
    · exact hs.pods pod'' hmem
  · obtain rfl := Option.some.inj h
    exact hpod

theorem Inv.terminate (hs : Inv parse s) (timestamp : String) {pod : PartialObjectMeta}
    (hpod : Known s.instances pod) : Inv parse (s.terminate timestamp pod) :=
  hs.change (known_terminating hpod timestamp) fun pod' hmem _ =>
    known_terminating (hs.pods pod' hmem) timestamp

theorem Inv.annotate (hs : Inv parse s) {annotations : Option (BTreeMap String String)}
    {ref : ObjectRef} {pod : PartialObjectMeta} (hlive : s.live ref = some pod)
    (hkeep : KeepsExpiry s (.annotate ref annotations)) :
    Inv parse (s.change (System.annotated annotations) pod) := by
  have href : objectRef pod = ref := Watch.key_of_lookup hlive
  have hannotated : ∀ pod' ∈ s.pods, objectRef pod' = ref →
      Known s.instances (System.annotated annotations pod') := by
    intro pod' hmem href'
    obtain ⟨uid, created, hu, hi, he⟩ := hs.pods pod' hmem
    exact ⟨uid, created, hu, hi, (hkeep ref annotations rfl pod' hmem href').trans he⟩
  exact hs.change (hannotated pod (List.mem_of_find?_eq_some hlive) href) fun pod' hmem h =>
    hannotated pod' hmem (h.trans href)

theorem Inv.create (hs : Inv parse s) {pod : PartialObjectMeta} {uid : String}
    (huid : pod.metadata.uid = some uid) (hfresh : s.instances uid = none) :
    Inv parse ({ s with
      pods := s.pods ++ [pod]
      instances := Function.update s.instances uid (some pod.metadata.annotations) }.emit
        (.apply pod)) := by
  have hknown : Known (Function.update s.instances uid (some pod.metadata.annotations)) pod :=
    ⟨uid, _, huid, Function.update_self _ _ _, rfl⟩
  refine Inv.emit ⟨fun pod' h => ?_, ?_, fun ref phase h => ?_⟩ ?_
  · rcases List.mem_append.1 h with h | h
    · exact known_update hfresh _ (hs.pods pod' h)
    · obtain rfl := List.mem_singleton.1 h
      exact hknown
  · exact hs.watch.mono fun _ h => known_update hfresh _ h
  · exact ⟨known_update hfresh _ (hs.running ref phase h).known, (hs.running ref phase h).expired⟩
  · intro pod' h
    obtain rfl := Option.some.inj h
    exact hknown

/-- A reconcile that goes on sends an eviction only if the Pod it has read has expired. -/
theorem Inv.decide (hs : Inv parse s) {ref : ObjectRef} {pod : PartialObjectMeta}
    {request : EvictRequest} (hr : s.running ref = some (.started pod))
    (hd : decision parse s.now pod = .ok (.evict request)) :
    Inv parse { s with running := Function.update s.running ref (some (.sent pod request)) } := by
  refine hs.setRunning ref fun phase h => ?_
  obtain rfl := Option.some.inj h
  refine ⟨(hs.running ref _ hr).known, fun pod' request' h => ?_⟩
  obtain ⟨rfl, -⟩ := Phase.sent.inj h
  exact (decision_eq_evict hd).2.1

end

theorem inv_step {s s' : System} {l : Label} (hs : Inv parse s) (hkeep : KeepsExpiry s l)
    (h : step parse s l = some s') : Inv parse s' := by
  cases l with
  | tick nanoseconds =>
    obtain rfl := Option.some.inj h
    refine ⟨hs.pods, hs.watch, fun ref phase hr => ⟨(hs.running ref phase hr).known, ?_⟩⟩
    intro pod request hphase
    have hle : s.now ≤ s.now + nanoseconds := by omega
    exact ((hs.running ref phase hr).expired pod request hphase).mono hle
  | create pod =>
    simp only [step] at h
    split at h
    · cases h
    · rename_i uid huid
      simp only [Option.ite_none_right_eq_some, Option.some.injEq, Option.isNone_iff_eq_none] at h
      obtain ⟨⟨-, hfresh⟩, rfl⟩ := h
      exact hs.create huid hfresh
  | annotate ref annotations =>
    obtain ⟨pod, hpod, rfl⟩ := Option.map_eq_some_iff.1 h
    exact hs.annotate hpod hkeep
  | delete ref timestamp =>
    obtain ⟨pod, hpod, rfl⟩ := Option.map_eq_some_iff.1 h
    exact hs.terminate timestamp (hs.known_live hpod)
  | remove ref =>
    obtain ⟨pod, hpod, rfl⟩ := Option.map_eq_some_iff.1 h
    have hs' : Inv parse
        { s with pods := s.pods.filter fun pod' => objectRef pod' ≠ ref } :=
      ⟨fun pod' h => hs.pods pod' (List.mem_filter.1 h).1, hs.watch, hs.running⟩
    exact hs'.emit fun _ h => nomatch h
  | relist =>
    obtain rfl := Option.some.inj h
    refine hs.emitAll fun event hmem pod hpod => ?_
    simp only [List.cons_append, List.mem_cons, List.mem_append, List.mem_map, List.not_mem_nil,
      or_false] at hmem
    rcases hmem with rfl | ⟨pod', hmem, rfl⟩ | rfl
    · cases hpod
    · obtain rfl := Option.some.inj hpod
      exact hs.pods _ hmem
    · cases hpod
  | deliver =>
    obtain ⟨⟨event, watch⟩, hd, rfl⟩ := Option.map_eq_some_iff.1 h
    have hs' : Inv parse { s with watch } := ⟨hs.pods, hs.watch.deliver hd, hs.running⟩
    dsimp only
    split
    · exact hs'.schedule _ _
    · exact hs'
  | start ref =>
    simp only [step, Option.ite_none_right_eq_some, Option.some.injEq] at h
    obtain ⟨-, rfl⟩ := h
    refine Inv.setRunning (s := { s with scheduled := Function.update s.scheduled ref none })
      ⟨hs.pods, hs.watch, hs.running⟩ ref fun phase h => ?_
    obtain ⟨pod, hpod, rfl⟩ := Option.map_eq_some_iff.1 h
    exact ⟨hs.watch.reflector.published ref pod hpod, fun _ _ h => nomatch h⟩
  | decide ref =>
    simp only [step] at h
    split at h
    · rename_i pod hr
      split at h
      · rename_i request hd
        obtain rfl := Option.some.inj h
        exact hs.decide hr hd
      · obtain rfl := Option.some.inj h
        exact hs.finish ref _
      · obtain rfl := Option.some.inj h
        exact hs.finish ref _
    · cases h
  | accept ref timestamp =>
    simp only [step] at h
    split at h
    · rename_i phase pod hr hhit
      obtain rfl := Option.some.inj h
      obtain ⟨_, _, -, hlive⟩ := live_of_hit hhit
      refine (hs.terminate timestamp (hs.known_live hlive)).setRunning ref fun phase' h => ?_
      obtain rfl := Option.some.inj h
      exact ⟨(hs.running ref phase hr).known, fun _ _ h => nomatch h⟩
    · cases h
  | succeed ref =>
    simp only [step] at h
    split at h
    · obtain rfl := Option.some.inj h
      exact hs.finish ref _
    · cases h
  | fail ref message =>
    simp only [step] at h
    split at h
    · obtain rfl := Option.some.inj h
      exact hs.finish ref _
    · obtain rfl := Option.some.inj h
      exact hs.finish ref _
    · cases h

/-- The Pod that was read has expired, and one with the same uid has its expiry annotations. -/
theorem evictsExpired_of_sameInstance {s : System} (hs : Inv parse s) {l : Label}
    (hl : HitsSameInstance s l) : EvictsExpired parse s l := by
  intro ref timestamp pod hl' hhit
  obtain ⟨read, request, hr, hlive⟩ := live_of_hit hhit
  have hread := hs.running ref _ hr
  have huid := hl ref timestamp _ pod hl' hr hhit
  unfold Expired
  rw [← hread.known.expiryAnnotations_eq (hs.known_live hlive) huid]
  exact hread.expired read request rfl

/-- Evictions of the Pods that were read. Let Pods keep their expiry annotations. In every run in
which each eviction that is accepted hits the Pod the reconcile has read, each hits a Pod that has
expired. -/
theorem evicts_only_expired {now : Int} {ls : List Label}
    (hkeep : Along (step parse) KeepsExpiry (System.new now) ls)
    (h : Along (step parse) HitsSameInstance (System.new now) ls) :
    Along (step parse) (EvictsExpired parse) (System.new now) ls :=
  along_of_invariant (fun _ _ _ hs hl hstep => inv_step hs hl.1 hstep)
    (fun _ _ hs hl => evictsExpired_of_sameInstance hs hl.2) (inv_new now) (hkeep.and h)

/-- The timestamps below, parsed. -/
def parseExample (s : String) : Except String DateTime :=
  if s = "1970-01-01T00:00:01Z" then .ok ⟨seconds 1, 0⟩
  else if s = "1970-01-01T01:00:00Z" then .ok ⟨seconds 3600, 0⟩
  else .error "input contains invalid characters"

/-- The Pod `web-0`. -/
def web0 (uid expiresAt : String) : PartialObjectMeta :=
  ⟨{ (default : ObjectMeta) with
    name := some "web-0", ns := some "prod", uid := some uid
    annotations := some (BTreeMap.extend ∅ [(expiresAtPrefix ++ "tls", expiresAt)]) }⟩

/-- The reference to it. -/
def web0Ref : ObjectRef :=
  ⟨"web-0", some "prod"⟩

/-- A Pod is created, expires and is evicted. -/
def evictedOnce : List Label :=
  [.relist, .deliver, .deliver, .create (web0 "a" "1970-01-01T00:00:01Z"), .deliver,
    .tick (seconds 2), .start web0Ref, .decide web0Ref, .accept web0Ref "1970-01-01T00:00:02Z"]

theorem hitsSameInstance_evictedOnce :
    Along (step parseExample) HitsSameInstance (System.new 0) evictedOnce := by
  refine ⟨fun _ _ _ _ => nofun, ?_⟩
  rintro _ ⟨⟩
  refine ⟨fun _ _ _ _ => nofun, ?_⟩
  rintro _ ⟨⟩
  refine ⟨fun _ _ _ _ => nofun, ?_⟩
  rintro _ ⟨⟩
  refine ⟨fun _ _ _ _ => nofun, ?_⟩
  rintro _ ⟨⟩
  refine ⟨fun _ _ _ _ => nofun, ?_⟩
  rintro _ ⟨⟩
  refine ⟨fun _ _ _ _ => nofun, ?_⟩
  rintro _ ⟨⟩
  refine ⟨fun _ _ _ _ => nofun, ?_⟩
  rintro _ ⟨⟩
  refine ⟨fun _ _ _ _ => nofun, ?_⟩
  rintro _ ⟨⟩
  refine ⟨?_, fun _ _ => trivial⟩
  rintro _ _ _ _ ⟨⟩ ⟨⟩ ⟨⟩
  rfl

theorem keepsExpiry_evictedOnce :
    Along (step parseExample) KeepsExpiry (System.new 0) evictedOnce :=
  along_of_forall fun l hl s ref annotations he => by
    subst he
    simp [evictedOnce] at hl

theorem evicts_only_expired_evictedOnce :
    Along (step parseExample) (EvictsExpired parseExample) (System.new 0) evictedOnce :=
  evicts_only_expired keepsExpiry_evictedOnce hitsSameInstance_evictedOnce

/-- The answer is lost, the Pod is recreated, and the reconcile is run again before the watch
has told of either. -/
def decidedAgain : List Label :=
  evictedOnce ++ [.fail web0Ref "connection reset", .remove web0Ref,
    .create (web0 "b" "1970-01-01T01:00:00Z"), .tick (seconds 5), .start web0Ref, .decide web0Ref]

theorem not_expired_web0 :
    ¬Expired parseExample (seconds 7) (web0 "b" "1970-01-01T01:00:00Z").metadata.annotations := by
  rintro ⟨entry, hann, expiresAt, hparse, hlt⟩
  obtain rfl := List.mem_singleton.1 (show entry ∈ [_] from hann)
  obtain rfl := Except.ok.inj hparse
  exact absurd hlt (by decide)

theorem evicts_successor_decidedAgain :
    ¬∀ (ls : List Label) s, run (step parseExample) (System.new 0) ls = some s →
      Along (step parseExample) (EvictsExpired parseExample) (System.new 0) ls := by
  intro h
  have hrun : ((run (step parseExample) (System.new 0) decidedAgain).map fun u =>
      (u.now, u.hit web0Ref)) =
        some ((seconds 7 : Int), some (web0 "b" "1970-01-01T01:00:00Z")) := rfl
  obtain ⟨u, hu, hhit⟩ := Option.map_eq_some_iff.1 hrun
  obtain ⟨hnow, hhit⟩ := Prod.mk.inj hhit
  obtain ⟨s, hs⟩ := Option.isSome_iff_exists.1
    (rfl : (run (step parseExample) (System.new 0)
      (decidedAgain ++ [.accept web0Ref "1970-01-01T00:00:07Z"])).isSome = true)
  have hexp := (h _ s hs).at hu web0Ref _ _ rfl hhit
  rw [hnow] at hexp
  exact not_expired_web0 hexp

end CommonsOperator.PodController
