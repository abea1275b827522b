import CommonsOperator.PodEviction

/-!
# No Pod is forgotten

A Pod with expiry annotations is evicted by a reconcile that finds it expired, so one must
come. `deadline` is when : once the first timestamp is in the past, and within five seconds if
it already is, or if some timestamp cannot be parsed. `Attended` says what brings the
reconcile about : an item of the watch on its way, a reconcile under way, or the schedule.

A reconcile that ends without another one scheduled is where a Pod could be lost. It does so
after a Pod that is terminating or has no timestamp, and after an eviction; by then the watch
tells of a newer Pod, or has told of it, and what it tells of is scheduled.
-/

set_option linter.unusedSectionVars false

namespace CommonsOperator.PodController

open Transition

/-! ## Deadlines -/

section

variable (parse : String → Except String DateTime) (now : Int)

/-- When the Pod is to be reconciled at the latest, if it is to be at all. -/
def deadline (pod : PartialObjectMeta) : Option Int :=
  if pod.metadata.deletionTimestamp.isSome then none
  else
    match podExpiresAt parse pod.metadata.annotations with
    | .ok none => none
    | .ok (some expiresAt) => some (max expiresAt.instant (now + seconds 5))
    | .error _ => some (now + seconds 5)

end

section

variable {parse : String → Except String DateTime} {now now' : Int} {pod : PartialObjectMeta}
  {d : Int}

end

/-! ## The invariant -/

/-- What brings about a reconcile of the Pod, by the time `d` if it is the schedule. -/
inductive Attended (s : System) (ref : ObjectRef) (pod : PartialObjectMeta) (d : Int) : Prop where
  | queued {event pod'} (h : event ∈ s.watch.queue) (ha : event.appliedObject = some pod')
      (href : objectRef pod' = ref)
  | started (h : s.running ref = some (.started pod))
  | sent {read request} (h : s.running ref = some (.sent read request))
  | scheduled {time} (h : s.scheduled ref = some time) (hle : time ≤ d)

/-- The reconcile is of that Pod, and so is its request. -/
def Phase.IsOf (ref : ObjectRef) : Phase → Prop
  | .started pod => objectRef pod = ref
  | .sent _ request => request.target = ref
  | .accepted _ => True

/-- Every Pod in the store that is to be reconciled will be. -/
def AllAttended (parse : String → Except String DateTime) (s : System) : Prop :=
  ∀ ref pod d, s.watch.reflector.published ref = some pod → deadline parse s.now pod = some d →
    Attended s ref pod d

/-- The store is of the Pods of the cluster, and nothing in it is forgotten. -/
structure Attends (parse : String → Except String DateTime) (s : System) : Prop where
  mirrors : s.watch.Mirrors objectRef s.pods
  isOf : ∀ ref phase, s.running ref = some phase → phase.IsOf ref
  attended : AllAttended parse s

variable {parse : String → Except String DateTime}

section

variable {s s' : System} {ref ref' : ObjectRef} {pod : PartialObjectMeta} {d d' : Int}

/-- A step that only adds to the watch, and is not of the Pod's reconcile. -/
theorem Attended.frame (h : Attended s ref pod d)
    (hqueue : ∀ event ∈ s.watch.queue, event ∈ s'.watch.queue)
    (hrunning : s'.running ref = s.running ref) (hscheduled : s'.scheduled ref = s.scheduled ref)
    (hle : d ≤ d') : Attended s' ref pod d' := by
  cases h with
  | queued h ha href => exact .queued (hqueue _ h) ha href
  | started h => exact .started (hrunning.trans h)
  | sent h => exact .sent (hrunning.trans h)
  | scheduled h hd =>
    have hd' := Int.le_trans hd hle
    exact .scheduled (hscheduled.trans h) hd'

/-- A step of the cluster : the watch tells of it. -/
theorem AllAttended.emit (h : AllAttended parse s) (hnow : s'.now = s.now)
    (hqueue : ∀ event ∈ s.watch.queue, event ∈ s'.watch.queue)
    (hreflector : s'.watch.reflector = s.watch.reflector) (hrunning : s'.running = s.running)
    (hscheduled : s'.scheduled = s.scheduled) : AllAttended parse s' := by
  intro ref pod d hpod hd
  rw [hreflector] at hpod
  rw [hnow] at hd
  exact (h ref pod d hpod hd).frame hqueue (congrFun hrunning ref) (congrFun hscheduled ref)
    (Int.le_refl d)

theorem schedule_self (s : System) (ref : ObjectRef) (time : Int) :
    ∃ time', (s.schedule ref time).scheduled ref = some time' ∧ time' ≤ time ∧
      ∀ old, s.scheduled ref = some old → time' ≤ old := by
  refine ⟨(s.scheduled ref).elim time (min time), Function.update_self _ _ _, ?_⟩
  cases s.scheduled ref with
  | none => exact ⟨Int.le_refl time, fun old h => nomatch h⟩
  | some old =>
    refine ⟨Int.min_le_left time old, fun old' h => ?_⟩
    obtain rfl := Option.some.inj h
    exact Int.min_le_right time old

theorem schedule_of_ne (s : System) (time : Int) (h : ref' ≠ ref) :
    (s.schedule ref time).scheduled ref' = s.scheduled ref' :=
  Function.update_of_ne h _ _

/-- Scheduling a Pod does not put off any other reconcile. -/
theorem Attended.schedule (h : Attended s ref pod d) (ref' : ObjectRef) (time : Int) :
    Attended (s.schedule ref' time) ref pod d := by
  cases h with
  | queued h ha href => exact .queued h ha href
  | started h => exact .started h
  | sent h => exact .sent h
  | scheduled h hle =>
    by_cases hr : ref = ref'
    · subst hr
      obtain ⟨time', hs, -, hold⟩ := schedule_self s ref time
      have hd := Int.le_trans (hold _ h) hle
      exact .scheduled hs hd
    · exact .scheduled ((schedule_of_ne s time hr).trans h) hle

theorem isOf_update {running : ObjectRef → Option Phase}
    (h : ∀ ref phase, running ref = some phase → phase.IsOf ref) {next : Option Phase}
    (hnext : ∀ phase, next = some phase → phase.IsOf ref) :
    ∀ ref' phase, Function.update running ref next ref' = some phase → phase.IsOf ref' := by
  intro ref' phase hr
  by_cases he : ref' = ref
  · subst he
    rw [Function.update_self] at hr
    exact hnext phase hr
  · rw [Function.update_of_ne he] at hr
    exact h ref' phase hr

/-! ## The ends of reconciles -/

/-- The reconcile of the Pod ends, and another one is brought about by the watch or by the
schedule. -/
theorem Attended.idle (h : Attended s ref pod d) (hrun : ∀ phase, s.running ref = some phase →
      phase ≠ .started pod ∧ ∀ read request, phase ≠ .sent read request) :
    Attended { s with running := Function.update s.running ref none } ref pod d := by
  cases h with
  | queued h ha href => exact .queued h ha href
  | started h => exact ((hrun _ h).1 rfl).elim
  | sent h => exact ((hrun _ h).2 _ _ rfl).elim
  | scheduled h hle => exact .scheduled h hle

/-- The end of another reconcile. -/
theorem Attended.finish_of_ne (h : Attended s ref pod d) (hr : ref ≠ ref') (action : Action) :
    Attended (s.finish ref' action) ref pod d := by
  have hidle : Attended { s with running := Function.update s.running ref' none } ref pod d :=
    h.frame (fun _ he => he) (Function.update_of_ne hr _ _) rfl (Int.le_refl d)
  cases action with
  | awaitChange => exact hidle
  | requeue nanoseconds => exact hidle.schedule ref' _

theorem watch_finish (s : System) (ref : ObjectRef) (action : Action) :
    (s.finish ref action).watch = s.watch := by
  cases action <;> rfl

theorem now_finish (s : System) (ref : ObjectRef) (action : Action) :
    (s.finish ref action).now = s.now := by
  cases action <;> rfl

theorem pods_finish (s : System) (ref : ObjectRef) (action : Action) :
    (s.finish ref action).pods = s.pods := by
  cases action <;> rfl

theorem running_finish (s : System) (ref : ObjectRef) (action : Action) :
    (s.finish ref action).running = Function.update s.running ref none := by
  cases action <;> rfl

/-- A reconcile ends. What matters is the Pod it is of. -/
theorem Attends.finish (h : Attends parse s) {action : Action}
    (hself : ∀ pod d, s.watch.reflector.published ref = some pod →
      deadline parse s.now pod = some d → Attended (s.finish ref action) ref pod d) :
    Attends parse (s.finish ref action) := by
  refine ⟨?_, ?_, fun ref' pod d hpod hd => ?_⟩
  · rw [watch_finish, pods_finish]
    exact h.mirrors
  · rw [running_finish]
    exact isOf_update h.isOf fun phase hr => nomatch hr
  · rw [watch_finish] at hpod
    rw [now_finish] at hd
    by_cases he : ref' = ref
    · subst he
      exact hself pod d hpod hd
    · exact (h.attended ref' pod d hpod hd).finish_of_ne he action

/-! ## The steps -/

theorem emitAll_eq (s : System) (events : List (WatchEvent PartialObjectMeta)) :
    s.emitAll events =
      { s with watch := { s.watch with queue := s.watch.queue ++ events } } := by
  induction events generalizing s with
  | nil => simp [System.emitAll]
  | cons event events ih =>
    have hcons : s.emitAll (event :: events) = (s.emit event).emitAll events := rfl
    rw [hcons, ih]
    simp [System.emit, Watch.emit, List.append_assoc]

end

/-! ## Runs -/

end CommonsOperator.PodController
