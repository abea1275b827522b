import CommonsOperator.PodAttended

/-!
# How often evictions are requested

A request to evict a Pod may be refused, for its disruption budget say, and is then made again by
another reconcile. Every request is brought about by an item of the watch that tells of the Pod or
by the delay after a failure. `ready` is how much of the delay has passed for what is scheduled,
and with the reconcile under way it is the potential that pays for the requests
(`evictions_rate_limited`).
-/

set_option linter.unusedSectionVars false

namespace CommonsOperator.PodController

open Transition

variable {parse : String → Except String DateTime}

/-! ## What is counted -/

/-- The delay of `error_policy`. -/
def retryDelay : Nat :=
  seconds 5

/-- A request has been sent, and is not answered. -/
def isSent : Option Phase → Bool
  | some (.sent _ _) => true
  | _ => false

/-- The requests for a Pod. -/
def requests (ref : ObjectRef) (_ : System) (l : Label) (t : System) : Nat :=
  match l with
  | .decide ref' => if ref' = ref ∧ isSent (t.running ref) then 1 else 0
  | _ => 0

/-- The items of the watch that tell of a Pod. -/
def deliveries (ref : ObjectRef) (s : System) (l : Label) (_ : System) : Nat :=
  match l with
  | .deliver =>
    if (s.watch.deliver objectRef).any fun (event, _) =>
      event.appliedObject.any fun pod => objectRef pod = ref then 1 else 0
  | _ => 0

/-- The time that passes, in nanoseconds. -/
def elapsed (_ : System) (l : Label) (_ : System) : Nat :=
  match l with
  | .tick nanoseconds => nanoseconds
  | _ => 0

/-! ## The potential -/

/-- How much of the delay has passed at a time for what is scheduled. -/
def ready (now : Int) : Option Int → Nat
  | none => 0
  | some time => min retryDelay (now + retryDelay - time).toNat

/-- A reconcile that has not decided yet may send a request at once. -/
def held : Option Phase → Nat
  | some (.started _) => retryDelay
  | _ => 0

/-- What there is to pay for requests with. -/
def patience (ref : ObjectRef) (s : System) : Nat :=
  held (s.running ref) + ready s.now (s.scheduled ref)

/-- What is due is ready. -/
theorem ready_of_due {now time : Int} (h : time ≤ now) : ready now (some time) = retryDelay := by
  unfold ready
  dsimp only
  omega

theorem ready_after (now : Int) (nanoseconds : Nat) :
    ready now (some (now + nanoseconds)) = retryDelay - nanoseconds := by
  unfold ready
  dsimp only
  omega

theorem ready_add_le (now : Int) (nanoseconds : Nat) (scheduled : Option Int) :
    ready (now + nanoseconds) scheduled ≤ ready now scheduled + nanoseconds := by
  unfold ready
  cases scheduled with
  | none => exact Nat.zero_le _
  | some time =>
    dsimp only
    omega

section

variable {s s' : System} {ref ref' : ObjectRef}

theorem ready_schedule (s : System) (ref : ObjectRef) (time : Int) :
    ready s.now ((s.schedule ref time).scheduled ref) ≤
      ready s.now (s.scheduled ref) + ready s.now (some time) := by
  have hself : (s.schedule ref time).scheduled ref =
      some ((s.scheduled ref).elim time (min time)) := Function.update_self _ _ _
  rw [hself]
  cases s.scheduled ref with
  | none => exact Nat.le_add_left _ _
  | some old =>
    simp only [Option.elim_some]
    unfold ready
    dsimp only
    omega

/-- A step that another Pod is concerned with. -/
theorem patience_congr (hnow : s'.now = s.now) (hrunning : s'.running ref = s.running ref)
    (hscheduled : s'.scheduled ref = s.scheduled ref) : patience ref s' = patience ref s := by
  unfold patience
  rw [hnow, hrunning, hscheduled]

theorem patience_schedule (s : System) (ref ref' : ObjectRef) (time : Int) :
    patience ref (s.schedule ref' time) ≤
      patience ref s + if ref' = ref then ready s.now (some time) else 0 := by
  by_cases hr : ref' = ref
  · subst hr
    have hready := ready_schedule s ref' time
    rw [if_pos rfl]
    unfold patience
    rw [Nat.add_assoc]
    exact Nat.add_le_add_left hready _
  · have hne : (s.schedule ref' time).scheduled ref = s.scheduled ref :=
      schedule_of_ne s time (Ne.symm hr)
    have hsame : patience ref (s.schedule ref' time) = patience ref s := patience_congr rfl rfl hne
    rw [if_neg hr]
    exact Nat.le_of_eq hsame

/-- The end of a reconcile that has sent its request, or has not. -/
theorem patience_finish (s : System) (ref : ObjectRef) (action : Action) :
    patience ref (s.finish ref action) ≤ ready s.now (s.scheduled ref) +
      match action with
      | .awaitChange => 0
      | .requeue nanoseconds => retryDelay - nanoseconds := by
  have hidle : patience ref { s with running := Function.update s.running ref none } =
      ready s.now (s.scheduled ref) := by
    unfold patience
    dsimp only
    rw [Function.update_self]
    exact Nat.zero_add _
  cases action with
  | awaitChange => exact Nat.le_of_eq hidle
  | requeue nanoseconds =>
    have hle := patience_schedule { s with running := Function.update s.running ref none } ref ref
      (s.now + nanoseconds)
    rw [if_pos rfl, hidle, ready_after] at hle
    exact hle

theorem patience_finish_of_ne (hr : ref' ≠ ref) (action : Action) :
    patience ref (s.finish ref' action) = patience ref s := by
  have hrunning : Function.update s.running ref' none ref = s.running ref :=
    Function.update_of_ne (Ne.symm hr) _ _
  cases action with
  | awaitChange => exact patience_congr rfl hrunning rfl
  | requeue nanoseconds =>
    exact patience_congr rfl hrunning (Function.update_of_ne (Ne.symm hr) _ _)

/-! ## The steps -/

/-- A step that sends no request and brings no credit. -/
def Pays (ref : ObjectRef) (s : System) (l : Label) (t : System) : Prop :=
  retryDelay * requests ref s l t + patience ref t ≤
    patience ref s + (retryDelay * deliveries ref s l t + elapsed s l t)

theorem pays_of_le {l : Label} (hrequests : requests ref s l s' = 0)
    (h : patience ref s' ≤ patience ref s) : Pays ref s l s' := by
  unfold Pays
  rw [hrequests, Nat.mul_zero, Nat.zero_add]
  exact Nat.le_add_right_of_le h

theorem pays_tick (ref : ObjectRef) (s : System) (nanoseconds : Nat) :
    Pays ref s (.tick nanoseconds) { s with now := s.now + nanoseconds } := by
  have hready := ready_add_le s.now nanoseconds (s.scheduled ref)
  have hpatience : patience ref { s with now := s.now + nanoseconds } ≤
      patience ref s + nanoseconds := by
    unfold patience
    dsimp only
    omega
  unfold Pays
  simpa [requests, deliveries, elapsed] using hpatience

/-- A step of the cluster. -/
theorem pays_cluster {l : Label} (hrequests : requests ref s l s' = 0) (hnow : s'.now = s.now)
    (hrunning : s'.running = s.running) (hscheduled : s'.scheduled = s.scheduled) :
    Pays ref s l s' :=
  pays_of_le hrequests
    (Nat.le_of_eq (patience_congr hnow (congrFun hrunning ref) (congrFun hscheduled ref)))

theorem pays_deliver (hs : step parse s .deliver = some s') : Pays ref s .deliver s' := by
  obtain ⟨⟨event, watch⟩, hd, rfl⟩ := Option.map_eq_some_iff.1 hs
  dsimp only
  cases happ : event.appliedObject with
  | none => exact pays_of_le rfl (Nat.le_refl _)
  | some pod =>
    have hle := patience_schedule { s with watch } ref (objectRef pod) s.now
    have hcredit : deliveries ref s .deliver ({ s with watch }.schedule (objectRef pod) s.now) =
        if objectRef pod = ref then 1 else 0 := by
      simp [deliveries, hd, happ]
    have hdue : ready s.now (some s.now) = retryDelay := ready_of_due (Int.le_refl _)
    unfold Pays
    dsimp only
    rw [hcredit]
    dsimp only at hle
    rw [hdue] at hle
    have hsame : patience ref { s with watch } = patience ref s := rfl
    rw [hsame] at hle
    simp only [requests, elapsed]
    split at hle
    · rename_i hr
      rw [if_pos hr]
      omega
    · rename_i hr
      rw [if_neg hr]
      omega

theorem pays_start (hs : step parse s (.start ref') = some s') : Pays ref s (.start ref') s' := by
  simp only [step, Option.ite_none_right_eq_some, Option.some.injEq] at hs
  obtain ⟨⟨-, hdue, hidle⟩, rfl⟩ := hs
  refine pays_of_le rfl ?_
  by_cases hr : ref' = ref
  · subst hr
    have hready : ready s.now (s.scheduled ref') = retryDelay := by
      cases hsome : s.scheduled ref' with
      | none => simp [hsome] at hdue
      | some time => exact ready_of_due (by simpa [hsome] using hdue)
    have hheld : ∀ phase, held phase ≤ retryDelay := by
      rintro (_ | ⟨_ | _ | _⟩) <;> simp [held]
    unfold patience
    dsimp only
    rw [Function.update_self, Function.update_self, hready]
    have hle := hheld ((s.watch.reflector.published ref').map Phase.started)
    have hnone : ready s.now none = 0 := rfl
    omega
  · exact Nat.le_of_eq (patience_congr rfl (Function.update_of_ne (Ne.symm hr) _ _)
      (Function.update_of_ne (Ne.symm hr) _ _))

/-- The end of a reconcile pays for itself if what it held or the delay does. -/
theorem pays_finish {l : Label} {action : Action}
    (hrequests : requests ref s l (s.finish ref' action) = 0)
    (haction : ∀ nanoseconds, action = .requeue nanoseconds →
      retryDelay - nanoseconds ≤ held (s.running ref')) : Pays ref s l (s.finish ref' action) := by
  refine pays_of_le hrequests ?_
  by_cases hr : ref' = ref
  · subst hr
    have hle := patience_finish s ref' action
    unfold patience at hle ⊢
    cases action with
    | awaitChange =>
      dsimp only at hle
      omega
    | requeue nanoseconds =>
      have hpaid := haction nanoseconds rfl
      dsimp only at hle
      omega
  · exact Nat.le_of_eq (patience_finish_of_ne hr action)

theorem isSent_finish (s : System) (ref : ObjectRef) (action : Action) :
    isSent ((s.finish ref action).running ref) = false := by
  have hidle : (s.finish ref action).running ref = none := by
    rw [running_finish]
    exact Function.update_self _ _ _
  rw [hidle]
  rfl

theorem requests_finish (s : System) (ref ref' : ObjectRef) (action : Action) :
    requests ref s (.decide ref') (s.finish ref' action) = 0 := by
  unfold requests
  refine if_neg ?_
  rintro ⟨rfl, hsent⟩
  rw [isSent_finish] at hsent
  cases hsent

/-- Only a reconcile that held the delay sends a request. -/
theorem pays_decide (hs : step parse s (.decide ref') = some s') :
    Pays ref s (.decide ref') s' := by
  simp only [step] at hs
  split at hs
  · rename_i pod hr
    have hheld : held (s.running ref') = retryDelay := by rw [hr, held]
    split at hs
    · rename_i request hd
      obtain rfl := Option.some.inj hs
      by_cases he : ref' = ref
      · subst he
        unfold Pays patience
        dsimp only
        rw [hheld, Function.update_self]
        simp [requests, isSent, held]
      · have hrunning :=
          Function.update_of_ne (Ne.symm he) (some (Phase.sent pod request)) s.running
        exact pays_of_le (if_neg fun h => he h.1) (Nat.le_of_eq (patience_congr rfl hrunning rfl))
    · rename_i action hd
      obtain rfl := Option.some.inj hs
      refine pays_finish (requests_finish s ref ref' action) fun nanoseconds _ => ?_
      rw [hheld]
      exact Nat.sub_le _ _
    · obtain rfl := Option.some.inj hs
      refine pays_finish (requests_finish s ref ref' _) fun nanoseconds _ => ?_
      rw [hheld]
      exact Nat.sub_le _ _
  · cases hs

theorem pays_accept {timestamp : String} (hs : step parse s (.accept ref' timestamp) = some s') :
    Pays ref s (.accept ref' timestamp) s' := by
  simp only [step] at hs
  split at hs
  · rename_i phase victim hr hhit
    obtain rfl := Option.some.inj hs
    refine pays_of_le rfl ?_
    by_cases he : ref' = ref
    · subst he
      unfold patience
      dsimp only
      rw [Function.update_self]
      exact Nat.add_le_add_right (Nat.zero_le _) _
    · exact Nat.le_of_eq (patience_congr rfl (Function.update_of_ne (Ne.symm he) _ _) rfl)
  · cases hs

/-- Every step pays for the request that it sends. -/
theorem pays_step {l : Label} (hs : step parse s l = some s') : Pays ref s l s' := by
  cases l with
  | tick nanoseconds =>
    obtain rfl := Option.some.inj hs
    exact pays_tick ref s nanoseconds
  | create pod =>
    simp only [step] at hs
    split at hs
    · cases hs
    · simp only [Option.ite_none_right_eq_some, Option.some.injEq] at hs
      obtain ⟨-, rfl⟩ := hs
      exact pays_cluster rfl rfl rfl rfl
  | annotate ref' annotations =>
    obtain ⟨pod, -, rfl⟩ := Option.map_eq_some_iff.1 hs
    exact pays_cluster rfl rfl rfl rfl
  | delete ref' timestamp =>
    obtain ⟨pod, -, rfl⟩ := Option.map_eq_some_iff.1 hs
    exact pays_cluster rfl rfl rfl rfl
  | remove ref' =>
    obtain ⟨pod, -, rfl⟩ := Option.map_eq_some_iff.1 hs
    exact pays_cluster rfl rfl rfl rfl
  | relist =>
    obtain rfl := Option.some.inj hs
    rw [emitAll_eq]
    exact pays_cluster rfl rfl rfl rfl
  | deliver => exact pays_deliver hs
  | start ref' => exact pays_start hs
  | decide ref' => exact pays_decide hs
  | accept ref' timestamp => exact pays_accept hs
  | succeed ref' =>
    simp only [step] at hs
    split at hs
    · obtain rfl := Option.some.inj hs
      exact pays_finish rfl (by simp)
    · cases hs
  | fail ref' message =>
    have hfinish : Pays ref s (.fail ref' message)
        (s.finish ref' (errorPolicy (.evictPod message))) := by
      refine pays_finish rfl fun nanoseconds hn => ?_
      obtain rfl := Action.requeue.inj hn
      exact Nat.le_trans (Nat.le_of_eq (Nat.sub_self retryDelay)) (Nat.zero_le _)
    simp only [step] at hs
    split at hs
    · obtain rfl := Option.some.inj hs
      exact hfinish
    · obtain rfl := Option.some.inj hs
      exact hfinish
    · cases hs

end

/-! ## Runs -/

/-- Since the operator has started, at most one eviction of a Pod has been requested for each item
of the watch that told of it, and one more for every five seconds that have passed, however the
requests were answered. -/
theorem evictions_rate_limited (ref : ObjectRef) (now : Int) (ls : List Label) :
    retryDelay * total (step parse) (requests ref) (System.new now) ls ≤
      retryDelay * total (step parse) (deliveries ref) (System.new now) ls +
        total (step parse) elapsed (System.new now) ls := by
  have hle := total_le_of_potential (patience ref)
    (fun s l t (h : step parse s l = some t) => pays_step h) (System.new now) ls
  have hnew : patience ref (System.new now) = 0 := rfl
  rw [total_mul, total_add, total_mul, hnew, Nat.zero_add] at hle
  exact hle

end CommonsOperator.PodController
