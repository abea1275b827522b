import CommonsOperator.Oneshot
import CommonsOperator.Transition
import Mathlib.Logic.Function.Basic

/-!
# The delayed initializer

A `DelayedInit` hands the value of its `Initializer` to any number of getters. Its state
is the receiver of a oneshot channel until some getter takes the value out of the channel
and memoizes it. A poll of a `get` future is two steps with no lock held between them :
the check under the read lock (`readLocked`), and, if the value was not ready, the
re-check and the poll of the channel under the write lock (`writeLocked`).

A task is polled with its own waker, so a waker is the task it wakes. `System` is the
shared state with the program point and the wake-up of each task, and `step` one atomic
step of a task or of the initializer. `get_agrees` : every poll that is ready returns what
the initializer did, no poll started after that is pending, and the channel is not polled
again once it has yielded.
-/

set_option linter.unusedSectionVars false

namespace CommonsOperator

open Transition

/-- The error of a getter whose initializer was dropped. -/
inductive InitDropped where
  | initDropped
  deriving DecidableEq

/-- The state behind the lock. While it waits, it holds the receiver of the channel. -/
inductive ReceiverState (T : Type*) where
  | waiting
  | ready (v : Except InitDropped T)

/-- A point of a poll at which its task holds no lock. -/
inductive PollPoint where
  /-- Not inside a poll. -/
  | idle
  /-- The read lock was released, the write lock is not taken yet. -/
  | slowPath
  deriving DecidableEq

variable {T Task : Type*} [DecidableEq Task]

namespace DelayedInit

/-- The channel, the memoized state, and each task that polls `get`. -/
structure System (T Task : Type*) where
  chan : Oneshot T Task
  state : ReceiverState T
  point : Task → PollPoint
  /-- The most recent poll of the task returned `Pending`. -/
  parked : Task → Bool
  /-- The waker of the task was called since its most recent poll began. -/
  woken : Task → Bool

/-- `DelayedInit::new`, with no task inside a poll. -/
def System.new : System T Task :=
  ⟨Oneshot.channel, .waiting, fun _ => .idle, fun _ => false, fun _ => false⟩

/-- One atomic step. -/
inductive Label (T Task : Type*) where
  /-- A task begins a poll : the check under the read lock. -/
  | readLocked (t : Task)
  /-- The task goes on to the slow path, under the write lock. -/
  | writeLocked (t : Task)
  /-- `Initializer::init`. -/
  | init (v : T)
  /-- The initializer is dropped without `init`. -/
  | dropInitializer

/-- The result `poll` of the receiver has for the getter. -/
def memoized (r : Except Canceled T) : Except InitDropped T :=
  r.mapError fun _ => .initDropped

/-- Call a waker taken out of the channel. -/
def wake (w : Option Task) (woken : Task → Bool) : Task → Bool :=
  match w with
  | some t => Function.update woken t true
  | none => woken

/-- What the poll of the receiver returned, if the step polled it. -/
def channelPolled (s : System T Task) : Label T Task → Option (Poll (Except Canceled T))
  | .writeLocked t =>
    match s.state with
    | .waiting => some (s.chan.poll t).1
    | .ready _ => none
  | _ => none

/-- What the poll returns that the step ends. -/
def returned (s : System T Task) : Label T Task → Option (Task × Poll (Except InitDropped T))
  | .readLocked t =>
    match s.state with
    | .ready v => some (t, .ready v)
    | .waiting => none
  | .writeLocked t =>
    match s.state with
    | .ready v => some (t, .ready v)
    | .waiting => some (t, (s.chan.poll t).1.map memoized)
  | _ => none

/-- One step of `DelayedInitGet::poll`, of `Initializer::init`, or of dropping the
initializer. -/
def step (s : System T Task) : Label T Task → Option (System T Task)
  | .readLocked t =>
    if s.point t = .idle then
      let s := { s with
        parked := Function.update s.parked t false
        woken := Function.update s.woken t false }
      match s.state with
      | .ready _ => some s
      | .waiting => some { s with point := Function.update s.point t .slowPath }
    else none
  | .writeLocked t =>
    if s.point t = .slowPath then
      let s := { s with point := Function.update s.point t .idle }
      match s.state with
      | .ready _ => some s
      | .waiting =>
        match s.chan.poll t with
        | (.ready r, chan) => some { s with chan := chan, state := .ready (memoized r) }
        | (.pending, chan) =>
          some { s with chan := chan, parked := Function.update s.parked t true }
    else none
  | .init v =>
    if s.chan.complete then none
    else
      let (chan, w) := s.chan.send v
      some { s with chan := chan, woken := wake w s.woken }
  | .dropInitializer =>
    if s.chan.complete then none
    else
      let (chan, w) := s.chan.dropSender
      some { s with chan := chan, woken := wake w s.woken }

/-- A poll begins. Its task does not wait any more. -/
theorem step_readLocked {s s' : System T Task} {t : Task}
    (h : step s (.readLocked t) = some s') :
    s.point t = .idle ∧ ∃ p, s' = { s with
      parked := Function.update s.parked t false
      woken := Function.update s.woken t false
      point := Function.update s.point t p } := by
  simp only [step] at h
  split at h
  · rename_i hp
    refine ⟨hp, ?_⟩
    cases hs : s.state <;> simp only [hs, Option.some.injEq] at h <;> subst h
    · exact ⟨.slowPath, rfl⟩
    · refine ⟨.idle, ?_⟩
      rw [← hp, Function.update_eq_self]
  · cases h

/-- The slow path ends the poll : the value was memoized meanwhile, or the receiver yields
it now, or the task waits with its waker in the slot. -/
theorem step_writeLocked {s s' : System T Task} {t : Task}
    (h : step s (.writeLocked t) = some s') :
    (∃ v, s.state = .ready v ∧ s' = { s with point := Function.update s.point t .idle }) ∨
      (∃ r, s.state = .waiting ∧ s.chan.outcome = some r ∧ s' = { s with
        point := Function.update s.point t .idle
        chan := { s.chan with data := none }
        state := .ready (memoized r) }) ∨
      (s.state = .waiting ∧ s.chan.complete = false ∧ s' = { s with
        point := Function.update s.point t .idle
        chan := { s.chan with rxTask := some t }
        parked := Function.update s.parked t true }) := by
  simp only [step] at h
  split at h
  · cases hs : s.state with
    | ready v =>
      simp only [hs, Option.some.injEq] at h
      exact Or.inl ⟨v, rfl, h ▸ hs ▸ rfl⟩
    | waiting =>
      simp only [hs] at h
      cases ho : s.chan.outcome with
      | none =>
        have hc := Oneshot.outcome_eq_none.1 ho
        simp only [Oneshot.poll_of_incomplete hc, Option.some.injEq] at h
        exact Or.inr (Or.inr ⟨rfl, hc, h ▸ rfl⟩)
      | some r =>
        simp only [Oneshot.poll_of_outcome ho, Option.some.injEq] at h
        exact Or.inr (Or.inl ⟨r, rfl, rfl, h ▸ rfl⟩)
  · cases h

/-! ## What the initializer did -/

/-- The result a step of the initializer settles. -/
def Label.settles : Label T Task → Option (Except InitDropped T)
  | .init v => some (.ok v)
  | .dropInitializer => some (.error .initDropped)
  | _ => none

/-- The result every getter is to return, once it is settled. -/
def settled (s : System T Task) : Option (Except InitDropped T) :=
  match s.state with
  | .ready v => some v
  | .waiting => s.chan.outcome.map memoized

/-- A poll that is ready returns the settled result. -/
theorem settled_of_returned {s : System T Task} {l : Label T Task} {t : Task}
    {x : Except InitDropped T} (h : returned s l = some (t, .ready x)) : settled s = some x := by
  unfold settled
  cases l <;> simp only [returned] at h <;> cases hs : s.state <;> simp_all
  rename_i t'
  cases ho : s.chan.outcome with
  | none =>
    rw [Oneshot.poll_of_incomplete (Oneshot.outcome_eq_none.1 ho)] at h
    simp [Poll.map] at h
  | some r =>
    rw [Oneshot.poll_of_outcome ho] at h
    simpa [Poll.map] using h.2

/-- Until the channel is complete it is empty and nothing is memoized. -/
structure Inv (s : System T Task) : Prop where
  waiting : s.chan.complete = false → s.state = .waiting
  empty : s.chan.complete = false → s.chan.data = none

theorem inv_new : Inv (System.new : System T Task) :=
  ⟨fun _ => rfl, fun _ => rfl⟩

theorem settled_eq_none {s : System T Task} (hs : Inv s) :
    settled s = none ↔ s.chan.complete = false := by
  unfold settled
  cases hc : s.chan.complete with
  | false => simp [hs.waiting hc, Oneshot.outcome_eq_none.2 hc]
  | true => cases s.state <;> simp [Oneshot.outcome_eq_none, hc]

/-- A step of a task takes the outcome out of the channel, or leaves both alone. -/
theorem step_task {s s' : System T Task} {l : Label T Task} (hl : l.settles = none)
    (h : step s l = some s') :
    (s'.chan.complete = s.chan.complete ∧ s'.chan.data = s.chan.data ∧ s'.state = s.state) ∨
      ∃ r, s.state = .waiting ∧ s.chan.outcome = some r ∧ s'.chan.complete = true ∧
        s'.state = .ready (memoized r) := by
  cases l with
  | readLocked t =>
    obtain ⟨-, p, rfl⟩ := step_readLocked h
    exact Or.inl ⟨rfl, rfl, rfl⟩
  | writeLocked t =>
    rcases step_writeLocked h with ⟨v, hs, rfl⟩ | ⟨r, hs, ho, rfl⟩ | ⟨hs, hc, rfl⟩
    · exact Or.inl ⟨rfl, rfl, rfl⟩
    · have hc : s.chan.complete = true := Oneshot.complete_of_outcome ho
      exact Or.inr ⟨r, hs, ho, hc, rfl⟩
    · exact Or.inl ⟨rfl, rfl, rfl⟩
  | init v => cases hl
  | dropInitializer => cases hl

/-- The initializer completes the channel and calls the waker in it. -/
theorem step_initializer {s s' : System T Task} {l : Label T Task} {x : Except InitDropped T}
    (hl : l.settles = some x) (h : step s l = some s') :
    s.chan.complete = false ∧
      (s.chan.data = none → s'.chan.outcome.map memoized = some x) ∧
      s' = { s with chan := s'.chan, woken := wake s.chan.rxTask s.woken } ∧
      s'.chan.complete = true := by
  cases l with
  | init v =>
    simp only [step] at h
    split at h
    · cases h
    · rename_i hc
      cases h
      cases hl
      exact ⟨Bool.eq_false_iff.2 hc, fun _ => rfl, rfl, rfl⟩
  | dropInitializer =>
    simp only [step] at h
    split at h
    · cases h
    · rename_i hc
      cases h
      cases hl
      refine ⟨Bool.eq_false_iff.2 hc, fun hd => ?_, rfl, rfl⟩
      rw [Oneshot.outcome_dropSender hd]
      rfl
  | readLocked t => cases hl
  | writeLocked t => cases hl

/-- The initializer acts once, and every poll from then on finds its result. -/
theorem step_settled {s s' : System T Task} {l : Label T Task} (hs : Inv s)
    (h : step s l = some s') :
    Inv s' ∧ settled s' = (settled s).or l.settles ∧ (l.settles.isSome → settled s = none) := by
  cases hl : l.settles with
  | none =>
    rcases step_task hl h with ⟨hc, hd, hst⟩ | ⟨r, hst, ho, hc, hst'⟩
    · refine ⟨⟨fun h => ?_, fun h => ?_⟩, ?_, by simp⟩
      · rw [hst, hs.waiting (hc ▸ h)]
      · rw [hd, hs.empty (hc ▸ h)]
      · simp [settled, hst, Oneshot.outcome, hc, hd]
    · refine ⟨⟨fun h => ?_, fun h => ?_⟩, ?_, by simp⟩
      · rw [hc] at h
        cases h
      · rw [hc] at h
        cases h
      · simp [settled, hst, hst', ho]
  | some x =>
    obtain ⟨hc, ho, hs', hc'⟩ := step_initializer hl h
    refine ⟨⟨fun h => ?_, fun h => ?_⟩, ?_, fun _ => (settled_eq_none hs).2 hc⟩
    · rw [hc'] at h
      cases h
    · rw [hc'] at h
      cases h
    · rw [(settled_eq_none hs).2 hc, hs', settled, hs.waiting hc]
      exact ho (hs.empty hc)

/-! ## Runs -/

/-- The results of the polls of a run, each with the task polled, in order. -/
def polls (ls : List (Label T Task)) : List (Task × Poll (Except InitDropped T)) :=
  observed step returned System.new ls

/-- What the polls of the receiver returned in a run, in order. -/
def channelPolls (ls : List (Label T Task)) : List (Poll (Except Canceled T)) :=
  observed step channelPolled System.new ls

/-- The result is settled by the one step of the initializer. -/
theorem settled_run {s : System T Task} {ls : List (Label T Task)}
    (h : run step System.new ls = some s) :
    Inv s ∧ ∀ x, settled s = some x ↔ ∃ l ∈ ls, l.settles = some x := by
  refine run_invariant_history (P := fun hist s =>
    Inv s ∧ ∀ x, settled s = some x ↔ ∃ l ∈ hist, l.settles = some x) ?_ ?_ h
  · rintro hist s l s' ⟨hs, ih⟩ hstep
    obtain ⟨hs', hset, honce⟩ := step_settled hs hstep
    refine ⟨hs', fun x => ?_⟩
    rw [hset]
    cases hl : l.settles with
    | none => simp [ih, hl]
    | some y =>
      have hnone : ¬∃ l ∈ hist, l.settles = some x := by
        rw [← ih x, honce (by simp [hl])]
        simp
      have hno : ∀ l ∈ hist, l.settles ≠ some x := fun l hm he => hnone ⟨l, hm, he⟩
      simp only [honce (by simp [hl]), Option.none_or, List.mem_append, List.mem_singleton]
      constructor
      · intro he
        exact ⟨l, Or.inr rfl, hl.trans he⟩
      · rintro ⟨l', hm | rfl, he⟩
        · exact (hno l' hm he).elim
        · exact hl.symm.trans he
  · exact ⟨inv_new, by simp [settled, System.new]⟩

/-- A ready poll anywhere in a run returns the result the run settles. -/
theorem settled_of_mem_polls {s : System T Task} {ls : List (Label T Task)}
    (h : run step System.new ls = some s) {t : Task} {x : Except InitDropped T}
    (hx : (t, .ready x) ∈ polls ls) : settled s = some x := by
  obtain ⟨pre, l, post, u, rfl, hu, hret⟩ := mem_observed hx
  obtain ⟨l', hm, he⟩ := ((settled_run hu).2 x).1 (settled_of_returned hret)
  exact ((settled_run h).2 x).2 ⟨l', List.mem_append_left _ hm, he⟩

/-- Once the result is settled no poll is left pending. -/
theorem returned_ne_pending {s : System T Task} {x : Except InitDropped T}
    (hs : settled s = some x) (l : Label T Task) (t : Task) :
    returned s l ≠ some (t, .pending) := by
  intro hret
  unfold settled at hs
  cases l <;> simp only [returned] at hret <;> cases hst : s.state <;> simp_all
  obtain ⟨r, hr, -⟩ := hs
  rw [Oneshot.poll_of_outcome hr] at hret
  simp [Poll.map] at hret

theorem waiting_of_channelPolled {s : System T Task} {l : Label T Task}
    {p : Poll (Except Canceled T)} (hp : channelPolled s l = some p) : s.state = .waiting := by
  cases l <;> cases hst : s.state <;> simp_all [channelPolled]

/-- The state waits after a step only if it waited before and the receiver, if polled, was
pending : a step that takes the outcome out of the channel memoizes it. -/
theorem waiting_of_step {s s' : System T Task} {l : Label T Task} (h : step s l = some s')
    (hw : s'.state = .waiting) :
    s.state = .waiting ∧ ∀ p, channelPolled s l = some p → p = .pending := by
  cases l with
  | readLocked t =>
    obtain ⟨-, p, rfl⟩ := step_readLocked h
    exact ⟨hw, fun p hp => nomatch hp⟩
  | writeLocked t =>
    rcases step_writeLocked h with ⟨v, hs, rfl⟩ | ⟨r, hs, ho, rfl⟩ | ⟨hs, hc, rfl⟩
    · exact absurd (hs.symm.trans hw) nofun
    · cases hw
    · refine ⟨hs, fun p hp => ?_⟩
      simp only [channelPolled, hs, Oneshot.poll_of_incomplete hc, Option.some.injEq] at hp
      exact hp.symm
  | init v =>
    obtain ⟨-, -, hs', -⟩ := step_initializer rfl h
    rw [hs'] at hw
    exact ⟨hw, fun p hp => nomatch hp⟩
  | dropInitializer =>
    obtain ⟨-, -, hs', -⟩ := step_initializer rfl h
    rw [hs'] at hw
    exact ⟨hw, fun p hp => nomatch hp⟩

/-- Every poll of the receiver but the last was pending, and the last is ready only if
its result is memoized. -/
theorem channelPolls_run {s : System T Task} {ls : List (Label T Task)}
    (h : run step System.new ls = some s) :
    (channelPolls ls).Pairwise (fun p _ => p = .pending) ∧
      (s.state = .waiting → ∀ p ∈ channelPolls ls, p = .pending) := by
  induction ls using List.reverseRecOn generalizing s with
  | nil => simp [channelPolls, observed]
  | append_singleton ls l ih =>
    obtain ⟨u, hu, hstep⟩ := run_concat_eq_some.1 h
    obtain ⟨hpair, hwait⟩ := ih hu
    have hobs : channelPolls (ls ++ [l]) = channelPolls ls ++ (channelPolled u l).toList := by
      simp [channelPolls, observed_append _ _ hu, observed, hstep]
    rw [hobs]
    constructor
    · cases hp : channelPolled u l with
      | none => simpa using hpair
      | some p =>
        simpa [List.pairwise_append] using
          ⟨hpair, hwait (waiting_of_channelPolled hp)⟩
    · intro hs p hm
      obtain ⟨hu', hp⟩ := waiting_of_step hstep hs
      rcases List.mem_append.1 hm with hm | hm
      · exact hwait hu' p hm
      · exact hp p (by simpa using hm)

/-- Agreement and stability of `DelayedInit::get`, for every interleaving of the steps of
any number of tasks with the initializer. A poll that is ready returns `Ok(v)` exactly when
`init(v)` was called and `Err(InitDropped)` exactly when the initializer was dropped
without it, so all such polls agree; a poll whose last step finds that the initializer has
acted is not pending; and the receiver is not polled again once it has yielded. -/
theorem get_agrees {s : System T Task} {ls : List (Label T Task)}
    (h : run step System.new ls = some s) :
    (∀ t t' x y, (t, .ready x) ∈ polls ls → (t', .ready y) ∈ polls ls → x = y) ∧
      (∀ t x, (t, .ready x) ∈ polls ls →
        (∀ v, x = .ok v ↔ .init v ∈ ls) ∧ (x = .error .initDropped ↔ .dropInitializer ∈ ls)) ∧
      (∀ pre l post u t, ls = pre ++ l :: post → run step System.new pre = some u →
        ((∃ v, .init v ∈ pre) ∨ .dropInitializer ∈ pre) → returned u l ≠ some (t, .pending)) ∧
      (channelPolls ls).Pairwise (fun p _ => p = .pending) := by
  have hset : ∀ x l, l ∈ ls → l.settles = some x → settled s = some x := fun x l hm he =>
    ((settled_run h).2 x).2 ⟨l, hm, he⟩
  refine ⟨fun t t' x y hx hy => ?_, fun t x hx => ?_, ?_, (channelPolls_run h).1⟩
  · exact Option.some.inj ((settled_of_mem_polls h hx).symm.trans (settled_of_mem_polls h hy))
  · have hx := settled_of_mem_polls h hx
    obtain ⟨l, hm, he⟩ := ((settled_run h).2 x).1 hx
    refine ⟨fun v => ⟨?_, fun hv => ?_⟩, ?_, fun hd => ?_⟩
    · rintro rfl
      cases l <;> cases he
      exact hm
    · exact Option.some.inj (hx.symm.trans (hset (.ok v) _ hv rfl))
    · rintro rfl
      cases l <;> cases he
      exact hm
    · exact Option.some.inj (hx.symm.trans (hset _ _ hd rfl))
  · rintro pre l post u t - hu hev
    have : ∃ x, settled u = some x := by
      rcases hev with ⟨v, hv⟩ | hd
      · exact ⟨.ok v, ((settled_run hu).2 _).2 ⟨_, hv, rfl⟩⟩
      · exact ⟨_, ((settled_run hu).2 _).2 ⟨_, hd, rfl⟩⟩
    obtain ⟨x, hx⟩ := this
    exact returned_ne_pending hx l t

/-- Two getters that both leave the read lock before either takes the write lock. -/
def writerRace : List (Label ℕ Bool) :=
  [.readLocked true, .readLocked false, .init 1, .writeLocked true, .writeLocked false]

theorem get_agrees_writerRace :
    polls writerRace = [(true, .ready (.ok 1)), (false, .ready (.ok 1))] ∧
      (∀ t x, (t, .ready x) ∈ polls writerRace → (x = .ok 1 ↔ .init 1 ∈ writerRace)) ∧
      (channelPolls writerRace).Pairwise (fun p _ => p = .pending) :=
  have h := get_agrees (show run step System.new writerRace = some _ from rfl)
  ⟨rfl, fun t x hx => (h.2.1 t x hx).1 1, h.2.2.2⟩

end DelayedInit

end CommonsOperator
