import CommonsOperator.DelayedInit

/-!
# Wake-ups of the delayed initializer

All getters of a `DelayedInit` poll one receiver, and a receiver keeps one waker. A getter
whose poll is pending overwrites the waker of every getter that waits already, and the
initializer wakes only the last one. `no_lost_wakeup_iff` : nobody is left waiting exactly
when, at the moment the initializer acts, no task waits but the one in the slot.
-/

set_option linter.unusedSectionVars false

namespace CommonsOperator.DelayedInit

open Transition

variable {T Task : Type*} [DecidableEq Task]

/-- No waiting task has a wake-up it has yet to run for. -/
def Quiescent (s : System T Task) : Prop :=
  ∀ t, s.parked t = true → s.woken t = false

/-- Once the initializer has acted and every wake-up has been followed, nobody waits. -/
def NoLostWakeup (s : System T Task) : Prop :=
  s.chan.complete = true → Quiescent s → ∀ t, s.parked t = false

/-- Every waiting task has its waker in the slot. -/
def OnlyLastWaits (s : System T Task) : Prop :=
  ∀ t, s.parked t = true → s.chan.rxTask = some t

/-- The initializer acts while only the task in the slot waits. -/
def SettlesForLast (s : System T Task) (l : Label T Task) : Prop :=
  l.settles.isSome → OnlyLastWaits s

/-- Wakers are called by the initializer only, and no task waits inside a poll. -/
structure WakeInv (s : System T Task) : Prop where
  inv : Inv s
  woken : s.chan.complete = false → ∀ t, s.woken t = false
  idle : ∀ t, s.parked t = true → s.point t = .idle

theorem wakeInv_new : WakeInv (System.new : System T Task) :=
  ⟨inv_new, fun _ _ => rfl, fun _ _ => rfl⟩

theorem update_eq_true {f : Task → Bool} {t u : Task} {b : Bool}
    (h : Function.update f t b u = true) : u = t ∧ b = true ∨ u ≠ t ∧ f u = true := by
  by_cases hu : u = t
  · subst hu
    exact Or.inl ⟨rfl, by simpa using h⟩
  · exact Or.inr ⟨hu, by simpa [hu] using h⟩

theorem wakeInv_step {s s' : System T Task} {l : Label T Task} (hs : WakeInv s)
    (h : step s l = some s') : WakeInv s' := by
  have hinv := (step_settled hs.inv h).1
  cases l with
  | readLocked t =>
    obtain ⟨-, p, rfl⟩ := step_readLocked h
    refine ⟨hinv, fun hc u => ?_, fun u hu => ?_⟩
    · by_cases hut : u = t <;> simp [hut, hs.woken hc]
    · obtain ⟨-, hb⟩ | ⟨hut, hu⟩ := update_eq_true hu
      · cases hb
      · simpa [hut] using hs.idle u hu
  | writeLocked t =>
    rcases step_writeLocked h with ⟨v, -, rfl⟩ | ⟨r, -, -, rfl⟩ | ⟨-, -, rfl⟩
    · refine ⟨hinv, hs.woken, fun u hu => ?_⟩
      by_cases hut : u = t <;> simp [hut, hs.idle u hu]
    · refine ⟨hinv, hs.woken, fun u hu => ?_⟩
      by_cases hut : u = t <;> simp [hut, hs.idle u hu]
    · refine ⟨hinv, hs.woken, fun u hu => ?_⟩
      obtain ⟨rfl, -⟩ | ⟨hut, hu⟩ := update_eq_true hu
      · simp
      · simpa [hut] using hs.idle u hu
  | init v =>
    obtain ⟨-, -, hs', hc'⟩ := step_initializer rfl h
    refine ⟨hinv, fun hc => ?_, ?_⟩
    · rw [hc'] at hc
      cases hc
    · rw [hs']
      exact hs.idle
  | dropInitializer =>
    obtain ⟨-, -, hs', hc'⟩ := step_initializer rfl h
    refine ⟨hinv, fun hc => ?_, ?_⟩
    · rw [hc'] at hc
      cases hc
    · rw [hs']
      exact hs.idle

theorem wakeInv_run {s : System T Task} {ls : List (Label T Task)}
    (h : run step System.new ls = some s) : WakeInv s :=
  run_invariant (fun _ _ _ => wakeInv_step) wakeInv_new h

/-! ## When every waiting task is woken -/

/-- Every task that waits although the initializer has acted has had its waker called. -/
def WaitersWoken (s : System T Task) : Prop :=
  s.chan.complete = true → ∀ t, s.parked t = true → s.woken t = true

theorem WaitersWoken.noLostWakeup {s : System T Task} (h : WaitersWoken s) : NoLostWakeup s :=
  fun hc hq t => Bool.eq_false_iff.2 fun ht => nomatch (h hc t ht).symm.trans (hq t ht)

theorem waitersWoken_step {s s' : System T Task} {l : Label T Task} (hl : SettlesForLast s l)
    (hs : WaitersWoken s) (h : step s l = some s') : WaitersWoken s' := by
  cases hset : l.settles with
  | some x =>
    obtain ⟨-, -, hs', -⟩ := step_initializer hset h
    intro _ t ht
    rw [hs'] at ht ⊢
    simp [wake, hl (by simp [hset]) t ht]
  | none =>
    cases l with
    | readLocked t =>
      obtain ⟨-, p, rfl⟩ := step_readLocked h
      intro hc u hu
      obtain ⟨-, hb⟩ | ⟨hut, hu⟩ := update_eq_true hu
      · cases hb
      · simpa [hut] using hs hc u hu
    | writeLocked t =>
      rcases step_writeLocked h with ⟨v, -, rfl⟩ | ⟨r, -, -, rfl⟩ | ⟨-, hc, rfl⟩
      · exact hs
      · exact hs
      · intro hc'
        exact absurd (hc.symm.trans hc') Bool.false_ne_true
    | init v => cases hset
    | dropInitializer => cases hset

theorem waitersWoken_run {s s' : System T Task} {ls : List (Label T Task)}
    (hok : Along step SettlesForLast s ls) (hs : WaitersWoken s)
    (h : run step s ls = some s') : WaitersWoken s' :=
  hok.run_invariant (fun _ _ _ hs hl h => waitersWoken_step hl hs h) hs h

/-- The initializer acts only once. -/
theorem complete_step {s s' : System T Task} {l : Label T Task} (hc : s.chan.complete = true)
    (h : step s l = some s') : l.settles = none ∧ s'.chan.complete = true := by
  cases hl : l.settles with
  | none =>
    rcases step_task hl h with ⟨hc', -, -⟩ | ⟨-, -, -, hc', -⟩
    · exact ⟨rfl, hc'.trans hc⟩
    · exact ⟨rfl, hc'⟩
  | some x => exact absurd ((step_initializer hl h).1.symm.trans hc) Bool.false_ne_true

theorem waitersWoken_run_of_complete {s s' : System T Task} {ls : List (Label T Task)}
    (hc : s.chan.complete = true) (hs : WaitersWoken s) (h : run step s ls = some s') :
    WaitersWoken s' := by
  refine (run_invariant (P := fun s => s.chan.complete = true ∧ WaitersWoken s) ?_ ⟨hc, hs⟩ h).2
  rintro s l s' ⟨hc, hs⟩ h
  obtain ⟨hl, hc'⟩ := complete_step hc h
  exact ⟨hc', waitersWoken_step (fun hset => by simp [hl] at hset) hs h⟩

/-! ## When some waiting task is forgotten -/

/-- A task polled after the initializer has acted does not wait, and no other task
notices. -/
theorem poll_of_complete {s : System T Task} (hs : WakeInv s) (hc : s.chan.complete = true)
    {t : Task} (ht : s.parked t = true) :
    ∃ ls s', run step s ls = some s' ∧ s'.chan.complete = true ∧ s'.parked t = false ∧
      ∀ u, u ≠ t → s'.parked u = s.parked u ∧ s'.woken u = s.woken u := by
  have hp := hs.idle t ht
  cases hst : s.state with
  | ready v =>
    have hread : step s (.readLocked t) = some { s with
        parked := Function.update s.parked t false
        woken := Function.update s.woken t false } := by
      simp [step, hp, hst]
    refine ⟨[.readLocked t], _, run_cons_eq_some.2 ⟨_, hread, rfl⟩, hc, by simp, fun u hu => ?_⟩
    simp [hu]
  | waiting =>
    obtain ⟨r, hr⟩ : ∃ r, s.chan.outcome = some r := by
      rw [← Option.ne_none_iff_exists', ne_eq, Oneshot.outcome_eq_none, hc]
      exact Bool.noConfusion
    have hread : step s (.readLocked t) = some { s with
        parked := Function.update s.parked t false
        woken := Function.update s.woken t false
        point := Function.update s.point t .slowPath } := by
      simp [step, hp, hst]
    refine ⟨[.readLocked t, .writeLocked t], { s with
      parked := Function.update s.parked t false
      woken := Function.update s.woken t false
      point := Function.update s.point t .idle
      chan := { s.chan with data := none }
      state := .ready (memoized r) }, run_cons_eq_some.2 ⟨_, hread, ?_⟩, hc, by simp,
      fun u hu => ?_⟩
    · simp [run, step, hst, Oneshot.poll_of_outcome hr]
    · simp [hu]

/-- A waiting task whose waker is not in the slot when the initializer acts is never
woken : once the task in the slot has run, nothing is left to run and it still waits. -/
theorem lost_of_not_onlyLastWaits {s s' : System T Task} (hs : WakeInv s) {l : Label T Task}
    {x : Except InitDropped T} (hl : l.settles = some x) (h : step s l = some s') {t : Task}
    (ht : s.parked t = true) (hne : s.chan.rxTask ≠ some t) :
    ∃ ms s'', run step s' ms = some s'' ∧ ¬NoLostWakeup s'' := by
  obtain ⟨hc, -, hs', hc'⟩ := step_initializer hl h
  have hparked : s'.parked = s.parked := by rw [hs']
  have hwoken : s'.woken = wake s.chan.rxTask s.woken := by rw [hs']
  have hquiet : ∀ u, s.chan.rxTask ≠ some u → s'.woken u = false := by
    intro u hu
    rw [hwoken]
    cases hr : s.chan.rxTask with
    | none => exact hs.woken hc u
    | some w =>
      have huw : u ≠ w := fun e => hu (by rw [hr, e])
      simp [wake, huw, hs.woken hc u]
  by_cases hlast : ∃ w, s.chan.rxTask = some w ∧ s.parked w = true
  · obtain ⟨w, hw, hpw⟩ := hlast
    obtain ⟨ms, s'', hrun, hc'', hw', hother⟩ :=
      poll_of_complete (wakeInv_step hs h) hc' (hparked ▸ hpw)
    have htw : t ≠ w := fun e => hne (by rw [hw, e])
    refine ⟨ms, s'', hrun, fun hno => ?_⟩
    have hquiet'' : Quiescent s'' := by
      intro u hu
      have huw : u ≠ w := fun e => by simp [e, hw'] at hu
      rw [(hother u huw).2]
      exact hquiet u fun e => huw (Option.some.inj (e.symm.trans hw))
    have := hno hc'' hquiet'' t
    rw [(hother t htw).1, hparked, ht] at this
    cases this
  · refine ⟨[], s', rfl, fun hno => ?_⟩
    have hquiet' : Quiescent s' := by
      intro u hu
      exact hquiet u fun e => hlast ⟨u, e, hparked ▸ hu⟩
    have := hno hc' hquiet' t
    rw [hparked, ht] at this
    cases this

/-! ## The exact condition -/

/-- Wake-ups of `DelayedInit`. In a run in which the initializer acts while no task waits
but the one whose waker is in the slot, no wake-up is lost; and that is exact : if another
task waits at that moment, some continuation leaves it waiting for ever. -/
theorem no_lost_wakeup_iff {s : System T Task} {ls : List (Label T Task)}
    (h : run step System.new ls = some s) :
    (Along step SettlesForLast System.new ls → WaitersWoken s ∧ NoLostWakeup s) ∧
      ∀ l s', l.settles.isSome → step s l = some s' →
        ((∀ ms s'', run step s' ms = some s'' → NoLostWakeup s'') ↔ OnlyLastWaits s) := by
  constructor
  · intro hok
    have hw : WaitersWoken s := waitersWoken_run hok (fun hc => nomatch hc) h
    exact ⟨hw, hw.noLostWakeup⟩
  · intro l s' hl hstep
    obtain ⟨x, hx⟩ := Option.isSome_iff_exists.1 hl
    have hc := (step_initializer hx hstep).1
    constructor
    · intro hall t ht
      by_contra hne
      obtain ⟨ms, s'', hrun, hlost⟩ := lost_of_not_onlyLastWaits (wakeInv_run h) hx hstep ht hne
      exact hlost (hall ms s'' hrun)
    · intro honly ms s'' hrun
      have hw : WaitersWoken s := fun hc' => absurd (hc.symm.trans hc') nofun
      have hw' := waitersWoken_step (fun _ => honly) hw hstep
      have hc' := (step_initializer hx hstep).2.2.2
      exact (waitersWoken_run_of_complete hc' hw' hrun).noLostWakeup

theorem no_lost_wakeup_one_getter :
    ∃ s', run step (System.new : System ℕ Bool) [.readLocked true, .writeLocked true, .init 1] =
        some s' ∧ ∀ ms s'', run step s' ms = some s'' → NoLostWakeup s'' := by
  have hrun : run step (System.new : System ℕ Bool) [.readLocked true, .writeLocked true] =
      some _ := rfl
  refine ⟨_, rfl, ((no_lost_wakeup_iff hrun).2 (.init 1) _ rfl rfl).2 fun t ht => ?_⟩
  cases t <;> first | rfl | cases ht

/-- Two getters wait, the value is sent, and the one that polled last runs. -/
def twoGetters : List (Label ℕ Bool) :=
  [.readLocked true, .writeLocked true, .readLocked false, .writeLocked false, .init 1,
    .readLocked false, .writeLocked false]

theorem lost_wakeup_twoGetters :
    ¬∀ (ls : List (Label ℕ Bool)) s, run step System.new ls = some s → NoLostWakeup s := by
  intro h
  have hq := h twoGetters _ rfl rfl (fun t _ => by cases t <;> rfl) true
  cases hq

end CommonsOperator.DelayedInit
