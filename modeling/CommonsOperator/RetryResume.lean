import CommonsOperator.RetryExitCode

/-!
# Resuming a run of the test runner

The states that can be resumed from are those that runs write, new ones and resumed ones
(`Interrupted`). Every one of them is written before any test is summed up, and a resumed run
looks for tests that have passed in the summaries only, so it keeps what is known to have
passed only if nothing is (`keeps_passes_iff`).
-/

set_option linter.unusedSectionVars false

namespace CommonsOperator.AutoRetryTests

open Program

variable {args : Args}

/-- The states that `save_state` writes in the runs of a chain, each resumed from the last
state written before it was interrupted. -/
inductive Interrupted (args : Args) : State String → Prop where
  | new (env : Env String) {state : State String} (h : state ∈ (runNew env args).2.saved) :
    Interrupted args state
  | resumed (env : Env String) {state state' : State String} (hs : Interrupted args state)
    (h : state' ∈ (runResumed env args state).2.saved) : Interrupted args state'

/-- Every test that has passed is not run again, and does not fail in the end. -/
def KeepsPasses (env : Env String) (args : Args) (state : State String) : Prop :=
  ∀ result ∈ state.allResults, result.success = true →
    (∀ run ∈ (runResumed env args state).2.runs, run.testName ≠ result.testName) ∧
      ∀ code, (runResumed env args state).1 = .ok code → ∃ summary,
        Assoc.get? (runResumed env args state).2.testSummaries result.testName = some summary ∧
          summary.finalStatus ≠ .failed

/-! ## The states of a chain of runs -/

/-- A state saved in the serial phase. No parallel attempts are left, and some test has a serial
attempt recorded, but by its counter attempts are left to it. -/
structure SavedInSerial (args : Args) (state : State String) : Prop where
  testSummaries : state.testSummaries = []
  parallel : parallelBudget args (loadState state Runner.new) = 0
  uncounted : ∃ testName ∈ state.failedTests,
    0 < serialBudget args state.serialAttemptsDone testName ∧ ∃ result ∈ state.allResults,
      result.attemptType = .serial ∧ result.testName = recordedName testName ∧ 1 ≤ result.attempt

theorem SavedInSerial.failedTests {state : State String} (h : SavedInSerial args state) :
    state.failedTests ≠ [] := by
  obtain ⟨testName, hmem, -⟩ := h.uncounted
  exact List.ne_nil_of_mem hmem

/-- The states saved by retries that start with the whole parallel budget, or with none of it. -/
theorem RetryRuns.savedInSerial {s t : Runner String} {parallelRuns serialRuns : List (Run String)}
    (h : RetryRuns args s parallelRuns serialRuns t) (hsaved : s.saved = [])
    (hsum : s.testSummaries = [])
    (hbudget : s.parallelAttemptsDone = 0 ∨ parallelBudget args s = 0) {state : State String}
    (hstate : state ∈ t.saved) : SavedInSerial args state := by
  obtain hmem | ⟨hf, hs, huncounted, hdone⟩ := h.saved state hstate
  · rw [hsaved] at hmem
    cases hmem
  · refine ⟨hs.trans hsum, ?_, ?_⟩
    · change (args.attemptsParallel - (state.parallelAttemptsDone : Int)).toNat = 0
      rw [hdone]
      unfold parallelBudget at hbudget ⊢
      split <;> omega
    · obtain ⟨run, hrun, htype, hattempt, ⟨result, hmem, hresult⟩, hleft⟩ := huncounted
      obtain ⟨hname, hnumber, htype'⟩ := Run.result_fields hresult
      refine ⟨run.testName, hf ▸ (h.serial run hrun).1, hleft, result, hmem, ?_, hname, ?_⟩
      · rw [htype', htype]
      · rw [hnumber]
        exact hattempt

/-- Every state of a chain was saved in the serial phase. -/
theorem Interrupted.savedInSerial {state : State String} (h : Interrupted args state) :
    SavedInSerial args state := by
  induction h with
  | new env hmem =>
    rcases runNew_ends env args with hinit | ⟨s, hs, hends⟩
    · rw [(hinit.budgets args).2.1] at hmem
      cases hmem
    · obtain ⟨_, hsaved, hsum, -, -⟩ := hs.budgets args
      obtain ⟨parallelRuns, serialRuns, h⟩ := hends.retryRuns
      refine h.savedInSerial hsaved hsum (Or.inl ?_) hmem
      obtain ⟨_, _, _, _, he⟩ := hs.state
      rw [he]
      rfl
  | resumed env hs hmem ih =>
    obtain ⟨parallelRuns, serialRuns, h⟩ :=
      (runResumed_ends env args ih.failedTests ih.testSummaries).retryRuns
    exact h.savedInSerial rfl ih.testSummaries (Or.inr ih.parallel) hmem

/-- The states that are written in the runs of a chain, each of which has arguments of its own. -/
inductive Saved : State String → Prop where
  | new (env : Env String) (args : Args) {state : State String}
    (h : state ∈ (runNew env args).2.saved) : Saved state
  | resumed (env : Env String) (args : Args) {state state' : State String} (hs : Saved state)
    (h : state' ∈ (runResumed env args state).2.saved) : Saved state'

/-- A state that was saved in the middle of the retries. -/
structure Resumable (state : State String) : Prop where
  failedTests : state.failedTests ≠ []
  testSummaries : state.testSummaries = []

theorem RetryRuns.resumable {s t : Runner String} {parallelRuns serialRuns : List (Run String)}
    (h : RetryRuns args s parallelRuns serialRuns t) (hsaved : s.saved = [])
    (hsum : s.testSummaries = []) {state : State String} (hstate : state ∈ t.saved) :
    Resumable state := by
  obtain hmem | ⟨hf, hs, ⟨run, hrun, -⟩, -⟩ := h.saved state hstate
  · rw [hsaved] at hmem
    cases hmem
  · exact ⟨hf ▸ List.ne_nil_of_mem (h.serial run hrun).1, hs.trans hsum⟩

theorem Saved.resumable {state : State String} (h : Saved state) : Resumable state := by
  induction h with
  | new env args hmem =>
    rcases runNew_ends env args with hinit | ⟨s, hs, hends⟩
    · rw [(hinit.budgets args).2.1] at hmem
      cases hmem
    · obtain ⟨-, hsaved, hsum, -, -⟩ := hs.budgets args
      obtain ⟨parallelRuns, serialRuns, h⟩ := hends.retryRuns
      exact h.resumable hsaved hsum hmem
  | resumed env args hs hmem ih =>
    obtain ⟨parallelRuns, serialRuns, h⟩ :=
      (runResumed_ends env args ih.failedTests ih.testSummaries).retryRuns
    exact h.resumable rfl ih.testSummaries hmem

/-! ## Passes are forgotten -/

/-- A resumed run in which no execution raises comes to the end of its retries. -/
theorem SavedInSerial.retriesDone {env : Env String} {state : State String}
    (h : SavedInSerial args state) (henv : ∀ message, ¬SerialRaises env message) :
    ∃ code, (runResumed env args state).1 = .ok code ∧
      ∃ parallelRuns serialRuns allParallelResults allSerialResults u v,
        RetriesDone args (loadState state Runner.new) parallelRuns serialRuns allParallelResults
          allSerialResults u v (runResumed env args state).2 := by
  have hends := runResumed_ends env args h.failedTests h.testSummaries
  cases hr : (runResumed env args state).1 with
  | error message =>
    rw [hr] at hends
    obtain ⟨_, _, _, _, _, _, ⟨hpos, -⟩ | ⟨-, hserial⟩⟩ := hends
    · exact absurd h.parallel (Nat.pos_iff_ne_zero.1 hpos)
    · exact (henv message hserial.raises).elim
  | ok code =>
    rw [hr] at hends
    exact ⟨code, rfl, hends.2.2⟩

/-- A resumed run in which no execution raises forgets every pass : either the test is run
again, or it fails in the end. -/
theorem not_keepsPasses {env : Env String} {state : State String} (h : SavedInSerial args state)
    (henv : ∀ message, ¬SerialRaises env message) {result : TestResult String}
    (hmem : result ∈ state.allResults) (hs : result.success = true) :
    ¬KeepsPasses env args state := by
  intro hkeeps
  obtain ⟨hruns, hsummary⟩ := hkeeps result hmem hs
  obtain ⟨code, hcode, _, _, _, _, _, v, hdone⟩ := h.retriesDone henv
  obtain ⟨summary, hget, hstatus⟩ := hsummary code hcode
  have hsummaries := hdone.summaries result.testName
  rw [hget] at hsummaries
  split at hsummaries
  · rw [Option.some.inj hsummaries] at hstatus
    obtain ⟨run, hrun, hname, -⟩ := hdone.hasRun hstatus
    exact hruns run hrun hname
  · cases hsummaries

theorem keepsPasses_of_noPass {env : Env String} {state : State String}
    (h : ∀ result ∈ state.allResults, result.success = false) : KeepsPasses env args state := by
  intro result hmem hs
  rw [h result hmem] at hs
  cases hs

/-- All executions fail. -/
def allFail : Env String :=
  .always (.ok failsToStart) (.ok failsToStart) ""

theorem not_serialRaises_always {initial : Except String Execution} {execution : Execution}
    {log : String} (message : String) :
    ¬SerialRaises (N := String) (.always initial (.ok execution) log) message := by
  rintro ⟨place, testName, attempt, he⟩
  rw [outcomeOf_text] at he
  cases he

/-- When passes are kept. A run resumed from a state of the chain keeps what has passed, however
its attempts end, if and only if nothing has. The same holds of each single run in which no
serial attempt raises. -/
theorem keeps_passes_iff {state : State String} (h : Interrupted args state) :
    ((∀ env, KeepsPasses env args state) ↔
        ∀ result ∈ state.allResults, result.success = false) ∧
      ∀ env, (∀ message, ¬SerialRaises env message) →
        (KeepsPasses env args state ↔ ∀ result ∈ state.allResults, result.success = false) := by
  have hforget : ∀ env, (∀ message, ¬SerialRaises env message) → KeepsPasses env args state →
      ∀ result ∈ state.allResults, result.success = false := by
    intro env henv hkeeps result hmem
    by_contra hs
    exact not_keepsPasses h.savedInSerial henv hmem (Bool.not_eq_false _ ▸ hs) hkeeps
  have hraises : ∀ message, ¬SerialRaises allFail message := not_serialRaises_always
  exact ⟨⟨fun hkeeps => hforget allFail hraises (hkeeps allFail),
      fun hfailed _ => keepsPasses_of_noPass hfailed⟩,
    fun env henv => ⟨hforget env henv, keepsPasses_of_noPass⟩⟩

/-- The log of a suite in which one test has failed. -/
def smokeLog : String :=
  "--- FAIL: kuttl/harness/smoke (3.14s)"

/-- One serial attempt for each failed test. -/
def oneSerialAttempt : Args :=
  ⟨2, 0, 1, false, none⟩

/-- The state written after the attempt of the test. -/
def afterAttempt (retry : Execution) : List (State String) :=
  (runNew (.always (.ok failsToStart) (.ok retry) smokeLog) oneSerialAttempt).2.saved

theorem keeps_passes_failedAttempt :
    ∃ state ∈ afterAttempt failsToStart, ∀ env, KeepsPasses env oneSerialAttempt state := by
  have hfailed : ((afterAttempt failsToStart).any fun state =>
      state.allResults.all fun result => !result.success) = true := by decide +kernel
  obtain ⟨state, hstate, hfailed⟩ := List.any_eq_true.1 hfailed
  refine ⟨state, hstate, (keeps_passes_iff (.new _ hstate)).1.2 fun result hmem => ?_⟩
  simpa using List.all_eq_true.1 hfailed result hmem

/-- An execution of the test that passes. -/
def passes : Execution :=
  ⟨true, some "kuttl-test-smoke", "", "test-results/retries/smoke_attempt_1_serial.txt"⟩

theorem forgets_passes_passedAttempt :
    ¬∀ args state, Interrupted args state → ∀ env, KeepsPasses env args state := by
  intro h
  have hagain : ((afterAttempt passes).any fun state => state.allResults.any fun result =>
      result.success && (runResumed allFail oneSerialAttempt state).2.runs.any fun run =>
        run.testName = result.testName) = true := by decide +kernel
  obtain ⟨state, hstate, hagain⟩ := List.any_eq_true.1 hagain
  obtain ⟨result, hmem, hagain⟩ := List.any_eq_true.1 hagain
  obtain ⟨hs, hagain⟩ := Bool.and_eq_true_iff.1 hagain
  obtain ⟨run, hrun, hname⟩ := List.any_eq_true.1 hagain
  have hkeeps := h oneSerialAttempt state (.new _ hstate) allFail result hmem hs
  exact hkeeps.1 run hrun (of_decide_eq_true hname)

end CommonsOperator.AutoRetryTests
