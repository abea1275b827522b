import CommonsOperator.RetryPhases

/-!
# The exit code of the test runner

`run` should return 0 only if the run has established that nothing is failing
(`Established`). It does unless it ends before it has a test to retry : a failed suite whose
log names no failed test, and a state file without a list of failed tests, both make
`initialize_run_mode` return `False`, which `run` takes for success. A state file may list
anything that is JSON as a test; the result is about such lists too (`ListedName`).
-/

set_option linter.unusedSectionVars false

namespace CommonsOperator.AutoRetryTests

open Program

variable {N : Type} [DecidableEq N] [TestNames N] {env : Env N} {args : Args}

/-- A retry of the test came to an end, with or without success. -/
def HasRun (runs : List (Run N)) (testName : N) (success : Bool) : Prop :=
  ∃ run ∈ runs, run.testName = testName ∧ run.attemptType ≠ .initial ∧ run.passed = success

/-- The state file has the list of failed tests. -/
def FailedTestsRead (file : JsonFile) (failedTests : List N) : Prop :=
  ∃ fields names, file = .json (.obj fields) ∧ Assoc.get? fields "failed_tests" = some names ∧
    testNamesOf names = .ok failedTests

/-- Each of the tests has passed a retry. -/
def AllRetried (runner : Runner N) (failedTests : List N) : Prop :=
  ∀ testName ∈ failedTests, HasRun runner.runs testName true

/-- The run has established that nothing is failing. -/
def Established (env : Env N) (args : Args) (runner : Runner N) : Prop :=
  match args.rerunFailed.filter (· ≠ "") with
  | some stateFile =>
    ∃ failedTests, FailedTestsRead (env.readJson stateFile) failedTests ∧
      AllRetried runner failedTests
  | none =>
    ∃ execution, env.initial = .ok execution ∧ (execution.success = true ∨
      failedTestsOf env execution ≠ [] ∧ AllRetried runner (failedTestsOf env execution))

/-- The JSON file has a list of failed tests, or something that cannot be asked for one. -/
def HasFailedTests : JsonFile → Prop
  | .json (.obj fields) => Assoc.get? fields "failed_tests" ≠ none
  | .json content => truthy content = true
  | _ => False

/-- The run comes to know of the tests to retry, if there are any : a failed suite names some
in its log, or the state file has a list of them. -/
def KnowsFailedTests (env : Env N) (args : Args) : Prop :=
  match args.rerunFailed.filter (· ≠ "") with
  | some stateFile => HasFailedTests (env.readJson stateFile)
  | none => ∀ execution, env.initial = .ok execution → execution.success = false →
    failedTestsOf env execution ≠ []

/-! ## The start of the run -/

/-- What is loaded from a state file : its list of failed tests, or no tests if it has none. -/
theorem loadFailedTestsFromState_eq_ok {file : JsonFile} {failedTests : List N} :
    loadFailedTestsFromState file = .ok failedTests ↔
      FailedTestsRead file failedTests ∨ failedTests = [] ∧ ¬HasFailedTests file := by
  -- a value that is not an object
  have hother : ∀ content, (∀ fields, content ≠ .obj fields) →
      (loadFailedTestsFromState (.json content) = .ok failedTests ↔
        FailedTestsRead (.json content) failedTests ∨
          failedTests = [] ∧ ¬truthy content = true) := by
    intro content hne
    have hread : ¬FailedTestsRead (.json content) failedTests := by
      rintro ⟨fields, names, he, -⟩
      exact hne fields (JsonFile.json.inj he)
    simp only [loadFailedTestsFromState, hread, false_or]
    split
    · rename_i ht
      cases content <;> simp_all
    · rename_i ht
      simp [ht, eq_comm]
  cases file with
  | missing => simp [loadFailedTestsFromState, FailedTestsRead, HasFailedTests, eq_comm]
  | unreadable => simp [loadFailedTestsFromState, FailedTestsRead, HasFailedTests, eq_comm]
  | json content =>
    cases content with
    | obj fields =>
      cases hget : Assoc.get? fields "failed_tests" with
      | none =>
        have hload : loadFailedTestsFromState (N := N) (.json (.obj fields)) = .ok [] := by
          simp only [loadFailedTestsFromState, hget]
          split <;> rfl
        simp [hload, FailedTestsRead, HasFailedTests, hget, eq_comm]
      | some names =>
        have hne : truthy (.obj fields) = true := by
          cases fields with
          | nil => cases hget
          | cons field fields => rfl
        simp [loadFailedTestsFromState, FailedTestsRead, HasFailedTests, hget, hne]
    | _ => exact hother _ (by simp)

/-- A new run without tests to retry has established that nothing is failing exactly if it knows
of the tests to retry. -/
theorem Begun.established_iff {s : Runner N} (h : Begun env args s) (hnil : s.failedTests = [])
    (runner : Runner N) : Established env args runner ↔ KnowsFailedTests env args := by
  cases hmode : args.rerunFailed.filter (· ≠ "") with
  | some stateFile =>
    simp only [Begun, Established, KnowsFailedTests, hmode] at h ⊢
    obtain ⟨failedTests, hload, rfl⟩ := h
    obtain rfl : failedTests = [] := hnil
    constructor
    · rintro ⟨failedTests, ⟨fields, names, hfile, hget, -⟩, -⟩
      simp [HasFailedTests, hfile, hget]
    · intro hknows
      have hread := (loadFailedTestsFromState_eq_ok.1 hload).resolve_right fun h => h.2 hknows
      exact ⟨[], hread, fun _ hmem => (List.not_mem_nil hmem).elim⟩
  | none =>
    simp only [Begun, Established, KnowsFailedTests, hmode] at h ⊢
    obtain ⟨execution, log, hinitial, rfl⟩ := h
    simp only [hinitial, Except.ok.injEq, exists_eq_left', forall_eq']
    cases hsuccess : execution.success with
    | true => simp
    | false =>
      have hnone : failedTestsOf env execution = [] := by simpa [hsuccess] using hnil
      simp [hnone]

/-- A run that goes on to the retries knows of its tests, and has established that nothing is
failing once they have passed. -/
theorem Begun.of_ne_nil {s : Runner N} (h : Begun env args s) (hne : s.failedTests ≠ []) :
    KnowsFailedTests env args ∧
      ∀ runner, AllRetried runner s.failedTests → Established env args runner := by
  cases hmode : args.rerunFailed.filter (· ≠ "") with
  | some stateFile =>
    simp only [Begun, Established, KnowsFailedTests, hmode] at h ⊢
    obtain ⟨failedTests, hload, rfl⟩ := h
    have hread := (loadFailedTestsFromState_eq_ok.1 hload).resolve_right fun h => hne h.1
    refine ⟨?_, fun runner hall => ⟨failedTests, hread, hall⟩⟩
    obtain ⟨fields, names, hfile, hget, -⟩ := hread
    simp [HasFailedTests, hfile, hget]
  | none =>
    simp only [Begun, Established, KnowsFailedTests, hmode] at h ⊢
    obtain ⟨execution, log, hinitial, rfl⟩ := h
    cases hsuccess : execution.success with
    | true => simp [hsuccess] at hne
    | false =>
      simp only [hsuccess, Bool.false_eq_true, if_false] at hne ⊢
      refine ⟨fun execution' hinitial' _ => ?_, fun runner hall => ?_⟩
      · obtain rfl := Except.ok.inj (hinitial.symm.trans hinitial')
        exact hne
      · exact ⟨execution, hinitial, Or.inr ⟨hne, hall⟩⟩

/-- A run whose start raises knows of its tests. -/
theorem BeginRaised.knowsFailedTests {message : String} {t : Runner N}
    (h : BeginRaised env args message t) : KnowsFailedTests env args := by
  cases hmode : args.rerunFailed.filter (· ≠ "") with
  | some stateFile =>
    simp only [BeginRaised, KnowsFailedTests, hmode] at h ⊢
    by_contra hnone
    have hload : loadFailedTestsFromState (N := N) (env.readJson stateFile) = .ok [] :=
      loadFailedTestsFromState_eq_ok.2 (Or.inr ⟨rfl, hnone⟩)
    cases h.1.symm.trans hload
  | none =>
    simp only [BeginRaised, KnowsFailedTests, hmode] at h ⊢
    intro execution hinitial
    cases h.1.symm.trans hinitial

/-! ## The exit code -/

/-- A test that is not summed up as failed has passed a retry. -/
theorem RetriesDone.hasRun {s u v t : Runner N} {parallelRuns serialRuns : List (Run N)}
    {allParallelResults allSerialResults : List (N × List (TestResult N))}
    (h : RetriesDone args s parallelRuns serialRuns allParallelResults allSerialResults u v t)
    {testName : N}
    (hstatus : (newSummary args v allParallelResults allSerialResults testName).finalStatus ≠
      .failed) : HasRun t.runs testName true := by
  have hruns : parallelRuns ++ serialRuns ⊆ t.runs := by
    obtain ⟨_, _, _, _, _, ht⟩ := h.retryRuns.state
    rw [ht]
    exact List.subset_append_right _ _
  have hany : anySuccess (resultsOf allParallelResults testName ++
      resultsOf allSerialResults testName) = true := by
    by_contra hnone
    simp [newSummary, summaryOf, finalStatusOf, initialResultOf, hnone] at hstatus
  rw [anySuccess, List.any_append, Bool.or_eq_true] at hany
  rcases hany with hany | hany
  · obtain ⟨run, hrun, hpassed⟩ := (h.parallel.anySuccess_iff testName).1 hany
    obtain ⟨hrun, hname⟩ := mem_runsOf.1 hrun
    exact ⟨run, hruns (List.mem_append_left _ hrun), hname,
      by simp [(h.parallel.fields run hrun).2.1], hpassed⟩
  · by_cases hfails : testName ∈ testsStillFailing s.failedTests allParallelResults
    · obtain ⟨n, -, hres, -⟩ := h.serial.retried testName hfails
      rw [hres] at hany
      obtain ⟨run, hrun, hpassed⟩ := anySuccess_filterMap.1 hany
      obtain ⟨hrun, hname⟩ := mem_runsOf.1 (mem_of_mem_sinceFirstAttempt hrun)
      exact ⟨run, hruns (List.mem_append_right _ hrun), hname,
        by simp [(h.serial.fields run hrun).2.1], hpassed⟩
    · rw [h.serial.other testName hfails] at hany
      cases hany

/-- Retries that end with exit code 0 have been passed by each of the tests. -/
theorem Ends.allRetried {s t : Runner N} (h : Ends env args s (.ok 0) t) :
    AllRetried t s.failedTests := by
  obtain ⟨hcode, -, _, _, _, _, _, _, hdone⟩ := h
  intro testName hmem
  have hget := (hdone.summaries testName).trans (if_pos hmem)
  exact hdone.hasRun (exitCodeOf_eq_zero_iff.1 hcode.symm _ (Assoc.mem_of_get? hget))

/-- When exit code 0 is sound. A new run, on any files, arguments and outcomes, returns 0 only
if it has established that nothing is failing, if and only if it comes to know of the tests to
retry. -/
theorem exit_code_sound_iff (env : Env ListedName) (args : Args) :
    (∀ runner, runNew env args = (.ok 0, runner) → Established env args runner) ↔
      KnowsFailedTests env args := by
  have hends := runNew_newEnds env args
  cases hrun : runNew env args with
  | mk result t =>
    rw [hrun] at hends
    simp only [Prod.mk.injEq, and_imp]
    cases hends with
    | early h hnil => simp [h.established_iff hnil]
    | raised h => simp [h.knowsFailedTests]
    | retried h hne hends =>
      obtain ⟨hknows, hestablished⟩ := h.of_ne_nil hne
      refine iff_of_true ?_ hknows
      rintro runner rfl rfl
      exact hestablished t hends.allRetried

/-- An execution that fails before it creates a namespace. -/
def failsToStart : Execution :=
  ⟨false, none, "Could not find failed step", "test-results/full_suite_initial.txt"⟩

/-- The cluster cannot be reached, so the suite fails and no test does. -/
theorem exit_code_zero_failsToStart :
    ¬∀ (env : Env ListedName) args runner, runNew env args = (.ok 0, runner) →
      Established env args runner := by
  intro h
  have hest := h (.always (.ok failsToStart) (.ok failsToStart) "connection refused")
    ⟨2, 1, 2, false, none⟩ _ rfl
  obtain ⟨execution, hinit, hest⟩ := hest
  obtain rfl := Except.ok.inj hinit
  rcases hest with hs | ⟨hne, -⟩
  · cases hs
  · exact hne rfl

end CommonsOperator.AutoRetryTests
