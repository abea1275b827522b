import CommonsOperator.RetrySerialTrace

/-!
# All retries of a run, and the whole of it

`wp_executeTestRetries_trace` puts the two phases together : at their end each failed test is
summed up, in the order of the list (`RetriesDone`), or one of them has raised (`RetriesRaised`).
`wp_initializeRunMode` is what comes before them in a new run, and `runNew_newEnds` and
`runResumed_ends` say how runs end. All other facts about runs are drawn from these.
-/

set_option linter.unusedSectionVars false

namespace CommonsOperator.AutoRetryTests

open Program

variable {N : Type} [DecidableEq N] [TestNames N]

section

variable {env : Env N} {args : Args}

/-! ## Summing up -/

/-- The summary a test without one gets. -/
def newSummary (args : Args) (runner : Runner N)
    (allParallelResults allSerialResults : List (N × List (TestResult N))) (testName : N) :
    TestSummary N :=
  summaryOf args testName (initialResultOf runner testName)
    (resultsOf allParallelResults testName ++ resultsOf allSerialResults testName)

/-- The tests of `done` are summed up, those that had no summary in `s`. -/
structure SummedIn (args : Args) (s : Runner N)
    (allParallelResults allSerialResults : List (N × List (TestResult N))) (done : List N)
    (testSummaries : List (N × TestSummary N)) : Prop where
  get? : ∀ testName, Assoc.get? testSummaries testName =
    (Assoc.get? s.testSummaries testName).or
      (if testName ∈ done then
        some (newSummary args s allParallelResults allSerialResults testName)
      else none)
  keys : s.testSummaries = [] → done.Nodup → testSummaries.map Prod.fst = done

section

variable {s : Runner N} {allParallelResults allSerialResults : List (N × List (TestResult N))}
  {done : List N} {testSummaries : List (N × TestSummary N)} {testName : N}

/-- A test that has a summary keeps it. -/
theorem SummedIn.skip
    (h : SummedIn args s allParallelResults allSerialResults done testSummaries)
    (hsome : (Assoc.get? testSummaries testName).isSome) :
    SummedIn args s allParallelResults allSerialResults (done ++ [testName]) testSummaries where
  get? testName' := by
    by_cases hne : testName' = testName
    · subst hne
      rw [h.get? testName'] at hsome ⊢
      split
      · simp
      · rename_i hnew
        obtain ⟨summary, hs⟩ :
            ∃ summary, Assoc.get? s.testSummaries testName' = some summary := by
          simpa [hnew, Option.isSome_iff_exists] using hsome
        simp [hs]
    · simp [h.get? testName', hne]
  keys hs hnodup := by
    have hnew : testName ∉ testSummaries.map Prod.fst := by
      rw [h.keys hs (List.nodup_append.1 hnodup).1]
      exact fun hmem => (List.nodup_append.1 hnodup).2.2 _ hmem _ List.mem_cons_self rfl
    rw [Assoc.get?_eq_none hnew] at hsome
    cases hsome

theorem SummedIn.concat
    (h : SummedIn args s allParallelResults allSerialResults done testSummaries)
    (hnone : Assoc.get? testSummaries testName = none) :
    SummedIn args s allParallelResults allSerialResults (done ++ [testName])
      (Assoc.set testSummaries testName
        (newSummary args s allParallelResults allSerialResults testName)) where
  get? testName' := by
    rw [Assoc.get?_set]
    split
    · rename_i he
      subst he
      rw [h.get? testName, Option.or_eq_none_iff] at hnone
      simp [hnone.1]
    · rename_i hne
      simp [h.get? testName', Ne.symm hne]
  keys hs hnodup := by
    have hkeys := h.keys hs (List.nodup_append.1 hnodup).1
    have hnew : testName ∉ testSummaries.map Prod.fst := by
      rw [hkeys]
      exact fun hmem => (List.nodup_append.1 hnodup).2.2 _ hmem _ List.mem_cons_self rfl
    rw [Assoc.set_of_notMem _ hnew, List.map_append, hkeys]
    rfl

end

/-- Each failed test without a summary gets one. -/
theorem wp_processAllTestResults
    {allParallelResults allSerialResults : List (N × List (TestResult N))} {s : Runner N}
    {X : String → Runner N → Prop} :
    wp (processAllTestResults args allParallelResults allSerialResults)
      (fun _ t => ∃ testSummaries, t = { s with testSummaries } ∧
        SummedIn args s allParallelResults allSerialResults s.failedTests testSummaries) X s := by
  simp only [processAllTestResults, wp_bind, wp_get]
  refine wp_forM (I := fun done t => ∃ testSummaries, t = { s with testSummaries } ∧
    SummedIn args s allParallelResults allSerialResults done testSummaries) ?_
    ⟨s.testSummaries, rfl, by simp, fun hs _ => by simp [hs]⟩
  rintro done testName rest - _ ⟨testSummaries, rfl, hsum⟩
  simp only [processTestResults, wp_bind, wp_get]
  split
  · rename_i hsome
    exact ⟨testSummaries, rfl, hsum.skip hsome⟩
  · rename_i hnone
    exact ⟨_, rfl, hsum.concat (Option.not_isSome_iff_eq_none.1 hnone)⟩

/-- The exit code of a run that has summed up its tests. -/
def exitCodeOf (t : Runner N) : Int :=
  if (t.testSummaries.filter fun summary => summary.2.finalStatus = .failed).length = 0 then 0
  else 1

theorem wp_finalizeAndReport {s : Runner N} {X : String → Runner N → Prop} :
    wp finalizeAndReport (fun code t => code = exitCodeOf t ∧
      t = { s with reported := s.reported ++ [s.testSummaries] }) X s := by
  simp only [finalizeAndReport, generateAndSaveFinalReport, wp_bind, wp_modify, wp_get, wp_pure]
  exact ⟨rfl, trivial⟩

theorem exitCodeOf_eq_zero_iff {t : Runner N} :
    exitCodeOf t = 0 ↔ ∀ summary ∈ t.testSummaries, summary.2.finalStatus ≠ .failed := by
  have hnone := @List.filter_eq_nil_iff _
    (fun summary : N × TestSummary N => decide (summary.2.finalStatus = .failed)) t.testSummaries
  rw [← List.length_eq_zero_iff] at hnone
  simp only [decide_eq_true_eq] at hnone
  rw [← hnone, exitCodeOf]
  split
  · rename_i hzero
    exact iff_of_true rfl hzero
  · rename_i hpos
    exact iff_of_false (by decide) hpos

/-! ## All retries -/

/-- The retries of a run are done, from `s` on, and all tests are summed up. -/
structure RetriesDone (args : Args) (s : Runner N) (parallelRuns serialRuns : List (Run N))
    (allParallelResults allSerialResults : List (N × List (TestResult N))) (u v t : Runner N) :
    Prop where
  parallel : ParallelPhase args s.failedTests (decide (0 < args.attemptsSerial))
    (parallelBudget args s) s (parallelBudget args s) parallelRuns allParallelResults u
  serial : SerialPhase args (testsStillFailing s.failedTests allParallelResults) u serialRuns
    allSerialResults v
  state : t = { v with testSummaries := t.testSummaries, reported := t.reported }
  summaries : ∀ testName, Assoc.get? t.testSummaries testName =
    if testName ∈ s.failedTests then
      some (newSummary args v allParallelResults allSerialResults testName)
    else none
  keys : s.failedTests.Nodup → t.testSummaries.map Prod.fst = s.failedTests

theorem RetriesDone.report {s u v t : Runner N} {parallelRuns serialRuns : List (Run N)}
    {allParallelResults allSerialResults : List (N × List (TestResult N))}
    (h : RetriesDone args s parallelRuns serialRuns allParallelResults allSerialResults u v t)
    (reported : List (List (N × TestSummary N))) :
    RetriesDone args s parallelRuns serialRuns allParallelResults allSerialResults u v
      { t with reported } where
  parallel := h.parallel
  serial := h.serial
  state := by
    rw [h.state]
  summaries := h.summaries
  keys := h.keys

/-- The retries of a run have raised, in the parallel phase or in the serial phase. -/
def RetriesRaised (env : Env N) (args : Args) (s : Runner N)
    (parallelRuns serialRuns : List (Run N)) (message : String) (t : Runner N) : Prop :=
  ∃ k allParallelResults u, ParallelPhase args s.failedTests (decide (0 < args.attemptsSerial))
    (parallelBudget args s) s k parallelRuns allParallelResults u ∧
      (0 < parallelBudget args s ∧ args.parallel ≤ 0 ∧ serialRuns = [] ∧ t = u ∨
        k = parallelBudget args s ∧ SerialPhaseRaised env args
          (testsStillFailing s.failedTests allParallelResults) u serialRuns message t)

/-- The retries, of tests none of which has a summary yet. -/
theorem wp_executeTestRetries_trace {s : Runner N} (hs : s.testSummaries = []) :
    wp (executeTestRetries env args)
      (fun go t => go = true ∧ t.reported = s.reported ∧
        ∃ parallelRuns serialRuns allParallelResults allSerialResults u v,
          RetriesDone args s parallelRuns serialRuns allParallelResults allSerialResults u v t)
      (fun message t => ∃ parallelRuns serialRuns,
        RetriesRaised env args s parallelRuns serialRuns message t) s := by
  simp only [executeTestRetries, wp_bind, wp_pure]
  refine wp_mono (wp_executeParallelRetries_trace hs) ?_ ?_
  · rintro allParallelResults u ⟨parallelRuns, hparallel⟩
    have hfailed : u.failedTests = s.failedTests := by
      rw [hparallel.state]
      rfl
    have hsummaries : u.testSummaries = [] := by
      rw [hparallel.state]
      exact hs
    refine wp_mono (wp_executeSerialRetries_trace hsummaries) ?_ ?_
    · rintro allSerialResults v ⟨serialRuns, hserial⟩
      refine wp_mono wp_processAllTestResults ?_ fun _ _ h => h
      rintro _ _ ⟨testSummaries, rfl, hsum⟩
      rw [hfailed] at hserial
      have hv : v.testSummaries = [] ∧ v.failedTests = s.failedTests := by
        rw [hserial.since.state]
        exact ⟨hsummaries, hfailed⟩
      rw [hv.2] at hsum
      have hreported : v.reported = s.reported := by
        rw [hserial.since.state, hparallel.state]
        rfl
      refine ⟨trivial, hreported, parallelRuns, serialRuns, allParallelResults, allSerialResults,
        u, v, hparallel, hserial, rfl, fun testName => ?_, hsum.keys hv.1⟩
      rw [hsum.get? testName, hv.1]
      rfl
    · rintro message t ⟨serialRuns, hraised⟩
      rw [hfailed] at hraised
      exact ⟨parallelRuns, serialRuns, _, allParallelResults, u, hparallel, Or.inr ⟨rfl, hraised⟩⟩
  · rintro message t ⟨hpos, hle, k, parallelRuns, allParallelResults, hparallel⟩
    exact ⟨parallelRuns, [], k, allParallelResults, t, hparallel, Or.inl ⟨hpos, hle, rfl, rfl⟩⟩

/-- The executions of the retries. -/
structure RetryRuns (args : Args) (s : Runner N) (parallelRuns serialRuns : List (Run N))
    (t : Runner N) : Prop where
  state : ∃ parallelAttemptsDone serialAttemptsDone testSummaries saved reported,
    t = { s.record (parallelRuns ++ serialRuns) with
      parallelAttemptsDone, serialAttemptsDone, testSummaries, saved, reported }
  parallel : ∀ run ∈ parallelRuns, run.testName ∈ s.failedTests ∧ run.attemptType = .parallel
  serial : ∀ run ∈ serialRuns, run.testName ∈ s.failedTests ∧ run.attemptType = .serial
  saved : ∀ state ∈ t.saved, state ∈ s.saved ∨ state.failedTests = s.failedTests ∧
    state.testSummaries = s.testSummaries ∧ Uncounted args serialRuns state ∧
    state.parallelAttemptsDone =
      if parallelBudget args s = 0 then s.parallelAttemptsDone else parallelBudget args s
  tries : s.failedTests.Nodup → ∀ testName ∈ s.failedTests, ∃ keeps keeps',
    Tries .parallel testName keeps (parallelBudget args s) (runsOf testName parallelRuns) ∧
    Tries .serial testName keeps' (serialBudget args s.serialAttemptsDone testName)
      (runsOf testName serialRuns)

section

variable {testNames : List N} {follows : Bool} {n k : Nat} {s t u v : Runner N}
  {parallelRuns serialRuns : List (Run N)}
  {allParallelResults allSerialResults : List (N × List (TestResult N))} {message : String}

theorem mem_testsStillFailing {testName : N} :
    testName ∈ testsStillFailing testNames allParallelResults ↔
      testName ∈ testNames ∧ anySuccess (resultsOf allParallelResults testName) = false := by
  simp [testsStillFailing]

theorem ParallelPhase.tries
    (h : ParallelPhase args testNames follows n s k parallelRuns allParallelResults t)
    (hnodup : testNames.Nodup) {testName : N} (hmem : testName ∈ testNames) :
    Tries .parallel testName (keepsParallel args follows n) n (runsOf testName parallelRuns) :=
  (h.retried hnodup testName hmem).toTries.mono h.le

/-- A state that the serial phase saves after the parallel phase. -/
theorem savedSince_parallel
    (h : ParallelPhase args s.failedTests follows n s n parallelRuns allParallelResults u)
    (hfields : ∀ run ∈ serialRuns,
      run.testName ∈ testsStillFailing s.failedTests allParallelResults) {state : State N}
    (hstate : state ∈ u.saved ∨ SavedSince args u serialRuns state) :
    state ∈ s.saved ∨ state.failedTests = s.failedTests ∧
      state.testSummaries = s.testSummaries ∧ Uncounted args serialRuns state ∧
      state.parallelAttemptsDone = if n = 0 then s.parallelAttemptsDone else n := by
  have hu := h.state
  rcases hstate with hstate | hsince
  · rw [hu] at hstate
    exact Or.inl hstate
  · have hf : u.failedTests = s.failedTests := by
      rw [hu]
      rfl
    have hs : u.testSummaries = s.testSummaries := by
      rw [hu]
      rfl
    refine Or.inr ⟨hsince.failedTests.trans hf, hsince.testSummaries.trans hs, hsince.uncounted, ?_⟩
    rw [hsince.parallelAttemptsDone]
    split
    · rename_i hzero
      rw [(h.zero hzero).2]
    · rename_i hpos
      -- some test still fails
      obtain ⟨run, hrun, -⟩ := hsince.uncounted
      exact (h.done ⟨_, mem_testsStillFailing.1 (hfields run hrun)⟩).resolve_left hpos

theorem RetriesDone.retryRuns (h : RetriesDone args s parallelRuns serialRuns allParallelResults
    allSerialResults u v t) : RetryRuns args s parallelRuns serialRuns t where
  state := by
    have hv := h.serial.since.state
    have hu := h.parallel.state
    refine ⟨u.parallelAttemptsDone, v.serialAttemptsDone, t.testSummaries, v.saved, t.reported, ?_⟩
    rw [h.state, hv, hu, Runner.record_append]
    rfl
  parallel run hrun := ⟨(h.parallel.fields run hrun).1, (h.parallel.fields run hrun).2.1⟩
  serial run hrun := ⟨(mem_testsStillFailing.1 (h.serial.fields run hrun).1).1,
    (h.serial.fields run hrun).2.1⟩
  saved state hstate := by
    rw [h.state] at hstate
    exact savedSince_parallel h.parallel (fun run hrun => (h.serial.fields run hrun).1)
      (h.serial.since.saved state hstate)
  tries hnodup testName hmem := by
    have hbudget : serialBudget args u.serialAttemptsDone testName =
        serialBudget args s.serialAttemptsDone testName := by
      rw [h.parallel.state]
      rfl
    by_cases hfails : testName ∈ testsStillFailing s.failedTests allParallelResults
    · obtain ⟨n', hblock, -, -, hnd⟩ := h.serial.retried testName hfails
      obtain ⟨rfl, hruns⟩ := hnd (hnodup.filter _)
      rw [hruns, hbudget] at hblock
      exact ⟨_, _, h.parallel.tries hnodup hmem, hblock.toTries⟩
    · rw [(h.serial.serialBudget_eq hfails).1]
      exact ⟨_, fun _ => false, h.parallel.tries hnodup hmem, tries_nil _ _ _ _⟩

theorem RetriesRaised.retryRuns (h : RetriesRaised env args s parallelRuns serialRuns message t) :
    RetryRuns args s parallelRuns serialRuns t := by
  obtain ⟨k, allParallelResults, u, hparallel, ⟨-, -, rfl, rfl⟩ | ⟨rfl, hserial⟩⟩ := h
  · have ht := hparallel.state
    refine ⟨⟨t.parallelAttemptsDone, s.serialAttemptsDone, s.testSummaries, s.saved, s.reported,
      ?_⟩,
      fun run hrun => ⟨(hparallel.fields run hrun).1, (hparallel.fields run hrun).2.1⟩, by simp,
      fun state hstate => Or.inl ?_, fun hnodup testName hmem => ?_⟩
    · rw [List.append_nil]
      exact ht
    · rw [ht] at hstate
      exact hstate
    · exact ⟨_, fun _ => false, hparallel.tries hnodup hmem, tries_nil _ _ _ _⟩
  · have hu := hparallel.state
    have ht := hserial.since.state
    refine ⟨⟨u.parallelAttemptsDone, t.serialAttemptsDone, s.testSummaries, t.saved, s.reported,
      ?_⟩,
      fun run hrun => ⟨(hparallel.fields run hrun).1, (hparallel.fields run hrun).2.1⟩,
      fun run hrun => ⟨(mem_testsStillFailing.1 (hserial.fields run hrun).1).1,
        (hserial.fields run hrun).2⟩,
      fun state hstate => savedSince_parallel hparallel
        (fun run hrun => (hserial.fields run hrun).1) (hserial.since.saved state hstate),
      fun hnodup testName hmem => ?_⟩
    · rw [ht, hu, Runner.record_append]
      rfl
    · have hbudget : serialBudget args u.serialAttemptsDone testName =
          serialBudget args s.serialAttemptsDone testName := by
        rw [hu]
        rfl
      by_cases hfails : testName ∈ testsStillFailing s.failedTests allParallelResults
      · obtain ⟨keeps, htries⟩ := hserial.tries (hnodup.filter _) testName hfails
        exact ⟨_, keeps, hparallel.tries hnodup hmem, hbudget ▸ htries⟩
      · have hnone : runsOf testName serialRuns = [] :=
          runsOf_eq_nil fun run hrun he => hfails (he ▸ (hserial.fields run hrun).1)
        rw [hnone]
        exact ⟨_, fun _ => false, hparallel.tries hnodup hmem, tries_nil _ _ _ _⟩

end

/-! ## The start of a new run -/

/-- The tests that the log of the full suite says have failed. -/
def failedTestsOf (env : Env N) (execution : Execution) : List N :=
  (parseFailedTestsFromLog (env.readLog execution.logFile)).map TestNames.ofText

/-- The execution of the full suite. -/
def initialRun (env : Env N) : Run N :=
  ⟨TestNames.ofText "", false, 1, .initial, env.initial⟩

/-- What a new run knows before its retries : the tests of the state file, or those that the log
of the full suite names if it has failed. -/
def Begun (env : Env N) (args : Args) (t : Runner N) : Prop :=
  match args.rerunFailed.filter (· ≠ "") with
  | some stateFile => ∃ failedTests,
    loadFailedTestsFromState (env.readJson stateFile) = .ok failedTests ∧
      t = { Runner.new with failedTests }
  | none => ∃ execution initialResultLog, env.initial = .ok execution ∧ t = { Runner.new with
      failedTests := if execution.success then [] else failedTestsOf env execution
      initialResultLog
      runs := [initialRun env]
      reported := if execution.success then [[]] else [] }

/-- The state file could not be gone through, or the full suite has raised. -/
def BeginRaised (env : Env N) (args : Args) (message : String) (t : Runner N) : Prop :=
  match args.rerunFailed.filter (· ≠ "") with
  | some stateFile =>
    loadFailedTestsFromState (N := N) (env.readJson stateFile) = .error message ∧ t = Runner.new
  | none => env.initial = .error message ∧ t = { Runner.new with runs := [initialRun env] }

theorem outcomeOf_ofText (text : String) (outcome : Except String Execution) :
    outcomeOf (TestNames.ofText text : N) outcome = outcome := by
  simp [outcomeOf, TestNames.isText_ofText]

theorem wp_loadFailedTestsForRerun {stateFile : String}
    (hmode : args.rerunFailed.filter (· ≠ "") = some stateFile) :
    wp (loadFailedTestsForRerun env stateFile)
      (fun go t => Begun env args t ∧ (go = true ↔ t.failedTests ≠ []))
      (fun message t => BeginRaised env args message t) Runner.new := by
  simp only [loadFailedTestsForRerun, Begun, BeginRaised, hmode]
  cases loadFailedTestsFromState (N := N) (env.readJson stateFile) with
  | error message => exact ⟨rfl, rfl⟩
  | ok failedTests =>
    dsimp only
    split
    · rename_i hnil
      exact ⟨⟨failedTests, rfl, hnil ▸ rfl⟩, by simp [Runner.new]⟩
    · rename_i hne
      exact ⟨⟨failedTests, rfl, rfl⟩, by simp [hne]⟩

theorem outcomeOf_text (testName : String) (outcome : Except String Execution) :
    outcomeOf testName outcome = outcome :=
  outcomeOf_ofText testName outcome

/-- The full suite, executed in a new run. -/
theorem wp_runSingleTestSuite_initial :
    wp (runSingleTestSuite env.initial (TestNames.ofText "" : N) false 1 .initial)
      (fun result t => ∃ execution, env.initial = .ok execution ∧
        result.success = execution.success ∧ result.logFile = some execution.logFile ∧
        t = { Runner.new with runs := [initialRun env] })
      (fun message t => env.initial = .error message ∧
        t = { Runner.new with runs := [initialRun env] }) Runner.new := by
  refine wp_mono wp_runSingleTestSuite_record ?_ ?_ <;> rw [outcomeOf_ofText]
  · rintro result t ⟨hresult, rfl⟩
    have hstate : (initialRun env).deletes = [] := by simp [Run.deletes, initialRun]
    cases hinitial : env.initial with
    | error message =>
      rw [hinitial] at hresult
      cases hresult
    | ok execution =>
      rw [hinitial] at hresult
      rw [← Option.some.inj hresult, ← hinitial]
      exact ⟨execution, hinitial, rfl, rfl, by rw [← initialRun, hstate]; rfl⟩
  · rintro message t ⟨he, rfl⟩
    exact ⟨he, by simp [Runner.record, Run.result, Run.deletes, he, Runner.new, initialRun]⟩

theorem wp_runInitialTestSuite (hmode : args.rerunFailed.filter (· ≠ "") = none) :
    wp (runInitialTestSuite env)
      (fun go t => Begun env args t ∧ (go = true ↔ t.failedTests ≠ []))
      (fun message t => BeginRaised env args message t) Runner.new := by
  simp only [runInitialTestSuite, Begun, BeginRaised, hmode, wp_bind]
  refine wp_mono wp_runSingleTestSuite_initial ?_ fun _ _ h => h
  rintro result t ⟨execution, hinitial, hsuccess, hlog, rfl⟩
  have hnames : (parseFailedTestsFromLog (result.logFile.bind env.readLog)).map
      TestNames.ofText = failedTestsOf env execution := by
    rw [hlog]
    rfl
  rw [hsuccess, hnames]
  split
  · rename_i hpassed
    exact ⟨⟨execution, none, hinitial, by simp [hpassed, Runner.new]⟩, by simp [Runner.new]⟩
  · rename_i hfailed
    split
    · rename_i hnil
      refine ⟨⟨execution, none, hinitial, ?_⟩, by simp [Runner.new]⟩
      simp [hnil, hfailed, Runner.new]
    · rename_i hne
      refine ⟨⟨execution, result.logFile, hinitial, ?_⟩, by simp [hne]⟩
      simp [hfailed, hlog, Runner.new]

theorem wp_initializeRunMode :
    wp (initializeRunMode env args)
      (fun go t => Begun env args t ∧ (go = true ↔ t.failedTests ≠ []))
      (fun message t => BeginRaised env args message t) Runner.new := by
  simp only [initializeRunMode, wp_bind, wp_get]
  rw [if_neg fun h => h rfl]
  cases hmode : args.rerunFailed.filter (· ≠ "") with
  | some stateFile => exact wp_loadFailedTestsForRerun hmode
  | none => exact wp_runInitialTestSuite hmode

/-- Before the retries of a new run, at most the full suite has been executed. -/
structure Initialized (t : Runner N) : Prop where
  state : ∃ failedTests initialResultLog runs reported,
    t = { Runner.new with failedTests, initialResultLog, runs, reported }
  runs : ∀ run ∈ t.runs, run.testName = TestNames.ofText "" ∧ run.attemptType = .initial ∧
    run.skipDelete = false

theorem Begun.initialized {t : Runner N} (h : Begun env args t) : Initialized t := by
  unfold Begun at h
  split at h
  · obtain ⟨failedTests, -, rfl⟩ := h
    exact ⟨⟨failedTests, none, [], [], rfl⟩, by simp [Runner.new]⟩
  · obtain ⟨execution, initialResultLog, -, rfl⟩ := h
    exact ⟨⟨_, initialResultLog, _, _, rfl⟩, by simp [initialRun]⟩

theorem BeginRaised.initialized {message : String} {t : Runner N}
    (h : BeginRaised env args message t) : Initialized t := by
  unfold BeginRaised at h
  split at h
  · obtain ⟨-, rfl⟩ := h
    exact ⟨⟨[], none, [], [], rfl⟩, by simp [Runner.new]⟩
  · obtain ⟨-, rfl⟩ := h
    exact ⟨⟨[], none, _, [], rfl⟩, by simp [initialRun]⟩

theorem Initialized.budgets {s : Runner N} (h : Initialized s) (args : Args) :
    s.results = [] ∧ s.saved = [] ∧ s.testSummaries = [] ∧
      parallelBudget args s = args.attemptsParallel.toNat ∧
      ∀ testName, serialBudget args s.serialAttemptsDone testName = args.attemptsSerial.toNat := by
  obtain ⟨failedTests, log, runs, reported, rfl⟩ := h.state
  simp [Runner.new, parallelBudget, serialBudget]

/-! ## A whole run -/

/-- How a run ends, from the state in which its retries start. -/
def Ends (env : Env N) (args : Args) (s : Runner N) (result : Except String Int) (t : Runner N) :
    Prop :=
  match result with
  | .ok code => code = exitCodeOf t ∧ t.reported = s.reported ++ [t.testSummaries] ∧
    ∃ parallelRuns serialRuns allParallelResults allSerialResults u v,
      RetriesDone args s parallelRuns serialRuns allParallelResults allSerialResults u v t
  | .error message => ∃ parallelRuns serialRuns,
    RetriesRaised env args s parallelRuns serialRuns message t

theorem wp_retriesAndReport_trace {s : Runner N} (hs : s.testSummaries = []) :
    wp (do if ← executeTestRetries env args then finalizeAndReport else return 1)
      (fun code t => Ends env args s (.ok code) t)
      (fun message t => Ends env args s (.error message) t) s := by
  rw [wp_bind]
  refine wp_mono (wp_executeTestRetries_trace hs) ?_ fun _ _ h => h
  rintro go t ⟨rfl, hreported, parallelRuns, serialRuns, _, _, u, v, hdone⟩
  rw [if_pos rfl]
  refine wp_mono wp_finalizeAndReport ?_ fun _ _ h => h
  rintro code _ ⟨rfl, rfl⟩
  exact ⟨rfl, by rw [hreported], parallelRuns, serialRuns, _, _, u, v, hdone.report _⟩

/-- How a new run ends : without failed tests, with an exception at its start, or as its retries
do. -/
inductive NewEnds (env : Env N) (args : Args) : Except String Int → Runner N → Prop where
  | early {t : Runner N} (h : Begun env args t) (hnil : t.failedTests = []) :
    NewEnds env args (.ok 0) t
  | raised {message : String} {t : Runner N} (h : BeginRaised env args message t) :
    NewEnds env args (.error message) t
  | retried {s t : Runner N} {result : Except String Int} (h : Begun env args s)
    (hne : s.failedTests ≠ []) (hends : Ends env args s result t) : NewEnds env args result t

theorem runNew_newEnds (env : Env N) (args : Args) :
    NewEnds env args (runNew env args).1 (runNew env args).2 := by
  have hrun : wp (run env args) (fun code t => NewEnds env args (.ok code) t)
      (fun message t => NewEnds env args (.error message) t) Runner.new := by
    simp only [run, wp_bind]
    refine wp_mono wp_initializeRunMode ?_ fun message t h => .raised h
    rintro go s ⟨hs, hgo⟩
    split
    · rename_i htrue
      have hsum : s.testSummaries = [] := by
        obtain ⟨_, _, _, _, he⟩ := hs.initialized.state
        rw [he]
        rfl
      exact wp_mono (wp_retriesAndReport_trace hsum) (fun code t h => .retried hs (hgo.1 htrue) h)
        fun message t h => .retried hs (hgo.1 htrue) h
    · rename_i hfalse
      exact .early hs (not_not.1 (mt hgo.2 hfalse))
  exact of_wp (P := NewEnds env args) hrun

/-- A new run ends before its retries, or at their end. -/
theorem NewEnds.ends {result : Except String Int} {t : Runner N} (h : NewEnds env args result t) :
    Initialized t ∨ ∃ s, Initialized s ∧ Ends env args s result t := by
  cases h with
  | early h _ => exact Or.inl h.initialized
  | raised h => exact Or.inl h.initialized
  | retried h _ hends => exact Or.inr ⟨_, h.initialized, hends⟩

theorem runNew_ends (env : Env N) (args : Args) :
    Initialized (runNew env args).2 ∨ ∃ s, Initialized s ∧
      Ends env args s (runNew env args).1 (runNew env args).2 :=
  (runNew_newEnds env args).ends

theorem Ends.retryRuns {s t : Runner N} {result : Except String Int}
    (h : Ends env args s result t) :
    ∃ parallelRuns serialRuns, RetryRuns args s parallelRuns serialRuns t := by
  cases result with
  | ok code =>
    obtain ⟨-, -, parallelRuns, serialRuns, _, _, _, _, hdone⟩ := h
    exact ⟨parallelRuns, serialRuns, hdone.retryRuns⟩
  | error message =>
    obtain ⟨parallelRuns, serialRuns, hraised⟩ := h
    exact ⟨parallelRuns, serialRuns, hraised.retryRuns⟩

/-- A run resumed before any test was summed up ends at the end of its retries. -/
theorem runResumed_ends (env : Env N) (args : Args) {state : State N} (hf : state.failedTests ≠ [])
    (hs : state.testSummaries = []) : Ends env args (loadState state Runner.new)
      (runResumed env args state).1 (runResumed env args state).2 := by
  have hf : (loadState state Runner.new).failedTests ≠ [] := hf
  have hrun : wp (run env args)
      (fun code t => Ends env args (loadState state Runner.new) (.ok code) t)
      (fun message t => Ends env args (loadState state Runner.new) (.error message) t)
      (loadState state Runner.new) := by
    simp only [run, wp_bind, initializeRunMode, wp_get]
    rw [if_pos hf, wp_pure, if_pos rfl]
    exact wp_retriesAndReport_trace hs
  exact of_wp (P := Ends env args (loadState state Runner.new)) hrun

end

end CommonsOperator.AutoRetryTests
