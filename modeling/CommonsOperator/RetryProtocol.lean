import CommonsOperator.RetryResume
import CommonsOperator.RetrySerialTrace

/-!
# The two phases of retries

A new run that is not interrupted retries each failed test in parallel, until it passes or the
parallel attempts are used up, and then, if it has not passed, serially, until it passes or the
serial attempts are used up (`TwoPhase`). All results are recorded, and each test is summed up by
what has become of its attempts (`two_phase_protocol`).
-/

set_option linter.unusedSectionVars false

namespace CommonsOperator.AutoRetryTests

open Program

variable {env : Env String} {args : Args}

/-- The execution is the last one permitted to its test. -/
def Run.lastPermitted (args : Args) (run : Run String) : Prop :=
  match run.attemptType with
  | .initial => False
  | .parallel => args.attemptsSerial ≤ 0 ∧ (run.attempt : Int) = args.attemptsParallel
  | .serial => (run.attempt : Int) = args.attemptsSerial

/-- The parallel and then the serial attempts of a test. -/
structure TwoPhase (args : Args) (testName : String) (parallelRuns serialRuns : List (Run String)) :
    Prop where
  parallel : ∃ keeps, Retried .parallel testName keeps args.attemptsParallel.toNat parallelRuns
  serial : (∀ run ∈ parallelRuns, run.passed = false) →
    ∃ keeps, Retried .serial testName keeps args.attemptsSerial.toNat serialRuns
  passed : (∃ run ∈ parallelRuns, run.passed = true) → serialRuns = []
  stops : ∀ run ∈ (parallelRuns ++ serialRuns).dropLast, run.passed = false
  skipDelete : ∀ run ∈ parallelRuns ++ serialRuns,
    (run.skipDelete = true ↔ args.deleteFailedNamespaces = false ∧ run.lastPermitted args)

/-- The test is summed up by its attempts. -/
structure SummedUp (testName : String) (runs : List (Run String))
    (results : List (TestResult String)) (summary : TestSummary String) : Prop where
  flaky : (∃ run ∈ runs, run.passed = true) → summary.finalStatus = .flaky
  failed : (∀ run ∈ runs, run.passed = false) → summary.finalStatus = .failed
  totalAttempts : summary.totalAttempts =
    1 + (results.filter fun result => result.testName = testName).length

/-- What a run of the full suite and of retries has done. -/
structure FollowsProtocol (env : Env String) (args : Args) (failedTests : List String)
    (runner : Runner String) : Prop where
  /-- The full suite is followed by retries of the failed tests, each recorded once. -/
  retries : ∃ retries, runner.runs = ⟨"", false, 1, .initial, env.initial⟩ :: retries ∧
    (∀ run ∈ retries, run.testName ∈ failedTests) ∧
    runner.results = retries.filterMap Run.result
  tests : ∀ testName ∈ failedTests, ∃ parallelRuns serialRuns summary,
    runsOf testName runner.runs = parallelRuns ++ serialRuns ∧
    TwoPhase args testName parallelRuns serialRuns ∧
    Assoc.get? runner.testSummaries testName = some summary ∧
    SummedUp testName (parallelRuns ++ serialRuns) runner.results summary

/-! ## The attempts of a test -/

section

variable {s t u v : Runner String} {parallelRuns serialRuns : List (Run String)}
  {allParallelResults allSerialResults : List (String × List (TestResult String))}

/-- A test still fails exactly if none of its parallel attempts has passed. -/
theorem RetriesDone.stillFailing_iff (h : RetriesDone args s parallelRuns serialRuns
    allParallelResults allSerialResults u v t) {testName : String}
    (hmem : testName ∈ s.failedTests) :
    testName ∈ testsStillFailing s.failedTests allParallelResults ↔
      ∀ run ∈ runsOf testName parallelRuns, run.passed = false := by
  rw [mem_testsStillFailing, ← Bool.not_eq_true, h.parallel.anySuccess_iff]
  simp [hmem]

/-- The serial attempts of a test and their results. -/
theorem RetriesDone.serialRuns_of_nodup (h : RetriesDone args s parallelRuns serialRuns
    allParallelResults allSerialResults u v t) (hnodup : s.failedTests.Nodup) {testName : String}
    (hmem : testName ∈ s.failedTests) :
    resultsOf allSerialResults testName =
        (runsOf testName serialRuns).filterMap Run.result ∧
      ((∀ run ∈ runsOf testName parallelRuns, run.passed = false) →
        Retried .serial testName
          (keepsSerial args (serialBudget args s.serialAttemptsDone testName))
          (serialBudget args s.serialAttemptsDone testName) (runsOf testName serialRuns)) ∧
      ((∃ run ∈ runsOf testName parallelRuns, run.passed = true) →
        runsOf testName serialRuns = []) := by
  have hu : u.serialAttemptsDone = s.serialAttemptsDone := by
    rw [h.parallel.state]
    rfl
  by_cases hfails : testName ∈ testsStillFailing s.failedTests allParallelResults
  · obtain ⟨n, hblock, hres, -, hnd⟩ := h.serial.retried testName hfails
    obtain ⟨rfl, hruns⟩ := hnd (hnodup.filter _)
    rw [hruns, hu] at hblock
    rw [hruns] at hres
    have hnone := (h.stillFailing_iff hmem).1 hfails
    refine ⟨hres, fun _ => hblock, ?_⟩
    rintro ⟨run, hrun, hpassed⟩
    exact absurd ((hnone run hrun).symm.trans hpassed) Bool.false_ne_true
  · have hnil := (h.serial.serialBudget_eq hfails).1
    rw [hnil]
    exact ⟨h.serial.other testName hfails,
      fun hnone => (hfails ((h.stillFailing_iff hmem).2 hnone)).elim, fun _ => rfl⟩

theorem keepsParallel_iff {run : Run String} {n : Nat} (hn : n = args.attemptsParallel.toNat)
    (hpos : 1 ≤ n) : keepsParallel args (decide (0 < args.attemptsSerial)) n run.attempt = true ↔
      args.deleteFailedNamespaces = false ∧ args.attemptsSerial ≤ 0 ∧
        (run.attempt : Int) = args.attemptsParallel := by
  have hattempt : run.attempt = n ↔ (run.attempt : Int) = args.attemptsParallel := by omega
  simp [keepsParallel, hattempt, and_assoc]

theorem keepsSerial_iff {run : Run String} {n : Nat} (hn : n = args.attemptsSerial.toNat)
    (hpos : 1 ≤ n) : keepsSerial args n run.attempt = true ↔
      args.deleteFailedNamespaces = false ∧ (run.attempt : Int) = args.attemptsSerial := by
  have hattempt : run.attempt = n ↔ (run.attempt : Int) = args.attemptsSerial := by omega
  simp [keepsSerial, hattempt]

/-- Retries that start with the whole budget go through the two phases. -/
theorem RetriesDone.twoPhase (h : RetriesDone args s parallelRuns serialRuns
    allParallelResults allSerialResults u v t) (hnodup : s.failedTests.Nodup)
    (hparallel : parallelBudget args s = args.attemptsParallel.toNat) {testName : String}
    (hserial : serialBudget args s.serialAttemptsDone testName = args.attemptsSerial.toNat)
    (hmem : testName ∈ s.failedTests) :
    TwoPhase args testName (runsOf testName parallelRuns) (runsOf testName serialRuns) := by
  have hp := h.parallel.retried hnodup testName hmem
  obtain ⟨-, hs, hnil⟩ := h.serialRuns_of_nodup hnodup hmem
  have hfailing : (∀ run ∈ runsOf testName parallelRuns, run.passed = false) ∨
      ∃ run ∈ runsOf testName parallelRuns, run.passed = true := by
    by_cases hsome : ∃ run ∈ runsOf testName parallelRuns, run.passed = true
    · exact Or.inr hsome
    · exact Or.inl fun run hrun => Bool.eq_false_iff.2 fun hpassed => hsome ⟨run, hrun, hpassed⟩
  refine ⟨⟨_, hparallel ▸ hp⟩, fun hnone => ⟨_, hserial ▸ hs hnone⟩, hnil, ?_, ?_⟩
  · rcases hfailing with hnone | hsome
    · intro run hrun
      by_cases hempty : runsOf testName serialRuns = []
      · rw [hempty, List.append_nil] at hrun
        exact hnone run (List.dropLast_subset _ hrun)
      · rw [List.dropLast_append_of_ne_nil hempty] at hrun
        exact (List.mem_append.1 hrun).elim (hnone run) ((hs hnone).stops run)
    · rw [hnil hsome, List.append_nil]
      exact hp.stops
  · intro run hrun
    rcases List.mem_append.1 hrun with hrun | hrun
    · obtain ⟨-, htype, hkeeps⟩ := hp.fields run hrun
      have hpos := Nat.le_trans (List.length_pos_of_mem hrun) hp.le
      rw [hkeeps, keepsParallel_iff hparallel hpos, Run.lastPermitted, htype]
    · rcases hfailing with hnone | hsome
      · obtain ⟨-, htype, hkeeps⟩ := (hs hnone).fields run hrun
        have hpos := Nat.le_trans (List.length_pos_of_mem hrun) (hs hnone).le
        rw [hkeeps, keepsSerial_iff hserial hpos, Run.lastPermitted, htype]
      · rw [hnil hsome] at hrun
        cases hrun

/-- The summary of a test is about its attempts. -/
theorem RetriesDone.summary (h : RetriesDone args s parallelRuns serialRuns
    allParallelResults allSerialResults u v t) (hnodup : s.failedTests.Nodup) {testName : String}
    (hmem : testName ∈ s.failedTests) :
    ∃ summary, Assoc.get? t.testSummaries testName = some summary ∧
      summary.totalAttempts =
        1 + ((runsOf testName (parallelRuns ++ serialRuns)).filterMap Run.result).length ∧
      summary.finalStatus =
        if anySuccess ((runsOf testName (parallelRuns ++ serialRuns)).filterMap Run.result) then
          .flaky
        else .failed := by
  refine ⟨_, (h.summaries testName).trans (if_pos hmem), ?_, ?_⟩ <;>
  · rw [runsOf_append, List.filterMap_append, ← h.parallel.results,
      ← (h.serialRuns_of_nodup hnodup hmem).1]
    rfl

theorem recordedName_eq_self {testName : String} (h : testName ≠ "") :
    recordedName testName = testName :=
  if_pos (decide_eq_true h)

/-- The results recorded for a test are those of its executions. -/
theorem filter_filterMap_result {testName : String} {runs : List (Run String)}
    (h : ∀ run ∈ runs, run.testName ≠ "") :
    (runs.filterMap Run.result).filter (fun result => result.testName = testName) =
      (runsOf testName runs).filterMap Run.result := by
  induction runs with
  | nil => rfl
  | cons run runs ih =>
    have hruns := ih fun run' hrun' => h run' (List.mem_cons_of_mem _ hrun')
    have hname : recordedName run.testName = run.testName :=
      recordedName_eq_self (h run List.mem_cons_self)
    rw [runsOf, List.filter_cons]
    cases hres : run.result with
    | none =>
      rw [List.filterMap_cons_none hres, hruns]
      split
      · rw [List.filterMap_cons_none hres]
        rfl
      · rfl
    | some result =>
      have hresult : result.testName = run.testName := (Run.result_fields hres).1.trans hname
      rw [List.filterMap_cons_some hres, List.filter_cons, hruns, hresult]
      split
      · rw [List.filterMap_cons_some hres]
        rfl
      · rfl

end

/-! ## The whole run -/

theorem matchToken_ne_nil {literal text token : List Char}
    (h : matchToken literal text = some token) : token ≠ [] := by
  simp only [matchToken] at h
  split at h
  · split at h
    · cases h
    · rename_i hne
      rw [← Option.some.inj h]
      exact fun hnil => hne (List.isEmpty_iff.2 hnil)
  · cases h

/-- The names found in a log are not empty. -/
theorem ne_empty_of_mem_findAll {literal text : List Char} {skip : Nat} {testName : String}
    (h : testName ∈ findAll literal skip text) : testName ≠ "" := by
  induction text generalizing skip with
  | nil =>
    cases skip <;> cases h
  | cons c text ih =>
    cases skip with
    | succ skip => exact ih h
    | zero =>
      rw [findAll] at h
      split at h
      · rename_i token htoken
        rcases List.mem_cons.1 h with rfl | h
        · intro hempty
          have hnil : token = [] := by
            rw [← String.toList_ofList (l := token), hempty]
            rfl
          exact matchToken_ne_nil htoken hnil
        · exact ih h
      · exact ih h

theorem ne_empty_of_mem_failedTestsOf {execution : Execution} {testName : String}
    (h : testName ∈ failedTestsOf env execution) : testName ≠ "" := by
  obtain ⟨name, hname, rfl⟩ := List.mem_map.1 h
  unfold parseFailedTestsFromLog at hname
  split at hname
  · exact ne_empty_of_mem_findAll hname
  · cases hname

/-- The full suite has failed, and the failed tests are read from its log. -/
theorem wp_initializeRunMode_failed {execution : Execution}
    (hfresh : args.rerunFailed.filter (· ≠ "") = none) (hinitial : env.initial = .ok execution)
    (hfailed : execution.success = false) :
    wp (initializeRunMode env args)
      (fun go t => (go = true ↔ failedTestsOf env execution ≠ []) ∧ ∃ initialResultLog,
        t = { Runner.new with
          failedTests := failedTestsOf env execution
          initialResultLog
          runs := [⟨"", false, 1, .initial, env.initial⟩] })
      (fun _ _ => False) Runner.new := by
  refine wp_mono wp_initializeRunMode ?_ ?_
  · rintro go t ⟨hbegun, hgo⟩
    simp only [Begun, hfresh, hinitial, Except.ok.injEq] at hbegun
    obtain ⟨_, log, rfl, rfl⟩ := hbegun
    simp only [hfailed, Bool.false_eq_true, if_false] at hgo ⊢
    exact ⟨hgo, log, by rw [initialRun, hinitial]; rfl⟩
  · intro message t hraised
    simp only [BeginRaised, hfresh, hinitial] at hraised
    cases hraised.1

/-- The retries that follow a failed full suite. -/
theorem RetriesDone.followsProtocol {s t u v : Runner String}
    {parallelRuns serialRuns : List (Run String)}
    {allParallelResults allSerialResults : List (String × List (TestResult String))}
    (h : RetriesDone args s parallelRuns serialRuns allParallelResults allSerialResults u v t)
    {initialResultLog : Option String} {failedTests : List String} (hs : s = { Runner.new with
      failedTests, initialResultLog, runs := [⟨"", false, 1, .initial, env.initial⟩] })
    (hnodup : failedTests.Nodup) (hnames : ∀ testName ∈ failedTests, testName ≠ "") :
    FollowsProtocol env args failedTests t := by
  have hruns := h.retryRuns
  have hmem : ∀ run ∈ parallelRuns ++ serialRuns, run.testName ∈ failedTests := by
    intro run hrun
    rw [show failedTests = s.failedTests by rw [hs]]
    exact (List.mem_append.1 hrun).elim (fun h => (hruns.parallel run h).1)
      fun h => (hruns.serial run h).1
  have hnew : s.results = [] ∧ s.runs = [⟨"", false, 1, .initial, env.initial⟩] ∧
      s.failedTests = failedTests ∧ parallelBudget args s = args.attemptsParallel.toNat ∧
      ∀ testName, serialBudget args s.serialAttemptsDone testName = args.attemptsSerial.toNat := by
    rw [hs]
    simp [Runner.new, parallelBudget, serialBudget]
  obtain ⟨hresults, hinitial, hf, hparallel, hserial⟩ := hnew
  obtain ⟨_, _, _, _, _, ht⟩ := hruns.state
  have htruns : t.runs =
      ⟨"", false, 1, .initial, env.initial⟩ :: (parallelRuns ++ serialRuns) := by
    rw [ht]
    simp [Runner.record, hinitial]
  have htresults : t.results = (parallelRuns ++ serialRuns).filterMap Run.result := by
    rw [ht]
    simp [Runner.record, hresults]
  refine ⟨⟨_, htruns, hmem, htresults⟩, fun testName hname => ?_⟩
  rw [← hf] at hname hnodup
  obtain ⟨summary, hget, htotal, hstatus⟩ := h.summary hnodup hname
  have hown : runsOf testName t.runs =
      runsOf testName parallelRuns ++ runsOf testName serialRuns := by
    have hne : testName ≠ "" := hnames testName (hf ▸ hname)
    rw [htruns, ← runsOf_append, runsOf, List.filter_cons_of_neg (by simpa using hne.symm)]
    rfl
  refine ⟨_, _, summary, hown, h.twoPhase hnodup hparallel (hserial testName) hname, hget, ?_⟩
  have hany : anySuccess ((runsOf testName (parallelRuns ++ serialRuns)).filterMap Run.result) =
      true ↔ ∃ run ∈ runsOf testName (parallelRuns ++ serialRuns), run.passed = true :=
    anySuccess_filterMap
  rw [← runsOf_append]
  refine ⟨fun hsome => ?_, fun hnone => ?_, ?_⟩
  · rw [hstatus, if_pos (hany.2 hsome)]
  · rw [hstatus, if_neg]
    intro hsuccess
    obtain ⟨run, hrun, hpassed⟩ := hany.1 hsuccess
    exact absurd ((hnone run hrun).symm.trans hpassed) Bool.false_ne_true
  · rw [htotal, htresults,
      filter_filterMap_result fun run hrun => hnames _ (hmem run hrun)]

/-- The retry protocol. A new run of the full suite that fails, with distinct failed tests and a
positive parallel limit, in which no serial attempt raises, retries each failed test in two phases
and records and sums up all of its attempts. -/
theorem two_phase_protocol {execution : Execution}
    (hfresh : args.rerunFailed.filter (· ≠ "") = none) (hinitial : env.initial = .ok execution)
    (hfailed : execution.success = false) (hnodup : (failedTestsOf env execution).Nodup)
    (hparallel : 0 < args.parallel) (hserial : ∀ message, ¬SerialRaises env message) :
    ∃ code runner, runNew env args = (.ok code, runner) ∧
      FollowsProtocol env args (failedTestsOf env execution) runner := by
  suffices hrun : wp (run env args)
      (fun _ t => FollowsProtocol env args (failedTestsOf env execution) t) (fun _ _ => False)
      Runner.new from exists_of_wp hrun
  simp only [run, wp_bind]
  refine wp_mono (wp_initializeRunMode_failed hfresh hinitial hfailed) ?_ fun _ _ h => h
  rintro go s ⟨hgo, log, hs⟩
  split
  · have hsum : s.testSummaries = [] := by
      rw [hs]
      rfl
    refine wp_mono (wp_retriesAndReport_trace hsum) ?_ ?_
    · rintro code t ⟨-, -, parallelRuns, serialRuns, _, _, u, v, hdone⟩
      exact hdone.followsProtocol hs hnodup fun _ => ne_empty_of_mem_failedTestsOf
    · rintro message t ⟨_, _, _, _, _, _, ⟨-, hle, -⟩ | ⟨-, hraised⟩⟩
      · omega
      · exact hserial message hraised.raises
  · rename_i hnone
    have hnil : failedTestsOf env execution = [] := by
      simpa using mt hgo.2 hnone
    rw [hs, hnil]
    exact ⟨⟨[], rfl, by simp, rfl⟩, by simp⟩

/-- A suite in which two tests fail : one passes in parallel, and the other in its second serial
attempt. -/
def twoFlaky : Env String where
  initial := .ok failsToStart
  readLog := fun _ => some
    "--- FAIL: kuttl/harness/smoke (3.14s)\n--- FAIL: kuttl/harness/logging (2.72s)\n"
  readJson := fun _ => .missing
  complete := fun _ testNames => testNames.map fun testName =>
    (testName, .ok (if testName = "smoke" then passes else failsToStart))
  complete_perm := fun _ testNames => .of_eq (by simp [Function.comp_def])
  serial := fun _ _ attempt => .ok (if attempt = 2 then passes else failsToStart)

theorem two_phase_protocol_twoFlaky :
    ∃ code runner, runNew twoFlaky ⟨2, 1, 2, false, none⟩ = (.ok code, runner) ∧
      FollowsProtocol twoFlaky ⟨2, 1, 2, false, none⟩ (failedTestsOf twoFlaky failsToStart)
        runner ∧
      runner.runs.map (fun run => (run.testName, run.attemptType, run.skipDelete, run.passed)) =
        [("", .initial, false, false), ("smoke", .parallel, false, true),
          ("logging", .parallel, false, false), ("logging", .serial, false, false),
          ("logging", .serial, true, true)] := by
  have hnodup : (failedTestsOf twoFlaky failsToStart).Nodup := by decide +kernel
  have hserial : ∀ message, ¬SerialRaises twoFlaky message := by
    rintro message ⟨place, testName, attempt, he⟩
    rw [outcomeOf_text] at he
    cases he
  have hparallel : 0 < (⟨2, 1, 2, false, none⟩ : Args).parallel := by decide
  obtain ⟨code, runner, hrun, hfollows⟩ :=
    two_phase_protocol rfl rfl rfl hnodup hparallel hserial
  refine ⟨code, runner, hrun, hfollows, ?_⟩
  rw [show runner = (runNew twoFlaky ⟨2, 1, 2, false, none⟩).2 by rw [hrun]]
  decide +kernel

end CommonsOperator.AutoRetryTests
