import CommonsOperator.RetryBudget
import CommonsOperator.RetryNamespaces
import CommonsOperator.RetryProtocol
import CommonsOperator.RetryCommand

/-!
# The final report

The report of a run is made of the summaries of its tests : those that passed when they were
retried, with the attempt that passed, and those that did not, with the last namespace found in
their logs and the error of their last attempt. A run that comes to its end has generated one
report, or none if it had nothing to retry (`Reports`). `Report.ofRuns` is the report that the
executions of the run call for, and `report_tells_runs` says that the report of every run, new or
resumed, is that one : no failed test is missing or twice in it, and none is under the wrong
heading.
-/

set_option linter.unusedSectionVars false

namespace CommonsOperator.AutoRetryTests

open Program

variable {env : Env String} {args : Args}

/-! ## `ReportGenerator` -/

/-- A test under the flaky ones. -/
structure FlakyEntry where
  testName : String
  /-- The attempt that passed. -/
  attempt : Nat
  attemptType : AttemptType
  totalAttempts : Nat
  deriving DecidableEq

/-- A test under the failed ones. -/
structure FailedEntry where
  testName : String
  totalAttempts : Nat
  /-- The last namespace found in its logs, which need not exist any more. -/
  finalNamespace : Option String
  lastError : Option String

/-- What is in a report. -/
structure Report where
  total : Nat
  passed : Nat
  flaky : Nat
  failed : Nat
  flakyTests : List FlakyEntry
  failedTests : List FailedEntry

/-- What else is in a report : the times, the runtimes and the virtualenv. -/
structure ReportTexts where
  started : String
  ended : String
  totalDuration : String
  /-- Of the tests that passed, and of how many. -/
  successRate : Nat → Nat → String
  flakyRuntime : FlakyEntry → String
  failedRuntime : String → List String
  runtimeStatistics : List String
  venv : String

/-- A line of the same characters. -/
def rule (c : Char) (n : Nat) : String :=
  String.ofList (List.replicate n c)

/-- An optional text that is given, and not empty. -/
def nonEmpty (text : Option String) : Option String :=
  text.filter (· ≠ "")

/-- The summaries with a status. -/
def withStatus (status : FinalStatus) (testSummaries : List (String × TestSummary String)) :
    List (TestSummary String) :=
  (testSummaries.map Prod.snd).filter fun summary => summary.finalStatus = status

/-- The entry of a flaky test, if an attempt of it has passed. -/
def flakyEntry (summary : TestSummary String) : Option FlakyEntry :=
  (summary.retryResults.find? TestResult.success).map fun successfulAttempt => {
    testName := summary.testName
    attempt := successfulAttempt.attempt
    attemptType := successfulAttempt.attemptType
    totalAttempts := summary.totalAttempts }

def failedEntry (summary : TestSummary String) : FailedEntry where
  testName := summary.testName
  totalAttempts := summary.totalAttempts
  finalNamespace := nonEmpty summary.finalNamespace
  lastError := nonEmpty (summary.retryResults.getLast?.bind TestResult.failedStep)

/-- What `generate_comprehensive_report` takes from the summaries. -/
def Report.ofSummaries (testSummaries : List (String × TestSummary String)) : Report where
  total := testSummaries.length
  passed := (withStatus .passed testSummaries).length
  flaky := (withStatus .flaky testSummaries).length
  failed := (withStatus .failed testSummaries).length
  flakyTests := (withStatus .flaky testSummaries).filterMap flakyEntry
  failedTests := (withStatus .failed testSummaries).map failedEntry

def FlakyEntry.lines (texts : ReportTexts) (entry : FlakyEntry) : List String :=
  ["  ✓ " ++ entry.testName,
    "    Passed on attempt " ++ toString entry.attempt ++ " (" ++ entry.attemptType.text ++ ")",
    "    Total attempts: " ++ toString entry.totalAttempts, texts.flakyRuntime entry, ""]

def FailedEntry.lines (texts : ReportTexts) (entry : FailedEntry) : List String :=
  ["  ✗ " ++ entry.testName, "    Total attempts: " ++ toString entry.totalAttempts] ++
    (entry.finalNamespace.elim [] fun ns => ["    Namespace kept for debugging: " ++ ns]) ++
    texts.failedRuntime entry.testName ++
    (entry.lastError.elim [] fun lastError =>
      ["    Last error: " ++ String.ofList (lastError.toList.take 100) ++ "..."]) ++ [""]

/-- The lines of a report. -/
def Report.lines (texts : ReportTexts) (args : Args) (report : Report) : List String :=
  [rule '=' 80, "AUTOMATED TEST SUITE REPORT", rule '=' 46, "Started: " ++ texts.started,
    "Ended: " ++ texts.ended, "Total Duration: " ++ texts.totalDuration, "", "SUMMARY",
    rule '-' 46, "Total Tests: " ++ toString report.total,
    "Passed: " ++ toString report.passed,
    "Flaky (eventually passed): " ++ toString report.flaky,
    "Failed: " ++ toString report.failed,
    "Success Rate: " ++ texts.successRate (report.passed + report.flaky) (max 1 report.total) ++
      "%", ""] ++
  (if report.flaky = 0 then [] else
    ["FLAKY TESTS (Failed initially but passed on retry)", rule '-' 60] ++
      report.flakyTests.flatMap (FlakyEntry.lines texts)) ++
  (if report.failed = 0 then [] else
    ["FAILED TESTS", rule '-' 46] ++ report.failedTests.flatMap (FailedEntry.lines texts)) ++
  texts.runtimeStatistics ++
  ["CONFIGURATION", rule '-' 46, "Parallel: " ++ toString args.parallel,
    "Parallel retry attempts: " ++ toString args.attemptsParallel,
    "Serial retry attempts: " ++ toString args.attemptsSerial,
    "Delete failed namespaces: " ++ (if args.deleteFailedNamespaces then "True" else "False"),
    "Virtualenv: " ++ texts.venv, ""]

/-- `generate_comprehensive_report`. -/
def generateComprehensiveReport (texts : ReportTexts) (args : Args)
    (testSummaries : List (String × TestSummary String)) : String :=
  "\n".intercalate ((Report.ofSummaries testSummaries).lines texts args)

/-! ## What is to be reported -/

/-- The attempts of a test that returned. -/
def returnedAttempts (testName : String) (runs : List (Run String)) : List (TestResult String) :=
  (attemptsOf testName runs).filterMap Run.result

/-- The attempt that a test passed in, if it did. -/
def passedAttempt (testName : String) (runs : List (Run String)) : Option (Run String) :=
  (attemptsOf testName runs).find? Run.passed

/-- The report on the executions. -/
def Report.ofRuns (args : Args) (failedTests : List String) (runs : List (Run String)) :
    Report where
  total := failedTests.length
  passed := 0
  flaky := (failedTests.filter fun testName => (passedAttempt testName runs).isSome).length
  failed := (failedTests.filter fun testName => (passedAttempt testName runs).isNone).length
  flakyTests := failedTests.filterMap fun testName =>
    (passedAttempt testName runs).map fun run =>
      ⟨testName, run.attempt, run.attemptType, 1 + (returnedAttempts testName runs).length⟩
  failedTests := (failedTests.filter fun testName => (passedAttempt testName runs).isNone).map
    fun testName => {
      testName
      totalAttempts := 1 + (returnedAttempts testName runs).length
      finalNamespace := if args.deleteFailedNamespaces then none
        else (attemptsOf testName runs).reverse.findSome? Run.extracted
      lastError := nonEmpty ((returnedAttempts testName runs).getLast?.bind TestResult.failedStep) }

/-! ## The end of a run -/

/-- The run has failed tests to retry, or its full suite has passed. -/
def Reports (env : Env String) (args : Args) (t : Runner String) : Prop :=
  t.failedTests ≠ [] ∨ args.rerunFailed.filter (· ≠ "") = none ∧
    ∃ execution, env.initial = .ok execution ∧ execution.success = true

/-- A run that comes to its end has generated one report, or none. -/
structure EndsReported (env : Env String) (args : Args) (code : Int) (t : Runner String) :
    Prop where
  report : Reports env args t → t.reported = [t.testSummaries]
  silent : ¬Reports env args t → t.reported = []
  code : code = exitCodeOf t

theorem Begun.reported_of_ne_nil {s : Runner String} (h : Begun env args s)
    (hne : s.failedTests ≠ []) : s.reported = [] := by
  unfold Begun at h
  split at h
  · obtain ⟨failedTests, -, rfl⟩ := h
    rfl
  · obtain ⟨execution, log, -, rfl⟩ := h
    have hfailed : ¬execution.success = true := fun hs => hne (if_pos hs)
    exact if_neg hfailed

/-- A new run that has nothing to retry generates a report if the full suite has passed. -/
theorem Begun.endsReported {t : Runner String} (h : Begun env args t) (hnil : t.failedTests = []) :
    EndsReported env args 0 t := by
  cases hmode : args.rerunFailed.filter (· ≠ "") with
  | some stateFile =>
    simp only [Begun, hmode] at h
    obtain ⟨failedTests, -, rfl⟩ := h
    refine ⟨?_, fun _ => rfl, rfl⟩
    rintro (hne | ⟨hnone, -⟩)
    · exact (hne hnil).elim
    · cases hmode.symm.trans hnone
  | none =>
    simp only [Begun, hmode] at h
    obtain ⟨execution, log, hinitial, rfl⟩ := h
    cases hsuccess : execution.success with
    | true =>
      have hreports : ∀ t, Reports env args t := fun t =>
        Or.inr ⟨hmode, execution, hinitial, hsuccess⟩
      exact ⟨fun _ => rfl, fun hnot => (hnot (hreports _)).elim, rfl⟩
    | false =>
      simp only [hsuccess, Bool.false_eq_true, if_false] at hnil ⊢
      refine ⟨?_, fun _ => rfl, rfl⟩
      rintro (hne | ⟨-, execution', hinitial', hsuccess'⟩)
      · exact (hne hnil).elim
      · obtain rfl := Except.ok.inj (hinitial.symm.trans hinitial')
        exact absurd (hsuccess.symm.trans hsuccess') Bool.false_ne_true

theorem withStatus_length (status : FinalStatus)
    (testSummaries : List (String × TestSummary String)) :
    (withStatus status testSummaries).length =
      (testSummaries.filter fun summary => summary.2.finalStatus = status).length := by
  unfold withStatus
  rw [List.filter_map, List.length_map]
  rfl

/-! ## The attempts in the report -/

/-- The success found in the results is that of the first attempt that passed. -/
theorem find?_filterMap_result (runs : List (Run String)) :
    (runs.filterMap Run.result).find? TestResult.success =
      (runs.find? Run.passed).bind Run.result := by
  induction runs with
  | nil => rfl
  | cons run runs ih =>
    cases hres : run.result with
    | none =>
      have hpassed : run.passed = false := by
        refine Bool.eq_false_iff.2 fun hpassed => ?_
        obtain ⟨result, hsome⟩ := Run.result_of_passed hpassed
        rw [hres] at hsome
        cases hsome
      rw [List.filterMap_cons_none hres, List.find?_cons_of_neg (by simp [hpassed]), ih]
    | some result =>
      have hsuccess := Run.result_success hres
      rw [List.filterMap_cons_some hres]
      cases hpassed : run.passed with
      | true =>
        rw [List.find?_cons_of_pos (by rw [hsuccess, hpassed]), List.find?_cons_of_pos hpassed]
        exact hres.symm
      | false =>
        rw [List.find?_cons_of_neg (by simp [hsuccess, hpassed]),
          List.find?_cons_of_neg (by simp [hpassed]), ih]

theorem find?_returnedAttempts (testName : String) (runs : List (Run String)) :
    (returnedAttempts testName runs).find? TestResult.success =
      (passedAttempt testName runs).bind Run.result :=
  find?_filterMap_result _

theorem passed_of_passedAttempt {testName : String} {runs : List (Run String)} {run : Run String}
    (h : passedAttempt testName runs = some run) : run.passed = true :=
  List.find?_some h

theorem anySuccess_returnedAttempts (testName : String) (runs : List (Run String)) :
    anySuccess (returnedAttempts testName runs) = (passedAttempt testName runs).isSome := by
  unfold anySuccess
  rw [Bool.eq_iff_iff, List.any_eq_true, ← List.find?_isSome]
  rw [find?_returnedAttempts]
  cases hrun : passedAttempt testName runs with
  | none => simp
  | some run =>
    obtain ⟨result, hresult⟩ := Run.result_of_passed (passed_of_passedAttempt hrun)
    rw [Option.bind_some, hresult]
    simp

/-- No text that was found in a log is empty. -/
theorem nonEmpty_findSome?_extracted (runs : List (Run String)) :
    nonEmpty (runs.findSome? Run.extracted) = runs.findSome? Run.extracted := by
  cases hns : runs.findSome? Run.extracted with
  | none => rfl
  | some ns =>
    obtain ⟨run, -, hextracted⟩ := List.exists_of_findSome?_eq_some hns
    have hne : ns ≠ "" := by
      rintro rfl
      unfold Run.extracted at hextracted
      split at hextracted
      · cases hextracted
      · simp [Option.filter_eq_some_iff] at hextracted
    simp [nonEmpty, Option.filter, hne]

section

variable {runner : Runner String} {runs : List (Run String)}

/-- The summary that the attempts of a test call for. -/
def summaryOfRuns (args : Args) (runner : Runner String) (runs : List (Run String))
    (testName : String) : TestSummary String :=
  summaryOf args testName (initialResultOf runner testName) (returnedAttempts testName runs)

theorem finalStatus_summaryOfRuns (testName : String) :
    (summaryOfRuns args runner runs testName).finalStatus =
      if (passedAttempt testName runs).isSome then .flaky else .failed := by
  unfold summaryOfRuns summaryOf finalStatusOf initialResultOf
  dsimp only
  rw [if_neg Bool.false_ne_true, anySuccess_returnedAttempts]

theorem flakyEntry_summaryOfRuns (testName : String) :
    flakyEntry (summaryOfRuns args runner runs testName) =
      (passedAttempt testName runs).map fun run =>
        ⟨testName, run.attempt, run.attemptType,
          1 + (returnedAttempts testName runs).length⟩ := by
  unfold flakyEntry summaryOfRuns summaryOf
  dsimp only
  rw [find?_returnedAttempts]
  cases hrun : passedAttempt testName runs with
  | none => rfl
  | some run =>
    obtain ⟨result, hresult⟩ := Run.result_of_passed (passed_of_passedAttempt hrun)
    obtain ⟨-, hattempt, htype⟩ := Run.result_fields hresult
    simp [hresult, hattempt, htype]

theorem failedEntry_summaryOfRuns {testName : String}
    (h : (passedAttempt testName runs).isNone) :
    failedEntry (summaryOfRuns args runner runs testName) = {
      testName
      totalAttempts := 1 + (returnedAttempts testName runs).length
      finalNamespace := if args.deleteFailedNamespaces then none
        else (attemptsOf testName runs).reverse.findSome? Run.extracted
      lastError := nonEmpty ((returnedAttempts testName runs).getLast?.bind
        TestResult.failedStep) } := by
  have hstatus := @finalStatus_summaryOfRuns args runner runs testName
  rw [if_neg (by simpa using h)] at hstatus
  have hnamespace : nonEmpty (summaryOfRuns args runner runs testName).finalNamespace =
      if args.deleteFailedNamespaces then none
      else (attemptsOf testName runs).reverse.findSome? Run.extracted := by
    have hlast := lastNamespace_filterMap (attemptsOf testName runs)
    have hnonEmpty := nonEmpty_findSome?_extracted (attemptsOf testName runs).reverse
    unfold summaryOfRuns summaryOf at hstatus ⊢
    dsimp only at hstatus ⊢
    rw [hstatus]
    cases args.deleteFailedNamespaces with
    | true => rfl
    | false =>
      simp only [Bool.not_false, and_self, if_true, Bool.false_eq_true, if_false]
      rw [returnedAttempts, hlast, hnonEmpty]
  unfold failedEntry
  rw [hnamespace]
  rfl

end

/-! ## The report -/

/-- The summaries of the failed tests in order. -/
def InOrder (args : Args) (v t : Runner String) : Prop :=
  t.testSummaries =
    t.failedTests.map fun testName => (testName, summaryOfRuns args v t.runs testName)

section

variable {v t : Runner String}

theorem InOrder.withStatus (h : InOrder args v t) (status : FinalStatus) :
    withStatus status t.testSummaries =
      (t.failedTests.filter fun testName =>
        (summaryOfRuns args v t.runs testName).finalStatus = status).map
          (summaryOfRuns args v t.runs) := by
  unfold AutoRetryTests.withStatus
  rw [h, List.map_map, List.filter_map]
  rfl

theorem InOrder.withStatus_passed (h : InOrder args v t) :
    AutoRetryTests.withStatus .passed t.testSummaries = [] := by
  rw [h.withStatus, List.map_eq_nil_iff, List.filter_eq_nil_iff]
  intro testName _ hpassed
  rw [finalStatus_summaryOfRuns] at hpassed
  split at hpassed <;> cases of_decide_eq_true hpassed

theorem InOrder.withStatus_flaky (h : InOrder args v t) :
    AutoRetryTests.withStatus .flaky t.testSummaries =
      (t.failedTests.filter fun testName => (passedAttempt testName t.runs).isSome).map
        (summaryOfRuns args v t.runs) := by
  rw [h.withStatus]
  congr 1
  refine List.filter_congr fun testName _ => ?_
  rw [finalStatus_summaryOfRuns]
  cases (passedAttempt testName t.runs).isSome <;> rfl

theorem InOrder.withStatus_failed (h : InOrder args v t) :
    AutoRetryTests.withStatus .failed t.testSummaries =
      (t.failedTests.filter fun testName => (passedAttempt testName t.runs).isNone).map
        (summaryOfRuns args v t.runs) := by
  rw [h.withStatus]
  congr 1
  refine List.filter_congr fun testName _ => ?_
  rw [finalStatus_summaryOfRuns]
  cases passedAttempt testName t.runs <;> rfl

/-- Every test that passed has an entry. -/
theorem InOrder.flakyTests (h : InOrder args v t) :
    (Report.ofSummaries t.testSummaries).flakyTests =
      (Report.ofRuns args t.failedTests t.runs).flakyTests := by
  unfold Report.ofSummaries Report.ofRuns
  dsimp only
  rw [h.withStatus_flaky, List.filterMap_map, List.filterMap_filter]
  refine List.filterMap_congr fun testName _ => ?_
  rw [Function.comp_apply, flakyEntry_summaryOfRuns]
  cases passedAttempt testName t.runs <;> rfl

theorem InOrder.failedTests (h : InOrder args v t) :
    (Report.ofSummaries t.testSummaries).failedTests =
      (Report.ofRuns args t.failedTests t.runs).failedTests := by
  unfold Report.ofSummaries Report.ofRuns
  dsimp only
  rw [h.withStatus_failed, List.map_map]
  refine List.map_congr_left fun testName hmem => ?_
  exact failedEntry_summaryOfRuns (List.mem_filter.1 hmem).2

theorem InOrder.report (h : InOrder args v t) :
    Report.ofSummaries t.testSummaries = Report.ofRuns args t.failedTests t.runs := by
  have hflaky := h.flakyTests
  have hfailed := h.failedTests
  unfold Report.ofSummaries Report.ofRuns at hflaky hfailed ⊢
  dsimp only at hflaky hfailed
  rw [hflaky, hfailed, h.withStatus_passed, h.withStatus_flaky, h.withStatus_failed]
  simp only [List.length_map, List.length_nil]
  congr 1
  rw [h, List.length_map]

/-- The summaries at the end of the retries. -/
theorem RetriesDone.inOrder {s u : Runner String} {parallelRuns serialRuns : List (Run String)}
    {allParallelResults allSerialResults : List (String × List (TestResult String))}
    (h : RetriesDone args s parallelRuns serialRuns allParallelResults allSerialResults u v t)
    (hs : ∀ run ∈ s.runs, run.attemptType = .initial) (hnodup : t.failedTests.Nodup) :
    InOrder args v t := by
  have hkeys : t.testSummaries.map Prod.fst = t.failedTests := by
    rw [h.failedTests_eq] at hnodup ⊢
    exact h.keys hnodup
  refine Assoc.eq_map_of_keys hnodup hkeys fun testName hmem => ?_
  rw [h.failedTests_eq] at hmem
  have hattempts := h.retryRuns.attemptsOf_of_initial hs testName
  have hresults := h.retryResults testName
  rw [← hattempts] at hresults
  rw [h.summaries testName, if_pos hmem, newSummary, hresults]
  rfl

end

/-! ## Runs -/

theorem Ends.inOrder {s t : Runner String} {code : Int} (h : Ends env args s (.ok code) t)
    (hs : ∀ run ∈ s.runs, run.attemptType = .initial) (hnodup : t.failedTests.Nodup) :
    ∃ v, InOrder args v t := by
  obtain ⟨-, -, _, _, _, _, _, v, hdone⟩ := h
  exact ⟨v, hdone.inOrder hs hnodup⟩

/-- A run that goes on to its retries reports at their end. -/
theorem Ends.endsReported {s t : Runner String} {code : Int} (h : Ends env args s (.ok code) t)
    (hs : s.reported = []) (hne : s.failedTests ≠ []) : EndsReported env args code t := by
  obtain ⟨hcode, hreported, _, _, _, _, _, _, hdone⟩ := h
  have hreports : Reports env args t := Or.inl (hdone.failedTests_eq ▸ hne)
  exact ⟨fun _ => by rw [hreported, hs]; rfl, fun hnot => (hnot hreports).elim, hcode⟩

theorem NewEnds.inOrder {t : Runner String} {code : Int} (h : NewEnds env args (.ok code) t)
    (hnodup : t.failedTests.Nodup) : EndsReported env args code t ∧ ∃ v, InOrder args v t := by
  cases h with
  | early h hnil =>
    refine ⟨h.endsReported hnil, t, ?_⟩
    have hsum : t.testSummaries = [] := by
      obtain ⟨_, _, _, _, ht⟩ := h.initialized.state
      rw [ht]
      rfl
    rw [InOrder, hsum, hnil]
    rfl
  | retried h hne hends =>
    refine ⟨hends.endsReported (h.reported_of_ne_nil hne) hne, hends.inOrder ?_ hnodup⟩
    exact fun run hrun => (h.initialized.runs run hrun).2.1

/-- Every run, new or resumed, that comes to its end with distinct failed tests. -/
theorem inOrder_runFrom {start : Option (State String)}
    (hstart : ∀ state ∈ start, Saved state) (env : Env String) {code : Int}
    (hcode : (runFrom env args start).1 = .ok code)
    (hnodup : (runFrom env args start).2.failedTests.Nodup) :
    EndsReported env args code (runFrom env args start).2 ∧
      ∃ v, InOrder args v (runFrom env args start).2 := by
  cases start with
  | none =>
    have h := runNew_newEnds env args
    have hok : (runNew env args).1 = .ok code := hcode
    rw [hok] at h
    exact h.inOrder hnodup
  | some state =>
    have hresumable := (hstart state rfl).resumable
    have h := runResumed_ends env args hresumable.failedTests hresumable.testSummaries
    have hok : (runResumed env args state).1 = .ok code := hcode
    rw [hok] at h
    exact ⟨h.endsReported rfl hresumable.failedTests,
      h.inOrder (by simp [loadState, Runner.new]) hnodup⟩

/-- A run that comes to its end, new or resumed, generates one report if it has tests to retry or
its full suite has passed, and none otherwise. The report tells what has become of each failed test
in the executions of the run, and the exit code is 0 if it lists no test as failed. -/
theorem report_tells_runs (texts : ReportTexts) {start : Option (State String)}
    (hstart : ∀ state ∈ start, Saved state) (env : Env String) {code : Int}
    (hcode : (runFrom env args start).1 = .ok code)
    (hnodup : (runFrom env args start).2.failedTests.Nodup) :
    let t := (runFrom env args start).2
    let report := Report.ofRuns args t.failedTests t.runs
    (Reports env args t → t.reported.map (generateComprehensiveReport texts args) =
        ["\n".intercalate (report.lines texts args)]) ∧
      (¬Reports env args t → t.reported = []) ∧
      (code = 0 ↔ report.failedTests = []) := by
  obtain ⟨hends, v, horder⟩ := inOrder_runFrom hstart env hcode hnodup
  have hreport := horder.report
  refine ⟨fun hreports => ?_, hends.silent, ?_⟩
  · rw [hends.report hreports, List.map_singleton, generateComprehensiveReport, hreport]
  · rw [← hreport, hends.code, exitCodeOf, ← withStatus_length]
    unfold Report.ofSummaries
    dsimp only
    rw [List.map_eq_nil_iff, ← List.length_eq_zero_iff]
    split
    · rename_i hzero
      exact iff_of_true rfl hzero
    · rename_i hpos
      exact iff_of_false (by decide) hpos

theorem exists_ok_of_isOk {E α : Type} {result : Except E α} (h : result.isOk = true) :
    ∃ a, result = .ok a := by
  cases result with
  | error e => cases h
  | ok a => exact ⟨a, rfl⟩

/-- A report without times and runtimes. -/
def bareTexts : ReportTexts :=
  ⟨"", "", "", fun _ _ => "", fun _ => "", fun _ => [], [], "None"⟩

/-- One serial attempt fewer than `logging` needs. -/
def oneAttemptEach : Args :=
  ⟨2, 1, 1, false, none⟩

/-- One test passes in its first retry, and the other one fails in both. -/
theorem report_tells_runs_twoFlaky :
    let t := (runFrom twoFlaky oneAttemptEach none).2
    let report := Report.ofRuns oneAttemptEach t.failedTests t.runs
    t.reported.map (generateComprehensiveReport bareTexts oneAttemptEach) =
        ["\n".intercalate (report.lines bareTexts oneAttemptEach)] ∧
      report.flakyTests = [⟨"smoke", 1, .parallel, 2⟩] ∧
      report.failedTests.map FailedEntry.testName = ["logging"] := by
  have hdone : (runFrom twoFlaky oneAttemptEach none).1.isOk = true := by decide +kernel
  have hfailed : (runFrom twoFlaky oneAttemptEach none).2.failedTests = ["smoke", "logging"] := by
    decide +kernel
  obtain ⟨code, hcode⟩ := exists_ok_of_isOk hdone
  have hnodup : (runFrom twoFlaky oneAttemptEach none).2.failedTests.Nodup := by
    rw [hfailed]
    decide
  obtain ⟨hreport, -, -⟩ := report_tells_runs bareTexts (by simp) twoFlaky hcode hnodup
  refine ⟨hreport (Or.inl ?_), by decide +kernel, by decide +kernel⟩
  rw [hfailed]
  simp

end CommonsOperator.AutoRetryTests
