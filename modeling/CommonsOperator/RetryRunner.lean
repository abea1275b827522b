import CommonsOperator.Json
import CommonsOperator.Program

/-!
# Retrying tests

`auto-retry-tests.py` : run the test suite, read the failed tests from its log, retry them in
parallel and then one by one, and sum up. `Runner` has the fields of the test runner and, in
addition, what it has done to the world : the executions it has started, the namespaces it has
deleted and the states it has saved. `Env` makes every choice that is not the runner's : how
each execution ends, in which order parallel ones complete, and what the files read contain.
-/

set_option linter.unusedSectionVars false

namespace CommonsOperator.AutoRetryTests

/-! ## Names of tests -/

/-- What the runner asks of the names of tests. They are the keys of its dictionaries, and those
in a state file need not be texts : any of them is asked for its truth value, and one that is
true for `replace`, which only texts have. -/
class TestNames (N : Type) where
  ofText : String → N
  /-- An element of a list in a JSON file. -/
  ofJson : Json → Except String N
  truthy : N → Bool
  isText : N → Bool
  isText_ofText : ∀ text, isText (ofText text) = true

/-- Tests that have texts as their names, as in all state files that a new run writes. -/
instance : TestNames String where
  ofText text := text
  ofJson
    | .str s => .ok s
    | _ => .error "not a test name"
  truthy s := s ≠ ""
  isText _ := true
  isText_ofText _ := rfl

@[simp] theorem TestNames.ofText_string (text : String) : (ofText text : String) = text :=
  rfl

@[simp] theorem TestNames.truthy_string (s : String) : truthy s = decide (s ≠ "") :=
  rfl

/-- The elements of a JSON list that can be keys of a dictionary, up to the equality of keys :
`true` and `false` are 1 and 0. -/
inductive ListedName where
  | text (s : String)
  | null
  | number (n : Rat)
  deriving DecidableEq

/-- The element as a key. A list that has another one raises before any of its tests is started. -/
def ListedName.ofJson : Json → Except String ListedName
  | .str s => .ok (.text s)
  | .null => .ok .null
  | .bool b => .ok (.number (if b then 1 else 0))
  | .num n => .ok (.number n)
  | .arr _ => .error "unhashable type: 'list'"
  | .obj _ => .error "unhashable type: 'dict'"

instance : TestNames ListedName where
  ofText := .text
  ofJson := ListedName.ofJson
  truthy
    | .text s => s ≠ ""
    | .null => false
    | .number n => n ≠ 0
  isText
    | .text _ => true
    | _ => false
  isText_ofText _ := rfl

/-! ## Results -/

inductive AttemptType where
  | initial
  | parallel
  | serial
  deriving DecidableEq

structure TestResult (N : Type) where
  testName : N
  attempt : Nat
  attemptType : AttemptType
  success : Bool
  /-- `namespace`. -/
  ns : Option String
  logFile : Option String
  failedStep : Option String
  deriving DecidableEq

inductive FinalStatus where
  | passed
  | failed
  | flaky
  deriving DecidableEq

structure TestSummary (N : Type) where
  testName : N
  initialResult : TestResult N
  retryResults : List (TestResult N)
  finalStatus : FinalStatus
  totalAttempts : Nat
  finalNamespace : Option String

variable {N : Type}

/-- Some result is a success. -/
def anySuccess (results : List (TestResult N)) : Bool :=
  results.any fun result => result.success

/-- The results of a test in a dictionary of results. -/
def resultsOf [DecidableEq N] (results : List (N × List (TestResult N))) (testName : N) :
    List (TestResult N) :=
  (Assoc.get? results testName).getD []

/-! ## The outside world -/

/-- The arguments. Only the state file of `--rerun-failed` is one of them; a state resumed from
is loaded before the run. -/
structure Args where
  parallel : Int
  attemptsParallel : Int
  attemptsSerial : Int
  deleteFailedNamespaces : Bool
  rerunFailed : Option String

/-- An execution of `run-tests` that came to an end, and what is found in its log. -/
structure Execution where
  success : Bool
  /-- `namespace`. -/
  ns : Option String
  failedStep : String
  logFile : String

/-- A JSON file that is to be read. -/
inductive JsonFile where
  | missing
  | unreadable
  | json (content : Json)

structure Env (N : Type) where
  /-- The execution of the full suite. -/
  initial : Except String Execution
  /-- The text of a log file. -/
  readLog : String → Option String
  readJson : String → JsonFile
  /-- How the tests of a parallel attempt end, in the order in which they complete. -/
  complete : Nat → List N → List (N × Except String Execution)
  complete_perm : ∀ attempt testNames,
    ((complete attempt testNames).map Prod.fst).Perm testNames
  /-- How an attempt of the test at some place of the serial phase ends. -/
  serial : Nat → N → Nat → Except String Execution

/-- An environment in which all retries end the same way, and every log has the same text. -/
def Env.always (initial retry : Except String Execution) (log : String) : Env N where
  initial := initial
  readLog := fun _ => some log
  readJson := fun _ => .missing
  complete := fun _ testNames => testNames.map fun testName => (testName, retry)
  complete_perm := fun _ testNames => .of_eq (by simp [Function.comp_def])
  serial := fun _ _ _ => retry

/-- A call of `run_single_test_suite`, and how it ended. -/
structure Run (N : Type) where
  testName : N
  skipDelete : Bool
  attempt : Nat
  attemptType : AttemptType
  outcome : Except String Execution

/-- The execution came to an end, successfully. -/
def Run.passed (run : Run N) : Bool :=
  match run.outcome with
  | .ok execution => execution.success
  | .error _ => false

/-- What `save_state` writes. -/
structure State (N : Type) where
  failedTests : List N
  parallelAttemptsDone : Nat
  serialAttemptsDone : List (N × Nat)
  initialResultLog : Option String
  testSummaries : List (N × TestSummary N)
  allResults : List (TestResult N)

structure Runner (N : Type) where
  results : List (TestResult N)
  testSummaries : List (N × TestSummary N)
  failedTests : List N
  parallelAttemptsDone : Nat
  serialAttemptsDone : List (N × Nat)
  initialResultLog : Option String
  /-- The executions started. -/
  runs : List (Run N)
  /-- The namespaces deleted. -/
  deleted : List String
  /-- The states written to the state file. -/
  saved : List (State N)
  /-- The summaries in the reports generated. -/
  reported : List (List (N × TestSummary N))

/-- `AutoRetryTestRunner.__init__`. -/
def Runner.new : Runner N :=
  ⟨[], [], [], 0, [], none, [], [], [], []⟩

/-- What the methods of the runner do. -/
abbrev RunnerM (N α : Type) :=
  Program (Runner N) String α

/-! ## `StateManager` -/

/-- `build_state_data`. -/
def buildStateData (runner : Runner N) : State N where
  failedTests := runner.failedTests
  parallelAttemptsDone := runner.parallelAttemptsDone
  serialAttemptsDone := runner.serialAttemptsDone
  initialResultLog := runner.initialResultLog
  testSummaries := runner.testSummaries
  allResults := runner.results

/-- `save_state`. -/
def saveState : RunnerM N Unit :=
  modify fun runner => { runner with saved := runner.saved ++ [buildStateData runner] }

/-- `load_state`, of a state that `save_state` wrote. -/
def loadState (state : State N) (runner : Runner N) : Runner N :=
  { runner with
    failedTests := state.failedTests
    parallelAttemptsDone := state.parallelAttemptsDone
    serialAttemptsDone := state.serialAttemptsDone
    initialResultLog := state.initialResultLog
    testSummaries := state.testSummaries
    results := state.allResults }

/-- The truth value of what a JSON file contains. -/
def truthy : Json → Bool
  | .null => false
  | .bool b => b
  | .num n => n ≠ 0
  | .str s => s ≠ ""
  | .arr elems => !elems.isEmpty
  | .obj fields => !fields.isEmpty

/-- Go through what a state file has for its failed tests. -/
def testNamesOf [TestNames N] : Json → Except String (List N)
  | .arr elems => elems.mapM TestNames.ofJson
  | .str s => .ok (s.toList.map fun c => TestNames.ofText (String.singleton c))
  | .obj fields => .ok (fields.map fun field => TestNames.ofText field.1)
  | _ => .error "object has no len()"

/-- `load_failed_tests_from_state`. -/
def loadFailedTestsFromState [TestNames N] (file : JsonFile) : Except String (List N) :=
  match file with
  | .missing => .ok []
  | .unreadable => .ok []
  | .json content =>
    if truthy content then
      match content with
      | .obj fields => testNamesOf ((Assoc.get? fields "failed_tests").getD (.arr []))
      | _ => .error "object has no attribute 'get'"
    else .ok []

/-! ## `TestExecutor` -/

/-- The characters that `\s` matches. -/
def isSpace (c : Char) : Bool :=
  c.toNat ∈ [0x09, 0x0a, 0x0b, 0x0c, 0x0d, 0x1c, 0x1d, 0x1e, 0x1f, 0x20, 0x85, 0xa0, 0x1680,
    0x2000, 0x2001, 0x2002, 0x2003, 0x2004, 0x2005, 0x2006, 0x2007, 0x2008, 0x2009, 0x200a,
    0x2028, 0x2029, 0x202f, 0x205f, 0x3000]

/-- What `([^\s]+)` matches after `literal`, at the start of the text. -/
def matchToken (literal text : List Char) : Option (List Char) :=
  if literal.isPrefixOf text then
    let token := (text.drop literal.length).takeWhile fun c => !isSpace c
    if token.isEmpty then none else some token
  else none

/-- All matches of `literal` and `([^\s]+)` in the text, past its first characters. -/
def findAll (literal : List Char) : Nat → List Char → List String
  | _, [] => []
  | skip + 1, _ :: text => findAll literal skip text
  | 0, c :: text =>
    match matchToken literal (c :: text) with
    | some token =>
      String.ofList token :: findAll literal (literal.length + token.length - 1) text
    | none => findAll literal 0 text

/-- `parse_failed_tests_from_log`. -/
def parseFailedTestsFromLog (log : Option String) : List String :=
  match log with
  | some content => findAll "--- FAIL: kuttl/harness/".toList 0 content.toList
  | none => []

/-- `delete_test_namespace`. -/
def deleteTestNamespace (ns : String) : RunnerM N Unit :=
  modify fun runner => { runner with deleted := runner.deleted ++ [ns] }

section

variable [TestNames N]

/-- How an attempt ends whose execution would end with `outcome` : a name that is true and no text
raises at once. -/
def outcomeOf (testName : N) (outcome : Except String Execution) : Except String Execution :=
  if TestNames.truthy testName && !TestNames.isText testName then
    .error "object has no attribute 'replace'"
  else outcome

/-- `run_single_test_suite` of a test, or of the full suite if the name is not true. -/
def runSingleTestSuite (outcome : Except String Execution) (testName : N)
    (skipDelete : Bool) (attempt : Nat) (attemptType : AttemptType) :
    RunnerM N (TestResult N) := do
  let outcome := outcomeOf testName outcome
  modify fun runner =>
    { runner with
      runs := runner.runs ++ [⟨testName, skipDelete, attempt, attemptType, outcome⟩] }
  match outcome with
  | .error message => throw message
  | .ok execution =>
    -- only the namespaces of failed tests are kept
    match execution.ns with
    | some ns =>
      if TestNames.truthy testName ∧ skipDelete ∧ execution.success ∧ ns ≠ "" then
        deleteTestNamespace ns
    | none => pure ()
    return {
      testName := if TestNames.truthy testName then testName else TestNames.ofText "full_suite"
      attempt, attemptType
      success := execution.success
      ns := execution.ns
      logFile := some execution.logFile
      failedStep := if execution.success then none else some execution.failedStep }

end

/-! ## `AutoRetryTestRunner` -/

section

variable [DecidableEq N] [TestNames N] (env : Env N) (args : Args)

/-- `self.results.append`. -/
def addResult (result : TestResult N) : RunnerM N Unit :=
  modify fun runner => { runner with results := runner.results ++ [result] }

/-- A test of a parallel attempt completes. An exception is printed only. -/
def completeTest (attempt : Nat) (skipDelete : Bool) (allResults : List (N × List (TestResult N)))
    (completed : N × Except String Execution) :
    RunnerM N (List (N × List (TestResult N))) :=
  tryCatch
    (do
      let result ← runSingleTestSuite completed.2 completed.1 skipDelete attempt .parallel
      addResult result
      return Assoc.set allResults completed.1 (resultsOf allResults completed.1 ++ [result]))
    fun _ => return allResults

/-- The loop of `retry_tests_in_parallel` over the attempts. -/
def parallelAttempts (testNames : List N) (maxAttempts : Int) (serialTestsFollow : Bool) :
    List Nat → List (N × List (TestResult N)) → RunnerM N (List (N × List (TestResult N)))
  | [], allResults => return allResults
  | attempt :: attempts, allResults => do
    let testsToRetry := testNames.filter fun testName => !anySuccess (resultsOf allResults testName)
    if testsToRetry = [] then
      return allResults
    let isLastAttempt := (attempt : Int) = maxAttempts
    let useSkipDelete := !args.deleteFailedNamespaces && !serialTestsFollow && isLastAttempt
    let maxParallel := min (testsToRetry.length : Int) args.parallel
    if maxParallel ≤ 0 then
      throw "max_workers must be greater than 0"
    let allResults ← (env.complete attempt testsToRetry).foldlM
      (completeTest attempt useSkipDelete) allResults
    modify fun runner => { runner with parallelAttemptsDone := attempt }
    parallelAttempts testNames maxAttempts serialTestsFollow attempts allResults

/-- A dictionary with no result for any test. -/
def noResults (testNames : List N) : List (N × List (TestResult N)) :=
  testNames.foldl (fun results testName => Assoc.set results testName []) []

/-- `retry_tests_in_parallel`. -/
def retryTestsInParallel (testNames : List N) (maxAttempts : Int)
    (serialTestsFollow : Bool) : RunnerM N (List (N × List (TestResult N))) :=
  if maxAttempts ≤ 0 ∨ testNames = [] then
    return noResults testNames
  else
    parallelAttempts env args testNames maxAttempts serialTestsFollow
      (List.range' 1 maxAttempts.toNat) (noResults testNames)

/-- The loop of `retry_test_serially` over the attempts. -/
def serialAttempts (place : Nat) (testName : N) (maxAttempts : Int) :
    List Nat → List (TestResult N) → RunnerM N (List (TestResult N))
  | [], results => return results
  | attempt :: attempts, results => do
    let isLastAttempt := (attempt : Int) = maxAttempts
    let useSkipDelete := !args.deleteFailedNamespaces && isLastAttempt
    let result ← runSingleTestSuite (env.serial place testName attempt) testName useSkipDelete
      attempt .serial
    let results := results ++ [result]
    addResult result
    saveState
    modify fun runner =>
      { runner with serialAttemptsDone := Assoc.set runner.serialAttemptsDone testName attempt }
    if result.success then
      return results
    serialAttempts place testName maxAttempts attempts results

/-- `retry_test_serially`. -/
def retryTestSerially (place : Nat) (testName : N) (maxAttempts : Int) :
    RunnerM N (List (TestResult N)) :=
  if maxAttempts ≤ 0 then
    return []
  else
    serialAttempts env args place testName maxAttempts (List.range' 1 maxAttempts.toNat) []

/-- The status a test ends with. -/
def finalStatusOf (initialResult : TestResult N) (retryResults : List (TestResult N)) :
    FinalStatus :=
  if initialResult.success then .passed
  else if anySuccess retryResults then .flaky
  else .failed

/-- The last namespace found in a log. -/
def lastNamespace (retryResults : List (TestResult N)) : Option String :=
  retryResults.reverse.findSome? fun result => result.ns.filter (· ≠ "")

/-- The summary of a test. -/
def summaryOf (testName : N) (initialResult : TestResult N) (retryResults : List (TestResult N)) :
    TestSummary N where
  testName := testName
  initialResult := initialResult
  retryResults := retryResults
  finalStatus := finalStatusOf initialResult retryResults
  totalAttempts := 1 + retryResults.length
  finalNamespace :=
    if finalStatusOf initialResult retryResults = .failed ∧ !args.deleteFailedNamespaces then
      lastNamespace retryResults
    else none

/-- `create_test_summary`. -/
def createTestSummary (testName : N) (initialResult : TestResult N)
    (retryResults : List (TestResult N)) : RunnerM N Unit :=
  modify fun runner =>
    { runner with
      testSummaries := Assoc.set runner.testSummaries testName
        (summaryOf args testName initialResult retryResults) }

/-- `generate_and_save_final_report`. -/
def generateAndSaveFinalReport : RunnerM N Unit :=
  modify fun runner => { runner with reported := runner.reported ++ [runner.testSummaries] }

/-- `_load_failed_tests_for_rerun`. -/
def loadFailedTestsForRerun (stateFile : String) : RunnerM N Bool :=
  match loadFailedTestsFromState (env.readJson stateFile) with
  | .error message => throw message
  | .ok failedTests =>
    if failedTests = [] then
      return false
    else do
      modify fun runner => { runner with failedTests }
      return true

/-- `_run_initial_test_suite`. -/
def runInitialTestSuite : RunnerM N Bool := do
  let initialResult ← runSingleTestSuite env.initial (TestNames.ofText "") false 1 .initial
  if initialResult.success then
    generateAndSaveFinalReport
    return false
  let failedTests := (parseFailedTestsFromLog (initialResult.logFile.bind env.readLog)).map
    TestNames.ofText
  if failedTests = [] then
    return false
  modify fun runner => { runner with failedTests, initialResultLog := initialResult.logFile }
  return true

/-- `initialize_run_mode`. -/
def initializeRunMode : RunnerM N Bool := do
  let runner ← get
  if runner.failedTests ≠ [] then
    return true
  else
    match args.rerunFailed.filter (· ≠ "") with
    | some stateFile => loadFailedTestsForRerun env stateFile
    | none => runInitialTestSuite env

/-- The test has passed in an earlier run. -/
def alreadyPassed (runner : Runner N) (testName : N) : Bool :=
  (Assoc.get? runner.testSummaries testName).any fun summary =>
    summary.finalStatus = .passed ∨ summary.finalStatus = .flaky

/-- `execute_parallel_retries`. -/
def executeParallelRetries : RunnerM N (List (N × List (TestResult N))) := do
  let runner ← get
  if 0 < args.attemptsParallel ∧ runner.parallelAttemptsDone < args.attemptsParallel then
    let testsNeedingParallel := runner.failedTests.filter fun testName =>
      !alreadyPassed runner testName
    if testsNeedingParallel ≠ [] then
      let remainingParallelAttempts := args.attemptsParallel - runner.parallelAttemptsDone
      let serialTestsWillFollow := decide (0 < args.attemptsSerial)
      retryTestsInParallel env args testsNeedingParallel remainingParallelAttempts
        serialTestsWillFollow
    else return []
  else return []

/-- The serial retries of the test at some place. -/
def serialRetriesOf (allSerialResults : List (N × List (TestResult N)))
    (test : N × Nat) : RunnerM N (List (N × List (TestResult N))) := do
  let runner ← get
  let attemptsDone := (Assoc.get? runner.serialAttemptsDone test.1).getD 0
  let remainingAttempts := args.attemptsSerial - attemptsDone
  if 0 < remainingAttempts then
    let serialResults ← retryTestSerially env args test.2 test.1 remainingAttempts
    return Assoc.set allSerialResults test.1 serialResults
  else return allSerialResults

/-- `execute_serial_retries`. -/
def executeSerialRetries (allParallelResults : List (N × List (TestResult N))) :
    RunnerM N (List (N × List (TestResult N))) := do
  let runner ← get
  let testsStillFailing := runner.failedTests.filter fun testName =>
    !alreadyPassed runner testName && !anySuccess (resultsOf allParallelResults testName)
  if 0 < args.attemptsSerial ∧ testsStillFailing ≠ [] then
    (testsStillFailing.zipIdx 1).foldlM (serialRetriesOf env args) []
  else return []

/-- The initial result of a test, which is not recorded by itself. -/
def initialResultOf (runner : Runner N) (testName : N) : TestResult N where
  testName := testName
  attempt := 1
  attemptType := .initial
  success := false
  ns := none
  logFile := some ((runner.initialResultLog.filter (· ≠ "")).getD "unknown")
  failedStep := none

/-- The body of `process_all_test_results`. -/
def processTestResults (allParallelResults allSerialResults : List (N × List (TestResult N)))
    (testName : N) : RunnerM N PUnit := do
  let runner ← get
  if (Assoc.get? runner.testSummaries testName).isSome then
    return
  else
    createTestSummary args testName (initialResultOf runner testName)
      (resultsOf allParallelResults testName ++ resultsOf allSerialResults testName)

/-- `process_all_test_results`. -/
def processAllTestResults (allParallelResults allSerialResults : List (N × List (TestResult N))) :
    RunnerM N PUnit := do
  let runner ← get
  runner.failedTests.forM (processTestResults args allParallelResults allSerialResults)

/-- `execute_test_retries`. -/
def executeTestRetries : RunnerM N Bool := do
  let allParallelResults ← executeParallelRetries env args
  let allSerialResults ← executeSerialRetries env args allParallelResults
  processAllTestResults args allParallelResults allSerialResults
  return true

/-- `finalize_and_report`. -/
def finalizeAndReport : RunnerM N Int := do
  generateAndSaveFinalReport
  let runner ← get
  let failed := runner.testSummaries.filter fun summary => summary.2.finalStatus = .failed
  return if failed.length = 0 then 0 else 1

/-- `run`. -/
def run : RunnerM N Int := do
  if ← initializeRunMode env args then
    if ← executeTestRetries env args then
      finalizeAndReport
    else return 1
  else return 0

/-- A run that was not resumed. -/
def runNew : Except String Int × Runner N :=
  (run env args).exec Runner.new

/-- A run that is resumed from a state. -/
def runResumed (state : State N) : Except String Int × Runner N :=
  (run env args).exec (loadState state Runner.new)

end

end CommonsOperator.AutoRetryTests
