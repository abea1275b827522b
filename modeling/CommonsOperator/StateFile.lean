import CommonsOperator.RetryCommand
import CommonsOperator.RetryResume

/-!
# The state file

`save_state` writes the state of a run as JSON, and `--resume` and `--rerun-failed` read it in
another run. What is read is not checked to be of any type : `load_state` wants certain keys and no
others, and keeps what it finds. `Loaded` is what it keeps, and `Loaded.state?` is the state that
the rest of the run takes it for.

`state_files_are_chained` : every state file that a chain of invocations leaves is read as the
state that was saved, so that the chain goes on as `Saved` has it.
-/

set_option linter.unusedSectionVars false

namespace CommonsOperator.AutoRetryTests

/-- `datetime`. -/
structure DateFormat where
  DateTime : Type
  isoformat : DateTime → String
  fromisoformat : String → Option DateTime
  fromisoformat_isoformat : ∀ time, fromisoformat (isoformat time) = some time

/-! ## What is written -/

/-- A result, with its duration in seconds. -/
structure ResultRecord where
  result : TestResult String
  duration : Rat

structure SummaryRecord where
  testName : String
  initialResult : ResultRecord
  retryResults : List ResultRecord
  finalStatus : FinalStatus
  totalAttempts : Nat
  finalNamespace : Option String

def SummaryRecord.toSummary (summary : SummaryRecord) : TestSummary String where
  testName := summary.testName
  initialResult := summary.initialResult.result
  retryResults := summary.retryResults.map ResultRecord.result
  finalStatus := summary.finalStatus
  totalAttempts := summary.totalAttempts
  finalNamespace := summary.finalNamespace

/-- The arguments of a run that a state file has for its reader. -/
structure Configuration where
  parallel : Int
  attemptsParallel : Int
  attemptsSerial : Int
  deleteFailedNamespaces : Bool
  venv : Option String
  extraArgs : List String
  outputDir : String

/-- What `build_state_data` has. -/
structure StateData (dates : DateFormat) where
  startTime : dates.DateTime
  failedTests : List String
  parallelAttemptsDone : Nat
  serialAttemptsDone : List (String × Nat)
  initialResultLog : Option String
  configuration : Configuration
  testSummaries : List (String × SummaryRecord)
  /-- The names are the keys of a dictionary. -/
  nodup : (testSummaries.map Prod.fst).Nodup
  allResults : List ResultRecord

/-- The state, without what is for the reader of the file only. -/
def StateData.toState {dates : DateFormat} (data : StateData dates) : State String where
  failedTests := data.failedTests
  parallelAttemptsDone := data.parallelAttemptsDone
  serialAttemptsDone := data.serialAttemptsDone
  initialResultLog := data.initialResultLog
  testSummaries := data.testSummaries.map fun summary => (summary.1, summary.2.toSummary)
  allResults := data.allResults.map ResultRecord.result

def FinalStatus.text : FinalStatus → String
  | .passed => "passed"
  | .failed => "failed"
  | .flaky => "flaky"

/-- A text, or `None`. -/
def optionalText : Option String → Json
  | some text => .str text
  | none => .null

/-- `asdict`, of a `TestResult`. -/
def ResultRecord.asdict (record : ResultRecord) : Json :=
  .obj [("test_name", .str record.result.testName), ("attempt", .num record.result.attempt),
    ("attempt_type", .str record.result.attemptType.text), ("success", .bool record.result.success),
    ("namespace", optionalText record.result.ns), ("duration", .num record.duration),
    ("log_file", optionalText record.result.logFile),
    ("failed_step", optionalText record.result.failedStep)]

/-- `asdict`, of a `TestSummary`. -/
def SummaryRecord.asdict (summary : SummaryRecord) : Json :=
  .obj [("test_name", .str summary.testName), ("initial_result", summary.initialResult.asdict),
    ("retry_results", .arr (summary.retryResults.map ResultRecord.asdict)),
    ("final_status", .str summary.finalStatus.text),
    ("total_attempts", .num summary.totalAttempts),
    ("final_namespace", optionalText summary.finalNamespace)]

/-- `build_configuration_dict`. -/
def Configuration.toJson (configuration : Configuration) : Json :=
  .obj [("parallel", .num configuration.parallel),
    ("attempts_parallel", .num configuration.attemptsParallel),
    ("attempts_serial", .num configuration.attemptsSerial),
    ("delete_failed_namespaces", .bool configuration.deleteFailedNamespaces),
    ("venv", optionalText configuration.venv),
    ("extra_args", .arr (configuration.extraArgs.map .str)),
    ("output_dir", .str configuration.outputDir)]

/-- `build_state_data`. -/
def StateData.toJson {dates : DateFormat} (data : StateData dates) : Json :=
  .obj [("start_time", .str (dates.isoformat data.startTime)),
    ("failed_tests", .arr (data.failedTests.map .str)),
    ("parallel_attempts_done", .num data.parallelAttemptsDone),
    ("serial_attempts_done",
      .obj (data.serialAttemptsDone.map fun done => (done.1, .num done.2))),
    ("initial_result_log", optionalText data.initialResultLog),
    ("configuration", data.configuration.toJson),
    ("test_summaries",
      .obj (data.testSummaries.map fun summary => (summary.1, summary.2.asdict))),
    ("all_results", .arr (data.allResults.map ResultRecord.asdict))]

/-! ## What is read -/

/-- A `TestResult` with whatever a file has for its fields. -/
structure LoadedResult where
  testName : Json
  attempt : Json
  attemptType : Json
  success : Json
  /-- `namespace`. -/
  ns : Json
  duration : Json
  logFile : Json
  failedStep : Json

structure LoadedSummary where
  testName : Json
  initialResult : LoadedResult
  retryResults : List LoadedResult
  finalStatus : Json
  totalAttempts : Json
  finalNamespace : Json

/-- What `load_state` puts into the runner. -/
structure Loaded (dates : DateFormat) where
  startTime : dates.DateTime
  failedTests : Json
  parallelAttemptsDone : Json
  serialAttemptsDone : Json
  initialResultLog : Json
  testSummaries : List (String × LoadedSummary)
  results : List LoadedResult

/-- `value[key]`, of a key that is a text. -/
def item (value : Json) (key : String) : Except String Json :=
  match value with
  | .obj fields =>
    match Assoc.get? fields key with
    | some value => .ok value
    | none => .error key
  | _ => .error "indices must be integers or slices, not str"

/-- `value.get(key)`, of a dictionary. -/
def getItem (value : Json) (key : String) : Except String Json :=
  match value with
  | .obj fields => .ok ((Assoc.get? fields key).getD .null)
  | _ => .error "object has no attribute 'get'"

/-- What is gone through in `for element in value`. -/
def elementsOf : Json → Except String (List Json)
  | .arr elems => .ok elems
  | .str text => .ok (text.toList.map fun c => .str (String.singleton c))
  | .obj fields => .ok (fields.map fun field => .str field.1)
  | _ => .error "object is not iterable"

/-- `value.items()`. -/
def itemsOf : Json → Except String (List (String × Json))
  | .obj fields => .ok fields
  | _ => .error "object has no attribute 'items'"

/-- There is a `len(value)`. -/
def hasLen : Json → Bool
  | .arr _ => true
  | .str _ => true
  | .obj _ => true
  | _ => false

/-- The fields of a `TestResult`. -/
def resultFields : List String :=
  ["test_name", "attempt", "attempt_type", "success", "namespace", "duration", "log_file",
    "failed_step"]

/-- `TestResult(**value)`. -/
def testResultOf (value : Json) : Except String LoadedResult :=
  match value with
  | .obj fields =>
    if fields.all fun field => field.1 ∈ resultFields then do
      return {
        testName := ← item value "test_name"
        attempt := ← item value "attempt"
        attemptType := ← item value "attempt_type"
        success := ← item value "success"
        ns := (Assoc.get? fields "namespace").getD .null
        duration := (Assoc.get? fields "duration").getD (.num 0)
        logFile := (Assoc.get? fields "log_file").getD .null
        failedStep := (Assoc.get? fields "failed_step").getD .null }
    else .error "got an unexpected keyword argument"
  | _ => .error "argument after ** must be a mapping"

/-- The body of the loop of `load_state` over the summaries. -/
def testSummaryOf (value : Json) : Except String LoadedSummary := do
  let initialResult ← testResultOf (← item value "initial_result")
  let retryResults ← (← elementsOf (← item value "retry_results")).mapM testResultOf
  return {
    testName := ← item value "test_name"
    initialResult, retryResults
    finalStatus := ← item value "final_status"
    totalAttempts := ← item value "total_attempts"
    finalNamespace := ← getItem value "final_namespace" }

/-- The summaries, by their names. -/
def testSummariesOf (value : Json) : Except String (List (String × LoadedSummary)) := do
  (← itemsOf value).foldlM (fun summaries (name, value) => do
    return Assoc.set summaries name (← testSummaryOf value)) []

section

variable {dates : DateFormat}

/-- `datetime.fromisoformat`. -/
def fromisoformat (value : Json) : Except String dates.DateTime :=
  match value with
  | .str text =>
    match dates.fromisoformat text with
    | some time => .ok time
    | none => .error "Invalid isoformat string"
  | _ => .error "fromisoformat: argument must be str"

variable (dates) in
/-- `load_state`. What it raises it catches, and there is no state. -/
def loadStateFile (file : JsonFile) : Except String (Loaded dates) :=
  match file with
  | .missing => .error "File not found"
  | .unreadable => .error "Failed to load"
  | .json content =>
    if truthy content then do
      let startTime ← fromisoformat (← item content "start_time")
      let failedTests ← item content "failed_tests"
      let parallelAttemptsDone ← item content "parallel_attempts_done"
      let serialAttemptsDone ← item content "serial_attempts_done"
      let initialResultLog ← getItem content "initial_result_log"
      let testSummaries ← testSummariesOf (← item content "test_summaries")
      let results ← (← elementsOf (← item content "all_results")).mapM testResultOf
      if hasLen failedTests then
        return {
          startTime, failedTests, parallelAttemptsDone, serialAttemptsDone, initialResultLog
          testSummaries, results }
      else .error "object has no len()"
    else .error "Failed to load"

end

/-! ## What it is taken for -/

def textOf : Json → Option String
  | .str text => some text
  | _ => none

def optionalTextOf : Json → Option (Option String)
  | .str text => some (some text)
  | .null => some none
  | _ => none

def naturalOf : Json → Option Nat
  | .num n => if n.den = 1 ∧ 0 ≤ n.num then some n.num.toNat else none
  | _ => none

def boolOf : Json → Option Bool
  | .bool b => some b
  | _ => none

def attemptTypeOf (value : Json) : Option AttemptType :=
  [.initial, .parallel, .serial].find? fun attemptType : AttemptType =>
    textOf value = some attemptType.text

def finalStatusOfText (value : Json) : Option FinalStatus :=
  [.passed, .failed, .flaky].find? fun finalStatus : FinalStatus =>
    textOf value = some finalStatus.text

/-- A list, of values that are all taken for something. -/
def listOf {α : Type} (f : Json → Option α) : Json → Option (List α)
  | .arr elems => elems.mapM f
  | _ => none

/-- A dictionary, of values that are all taken for something. -/
def dictOf {α : Type} (f : Json → Option α) : Json → Option (List (String × α))
  | .obj fields => fields.mapM fun field => (f field.2).map fun value => (field.1, value)
  | _ => none

def LoadedResult.result? (loaded : LoadedResult) : Option (TestResult String) := do
  return {
    testName := ← textOf loaded.testName
    attempt := ← naturalOf loaded.attempt
    attemptType := ← attemptTypeOf loaded.attemptType
    success := ← boolOf loaded.success
    ns := ← optionalTextOf loaded.ns
    logFile := ← optionalTextOf loaded.logFile
    failedStep := ← optionalTextOf loaded.failedStep }

def LoadedSummary.summary? (loaded : LoadedSummary) : Option (TestSummary String) := do
  return {
    testName := ← textOf loaded.testName
    initialResult := ← loaded.initialResult.result?
    retryResults := ← loaded.retryResults.mapM LoadedResult.result?
    finalStatus := ← finalStatusOfText loaded.finalStatus
    totalAttempts := ← naturalOf loaded.totalAttempts
    finalNamespace := ← optionalTextOf loaded.finalNamespace }

/-- The state that was loaded, if all its values are of the types that `save_state` writes. -/
def Loaded.state? {dates : DateFormat} (loaded : Loaded dates) : Option (State String) := do
  return {
    failedTests := ← listOf textOf loaded.failedTests
    parallelAttemptsDone := ← naturalOf loaded.parallelAttemptsDone
    serialAttemptsDone := ← dictOf naturalOf loaded.serialAttemptsDone
    initialResultLog := ← optionalTextOf loaded.initialResultLog
    testSummaries := ← loaded.testSummaries.mapM fun summary =>
      summary.2.summary?.map fun value => (summary.1, value)
    allResults := ← loaded.results.mapM LoadedResult.result? }

/-! ## Invocations -/

/-- `main`, after the arguments are parsed. There is no result if the values of a state file are
not of the types that `save_state` writes. -/
def main (dates : DateFormat) (env : Env String) (args : Args) (resume : Option String) :
    Option (Except String Int × Runner String) :=
  match resume.filter (· ≠ ""), args.rerunFailed.filter (· ≠ "") with
  | some _, some _ => some (.ok 1, Runner.new)
  | some stateFile, none =>
    match loadStateFile dates (env.readJson stateFile) with
    | .error _ => some (.ok 1, Runner.new)
    | .ok loaded => loaded.state?.map (runResumed env args)
  | none, _ => some (runNew env args)

/-! ## The round trip -/

/-- What a result is read as. -/
def ResultRecord.loaded (record : ResultRecord) : LoadedResult where
  testName := .str record.result.testName
  attempt := .num record.result.attempt
  attemptType := .str record.result.attemptType.text
  success := .bool record.result.success
  ns := optionalText record.result.ns
  duration := .num record.duration
  logFile := optionalText record.result.logFile
  failedStep := optionalText record.result.failedStep

def SummaryRecord.loaded (summary : SummaryRecord) : LoadedSummary where
  testName := .str summary.testName
  initialResult := summary.initialResult.loaded
  retryResults := summary.retryResults.map ResultRecord.loaded
  finalStatus := .str summary.finalStatus.text
  totalAttempts := .num summary.totalAttempts
  finalNamespace := optionalText summary.finalNamespace

section

variable {α β γ : Type}

theorem mapM_map_pure {m : Type → Type} [Monad m] [LawfulMonad m] {f : β → m γ} {g : α → β}
    {h : α → γ} (hf : ∀ x, f (g x) = pure (h x)) (xs : List α) :
    (xs.map g).mapM f = pure (xs.map h) := by
  have hcomp : f ∘ g = fun x => pure (h x) := funext hf
  rw [List.mapM_map, hcomp, List.mapM_pure]

end

theorem optionalTextOf_optionalText (text : Option String) :
    optionalTextOf (optionalText text) = some text := by
  cases text <;> rfl

theorem naturalOf_num (n : Nat) : naturalOf (.num n) = some n := by
  simp [naturalOf]

theorem attemptTypeOf_text (attemptType : AttemptType) :
    attemptTypeOf (.str attemptType.text) = some attemptType := by
  cases attemptType <;> decide

theorem finalStatusOfText_text (finalStatus : FinalStatus) :
    finalStatusOfText (.str finalStatus.text) = some finalStatus := by
  cases finalStatus <;> decide

theorem testResultOf_asdict (record : ResultRecord) :
    testResultOf record.asdict = .ok record.loaded := by
  rfl

theorem result?_loaded (record : ResultRecord) :
    record.loaded.result? = some record.result := by
  simp [LoadedResult.result?, ResultRecord.loaded, textOf, boolOf, naturalOf_num,
    attemptTypeOf_text, optionalTextOf_optionalText]

theorem testSummaryOf_asdict (summary : SummaryRecord) :
    testSummaryOf summary.asdict = .ok summary.loaded := by
  have hretries : (summary.retryResults.map ResultRecord.asdict).mapM testResultOf =
      pure (summary.retryResults.map ResultRecord.loaded) :=
    mapM_map_pure testResultOf_asdict summary.retryResults
  have hinitial : item summary.asdict "initial_result" = .ok summary.initialResult.asdict := rfl
  have hlist : item summary.asdict "retry_results" =
      .ok (.arr (summary.retryResults.map ResultRecord.asdict)) := rfl
  unfold testSummaryOf
  simp only [hinitial, hlist, bind, Except.bind, testResultOf_asdict, elementsOf, hretries]
  rfl

theorem summary?_loaded (summary : SummaryRecord) :
    summary.loaded.summary? = some summary.toSummary := by
  have hretries : (summary.retryResults.map ResultRecord.loaded).mapM LoadedResult.result? =
      some (summary.retryResults.map ResultRecord.result) :=
    mapM_map_pure result?_loaded summary.retryResults
  simp [LoadedSummary.summary?, SummaryRecord.loaded, SummaryRecord.toSummary, textOf, hretries,
    result?_loaded, finalStatusOfText_text, naturalOf_num, optionalTextOf_optionalText]

/-- The summaries are read on top of others. -/
theorem foldlM_testSummaryOf {summaries : List (String × SummaryRecord)}
    {acc : List (String × LoadedSummary)}
    (hnodup : (acc.map Prod.fst ++ summaries.map Prod.fst).Nodup) :
    (summaries.map fun summary => (summary.1, summary.2.asdict)).foldlM
        (fun acc (item : String × Json) => do
          return Assoc.set acc item.1 (← testSummaryOf item.2)) acc =
      (.ok (acc ++ summaries.map fun summary => (summary.1, summary.2.loaded)) :
        Except String (List (String × LoadedSummary))) := by
  induction summaries generalizing acc with
  | nil => simp [pure, Except.pure]
  | cons summary summaries ih =>
    have hfresh : summary.1 ∉ acc.map Prod.fst := by
      intro hmem
      exact (List.nodup_append.1 hnodup).2.2 _ hmem _ (by simp) rfl
    rw [List.map_cons, List.foldlM_cons]
    dsimp only
    rw [testSummaryOf_asdict]
    have hset := Assoc.set_of_notMem summary.2.loaded hfresh
    have hrest := @ih (acc ++ [(summary.1, summary.2.loaded)]) (by simpa using hnodup)
    simp only [bind, Except.bind, pure, Except.pure, hset] at hrest ⊢
    rw [hrest]
    simp

section

variable {dates : DateFormat}

/-- What a state is read as. -/
def StateData.loaded (data : StateData dates) : Loaded dates where
  startTime := data.startTime
  failedTests := .arr (data.failedTests.map .str)
  parallelAttemptsDone := .num data.parallelAttemptsDone
  serialAttemptsDone := .obj (data.serialAttemptsDone.map fun done => (done.1, .num done.2))
  initialResultLog := optionalText data.initialResultLog
  testSummaries := data.testSummaries.map fun summary => (summary.1, summary.2.loaded)
  results := data.allResults.map ResultRecord.loaded

theorem loadStateFile_toJson (data : StateData dates) :
    loadStateFile dates (.json data.toJson) = .ok data.loaded := by
  have hresults : (data.allResults.map ResultRecord.asdict).mapM testResultOf =
      pure (data.allResults.map ResultRecord.loaded) :=
    mapM_map_pure testResultOf_asdict data.allResults
  have hsummaries : testSummariesOf (.obj (data.testSummaries.map fun summary =>
      (summary.1, summary.2.asdict))) = .ok data.loaded.testSummaries :=
    foldlM_testSummaryOf data.nodup
  have htruthy : truthy data.toJson = true := rfl
  have hstart : item data.toJson "start_time" = .ok (.str (dates.isoformat data.startTime)) := rfl
  have hall : item data.toJson "all_results" =
      .ok (.arr (data.allResults.map ResultRecord.asdict)) := rfl
  have htests : item data.toJson "test_summaries" = .ok (.obj (data.testSummaries.map fun summary =>
      (summary.1, summary.2.asdict))) := rfl
  have htime : fromisoformat (.str (dates.isoformat data.startTime)) = .ok data.startTime := by
    unfold fromisoformat
    dsimp only
    rw [dates.fromisoformat_isoformat]
  unfold loadStateFile
  dsimp only
  rw [if_pos htruthy, hstart, htests, hall]
  simp only [bind, Except.bind, htime, elementsOf, hresults, hsummaries]
  rfl

theorem state?_loaded (data : StateData dates) : data.loaded.state? = some data.toState := by
  have hfailed : (data.failedTests.map Json.str).mapM textOf = some (data.failedTests.map id) :=
    mapM_map_pure (f := textOf) (fun _ => rfl) data.failedTests
  have hserial : (data.serialAttemptsDone.map fun done => (done.1, Json.num done.2)).mapM
      (fun field => (naturalOf field.2).map fun value => (field.1, value)) =
        some (data.serialAttemptsDone.map id) :=
    mapM_map_pure (fun done => by simp [naturalOf_num]) data.serialAttemptsDone
  have hsummaries : (data.testSummaries.map fun summary => (summary.1, summary.2.loaded)).mapM
      (fun summary => summary.2.summary?.map fun value => (summary.1, value)) =
        some (data.testSummaries.map fun summary => (summary.1, summary.2.toSummary)) :=
    mapM_map_pure (fun summary => by simp [summary?_loaded]) data.testSummaries
  have hresults : (data.allResults.map ResultRecord.loaded).mapM LoadedResult.result? =
      some (data.allResults.map ResultRecord.result) :=
    mapM_map_pure result?_loaded data.allResults
  simp [Loaded.state?, StateData.loaded, StateData.toState, listOf, dictOf, hfailed, hserial,
    hsummaries, hresults, naturalOf_num, optionalTextOf_optionalText]

end

/-! ## Runs from a list of failed tests -/

section

variable {env : Env String} {args : Args}

theorem parallelAttempts_rerun (rerun : Option String) (testNames : List String) (maxAttempts : Int)
    (serialTestsFollow : Bool) (attempts : List Nat)
    (allResults : List (String × List (TestResult String))) :
    parallelAttempts env { args with rerunFailed := rerun } testNames maxAttempts
        serialTestsFollow attempts allResults =
      parallelAttempts env args testNames maxAttempts serialTestsFollow attempts allResults := by
  induction attempts generalizing allResults with
  | nil => rfl
  | cons attempt attempts ih =>
    unfold parallelAttempts
    simp only [ih]

theorem serialAttempts_rerun (rerun : Option String) (place : Nat) (testName : String)
    (maxAttempts : Int) (attempts : List Nat) (results : List (TestResult String)) :
    serialAttempts env { args with rerunFailed := rerun } place testName maxAttempts attempts
        results =
      serialAttempts env args place testName maxAttempts attempts results := by
  induction attempts generalizing results with
  | nil => rfl
  | cons attempt attempts ih =>
    unfold serialAttempts
    simp only [ih]

/-- The retries do not depend on how the failed tests were found. -/
theorem executeTestRetries_rerun (rerun : Option String) :
    executeTestRetries env { args with rerunFailed := rerun } = executeTestRetries env args := by
  have hparallel : executeParallelRetries env { args with rerunFailed := rerun } =
      executeParallelRetries env args := by
    unfold executeParallelRetries retryTestsInParallel
    simp only [parallelAttempts_rerun]
  have hserial : executeSerialRetries env { args with rerunFailed := rerun } =
      executeSerialRetries env args := by
    unfold executeSerialRetries serialRetriesOf retryTestSerially
    simp only [serialAttempts_rerun]
  unfold executeTestRetries
  rw [hparallel, hserial]
  rfl

/-- With failed tests, a run goes on to the retries. -/
theorem exec_run_of_failedTests {runner : Runner String} (h : runner.failedTests ≠ []) :
    (run env args).exec runner = (do
      if ← executeTestRetries env args then finalizeAndReport else return 1 :
        RunnerM String Int).exec runner := by
  have hmode : (initializeRunMode env args).exec runner = (.ok true, runner) := by
    unfold initializeRunMode
    rw [Program.exec_bind]
    change (if runner.failedTests ≠ [] then _ else _ : RunnerM String Bool).exec runner = _
    rw [if_pos h]
    rfl
  unfold run
  rw [Program.exec_bind, hmode]
  rfl

/-- A run of the failed tests of a state file. -/
theorem runNew_rerun {stateFile : String} {failedTests : List String} (hfile : stateFile ≠ "")
    (hread : loadFailedTestsFromState (env.readJson stateFile) = .ok failedTests)
    (hne : failedTests ≠ []) :
    runNew env { args with rerunFailed := some stateFile } =
      (run env args).exec { Runner.new with failedTests } := by
  have hmode : (initializeRunMode env { args with rerunFailed := some stateFile }).exec Runner.new =
      (.ok true, { Runner.new with failedTests }) := by
    have hgiven : (some stateFile).filter (· ≠ "") = some stateFile := by
      simp [Option.filter, hfile]
    unfold initializeRunMode
    rw [Program.exec_bind]
    change (if Runner.new.failedTests ≠ [] then _ else _ : RunnerM String Bool).exec Runner.new = _
    rw [if_neg (by simp [Runner.new])]
    dsimp only
    rw [hgiven]
    dsimp only
    unfold loadFailedTestsForRerun
    rw [hread]
    dsimp only
    rw [if_neg hne]
    rfl
  unfold runNew
  have hrun : (run env args).exec { Runner.new with failedTests } = _ :=
    exec_run_of_failedTests hne
  rw [hrun]
  unfold run
  rw [Program.exec_bind, hmode, executeTestRetries_rerun]
  rfl

/-- What `--rerun-failed` reads in a state file. -/
theorem loadFailedTestsFromState_toJson {dates : DateFormat} (data : StateData dates) :
    loadFailedTestsFromState (.json data.toJson) = .ok data.failedTests := by
  have hnames : (data.failedTests.map Json.str).mapM TestNames.ofJson =
      pure (data.failedTests.map id) :=
    mapM_map_pure (f := TestNames.ofJson) (fun _ => rfl) data.failedTests
  have htruthy : truthy data.toJson = true := rfl
  unfold loadFailedTestsFromState
  dsimp only
  rw [if_pos htruthy]
  refine Eq.trans (b := testNamesOf (.arr (data.failedTests.map .str))) rfl ?_
  unfold testNamesOf
  dsimp only
  rw [hnames, List.map_id]
  rfl

end

/-! ## Chains of invocations -/

/-- The results, with durations. -/
def ResultRecord.untimed (result : TestResult String) : ResultRecord :=
  ⟨result, 0⟩

/-- What is written for a state in which no test is summed up yet. -/
def StateData.ofState {dates : DateFormat} (startTime : dates.DateTime)
    (configuration : Configuration) (state : State String) : StateData dates where
  startTime := startTime
  failedTests := state.failedTests
  parallelAttemptsDone := state.parallelAttemptsDone
  serialAttemptsDone := state.serialAttemptsDone
  initialResultLog := state.initialResultLog
  configuration := configuration
  testSummaries := []
  nodup := List.nodup_nil
  allResults := state.allResults.map ResultRecord.untimed

theorem toState_ofState {dates : DateFormat} (startTime : dates.DateTime)
    (configuration : Configuration) {state : State String} (h : state.testSummaries = []) :
    (StateData.ofState startTime configuration state).toState = state := by
  cases state with
  | mk failedTests parallelAttemptsDone serialAttemptsDone initialResultLog testSummaries
      allResults =>
    obtain rfl : testSummaries = [] := h
    simp [StateData.ofState, StateData.toState, ResultRecord.untimed, Function.comp_def]

/-- The contents of the state file when an invocation of a chain is interrupted. The first one runs
all tests or those that had failed, and every other one resumes, each with options of its own. -/
inductive StateFiles (dates : DateFormat) : Json → Prop
  | started (env : Env String) (args : Args) {ending : Except String Int × Runner String}
    (h : main dates env args none = some ending) (data : StateData dates)
    (hsaved : data.toState ∈ ending.2.saved) : StateFiles dates data.toJson
  | resumed (env : Env String) (args : Args) {stateFile : String} {content : Json}
    (hs : StateFiles dates content) (hread : env.readJson stateFile = .json content)
    {ending : Except String Int × Runner String}
    (h : main dates env args (some stateFile) = some ending) (data : StateData dates)
    (hsaved : data.toState ∈ ending.2.saved) : StateFiles dates data.toJson

section

variable {dates : DateFormat} {env : Env String} {args : Args}

theorem main_resume {stateFile : String} (hfile : stateFile ≠ "")
    (hrerun : args.rerunFailed.filter (· ≠ "") = none) {data : StateData dates}
    (hread : env.readJson stateFile = .json data.toJson) :
    main dates env args (some stateFile) = some (runResumed env args data.toState) := by
  have hgiven : (some stateFile).filter (· ≠ "") = some stateFile := by
    simp [Option.filter, hfile]
  unfold main
  rw [hgiven, hrerun]
  dsimp only
  rw [hread, loadStateFile_toJson]
  dsimp only
  rw [state?_loaded]
  rfl

/-- The state of a state file is one of a chain of runs. -/
theorem StateFiles.saved {content : Json} (h : StateFiles dates content) :
    ∃ data : StateData dates, content = data.toJson ∧ Saved data.toState := by
  induction h with
  | started env args h data hsaved =>
    obtain rfl := Option.some.inj h
    exact ⟨data, rfl, .new env args hsaved⟩
  | @resumed env args stateFile content hs hread ending h data hsaved ih =>
    by_cases hfile : stateFile = ""
    · subst hfile
      obtain rfl := Option.some.inj h
      exact ⟨data, rfl, .new env args hsaved⟩
    · obtain ⟨data', rfl, hchain⟩ := ih
      cases hrerun : args.rerunFailed.filter (· ≠ "") with
      | some rerun =>
        -- both options are refused, and nothing is saved
        have hgiven : (some stateFile).filter (· ≠ "") = some stateFile := by
          simp [Option.filter, hfile]
        unfold main at h
        rw [hgiven, hrerun] at h
        obtain rfl := Option.some.inj h
        cases hsaved
      | none =>
        rw [main_resume hfile hrerun hread] at h
        obtain rfl := Option.some.inj h
        exact ⟨data, rfl, .resumed env args hchain hsaved⟩

end

/-- A state file that a chain of invocations leaves is read as the state that was saved : `--resume`
goes on from it, and `--rerun-failed` takes the failed tests of it and nothing else. -/
theorem state_files_are_chained {dates : DateFormat} {content : Json}
    (h : StateFiles dates content) :
    ∃ data : StateData dates, content = data.toJson ∧ Saved data.toState ∧
      ∀ (env : Env String) (args : Args) (stateFile : String), stateFile ≠ "" →
        env.readJson stateFile = .json content →
        main dates env { args with rerunFailed := none } (some stateFile) =
            some (runResumed env { args with rerunFailed := none } data.toState) ∧
          main dates env { args with rerunFailed := some stateFile } none =
            some ((run env args).exec { Runner.new with failedTests := data.failedTests }) := by
  obtain ⟨data, rfl, hchain⟩ := h.saved
  refine ⟨data, rfl, hchain, fun env args stateFile hfile hread => ?_⟩
  have hne : data.failedTests ≠ [] := hchain.resumable.failedTests
  have hload : loadFailedTestsFromState (env.readJson stateFile) = .ok data.failedTests := by
    rw [hread, loadFailedTestsFromState_toJson]
  exact ⟨main_resume hfile rfl hread, congrArg some (runNew_rerun hfile hload hne)⟩

/-- Times are written as they are. -/
def plainDates : DateFormat :=
  ⟨String, id, some, fun _ => rfl⟩

def startOfYear : plainDates.DateTime :=
  "2025-01-01T00:00:00"

/-- The state file after the first attempt of a test. -/
theorem stateFiles_afterAttempt {retry : Execution} {state : State String}
    (hmem : state ∈ afterAttempt retry) (configuration : Configuration) :
    StateFiles plainDates (StateData.ofState startOfYear configuration state).toJson := by
  have hsaved : Saved state := .new _ _ hmem
  refine .started (.always (.ok failsToStart) (.ok retry) smokeLog) oneSerialAttempt rfl _ ?_
  rw [toState_ofState _ _ hsaved.resumable.testSummaries]
  exact hmem

theorem state_files_are_chained_failedAttempt : ∃ content : Json,
    StateFiles plainDates content ∧ ∃ data : StateData plainDates,
      content = data.toJson ∧ ∀ (env : Env String) (stateFile : String), stateFile ≠ "" →
        env.readJson stateFile = .json content →
        main plainDates env oneSerialAttempt (some stateFile) =
          some (runResumed env oneSerialAttempt data.toState) := by
  have hsaved : ((afterAttempt failsToStart).any fun _ => true) = true := by decide +kernel
  obtain ⟨state, hmem, -⟩ := List.any_eq_true.1 hsaved
  have hfile := stateFiles_afterAttempt hmem ⟨2, 0, 1, false, none, [], "test-results"⟩
  obtain ⟨data, hcontent, -, hmain⟩ := state_files_are_chained hfile
  exact ⟨_, hfile, data, hcontent,
    fun env stateFile hne hread => (hmain env oneSerialAttempt stateFile hne hread).1⟩

end CommonsOperator.AutoRetryTests
