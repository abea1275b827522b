import CommonsOperator.RunTestsArgs

/-!
# From a retry to the tests

An attempt of a test runs `run-tests` in a process of its own, with a command line that names the
test, a work directory and whether the namespace is to be kept. `run-tests` reads it, generates
the tests into the work directory and runs `kubectl-kuttl` there.
`parseArgs_buildTestCommand` : the command line is read as it was meant, whatever extra arguments
follow. `attempt_runs_its_test` : an attempt goes through the plan of what was read, up to the
first stage that fails, and without extra arguments its processes are those for its own test.
-/

set_option linter.unusedSectionVars false

namespace CommonsOperator.AutoRetryTests

open RunTests (parseArgs parseFrom IsValue)

/-! ## The command -/

/-- The text of the type of an attempt. -/
def AttemptType.text : AttemptType → String
  | .initial => "initial"
  | .parallel => "parallel"
  | .serial => "serial"

/-- `str.replace`, of a character. -/
def replaceChar (old new : Char) (text : String) : String :=
  String.ofList (text.toList.map fun c => if c = old then new else c)

/-- The work directory of `run_single_test_suite`. -/
def workDirOf (testName : String) (attempt : Nat) (attemptType : AttemptType)
    (timestamp : String) : String :=
  let safeTestName :=
    if testName ≠ "" then replaceChar ',' '_' (replaceChar '/' '_' testName) else "full_suite"
  "tests/_work_" ++ safeTestName ++ "_" ++ toString attempt ++ "_" ++ attemptType.text ++ "_" ++
    timestamp

/-- `build_test_command`, of a test, or of the full suite if the name is empty. -/
def buildTestCommand (parallel : Int) (extraArgs : List String) (testName : String)
    (skipDelete : Bool) (workDir : String) : List String :=
  ["scripts/run-tests"] ++
    -- only use parallel for the full suite
    (if parallel ≠ 0 ∧ testName = "" then ["--parallel", toString parallel] else []) ++
    (if skipDelete then ["--skip-delete"] else []) ++
    (if testName ≠ "" then ["--test", testName] else []) ++
    (if workDir ≠ "" then ["--work-dir", workDir] else []) ++ extraArgs

/-! ## How it is read -/

theorem parseFrom_parallel (args : RunTests.Args) (parallel : Int) (argv : List String) :
    parseFrom args ("--parallel" :: toString parallel :: argv) =
      parseFrom { args with parallel } argv := by
  obtain ⟨hvalue, hne⟩ := RunTests.parseOptional_toString parallel
  refine RunTests.parseFrom_value rfl (by decide) hvalue hne ?_ argv
  simp only [RunTests.int_toString]
  rfl

theorem parseFrom_skipDelete (args : RunTests.Args) (argv : List String) :
    parseFrom args ("--skip-delete" :: argv) = parseFrom { args with skipDelete := true } argv := by
  have hne : "--skip-delete" ≠ "--" := by decide
  exact RunTests.parseFrom_flag rfl hne args argv

theorem parseFrom_test (args : RunTests.Args) {test : String} (h : IsValue test)
    (argv : List String) :
    parseFrom args ("--test" :: test :: argv) = parseFrom { args with test := some test } argv :=
  RunTests.parseFrom_value rfl (by decide) (RunTests.parseOptional_value h)
    (RunTests.ne_dashes_of_isValue h) rfl argv

theorem parseFrom_workDir (args : RunTests.Args) {workDir : String} (h : IsValue workDir)
    (argv : List String) :
    parseFrom args ("--work-dir" :: workDir :: argv) = parseFrom { args with workDir } argv :=
  RunTests.parseFrom_value rfl (by decide) (RunTests.parseOptional_value h)
    (RunTests.ne_dashes_of_isValue h) rfl argv

/-- What a command line without extra arguments means. For a single test, and for a limit of 0,
`run-tests` takes its own default of the parallel tests. -/
def attemptArgs (parallel : Int) (testName : String) (skipDelete : Bool) (workDir : String) :
    RunTests.Args :=
  { RunTests.Args.default with
    parallel := if parallel ≠ 0 ∧ testName = "" then parallel else 2
    skipDelete
    test := if testName ≠ "" then some testName else none
    workDir }

/-- `run-tests` reads what the command line was built from, and then the extra arguments. -/
theorem parseArgs_buildTestCommand (parallel : Int) (extraArgs : List String) {testName : String}
    (htest : IsValue testName) (skipDelete : Bool) {workDir : String} (hwork : IsValue workDir)
    (hne : workDir ≠ "") :
    parseArgs (buildTestCommand parallel extraArgs testName skipDelete workDir).tail =
      parseFrom (attemptArgs parallel testName skipDelete workDir) extraArgs := by
  unfold buildTestCommand parseArgs attemptArgs
  rw [if_pos hne]
  by_cases hname : testName = ""
  · subst hname
    by_cases hparallel : parallel = 0
    · subst hparallel
      cases skipDelete with
      | true => exact (parseFrom_skipDelete _ _).trans (parseFrom_workDir _ hwork extraArgs)
      | false => exact parseFrom_workDir _ hwork extraArgs
    · simp only [ne_eq, hparallel, not_false_eq_true, and_self, if_true]
      cases skipDelete with
      | true =>
        exact (parseFrom_parallel _ _ _).trans
          ((parseFrom_skipDelete _ _).trans (parseFrom_workDir _ hwork extraArgs))
      | false => exact (parseFrom_parallel _ _ _).trans (parseFrom_workDir _ hwork extraArgs)
  · simp only [ne_eq, hname, not_false_eq_true, and_false, if_false, if_true]
    cases skipDelete with
    | true =>
      exact (parseFrom_skipDelete _ _).trans
        ((parseFrom_test _ htest _).trans (parseFrom_workDir _ hwork extraArgs))
    | false => exact (parseFrom_test _ htest _).trans (parseFrom_workDir _ hwork extraArgs)

/-! ## What it runs -/

/-- The options of an attempt of a test, or of the full suite. -/
def attemptOptions (parallel : Int) (testName : String) (skipDelete : Bool) (workDir : String) :
    RunTests.Options where
  skipDelete := skipDelete
  skipTests := false
  skipRelease := false
  parallel := if parallel ≠ 0 ∧ testName = "" then parallel else 2
  operator := []
  skipOperator := []
  test := if testName ≠ "" then some testName else none
  testSuite := none
  ns := none
  workDir := workDir
  listenerClassPreset := none

/-- The commands of an attempt : the tests are generated into its work directory, the release is
installed, and its test is run there. -/
def attemptCommands (env : RunTests.Env) (parallel : Int) (testName : String) (skipDelete : Bool)
    (workDir : String) : List RunTests.Command :=
  [RunTests.bekuCommand none none workDir,
    RunTests.stackablectlCommand (RunTests.tempName env) none,
    ⟨["kubectl-kuttl", "test"] ++
      (if testName ≠ "" then ["--test", testName] else []) ++
      ["--parallel", toString (if parallel ≠ 0 ∧ testName = "" then parallel else 2)] ++
      (if skipDelete then ["--skip-delete"] else []), some workDir⟩]

theorem attemptCommands_eq (env : RunTests.Env) (parallel : Int) (testName : String)
    (skipDelete : Bool) (workDir : String) :
    attemptCommands env parallel testName skipDelete workDir =
      [RunTests.bekuCommand none none workDir,
        RunTests.stackablectlCommand (RunTests.tempName env) none,
        RunTests.kuttlCommand (if testName ≠ "" then some testName else none)
          (if parallel ≠ 0 ∧ testName = "" then parallel else 2) none skipDelete workDir] := by
  have hne : (if parallel ≠ 0 ∧ testName = "" then parallel else 2) ≠ 0 := by
    split
    · rename_i h
      exact h.1
    · decide
  unfold attemptCommands RunTests.kuttlCommand
  rw [if_pos hne]
  by_cases hname : testName = ""
  · simp [hname, RunTests.given]
  · simp [hname, RunTests.given, Option.filter]

theorem head?_workDirOf (testName : String) (attempt : Nat) (attemptType : AttemptType)
    (timestamp : String) :
    (workDirOf testName attempt attemptType timestamp).toList.head? = some 't' := by
  unfold workDirOf
  simp only [String.toList_append, List.append_assoc]
  rfl

theorem options?_attemptArgs (parallel : Int) (testName : String) (skipDelete : Bool)
    (workDir : String) : (attemptArgs parallel testName skipDelete workDir).options? =
      some (attemptOptions parallel testName skipDelete workDir) :=
  rfl

theorem isValue_workDirOf (testName : String) (attempt : Nat) (attemptType : AttemptType)
    (timestamp : String) : IsValue (workDirOf testName attempt attemptType timestamp) ∧
      workDirOf testName attempt attemptType timestamp ≠ "" := by
  have hhead := head?_workDirOf testName attempt attemptType timestamp
  constructor
  · unfold IsValue
    rw [hhead]
    decide
  · intro hempty
    rw [hempty] at hhead
    cases hhead

/-- The script goes through the plan of the options that it reads. -/
theorem script_eq (env : RunTests.Env) {argv : List String} {args : RunTests.Args}
    {opts : RunTests.Options} (hparse : parseArgs argv = .ok args)
    (hopts : args.options? = some opts) :
    ∃ code, RunTests.script env argv = some (code, RunTests.invoked (RunTests.plan env opts)) ∧
      (code = 0 ↔ RunTests.succeeds (RunTests.plan env opts) = true) := by
  obtain ⟨files, -, hcode, hworld⟩ := RunTests.exec_main env opts
  refine ⟨RunTests.exitCode ((RunTests.main env opts).exec RunTests.World.new).1, ?_, hcode⟩
  unfold RunTests.script
  rw [hparse]
  simp only [hopts, Option.map_some, hworld]

/-- Whatever `run-tests` meets with, an attempt goes through the plan of what its command line
means, together with the extra arguments, up to the first stage that fails. Without extra
arguments it runs the commands of its own test in its own work directory. -/
theorem attempt_runs_its_test (env : RunTests.Env) (parallel : Int) {testName : String}
    (htest : IsValue testName) (skipDelete : Bool) (attempt : Nat) (attemptType : AttemptType)
    (timestamp : String) :
    let workDir := workDirOf testName attempt attemptType timestamp
    (∀ extraArgs args opts,
      parseFrom (attemptArgs parallel testName skipDelete workDir) extraArgs = .ok args →
      args.options? = some opts →
      ∃ code, RunTests.script env
            (buildTestCommand parallel extraArgs testName skipDelete workDir).tail =
          some (code, RunTests.invoked (RunTests.plan env opts)) ∧
        (code = 0 ↔ RunTests.succeeds (RunTests.plan env opts) = true)) ∧
    ∃ code invocations,
      RunTests.script env (buildTestCommand parallel [] testName skipDelete workDir).tail =
          some (code, invocations) ∧
        invocations = RunTests.invoked
          (RunTests.plan env (attemptOptions parallel testName skipDelete workDir)) ∧
        invocations.map RunTests.Invocation.command <+:
          attemptCommands env parallel testName skipDelete workDir ∧
        (code = 0 → invocations.map RunTests.Invocation.command =
          attemptCommands env parallel testName skipDelete workDir) := by
  intro workDir
  obtain ⟨hwork, hne⟩ : IsValue workDir ∧ workDir ≠ "" :=
    isValue_workDirOf testName attempt attemptType timestamp
  have hread := fun extraArgs =>
    parseArgs_buildTestCommand parallel extraArgs htest skipDelete hwork hne
  refine ⟨fun extraArgs args opts hargs hopts => ?_, ?_⟩
  · exact script_eq env ((hread extraArgs).trans hargs) hopts
  · obtain ⟨code, hscript, hcode⟩ := script_eq env (hread [])
      (options?_attemptArgs parallel testName skipDelete workDir)
    obtain ⟨hfirst, hall⟩ := RunTests.plan_commands env
      (attemptOptions parallel testName skipDelete workDir) rfl rfl rfl
    refine ⟨code, _, hscript, rfl, ?_, fun hzero => ?_⟩
    · rw [attemptCommands_eq]
      exact hfirst
    · rw [attemptCommands_eq]
      exact hall (hcode.1 hzero)

/-- Everything is there, but the release cannot be installed. -/
def releaseFails : RunTests.Env where
  which _ := true
  releaseYaml := .ok []
  tempDir := "/tmp/"
  tempSuffix := "1"
  createTemp := .ok ⟨⟩
  writeTemp := .ok ⟨⟩
  removeTemp := .ok ⟨⟩
  run command := .ok ⟨if command.args.head? = some "stackablectl" then 1 else 0, ""⟩

/-- The last serial attempt of a test fails, and succeeds if the release is not to be
installed. -/
theorem attempt_runs_its_test_smoke :
    let workDir := workDirOf "smoke" 1 .serial "20250101_120000_000"
    (∃ code, code ≠ 0 ∧
      RunTests.script releaseFails (buildTestCommand 4 [] "smoke" true workDir).tail =
        some (code, RunTests.invoked
          (RunTests.plan releaseFails (attemptOptions 4 "smoke" true workDir)))) ∧
    RunTests.script releaseFails
        (buildTestCommand 4 ["--skip-release"] "smoke" true workDir).tail =
      some (0, RunTests.invoked (RunTests.plan releaseFails
        { attemptOptions 4 "smoke" true workDir with skipRelease := true })) := by
  intro workDir
  have hvalue : IsValue "smoke" := by
    unfold IsValue
    decide
  obtain ⟨hextra, code, invocations, hscript, rfl, -, hzero⟩ :=
    attempt_runs_its_test releaseFails 4 hvalue true 1 .serial "20250101_120000_000"
  obtain ⟨code', hscript', hcode'⟩ := hextra ["--skip-release"] _ _ rfl rfl
  refine ⟨⟨code, fun hcode => ?_, hscript⟩, ?_⟩
  · exact absurd (hzero hcode) (by decide +kernel)
  · rw [hscript', hcode'.2 (by decide +kernel)]
    rfl

end CommonsOperator.AutoRetryTests
