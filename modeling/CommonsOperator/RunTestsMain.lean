import CommonsOperator.Program
import CommonsOperator.ReleaseFile

/-!
# Running the tests

`main` of `run-tests` : generate the tests with `beku`, install the release with `stackablectl`
from a temporary release file, and run the tests with `kubectl-kuttl`. The processes, the
release file and the directory of temporary files are the environment's; the model records the
processes that were run, each with the temporary files there were.

`plan` is the abstract layer : the stages in their order, each of which may fail, and a run goes
through them up to the first that does. `main_follows_plan` : that is what `main` does.
-/

set_option linter.unusedSectionVars false

namespace CommonsOperator.RunTests

/-! ## The outside world -/

/-- A process that has ended. -/
structure CompletedProcess where
  returncode : Int
  stderr : String

/-- A command, and the directory it is run in if that is not the current one. -/
structure Command where
  args : List String
  cwd : Option String
  deriving DecidableEq

/-- A temporary file. -/
structure TempFile where
  name : String
  contents : Text
  deriving DecidableEq

/-- A process that was run, with the temporary files there were. -/
structure Invocation where
  command : Command
  files : List TempFile
  deriving DecidableEq

structure Env where
  /-- `shutil.which`. -/
  which : String → Bool
  /-- The lines of `tests/release.yaml`. -/
  releaseYaml : Except String (List Text)
  /-- What is put before and after the prefix of a temporary file's name. -/
  tempDir : String
  tempSuffix : String
  createTemp : Except String PUnit
  /-- With what was written before it failed. -/
  writeTemp : Except (String × Text) PUnit
  removeTemp : Except String PUnit
  run : Command → Except String CompletedProcess

structure Options where
  skipDelete : Bool
  skipTests : Bool
  skipRelease : Bool
  parallel : Int
  operator : List OperatorArg
  skipOperator : List Text
  test : Option String
  testSuite : Option String
  /-- `namespace`. -/
  ns : Option String
  workDir : String
  listenerClassPreset : Option String

/-- What the run has done to the world. -/
structure World where
  invocations : List Invocation
  files : List TempFile

def World.new : World :=
  ⟨[], []⟩

inductive Exn where
  | testRunner
  | other (message : String)

abbrev RunM (α : Type) :=
  Program World Exn α

/-- Whether an optional argument is given, and not empty. -/
def given (arg : Option String) : Option String :=
  arg.filter (· ≠ "")

/-- `needle in text`. -/
def contains (needle : String) (text : List Char) : Bool :=
  needle.toList <:+: text

/-- `str.lower`, as far as the letters a to z go. -/
def lower (text : String) : List Char :=
  text.toList.map Char.toLower

/-! ## The steps -/

section

variable (env : Env)

/-- `subprocess.run`. -/
def runProcess (command : Command) : RunM CompletedProcess := do
  modify fun world =>
    { world with invocations := world.invocations ++ [⟨command, world.files⟩] }
  match env.run command with
  | .ok process => return process
  | .error message => throw (.other message)

/-- The commands that are needed. -/
def requirements : List String :=
  ["beku", "stackablectl", "kubectl", "kubectl-kuttl"]

/-- `have_requirements`. -/
def haveRequirements : RunM PUnit := do
  if requirements.any fun command => !env.which command then
    throw .testRunner

/-- The command of `gen_tests`. -/
def bekuCommand (testSuite ns : Option String) (workDir : String) : Command where
  args := ["beku", "--test_definition", "tests/test-definition.yaml", "--kuttl_test",
      "tests/kuttl-test.yaml.jinja2", "--template_dir", "tests/templates/kuttl", "--output_dir",
      workDir] ++
    ((given testSuite).elim [] fun suite => ["--suite", suite]) ++
    (given ns).elim [] fun ns => ["--namespace", ns]
  cwd := none

/-- `gen_tests`. -/
def genTests (testSuite ns : Option String) (workDir : String) : RunM PUnit := do
  let process ← runProcess env (bekuCommand testSuite ns workDir)
  if process.returncode ≠ 0 then
    throw .testRunner

/-- The name of the temporary file. -/
def tempName : String :=
  env.tempDir ++ "patched" ++ env.tempSuffix

/-- `_patch`. -/
def patch (operators : List OperatorArg) (skipOps : List Text) : RunM String := do
  match env.releaseYaml with
  | .error message => throw (.other message)
  | .ok lines =>
    match releaseFile operators skipOps lines with
    | .error _ => throw .testRunner
    | .ok contents =>
      if let .error message := env.createTemp then
        throw (.other message)
      -- the file stays if it cannot be written
      if let .error (message, written) := env.writeTemp then
        modify fun world => { world with files := world.files ++ [⟨tempName env, written⟩] }
        throw (.other message)
      modify fun world => { world with files := world.files ++ [⟨tempName env, contents⟩] }
      return tempName env

/-- The `finally` of `release_file`. What `os.remove` raises is not caught : a union of classes is
no class to catch by. -/
def removeReleaseFile (name : String) : RunM PUnit := do
  if contains "patched" name.toList then
    match env.removeTemp with
    | .error _ => throw (.other "catching classes that do not inherit from BaseException")
    | .ok _ =>
      modify fun world =>
        { world with files := world.files.filter fun file => file.name ≠ name }

/-- `with release_file(operators, skip_ops) as f: body(f)`. -/
def withReleaseFile (operators : List OperatorArg) (skipOps : List Text)
    (body : String → RunM PUnit) : RunM PUnit := do
  let name ← patch env operators skipOps
  Program.ensuring (body name) (removeReleaseFile env name)

/-- The command of `maybe_install_release`. -/
def stackablectlCommand (releaseFile : String) (listenerClassPreset : Option String) : Command where
  args := ["stackablectl", "release", "install", "--release-file", releaseFile] ++
    ((given listenerClassPreset).elim [] fun preset => ["--listener-class-preset", preset]) ++
    ["tests"]
  cwd := none

/-- `maybe_install_release`. -/
def maybeInstallRelease (skipRelease : Bool) (releaseFile : String)
    (listenerClassPreset : Option String) : RunM PUnit := do
  if skipRelease then
    return
  else
    let process ← runProcess env (stackablectlCommand releaseFile listenerClassPreset)
    if process.returncode ≠ 0 then
      throw .testRunner
    -- stackablectl doesn't return a non-zero exit code on failure
    if contains "error" (lower process.stderr) then
      throw .testRunner

def getNamespaceCommand (ns : String) : Command :=
  ⟨["kubectl", "get", "namespace", ns], none⟩

def createNamespaceCommand (ns : String) : Command :=
  ⟨["kubectl", "create", "namespace", ns], none⟩

/-- The failures to create a namespace that are no reason to stop. -/
def toleratesCreation (stderr : String) : Bool :=
  contains "already exists" stderr.toList || contains "forbidden" (lower stderr)

/-- `ensure_namespace_exists`. -/
def ensureNamespaceExists (ns : String) : RunM PUnit := do
  let check ← runProcess env (getNamespaceCommand ns)
  if check.returncode ≠ 0 then
    let create ← runProcess env (createNamespaceCommand ns)
    if create.returncode ≠ 0 ∧ !toleratesCreation create.stderr then
      throw .testRunner

/-- The command of `run_tests`. -/
def kuttlCommand (test : Option String) (parallel : Int) (ns : Option String) (skipDelete : Bool)
    (workDir : String) : Command where
  args := ["kubectl-kuttl", "test"] ++
    ((given test).elim [] fun test => ["--test", test]) ++
    (if parallel ≠ 0 then ["--parallel", toString parallel] else []) ++
    (if skipDelete then ["--skip-delete"] else []) ++
    (given ns).elim [] fun ns => ["--namespace", ns]
  cwd := some workDir

/-- `run_tests`. -/
def runTests (test : Option String) (parallel : Int) (ns : Option String) (skipDelete : Bool)
    (workDir : String) : RunM PUnit := do
  if let some ns := given ns then
    -- kuttl doesn't create the namespace so we need to do it ourselves
    ensureNamespaceExists env ns
  let process ← runProcess env (kuttlCommand test parallel ns skipDelete workDir)
  if process.returncode ≠ 0 then
    throw .testRunner

/-- The steps of `main`. -/
def mainSteps (opts : Options) : RunM PUnit := do
  haveRequirements env
  genTests env opts.testSuite opts.ns opts.workDir
  withReleaseFile env opts.operator opts.skipOperator fun name =>
    maybeInstallRelease env opts.skipRelease name opts.listenerClassPreset
  if !opts.skipTests then
    runTests env opts.test opts.parallel opts.ns opts.skipDelete opts.workDir

/-- `main`, after the arguments are parsed. -/
def main (opts : Options) : RunM Int :=
  tryCatch
    (do
      mainSteps env opts
      return 0)
    fun
      | .testRunner => return 1
      | .other message => throw (.other message)

end

/-- The exit code of the script : an exception that is not caught ends it with 1. -/
def exitCode : Except Exn Int → Int
  | .ok code => code
  | .error _ => 1

/-! ## Stages -/

/-- A stage of a run. A check runs no process. -/
inductive Stage where
  | check (ok : Bool)
  | command (invocation : Invocation) (ok : Bool)

namespace Stage

/-- The stage ends as it should. -/
def ok : Stage → Bool
  | check ok => ok
  | command _ ok => ok

/-- The process of the stage. -/
def invocation : Stage → List Invocation
  | check _ => []
  | command invocation _ => [invocation]

end Stage

/-- Every stage ends as it should. -/
def succeeds (stages : List Stage) : Bool :=
  stages.all Stage.ok

/-- The processes of a run that stops at the first stage that does not end as it should. -/
def invoked : List Stage → List Invocation
  | [] => []
  | stage :: stages => stage.invocation ++ if stage.ok then invoked stages else []

theorem succeeds_append (stages stages' : List Stage) :
    succeeds (stages ++ stages') = (succeeds stages && succeeds stages') := by
  unfold succeeds
  exact List.all_append

theorem invoked_append (stages stages' : List Stage) :
    invoked (stages ++ stages') =
      invoked stages ++ if succeeds stages then invoked stages' else [] := by
  induction stages with
  | nil => simp [invoked, succeeds]
  | cons stage stages ih =>
    rw [List.cons_append, invoked, invoked, ih]
    cases hok : stage.ok <;> simp [succeeds, hok]

/-- The processes that are run are the first of those of the stages. -/
theorem invoked_isPrefix (stages : List Stage) :
    invoked stages <+: stages.flatMap Stage.invocation := by
  induction stages with
  | nil => exact List.nil_prefix
  | cons stage stages ih =>
    rw [invoked, List.flatMap_cons, List.prefix_append_right_inj]
    split
    · exact ih
    · exact List.nil_prefix

theorem invoked_of_succeeds {stages : List Stage} (h : succeeds stages = true) :
    invoked stages = stages.flatMap Stage.invocation := by
  induction stages with
  | nil => rfl
  | cons stage stages ih =>
    have hok : stage.ok = true ∧ succeeds stages = true := by simpa [succeeds] using h
    rw [invoked, List.flatMap_cons, if_pos hok.1, ih hok.2]

/-- Nothing is run after a check that fails. -/
theorem invoked_stopped (stages stages' : List Stage) :
    invoked (stages ++ [.check false] ++ stages') = invoked stages ∧
      succeeds (stages ++ [.check false] ++ stages') = false := by
  have hcheck : succeeds [.check false] = false := rfl
  rw [succeeds_append, succeeds_append, hcheck, Bool.and_false, Bool.false_and]
  rw [invoked_append, invoked_append, succeeds_append, hcheck]
  simp [invoked, Stage.invocation]

/-- The program goes through the stages up to the first that does not end as it should, and
raises if there is one. It starts with the temporary files `files` and ends with `files'`. -/
def Performs (files : List TempFile) (x : RunM PUnit) (stages : List Stage)
    (files' : List TempFile) : Prop :=
  ∀ world : World, world.files = files → Program.wp x
    (fun _ world' => succeeds stages = true ∧
      world' = ⟨world.invocations ++ invoked stages, files'⟩)
    (fun _ world' => succeeds stages = false ∧
      world' = ⟨world.invocations ++ invoked stages, files'⟩) world

section

variable {files files' files'' : List TempFile} {x y : RunM PUnit} {stages stages' : List Stage}

theorem performs_pure : Performs files (pure ⟨⟩) [] files := by
  rintro world rfl
  simp [succeeds, invoked]

/-- One program after another. -/
theorem Performs.bind (hx : Performs files x stages files')
    (hy : succeeds stages = true → Performs files' y stages' files'') :
    Performs files (x >>= fun _ => y) (stages ++ stages')
      (if succeeds stages then files'' else files') := by
  intro world hfiles
  rw [Program.wp_bind]
  refine Program.wp_mono (hx world hfiles) (fun _ world' h => ?_) fun e world' h => ?_
  · obtain ⟨hsucceeds, rfl⟩ := h
    rw [succeeds_append, invoked_append, hsucceeds, ← List.append_assoc]
    exact hy hsucceeds _ rfl
  · obtain ⟨hsucceeds, rfl⟩ := h
    rw [succeeds_append, invoked_append, hsucceeds]
    simp

/-- One program after another, both of which leave the files as they are. -/
theorem Performs.seq (hx : Performs files x stages files) (hy : Performs files y stages' files) :
    Performs files (x >>= fun _ => y) (stages ++ stages') files := by
  have hbind := hx.bind fun _ => hy
  rwa [ite_self] at hbind

/-- A check that runs no process. -/
theorem performs_check {ok : Bool} {e : Exn} (hok : ok = true → x = pure ⟨⟩)
    (hbad : ok = false → x = throw e) : Performs files x [.check ok] files := by
  rintro ⟨invocations, _⟩ rfl
  cases ok with
  | true =>
    rw [hok rfl]
    simp [succeeds, invoked, Stage.ok, Stage.invocation]
  | false =>
    rw [hbad rfl]
    simp [succeeds, invoked, Stage.ok, Stage.invocation]

/-- The process could be run, and ended in a way that is accepted. -/
def ended (env : Env) (command : Command) (accepts : CompletedProcess → Bool) : Bool :=
  match env.run command with
  | .ok process => accepts process
  | .error _ => false

theorem wp_runProcess {env : Env} {command : Command} {Q : CompletedProcess → World → Prop}
    {X : Exn → World → Prop} {world : World} :
    Program.wp (runProcess env command) Q X world ↔
      match env.run command with
      | .ok process => Q process ⟨world.invocations ++ [⟨command, world.files⟩], world.files⟩
      | .error message =>
        X (.other message) ⟨world.invocations ++ [⟨command, world.files⟩], world.files⟩ := by
  unfold runProcess
  rw [Program.wp_bind, Program.wp_modify]
  cases env.run command with
  | error message => exact Program.wp_throw _
  | ok process => exact Program.wp_pure _

/-- A process, and what is done about how it ended. -/
theorem performs_process {env : Env} {command : Command} {f : CompletedProcess → RunM PUnit}
    (hf : ∀ process, env.run command = .ok process → Performs files (f process) stages files) :
    Performs files (runProcess env command >>= f)
      (.command ⟨command, files⟩ (ended env command fun _ => true) :: stages) files := by
  rintro world rfl
  rw [Program.wp_bind, wp_runProcess]
  unfold ended
  cases hrun : env.run command with
  | error message => simp [succeeds, invoked, Stage.ok, Stage.invocation]
  | ok process =>
    refine Program.wp_mono (hf process hrun _ rfl) (fun _ _ h => ?_) fun _ _ h => ?_
    · rw [h.2]
      simpa [succeeds, invoked, Stage.ok, Stage.invocation] using h.1
    · rw [h.2]
      simpa [succeeds, invoked, Stage.ok, Stage.invocation] using h.1

/-- A process that has to end in a way that is accepted. -/
theorem performs_command {env : Env} {command : Command} {accepts : CompletedProcess → Bool}
    {f : CompletedProcess → RunM PUnit}
    (hf : ∀ process, Performs files (f process) [.check (accepts process)] files) :
    Performs files (runProcess env command >>= f)
      [.command ⟨command, files⟩ (ended env command accepts)] files := by
  rintro world rfl
  rw [Program.wp_bind, wp_runProcess]
  unfold ended
  cases hrun : env.run command with
  | error message => simp [succeeds, invoked, Stage.ok, Stage.invocation]
  | ok process =>
    have hinvoked : invoked [.command ⟨command, world.files⟩ (accepts process)] =
        [⟨command, world.files⟩] ++ invoked [.check (accepts process)] := by
      cases accepts process <;> rfl
    refine Program.wp_mono (hf process _ rfl) (fun _ _ h => ⟨h.1, ?_⟩) fun _ _ h => ⟨h.1, ?_⟩
    · rw [h.2, hinvoked, List.append_assoc]
    · rw [h.2, hinvoked, List.append_assoc]

end

/-! ## The plan -/

section

variable (env : Env) (opts : Options)

/-- The namespace exists, is created, or may not be looked for. -/
def namespaceStages (ns : String) : List Stage :=
  .command ⟨getNamespaceCommand ns, []⟩ (ended env (getNamespaceCommand ns) fun _ => true) ::
    match env.run (getNamespaceCommand ns) with
    | .error _ => []
    | .ok check =>
      if check.returncode ≠ 0 then
        [.command ⟨createNamespaceCommand ns, []⟩ (ended env (createNamespaceCommand ns)
          fun create => create.returncode = 0 || toleratesCreation create.stderr)]
      else []

def testStages : List Stage :=
  (given opts.ns).elim [] (namespaceStages env) ++
    [.command ⟨kuttlCommand opts.test opts.parallel opts.ns opts.skipDelete opts.workDir, []⟩
      (ended env (kuttlCommand opts.test opts.parallel opts.ns opts.skipDelete opts.workDir)
        fun kuttl => kuttl.returncode = 0)]

/-- The release is installed from a file that has the given contents. -/
def installStages (contents : Text) : List Stage :=
  if opts.skipRelease then []
  else
    [.command ⟨stackablectlCommand (tempName env) opts.listenerClassPreset,
        [⟨tempName env, contents⟩]⟩
      (ended env (stackablectlCommand (tempName env) opts.listenerClassPreset) fun stackablectl =>
        stackablectl.returncode = 0 && !contains "error" (lower stackablectl.stderr))]

/-- What the release file is to contain. -/
def releaseContents : Option Text :=
  match env.releaseYaml with
  | .error _ => none
  | .ok lines => (releaseFile opts.operator opts.skipOperator lines).toOption

def releaseStages : List Stage :=
  match releaseContents env opts, env.createTemp, env.writeTemp with
  | some contents, .ok _, .ok _ => installStages env opts contents ++ [.check env.removeTemp.isOk]
  | _, _, _ => [.check false]

/-- The temporary files that are left. -/
def leftover : List TempFile :=
  match releaseContents env opts, env.createTemp, env.writeTemp, env.removeTemp with
  | some _, .ok _, .error (_, written), _ => [⟨tempName env, written⟩]
  | some contents, .ok _, .ok _, .error _ => [⟨tempName env, contents⟩]
  | _, _, _, _ => []

def genStages : List Stage :=
  [.check (requirements.all env.which),
    .command ⟨bekuCommand opts.testSuite opts.ns opts.workDir, []⟩
      (ended env (bekuCommand opts.testSuite opts.ns opts.workDir) fun beku =>
        beku.returncode = 0)]

/-- The stages of a run. -/
def plan : List Stage :=
  genStages env opts ++ releaseStages env opts ++
    if opts.skipTests then [] else testStages env opts

end

/-! ## The steps follow the plan -/

section

variable {env : Env} {files : List TempFile}

theorem performs_haveRequirements (env : Env) :
    Performs files (haveRequirements env) [.check (requirements.all env.which)] files := by
  unfold haveRequirements
  refine performs_check (e := .testRunner) (fun hall => ?_) fun hmissing => ?_
  · simp [show (requirements.any fun command => !env.which command) = false by simpa using hall]
  · simp [show (requirements.any fun command => !env.which command) = true by simpa using hmissing]

/-- The exit code of a process is checked. -/
theorem performs_returncode (process : CompletedProcess) :
    Performs files (if process.returncode ≠ 0 then throw .testRunner else pure ⟨⟩ : RunM PUnit)
      [.check (process.returncode = 0)] files := by
  refine performs_check (e := .testRunner) (fun hcode => ?_) fun hcode => ?_
  · exact if_neg (not_not.2 (of_decide_eq_true hcode))
  · exact if_pos (of_decide_eq_false hcode)

theorem performs_genTests (env : Env) (testSuite ns : Option String) (workDir : String) :
    Performs files (genTests env testSuite ns workDir)
      [.command ⟨bekuCommand testSuite ns workDir, files⟩
        (ended env (bekuCommand testSuite ns workDir) fun beku => beku.returncode = 0)] files :=
  performs_command performs_returncode

theorem performs_maybeInstallRelease (opts : Options) (contents : Text) :
    Performs [⟨tempName env, contents⟩]
      (maybeInstallRelease env opts.skipRelease (tempName env) opts.listenerClassPreset)
      (installStages env opts contents) [⟨tempName env, contents⟩] := by
  unfold maybeInstallRelease installStages
  cases opts.skipRelease with
  | true => exact performs_pure
  | false =>
    refine performs_command fun process => ?_
    by_cases hcode : process.returncode = 0
    · refine performs_check (e := .testRunner) (fun hok => ?_) fun hbad => ?_
      · have hclean : contains "error" (lower process.stderr) = false := by
          simpa [hcode] using hok
        simp [hcode, hclean]
      · have herror : contains "error" (lower process.stderr) = true := by
          simpa [hcode] using hbad
        simp [hcode, herror]
    · refine performs_check (e := .testRunner) (fun hok => ?_) fun _ => ?_
      · simp [hcode] at hok
      · simp [hcode]

theorem performs_ensureNamespaceExists (ns : String) :
    Performs [] (ensureNamespaceExists env ns) (namespaceStages env ns) [] := by
  unfold ensureNamespaceExists namespaceStages
  refine performs_process fun check hcheck => ?_
  rw [hcheck]
  by_cases hcode : check.returncode = 0
  · simpa [hcode] using performs_pure
  · simp only [ne_eq, hcode, not_false_eq_true, if_true]
    refine performs_command fun create => ?_
    refine performs_check (e := .testRunner) (fun hok => ?_) fun hbad => ?_
    · refine if_neg fun hnot => ?_
      simp [hnot.1] at hok
      simp [hok] at hnot
    · refine if_pos ?_
      simpa using hbad

theorem performs_runTests (opts : Options) :
    Performs [] (runTests env opts.test opts.parallel opts.ns opts.skipDelete opts.workDir)
      (testStages env opts) [] := by
  have hkuttl : Performs [] (runProcess env (kuttlCommand opts.test opts.parallel opts.ns
      opts.skipDelete opts.workDir) >>= fun process =>
        if process.returncode ≠ 0 then throw .testRunner else pure ⟨⟩) _ [] :=
    performs_command performs_returncode
  unfold runTests testStages
  cases given opts.ns with
  | none => exact hkuttl
  | some ns => exact (performs_ensureNamespaceExists ns).seq hkuttl

theorem contains_tempName : contains "patched" (tempName env).toList = true := by
  unfold contains tempName
  refine decide_eq_true ⟨env.tempDir.toList, env.tempSuffix.toList, ?_⟩
  rw [String.toList_append, String.toList_append]

/-- The release file is removed however the installation ends. -/
theorem performs_ensuring (opts : Options) (contents : Text) :
    Performs [⟨tempName env, contents⟩]
      (Program.ensuring
        (maybeInstallRelease env opts.skipRelease (tempName env) opts.listenerClassPreset)
        (removeReleaseFile env (tempName env)))
      (installStages env opts contents ++ [.check env.removeTemp.isOk])
      (match env.removeTemp with
        | .ok _ => []
        | .error _ => [⟨tempName env, contents⟩]) := by
  intro world hfiles
  rw [Program.wp_ensuring]
  unfold removeReleaseFile
  rw [contains_tempName]
  refine Program.wp_mono (performs_maybeInstallRelease opts contents world hfiles)
    (fun _ _ h => ?_) fun _ _ h => ?_
  · rw [h.2, succeeds_append, invoked_append, h.1]
    cases env.removeTemp with
    | error message =>
      simp [succeeds, invoked, Stage.ok, Stage.invocation, Except.isOk, Except.toBool]
    | ok _ => simp [succeeds, invoked, Stage.ok, Stage.invocation, Except.isOk, Except.toBool]
  · rw [h.2, succeeds_append, invoked_append, h.1]
    cases env.removeTemp with
    | error message => simp
    | ok _ => simp

theorem wp_patch {operators : List OperatorArg} {skipOps : List Text}
    {Q : String → World → Prop} {X : Exn → World → Prop} {world : World} :
    Program.wp (patch env operators skipOps) Q X world ↔
      match env.releaseYaml with
      | .error message => X (.other message) world
      | .ok lines =>
        match releaseFile operators skipOps lines, env.createTemp, env.writeTemp with
        | .error _, _, _ => X .testRunner world
        | .ok _, .error message, _ => X (.other message) world
        | .ok _, .ok _, .error (message, written) => X (.other message)
          { world with files := world.files ++ [⟨tempName env, written⟩] }
        | .ok contents, .ok _, .ok _ => Q (tempName env)
          { world with files := world.files ++ [⟨tempName env, contents⟩] } := by
  unfold patch
  cases env.releaseYaml with
  | error message => exact Iff.rfl
  | ok lines =>
    dsimp only
    cases releaseFile operators skipOps lines with
    | error _ => exact Iff.rfl
    | ok contents =>
      cases env.createTemp with
      | error message => exact Iff.rfl
      | ok _ =>
        cases env.writeTemp with
        | error failure => exact Iff.rfl
        | ok _ => exact Iff.rfl

theorem performs_withReleaseFile (env : Env) (opts : Options) :
    Performs []
      (withReleaseFile env opts.operator opts.skipOperator fun name =>
        maybeInstallRelease env opts.skipRelease name opts.listenerClassPreset)
      (releaseStages env opts) (leftover env opts) := by
  intro world hfiles
  unfold withReleaseFile releaseStages leftover releaseContents
  rw [Program.wp_bind, wp_patch, hfiles]
  have hstop : ∀ files : List TempFile,
      succeeds [.check false] = false ∧ (⟨world.invocations, files⟩ : World) =
        ⟨world.invocations ++ invoked [.check false], files⟩ :=
    fun files => ⟨rfl, by simp [invoked, Stage.invocation, Stage.ok]⟩
  have hworld : world = ⟨world.invocations, []⟩ := by rw [← hfiles]
  cases env.releaseYaml with
  | error message => exact hworld ▸ hstop []
  | ok lines =>
    dsimp only
    cases releaseFile opts.operator opts.skipOperator lines with
    | error _ => exact hworld ▸ hstop []
    | ok contents =>
      cases env.createTemp with
      | error message => exact hworld ▸ hstop []
      | ok _ =>
        cases env.writeTemp with
        | error failure => exact hstop _
        | ok _ =>
          have hbody := performs_ensuring opts contents
            ⟨world.invocations, [⟨tempName env, contents⟩]⟩ rfl
          cases hremove : env.removeTemp with
          | error message =>
            rw [hremove] at hbody
            exact hbody
          | ok _ =>
            rw [hremove] at hbody
            exact hbody

/-- The release file cannot be made, or the release is installed from it. -/
theorem releaseStages_cases (env : Env) (opts : Options) (h : opts.skipRelease = false) :
    releaseStages env opts = [.check false] ∨ ∃ contents installed removed,
      releaseStages env opts =
        [.command ⟨stackablectlCommand (tempName env) opts.listenerClassPreset,
          [⟨tempName env, contents⟩]⟩ installed, .check removed] := by
  unfold releaseStages
  split
  · unfold installStages
    rw [h, if_neg Bool.false_ne_true]
    exact Or.inr ⟨_, _, _, rfl⟩
  · exact Or.inl rfl

/-- The commands of a run that installs a release and then runs tests, in namespaces of their
own. -/
theorem plan_commands (env : Env) (opts : Options) (hrelease : opts.skipRelease = false)
    (htests : opts.skipTests = false) (hns : given opts.ns = none) :
    let commands := [bekuCommand opts.testSuite opts.ns opts.workDir,
      stackablectlCommand (tempName env) opts.listenerClassPreset,
      kuttlCommand opts.test opts.parallel opts.ns opts.skipDelete opts.workDir]
    (invoked (plan env opts)).map Invocation.command <+: commands ∧
      (succeeds (plan env opts) = true →
        (invoked (plan env opts)).map Invocation.command = commands) := by
  intro commands
  unfold plan
  rw [htests, if_neg Bool.false_ne_true]
  rcases releaseStages_cases env opts hrelease with
    hstages | ⟨contents, installed, removed, hstages⟩
  · -- the run stops before its second command
    obtain ⟨hinvoked, hfails⟩ := invoked_stopped (genStages env opts) (testStages env opts)
    rw [hstages, hinvoked, hfails]
    refine ⟨?_, nofun⟩
    exact ((invoked_isPrefix _).map _).trans (List.prefix_append _ _)
  · have hflat : ((genStages env opts ++ releaseStages env opts ++
        testStages env opts).flatMap Stage.invocation).map Invocation.command = commands := by
      unfold testStages
      rw [hstages, hns]
      rfl
    rw [← hflat]
    refine ⟨(invoked_isPrefix _).map _, fun hsucceeds => ?_⟩
    rw [invoked_of_succeeds hsucceeds]

/-- A file is left only if the release could not be written or removed. -/
theorem leftover_eq_nil {opts : Options} (h : succeeds (releaseStages env opts) = true) :
    leftover env opts = [] := by
  unfold releaseStages at h
  unfold leftover
  split at h
  · rename_i contents _ _ hcontents hcreate hwrite
    rw [hcontents, hcreate, hwrite]
    rw [succeeds_append] at h
    cases hremove : env.removeTemp with
    | error message => simp [succeeds, Stage.ok, hremove, Except.isOk, Except.toBool] at h
    | ok _ => rfl
  · cases h

theorem leftover_of_isOk {opts : Options} (hwrite : env.writeTemp.isOk = true)
    (hremove : env.removeTemp.isOk = true) : leftover env opts = [] := by
  unfold leftover
  cases hw : env.writeTemp with
  | error failure => simp [hw, Except.isOk, Except.toBool] at hwrite
  | ok _ =>
    cases hr : env.removeTemp with
    | error message => simp [hr, Except.isOk, Except.toBool] at hremove
    | ok _ => split <;> simp_all

/-- The steps, with the temporary files that are left. -/
theorem performs_mainSteps (env : Env) (opts : Options) :
    ∃ files, Performs [] (mainSteps env opts) (plan env opts) files ∧
      (leftover env opts = [] → files = []) := by
  have htests : Performs [] (if !opts.skipTests then
      runTests env opts.test opts.parallel opts.ns opts.skipDelete opts.workDir else pure ⟨⟩)
      (if opts.skipTests then [] else testStages env opts) [] := by
    cases opts.skipTests with
    | true => exact performs_pure
    | false => exact performs_runTests opts
  have hrelease := (performs_withReleaseFile env opts).bind fun h =>
    leftover_eq_nil h ▸ htests
  have hgen := (performs_genTests env opts.testSuite opts.ns opts.workDir).bind fun _ => hrelease
  have hmain := (performs_haveRequirements env).bind fun _ => hgen
  refine ⟨_, hmain, fun hleft => ?_⟩
  rw [hleft]
  simp

end

/-! ## Runs -/

theorem exec_main (env : Env) (opts : Options) :
    ∃ files, (leftover env opts = [] → files = []) ∧
      (exitCode ((main env opts).exec World.new).1 = 0 ↔ succeeds (plan env opts) = true) ∧
      ((main env opts).exec World.new).2 = ⟨invoked (plan env opts), files⟩ := by
  obtain ⟨files, hsteps, hfiles⟩ := performs_mainSteps env opts
  have hwp : Program.wp (main env opts)
      (fun code world => (exitCode (.ok code) = 0 ↔ succeeds (plan env opts) = true) ∧
        world = ⟨invoked (plan env opts), files⟩)
      (fun e world => (exitCode (.error e) = 0 ↔ succeeds (plan env opts) = true) ∧
        world = ⟨invoked (plan env opts), files⟩) World.new := by
    unfold main
    simp only [Program.wp_tryCatch, Program.wp_bind, Program.wp_pure]
    refine Program.wp_mono (hsteps World.new rfl) (fun _ world h => ?_) fun e world h => ?_
    · exact ⟨by simp [exitCode, h.1], h.2⟩
    · cases e with
      | testRunner => exact ⟨by simp [exitCode, h.1], h.2⟩
      | other message => exact ⟨by simp [exitCode, h.1], h.2⟩
  have hrun := Program.of_wp (P := fun (result : Except Exn Int) (world : World) =>
    (exitCode result = 0 ↔ succeeds (plan env opts) = true) ∧
      world = ⟨invoked (plan env opts), files⟩) hwp
  exact ⟨files, hfiles, hrun⟩

/-- A run of the script goes through the stages of its plan up to the first that does not end
as it should, and exits with 0 if there is none. The release file it made is gone in the end,
unless it could not be written or removed. -/
theorem main_follows_plan (env : Env) (opts : Options) :
    (exitCode ((main env opts).exec World.new).1 = 0 ↔ succeeds (plan env opts) = true) ∧
      ((main env opts).exec World.new).2.invocations = invoked (plan env opts) ∧
      (env.writeTemp.isOk = true → env.removeTemp.isOk = true →
        ((main env opts).exec World.new).2.files = []) := by
  obtain ⟨files, hfiles, hcode, hworld⟩ := exec_main env opts
  rw [hworld]
  exact ⟨hcode, rfl, fun hwrite hremove => hfiles (leftover_of_isOk hwrite hremove)⟩

end CommonsOperator.RunTests
