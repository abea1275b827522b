import CommonsOperator.RetryProtocol

/-!
# What a log tells

The test runner finds out what `run-tests` did from what it printed : which tests have failed,
which namespace a test was given and at which step it failed. Each of these is a text after a
marker, and neither goes over the end of a line, so that a log is read line by line
(`findAll_lines`, `search_lines`). `parse_failed_tests_of_log` : of a log in which failed tests
are reported among other lines, exactly the failed tests are read, in their order.
-/

set_option linter.unusedSectionVars false

namespace CommonsOperator.AutoRetryTests

open Program

/-! ## The first match -/

/-- What `([...]+)` matches after `literal`, at the start of the text. -/
def matchClass (inClass : Char → Bool) (literal text : List Char) : Option (List Char) :=
  if literal.isPrefixOf text then
    let token := (text.drop literal.length).takeWhile inClass
    if token.isEmpty then none else some token
  else none

/-- `re.search`, of `literal` and `([...]+)`. -/
def search (inClass : Char → Bool) (literal : List Char) : List Char → Option (List Char)
  | [] => none
  | c :: text =>
    match matchClass inClass literal (c :: text) with
    | some token => some token
    | none => search inClass literal text

/-- What `[^\s]` matches. -/
def isNonSpace (c : Char) : Bool :=
  !isSpace c

/-- `extract_test_namespace_from_log_file`. -/
def extractTestNamespaceFromLogFile (log : Option String) : Option String :=
  log.bind fun content =>
    (search isNonSpace "Creating namespace: kuttl-test-".toList content.toList).map fun token =>
      "kuttl-test-" ++ String.ofList token

/-- `extract_failed_step`. What `\w` matches is given. -/
def extractFailedStep (isWordChar : Char → Bool) (log : Option String) : String :=
  match log.bind fun content =>
      search (fun c => isWordChar c || c = '-') "failed in step ".toList content.toList with
  | some step => "failed in step " ++ String.ofList step
  | none => "Could not find failed step"

theorem matchToken_eq (literal text : List Char) :
    matchToken literal text = matchClass isNonSpace literal text :=
  rfl

/-! ## Lines -/

/-- The log of these lines. The last one has no end : it is empty in a log that ends with a line
end. -/
def logOf (lines : List (List Char)) : List Char :=
  ['\n'].intercalate lines

theorem logOf_cons_cons (line line' : List Char) (lines : List (List Char)) :
    logOf (line :: line' :: lines) = line ++ '\n' :: logOf (line' :: lines) := by
  simp [logOf, List.intercalate]

theorem logOf_singleton (line : List Char) : logOf [line] = line := by
  simp [logOf, List.intercalate]

section

variable {inClass : Char → Bool} {literal : List Char}

/-- A marker in the text is one in the line. -/
theorem isPrefix_append_newline {line rest : List Char} (hliteral : '\n' ∉ literal) :
    literal <+: line ++ '\n' :: rest ↔ literal <+: line := by
  constructor
  · intro h
    rcases List.prefix_or_prefix_of_prefix h (List.prefix_append line _) with hline | ⟨more, rfl⟩
    · exact hline
    · rw [List.prefix_append_right_inj] at h
      cases more with
      | nil => exact ⟨[], by simp⟩
      | cons c more =>
        obtain ⟨rfl, -⟩ := List.cons_prefix_cons.1 h
        simp at hliteral
  · intro h
    exact h.trans (List.prefix_append line _)

theorem takeWhile_append_newline (hclass : inClass '\n' = false) (line rest : List Char) :
    (line ++ '\n' :: rest).takeWhile inClass = line.takeWhile inClass := by
  rw [List.takeWhile_append, List.takeWhile_cons_of_neg (by simp [hclass])]
  split
  · rename_i h
    rw [List.append_nil]
    exact ((List.takeWhile_prefix inClass).eq_of_length h).symm
  · rfl

/-- What is matched in a line does not depend on what follows it. -/
theorem matchClass_append_newline (hclass : inClass '\n' = false) (hliteral : '\n' ∉ literal)
    (line rest : List Char) : matchClass inClass literal (line ++ '\n' :: rest) =
      matchClass inClass literal line := by
  have hstart : literal.isPrefixOf (line ++ '\n' :: rest) = literal.isPrefixOf line := by
    rw [Bool.eq_iff_iff, List.isPrefixOf_iff_prefix, List.isPrefixOf_iff_prefix]
    exact isPrefix_append_newline hliteral
  unfold matchClass
  rw [hstart]
  split
  · rename_i h
    have hle : literal.length ≤ line.length := (List.isPrefixOf_iff_prefix.1 h).length_le
    rw [List.drop_append_of_le_length hle, takeWhile_append_newline hclass]
  · rfl

/-- No marker starts at the end of a line. -/
theorem matchClass_newline (hliteral : '\n' ∉ literal) (hne : literal ≠ []) (rest : List Char) :
    matchClass inClass literal ('\n' :: rest) = none := by
  unfold matchClass
  refine if_neg fun h => ?_
  obtain ⟨c, more, rfl⟩ := List.exists_cons_of_ne_nil hne
  obtain ⟨rfl, -⟩ := List.cons_prefix_cons.1 (List.isPrefixOf_iff_prefix.1 h)
  exact hliteral List.mem_cons_self

/-- The match is in the text. -/
theorem length_of_matchClass {text token : List Char}
    (h : matchClass inClass literal text = some token) :
    literal.length + token.length ≤ text.length ∧ token ≠ [] := by
  unfold matchClass at h
  split at h
  · rename_i hstart
    have hle : literal.length ≤ text.length := (List.isPrefixOf_iff_prefix.1 hstart).length_le
    dsimp only at h
    split at h
    · cases h
    · rename_i hempty
      obtain rfl := Option.some.inj h
      have htake := (List.takeWhile_prefix inClass (l := text.drop literal.length)).length_le
      rw [List.length_drop] at htake
      refine ⟨by omega, fun hnil => hempty ?_⟩
      rw [hnil]
      rfl
  · cases h

/-- The first match is the one in the line if there is one, and otherwise after it. -/
theorem search_line (hclass : inClass '\n' = false) (hliteral : '\n' ∉ literal)
    (hne : literal ≠ []) (line rest : List Char) :
    search inClass literal (line ++ '\n' :: rest) =
      (search inClass literal line).or (search inClass literal rest) := by
  induction line with
  | nil =>
    simp only [List.nil_append, search, matchClass_newline hliteral hne, Option.none_or]
  | cons c line ih =>
    have hmatch := matchClass_append_newline hclass hliteral (c :: line) rest
    rw [List.cons_append] at hmatch ⊢
    rw [search, search, hmatch]
    cases matchClass inClass literal (c :: line) with
    | some token => rfl
    | none => exact ih

/-- The first match in a log is the first of its lines. -/
theorem search_lines (hclass : inClass '\n' = false) (hliteral : '\n' ∉ literal)
    (hne : literal ≠ []) (lines : List (List Char)) :
    search inClass literal (logOf lines) = lines.findSome? (search inClass literal) := by
  induction lines with
  | nil => rfl
  | cons line lines ih =>
    rw [List.findSome?_cons]
    cases lines with
    | nil =>
      rw [logOf_singleton]
      cases search inClass literal line <;> rfl
    | cons line' lines =>
      rw [logOf_cons_cons, search_line hclass hliteral hne, ih]
      cases search inClass literal line <;> rfl

end

section

variable {literal : List Char}

/-- The matches in a line, and then those after it. -/
theorem findAll_line (hliteral : '\n' ∉ literal) (hne : literal ≠ []) (rest : List Char)
    {skip : Nat} {line : List Char} (hskip : skip ≤ line.length) :
    findAll literal skip (line ++ '\n' :: rest) =
      findAll literal skip line ++ findAll literal 0 rest := by
  have hclass : isNonSpace '\n' = false := by decide
  induction line generalizing skip with
  | nil =>
    obtain rfl : skip = 0 := Nat.le_zero.1 hskip
    simp only [List.nil_append, findAll, matchToken_eq, matchClass_newline hliteral hne]
  | cons c line ih =>
    cases skip with
    | succ skip => exact ih (Nat.le_of_succ_le_succ hskip)
    | zero =>
      have hmatch := matchClass_append_newline hclass hliteral (c :: line) rest
      rw [List.cons_append] at hmatch ⊢
      rw [findAll, findAll, matchToken_eq, matchToken_eq, hmatch]
      cases htoken : matchClass isNonSpace literal (c :: line) with
      | none => exact ih (Nat.zero_le _)
      | some token =>
        have hle := (length_of_matchClass htoken).1
        rw [List.length_cons] at hle
        dsimp only
        rw [ih (by omega), List.cons_append]

/-- The matches in a log are those in its lines. -/
theorem findAll_lines (hliteral : '\n' ∉ literal) (hne : literal ≠ [])
    (lines : List (List Char)) :
    findAll literal 0 (logOf lines) = lines.flatMap (findAll literal 0) := by
  induction lines with
  | nil => rfl
  | cons line lines ih =>
    rw [List.flatMap_cons]
    cases lines with
    | nil => rw [logOf_singleton, List.flatMap_nil, List.append_nil]
    | cons line' lines =>
      rw [logOf_cons_cons, findAll_line hliteral hne _ (Nat.zero_le _), ih]

end

/-- What is looked for in the log of the suite. -/
def failMarker : List Char :=
  "--- FAIL: kuttl/harness/".toList

/-- The log of these lines. -/
def logText (lines : List (List Char)) : Option String :=
  some (String.ofList (logOf lines))

/-- The first line that tells something other than the default. -/
theorem find?_step_eq {tell : List Char → String} {default : String}
    (htell : ∀ step, tell step ≠ default) (f : List Char → Option (List Char))
    (lines : List (List Char)) :
    (match lines.findSome? f with
      | some step => tell step
      | none => default) =
      ((lines.map fun line =>
        match f line with
        | some step => tell step
        | none => default).find? (· ≠ default)).getD default := by
  induction lines with
  | nil => rfl
  | cons line lines ih =>
    rw [List.findSome?_cons, List.map_cons, List.find?_cons]
    cases f line with
    | none => simpa using ih
    | some step => simp [htell step]

/-- A log is read line by line : the failed tests are those of its lines, and the namespace and the
failed step are those of the first line that tells one. -/
theorem log_read_by_lines {isWordChar : Char → Bool} (hword : isWordChar '\n' = false)
    (lines : List (List Char)) :
    parseFailedTestsFromLog (logText lines) =
        lines.flatMap (fun line => parseFailedTestsFromLog (some (String.ofList line))) ∧
      extractTestNamespaceFromLogFile (logText lines) =
        lines.findSome? (fun line => extractTestNamespaceFromLogFile (some (String.ofList line))) ∧
      extractFailedStep isWordChar (logText lines) =
        ((lines.map fun line => extractFailedStep isWordChar (some (String.ofList line))).find?
          (· ≠ "Could not find failed step")).getD "Could not find failed step" := by
  have hlog : (String.ofList (logOf lines)).toList = logOf lines := String.toList_ofList
  have hstep : (fun c => isWordChar c || c = '-') '\n' = false := by simp [hword]
  refine ⟨?_, ?_, ?_⟩
  · change findAll failMarker 0 _ = _
    have hline : (fun line => parseFailedTestsFromLog (some (String.ofList line))) =
        findAll failMarker 0 := by
      funext line
      change findAll failMarker 0 _ = _
      rw [String.toList_ofList]
    rw [hlog, hline, findAll_lines (by decide) (by decide)]
  · unfold extractTestNamespaceFromLogFile logText
    simp only [Option.bind_some, hlog, String.toList_ofList]
    rw [search_lines (by decide) (by decide) (by decide), List.map_findSome?]
    rfl
  · unfold extractFailedStep logText
    simp only [Option.bind_some, hlog, String.toList_ofList]
    rw [search_lines hstep (by decide) (by decide)]
    exact find?_step_eq (fun step => by simp [String.ext_iff]) _ lines

/-- What `\w` matches of the characters in ASCII. -/
def isAsciiWordChar (c : Char) : Bool :=
  c.isAlphanum || c = '_'

/-- Two namespaces are told of. -/
def twoNamespaces : List (List Char) :=
  ["Creating namespace: kuttl-test-a".toList, "Creating namespace: kuttl-test-b".toList,
    "failed in step 1-install".toList]

theorem log_read_by_lines_twoNamespaces :
    extractTestNamespaceFromLogFile (logText twoNamespaces) = some "kuttl-test-a" ∧
      extractFailedStep isAsciiWordChar (logText twoNamespaces) = "failed in step 1-install" := by
  have hword : isAsciiWordChar '\n' = false := by decide
  obtain ⟨-, hns, hstep⟩ := log_read_by_lines hword twoNamespaces
  exact ⟨hns.trans (by decide +kernel), hstep.trans (by decide +kernel)⟩

/-! ## Reports of failed tests -/

/-- A text without the end of a line in which no failed test is reported. -/
structure Plain where
  text : List Char
  oneLine : '\n' ∉ text
  noReport : ¬failMarker <:+: text

/-- The name of a test, as it can be told in a line. -/
structure TestName where
  name : List Char
  ne_nil : name ≠ []
  noSpace : ∀ c ∈ name, isSpace c = false

/-- A line of the log of a suite. -/
inductive LogLine where
  /-- The test has failed. -/
  | failed (indent : Nat) (test : TestName) (time : Plain)
  | other (line : Plain)

namespace LogLine

/-- The line as it is printed. -/
def text : LogLine → List Char
  | failed indent test time =>
    List.replicate indent ' ' ++ failMarker ++ test.name ++ ' ' :: time.text
  | other line => line.text

/-- The failed test that is reported. -/
def failedTest : LogLine → Option String
  | failed _ test _ => some (String.ofList test.name)
  | other _ => none

end LogLine

theorem findAll_of_noReport {line : List Char} (h : ¬failMarker <:+: line) :
    findAll failMarker 0 line = [] := by
  induction line with
  | nil => rfl
  | cons c line ih =>
    have hmatch : matchToken failMarker (c :: line) = none := by
      unfold matchToken
      refine if_neg fun hstart => h ?_
      exact (List.isPrefixOf_iff_prefix.1 hstart).isInfix
    rw [findAll, hmatch]
    exact ih fun hsub => h (hsub.trans (List.suffix_cons c line).isInfix)

section

variable {first : Char} {more : List Char}

/-- Nothing is found in the first characters. -/
theorem findAll_skip (literal : List Char) (done rest : List Char) :
    findAll literal done.length (done ++ rest) = findAll literal 0 rest := by
  induction done with
  | nil => rfl
  | cons c done ih => exact ih

theorem findAll_spaces (hfirst : first ≠ ' ') (n : Nat) (rest : List Char) :
    findAll (first :: more) 0 (List.replicate n ' ' ++ rest) = findAll (first :: more) 0 rest := by
  induction n with
  | zero => rfl
  | succ n ih =>
    have hmatch : matchToken (first :: more) (' ' :: (List.replicate n ' ' ++ rest)) = none := by
      unfold matchToken
      refine if_neg fun hstart => hfirst ?_
      exact (List.cons_prefix_cons.1 (List.isPrefixOf_iff_prefix.1 hstart)).1
    rw [List.replicate_succ, List.cons_append, findAll, hmatch]
    exact ih

/-- A marker with the name of a test is read as the test, and what comes after it is read on. -/
theorem findAll_testName (test : TestName) (rest : List Char) :
    findAll (first :: more) 0 (first :: (more ++ test.name ++ ' ' :: rest)) =
      String.ofList test.name :: findAll (first :: more) 0 (' ' :: rest) := by
  have hsplit : first :: (more ++ test.name ++ ' ' :: rest) =
      (first :: more) ++ (test.name ++ ' ' :: rest) := by simp
  have htake : ((first :: (more ++ test.name ++ ' ' :: rest)).drop
      (first :: more).length).takeWhile (fun c => !isSpace c) = test.name := by
    rw [hsplit, List.drop_left, List.takeWhile_append_of_pos (by simpa using test.noSpace),
      List.takeWhile_cons_of_neg (by decide), List.append_nil]
  have hmatch : matchToken (first :: more) (first :: (more ++ test.name ++ ' ' :: rest)) =
      some test.name := by
    unfold matchToken
    rw [if_pos, htake]
    · simp [test.ne_nil]
    · rw [List.isPrefixOf_iff_prefix, hsplit]
      exact List.prefix_append _ _
  have hskip : (first :: more).length + test.name.length - 1 = (more ++ test.name).length := by
    rw [List.length_cons, List.length_append]
    omega
  rw [findAll, hmatch]
  dsimp only
  rw [hskip, findAll_skip]

end

theorem failMarker_eq : ∃ more, failMarker = '-' :: more :=
  ⟨_, rfl⟩

/-- A line is read as what it reports. -/
theorem findAll_logLine (line : LogLine) :
    findAll failMarker 0 line.text = line.failedTest.toList := by
  cases line with
  | other line => exact findAll_of_noReport line.noReport
  | failed indent test time =>
    obtain ⟨more, hmarker⟩ := failMarker_eq
    have htime := findAll_of_noReport time.noReport
    have hdash : '-' ≠ ' ' := by decide
    simp only [LogLine.text]
    rw [hmarker] at htime ⊢
    rw [List.append_assoc, List.append_assoc, findAll_spaces hdash, List.cons_append,
      ← List.append_assoc, findAll_testName]
    -- no marker starts with the blank after the name
    have hblank := @findAll_spaces '-' more hdash 1 time.text
    rw [List.replicate_one, List.singleton_append] at hblank
    rw [hblank, htime]
    rfl

theorem findAll_logLines (lines : List LogLine) :
    (lines.flatMap fun line => findAll failMarker 0 line.text) =
      lines.filterMap LogLine.failedTest := by
  induction lines with
  | nil => rfl
  | cons line lines ih =>
    rw [List.flatMap_cons, findAll_logLine, ih]
    cases hline : line.failedTest with
    | none => rw [List.filterMap_cons_none hline, Option.toList_none, List.nil_append]
    | some testName =>
      rw [List.filterMap_cons_some hline, Option.toList_some, List.singleton_append]

/-- The failed tests are read as they are reported, whatever else the log tells. -/
theorem parseFailedTestsFromLog_logOf (lines : List LogLine) :
    parseFailedTestsFromLog (some (String.ofList (logOf (lines.map LogLine.text)))) =
      lines.filterMap LogLine.failedTest := by
  have hne : failMarker ≠ [] := by decide
  have hnewline : '\n' ∉ failMarker := by decide
  have hlog : (String.ofList (logOf (lines.map LogLine.text))).toList =
      logOf (lines.map LogLine.text) := String.toList_ofList
  change findAll failMarker 0 _ = _
  rw [hlog, findAll_lines hnewline hne, List.flatMap_map, findAll_logLines]

/-! ## What is retried -/

/-- The full suite has been executed, and then failed tests only. -/
structure OnlyRetries (env : Env String) (testNames : List String) (t : Runner String) : Prop where
  failedTests : t.failedTests = testNames
  runs : ∃ retries, t.runs = ⟨"", false, 1, .initial, env.initial⟩ :: retries ∧
    ∀ run ∈ retries, run.testName ∈ testNames

theorem Ends.onlyRetries {env : Env String} {args : Args} {s t : Runner String}
    {result : Except String Int} (h : Ends env args s result t) {failedTests : List String}
    {initialResultLog : Option String} (hs : s = { Runner.new with
      failedTests, initialResultLog, runs := [⟨"", false, 1, .initial, env.initial⟩] }) :
    OnlyRetries env failedTests t := by
  obtain ⟨parallelRuns, serialRuns, hruns⟩ := h.retryRuns
  obtain ⟨_, _, _, _, _, ht⟩ := hruns.state
  have hf : s.failedTests = failedTests := by rw [hs]
  have hparallel := hruns.parallel
  have hserial := hruns.serial
  rw [hf] at hparallel hserial
  rw [ht, hs]
  refine ⟨rfl, parallelRuns ++ serialRuns, rfl, fun run hrun => ?_⟩
  rcases List.mem_append.1 hrun with hrun | hrun
  · exact (hparallel run hrun).1
  · exact (hserial run hrun).1

/-- After a suite that fails, the tests that are reported as failed in its log are the failed tests
of the run, and no others are executed. With none of them, the run ends with 0. -/
theorem retries_reported_tests {env : Env String} {args : Args} {execution : Execution}
    (hfresh : args.rerunFailed.filter (· ≠ "") = none) (hinitial : env.initial = .ok execution)
    (hfailed : execution.success = false) {lines : List LogLine}
    (hlog : env.readLog execution.logFile =
      some (String.ofList (logOf (lines.map LogLine.text)))) :
    (runNew env args).2.failedTests = lines.filterMap LogLine.failedTest ∧
      (∃ retries, (runNew env args).2.runs =
          ⟨"", false, 1, .initial, env.initial⟩ :: retries ∧
        ∀ run ∈ retries, run.testName ∈ lines.filterMap LogLine.failedTest) ∧
      (lines.filterMap LogLine.failedTest = [] → (runNew env args).1 = .ok 0) := by
  have hnames : failedTestsOf env execution = lines.filterMap LogLine.failedTest := by
    unfold failedTestsOf
    rw [hlog, parseFailedTestsFromLog_logOf]
    exact List.map_id _
  rw [← hnames]
  have hrun : wp (run env args)
      (fun code t => OnlyRetries env (failedTestsOf env execution) t ∧
        (failedTestsOf env execution = [] → (.ok code : Except String Int) = .ok 0))
      (fun message t => OnlyRetries env (failedTestsOf env execution) t ∧
        (failedTestsOf env execution = [] → (.error message : Except String Int) = .ok 0))
      Runner.new := by
    simp only [run, wp_bind]
    refine wp_mono (wp_initializeRunMode_failed hfresh hinitial hfailed) ?_ fun _ _ h => h.elim
    rintro go s ⟨hgo, log, hs⟩
    split
    · rename_i htrue
      have hsum : s.testSummaries = [] := by
        rw [hs]
        rfl
      have hnone : failedTestsOf env execution ≠ [] := hgo.1 htrue
      refine wp_mono (wp_retriesAndReport_trace hsum) (fun code t hends => ?_)
        fun message t hends => ?_
      · exact ⟨hends.onlyRetries hs, fun h => (hnone h).elim⟩
      · exact ⟨hends.onlyRetries hs, fun h => (hnone h).elim⟩
    · rw [hs]
      exact ⟨⟨rfl, [], rfl, by simp⟩, fun _ => rfl⟩
  obtain ⟨⟨hf, hretries⟩, hcode⟩ := of_wp (P := fun result t =>
    OnlyRetries env (failedTestsOf env execution) t ∧
      (failedTestsOf env execution = [] → result = .ok 0)) hrun
  exact ⟨hf, hretries, hcode⟩

/-- A text that is shorter than the marker. -/
def Plain.short (text : List Char) (oneLine : '\n' ∉ text) (h : text.length < 24) : Plain where
  text := text
  oneLine := oneLine
  noReport hsub := Nat.not_le.2 h hsub.length_le

def smoke : TestName where
  name := "smoke".toList
  ne_nil := by decide
  noSpace := by simp [isSpace]

/-- A suite in which one test fails. -/
def smokeReported : List LogLine :=
  [.other (.short "=== RUN kuttl".toList (by decide) (by decide)),
    .failed 4 smoke (.short "(3.14s)".toList (by decide) (by decide))]

/-- The suite fails, and so does every attempt of the test. -/
def smokeFails : Env String :=
  .always (.ok failsToStart) (.ok failsToStart)
    (String.ofList (logOf (smokeReported.map LogLine.text)))

theorem retries_reported_tests_smoke :
    (runNew smokeFails ⟨2, 1, 1, false, none⟩).2.failedTests = ["smoke"] := by
  have h := @retries_reported_tests smokeFails ⟨2, 1, 1, false, none⟩ failsToStart rfl rfl rfl
    smokeReported rfl
  exact h.1

end CommonsOperator.AutoRetryTests
