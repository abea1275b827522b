import CommonsOperator.RetryBudget
import CommonsOperator.RetryCommand

/-!
# The files of an execution

An execution of a test writes a log file and has a work directory, both named after the test, the
attempt and its type, with the characters replaced that do not go into a name. What is written by
one execution must not be written again by another one : the namespace that is kept is read from the
log, and `beku` deletes the work directory. `log_files_distinct` and `work_dirs_distinct` : within a
run no two executions share a file, if the names of the failed tests stay distinct.
-/

set_option linter.unusedSectionVars false

namespace CommonsOperator.AutoRetryTests

variable {args : Args}

/-! ## The names -/

/-- The name of a test in the name of its log file, with the hexadecimal digest of a name. -/
def safeTestName (md5 : String → String) (testName : String) : String :=
  let safe := replaceChar '/' '_' testName
  if 100 < safe.toList.length then
    String.ofList (safe.toList.take (100 - 9)) ++ "_" ++
      String.ofList ((md5 testName).toList.take 8)
  else safe

/-- `create_safe_log_filename`. -/
def createSafeLogFilename (md5 : String → String) (testName : String) (attempt : Nat)
    (attemptType : AttemptType) : String :=
  safeTestName md5 testName ++ "_attempt_" ++ toString attempt ++ "_" ++ attemptType.text ++ ".txt"

/-- The name of a test in the name of its work directory. -/
def workTestName (testName : String) : String :=
  if testName ≠ "" then replaceChar ',' '_' (replaceChar '/' '_' testName) else "full_suite"

/-- The log file of an execution of a test. -/
def Run.logFilename (md5 : String → String) (run : Run String) : String :=
  createSafeLogFilename md5 run.testName run.attempt run.attemptType

/-- The work directory of an execution. -/
def Run.workDir (run : Run String) (timestamp : String) : String :=
  workDirOf run.testName run.attempt run.attemptType timestamp

/-! ## What is read back from a name -/

section

variable {xs xs' ys ys' : List Char} {n n' : Nat}

theorem toDigits_inj (h : Nat.toDigits 10 n = Nat.toDigits 10 n') : n = n' := by
  have hread : Nat.ofDigitChars 10 (Nat.toDigits 10 n) 0 = n := Nat.ofDigitChars_ten_toDigits
  rw [← hread, h, Nat.ofDigitChars_ten_toDigits]

theorem underscore_notMem_toDigits (n : Nat) : '_' ∉ Nat.toDigits 10 n := by
  intro hmem
  have hdigit := Nat.isDigit_of_mem_toDigits (by decide) (by decide) hmem
  exact absurd hdigit (by decide)

theorem eq_nil_of_underscore {more : List Char} (hys : '_' ∉ ys)
    (h : '_' :: ys = more ++ '_' :: ys') : more = [] := by
  cases more with
  | nil => rfl
  | cons c more =>
    obtain ⟨-, rfl⟩ := List.cons.inj h
    simp at hys

/-- The last underscore of a text. -/
theorem last_underscore_inj (hys : '_' ∉ ys) (hys' : '_' ∉ ys')
    (h : xs ++ '_' :: ys = xs' ++ '_' :: ys') : xs = xs' ∧ ys = ys' := by
  rcases List.append_eq_append_iff.1 h with ⟨more, rfl, hmore⟩ | ⟨more, rfl, hmore⟩
  · obtain rfl := eq_nil_of_underscore hys hmore
    exact ⟨(List.append_nil xs).symm, (List.cons.inj hmore).2⟩
  · obtain rfl := eq_nil_of_underscore hys' hmore
    exact ⟨List.append_nil xs', (List.cons.inj hmore).2.symm⟩

/-- The number between the last two underscores. -/
theorem last_number_inj (hys : '_' ∉ ys) (hys' : '_' ∉ ys')
    (h : xs ++ '_' :: Nat.toDigits 10 n ++ '_' :: ys =
      xs' ++ '_' :: Nat.toDigits 10 n' ++ '_' :: ys') : xs = xs' ∧ n = n' ∧ ys = ys' := by
  obtain ⟨hxs, hys⟩ := last_underscore_inj hys hys' h
  obtain ⟨hxs, hn⟩ := last_underscore_inj (underscore_notMem_toDigits n)
    (underscore_notMem_toDigits n') hxs
  exact ⟨hxs, toDigits_inj hn, hys⟩

end

theorem underscore_notMem_text (attemptType : AttemptType) : '_' ∉ attemptType.text.toList := by
  cases attemptType <;> decide

theorem text_inj {attemptType attemptType' : AttemptType}
    (h : attemptType.text = attemptType'.text) : attemptType = attemptType' := by
  cases attemptType <;> cases attemptType' <;> first | rfl | exact absurd h (by decide)

/-- A log file is that of one test, attempt and type. -/
theorem createSafeLogFilename_inj {md5 : String → String} {testName testName' : String}
    {attempt attempt' : Nat} {attemptType attemptType' : AttemptType}
    (h : createSafeLogFilename md5 testName attempt attemptType =
      createSafeLogFilename md5 testName' attempt' attemptType') :
    safeTestName md5 testName = safeTestName md5 testName' ∧ attempt = attempt' ∧
      attemptType = attemptType' := by
  have hlist : ∀ testName attempt attemptType,
      (createSafeLogFilename md5 testName attempt attemptType).toList =
        ((safeTestName md5 testName).toList ++ "_attempt".toList) ++
          '_' :: Nat.toDigits 10 attempt ++ '_' :: (attemptType.text.toList ++ ".txt".toList) := by
    intro testName attempt attemptType
    have hdigits : (toString attempt).toList = Nat.toDigits 10 attempt := Nat.toList_repr
    unfold createSafeLogFilename
    simp only [String.toList_append, hdigits]
    simp
  have hfree : ∀ attemptType : AttemptType, '_' ∉ attemptType.text.toList ++ ".txt".toList := by
    intro attemptType
    rw [List.mem_append, not_or]
    exact ⟨underscore_notMem_text attemptType, by decide⟩
  have hchars := congrArg String.toList h
  rw [hlist, hlist] at hchars
  obtain ⟨hname, hattempt, htype⟩ := last_number_inj (hfree _) (hfree _) hchars
  exact ⟨String.toList_inj.1 (List.append_cancel_right hname), hattempt,
    text_inj (String.toList_inj.1 (List.append_cancel_right htype))⟩

/-- A work directory is that of one test, attempt, type and time. -/
theorem workDirOf_inj {testName testName' : String} {attempt attempt' : Nat}
    {attemptType attemptType' : AttemptType} {timestamp timestamp' : String}
    (hlength : timestamp.length = timestamp'.length)
    (h : workDirOf testName attempt attemptType timestamp =
      workDirOf testName' attempt' attemptType' timestamp') :
    workTestName testName = workTestName testName' ∧ attempt = attempt' ∧
      attemptType = attemptType' ∧ timestamp = timestamp' := by
  have hlist : ∀ testName attempt attemptType timestamp,
      (workDirOf testName attempt attemptType timestamp).toList =
        ("tests/_work_".toList ++ (workTestName testName).toList ++
          '_' :: Nat.toDigits 10 attempt ++ '_' :: attemptType.text.toList) ++
            '_' :: timestamp.toList := by
    intro testName attempt attemptType timestamp
    have hdigits : (toString attempt).toList = Nat.toDigits 10 attempt := Nat.toList_repr
    unfold workDirOf workTestName
    simp only [String.toList_append, hdigits]
    simp
  have hchars := congrArg String.toList h
  rw [hlist, hlist] at hchars
  have htail : ('_' :: timestamp.toList).length = ('_' :: timestamp'.toList).length := by
    rw [List.length_cons, List.length_cons, String.length_toList, String.length_toList, hlength]
  obtain ⟨hchars, htime⟩ := List.append_inj' hchars htail
  obtain ⟨hname, hattempt, htype⟩ := last_number_inj (underscore_notMem_text _)
    (underscore_notMem_text _) hchars
  exact ⟨String.toList_inj.1 (List.append_cancel_left hname), hattempt,
    text_inj (String.toList_inj.1 htype), String.toList_inj.1 (List.cons.inj htime).2⟩

/-! ## The executions of a run -/

/-- What tells an execution from others. -/
def Run.key (run : Run String) : String × Nat × AttemptType :=
  (run.testName, run.attempt, run.attemptType)

/-- The pairs are distinct if the second components are for every first one. -/
theorem nodup_map_prod {α β γ : Type} [DecidableEq β] {f : α → β} {g : α → γ} {xs : List α}
    (h : ∀ x ∈ xs, ((xs.filter fun y => f y = f x).map g).Nodup) :
    (xs.map fun x => (f x, g x)).Nodup := by
  induction xs with
  | nil => exact List.nodup_nil
  | cons x xs ih =>
    have hx := h x List.mem_cons_self
    rw [List.filter_cons_of_pos (by simp), List.map_cons, List.nodup_cons] at hx
    rw [List.map_cons, List.nodup_cons]
    constructor
    · intro hmem
      obtain ⟨y, hy, hxy⟩ := List.mem_map.1 hmem
      obtain ⟨hf, hg⟩ := Prod.mk.inj hxy
      exact hx.1 (List.mem_map.2 ⟨y, List.mem_filter.2 ⟨hy, decide_eq_true hf⟩, hg⟩)
    · refine ih fun y hy => (h y (List.mem_cons_of_mem _ hy)).sublist ?_
      exact ((List.sublist_cons_self x xs).filter _).map g

/-- The attempts of one type are distinct. -/
theorem nodup_key_of_tries {attemptType : AttemptType} {testNames : List String}
    {runs : List (Run String)}
    (hfields : ∀ run ∈ runs, run.testName ∈ testNames ∧ run.attemptType = attemptType)
    (htries : ∀ testName ∈ testNames, ∃ keeps n,
      Tries attemptType testName keeps n (runsOf testName runs)) : (runs.map Run.key).Nodup := by
  refine nodup_map_prod fun run hrun => ?_
  obtain ⟨keeps, n, h⟩ := htries run.testName (hfields run hrun).1
  have hattempts : ((runsOf run.testName runs).map Run.attempt).Nodup := by
    rw [h.attempts]
    exact List.nodup_range'
  refine List.Nodup.of_map Prod.fst ?_
  rw [List.map_map]
  exact hattempts

/-- No execution of the retries is repeated. -/
theorem RetryRuns.nodup_key {s t : Runner String} {parallelRuns serialRuns : List (Run String)}
    (h : RetryRuns args s parallelRuns serialRuns t) (hnodup : s.failedTests.Nodup) :
    ((parallelRuns ++ serialRuns).map Run.key).Nodup := by
  have hparallel : (parallelRuns.map Run.key).Nodup :=
    nodup_key_of_tries h.parallel fun testName hmem => by
      obtain ⟨keeps, _, htries, -⟩ := h.tries hnodup testName hmem
      exact ⟨keeps, _, htries⟩
  have hserial : (serialRuns.map Run.key).Nodup :=
    nodup_key_of_tries h.serial fun testName hmem => by
      obtain ⟨_, keeps, -, htries⟩ := h.tries hnodup testName hmem
      exact ⟨keeps, _, htries⟩
  rw [List.map_append, List.nodup_append]
  refine ⟨hparallel, hserial, ?_⟩
  rintro _ hkey _ hkey' rfl
  obtain ⟨run, hrun, rfl⟩ := List.mem_map.1 hkey
  obtain ⟨run', hrun', heq⟩ := List.mem_map.1 hkey'
  have htype : run'.attemptType = run.attemptType := congrArg (fun key => key.2.2) heq
  rw [(h.parallel run hrun).2, (h.serial run' hrun').2] at htype
  cases htype

/-- The executions of single tests. -/
def testRuns (t : Runner String) : List (Run String) :=
  t.runs.filter fun run => run.testName ≠ ""

/-- The executions of single tests are of failed tests, and none is repeated. -/
structure TestRuns (t : Runner String) : Prop where
  failedTests : ∀ run ∈ testRuns t, run.testName ∈ t.failedTests
  nodup : ((testRuns t).map Run.key).Nodup

theorem RetryRuns.testRuns {s t : Runner String} {parallelRuns serialRuns : List (Run String)}
    (h : RetryRuns args s parallelRuns serialRuns t) (hs : ∀ run ∈ s.runs, run.testName = "")
    (hnodup : t.failedTests.Nodup) : TestRuns t := by
  have hkeys := h.nodup_key
  have hparallel := h.parallel
  have hserial := h.serial
  obtain ⟨_, _, _, _, _, ht⟩ := h.state
  have hf : t.failedTests = s.failedTests := by
    rw [ht]
    rfl
  rw [hf] at hnodup
  have hruns : AutoRetryTests.testRuns t =
      (parallelRuns ++ serialRuns).filter fun run => run.testName ≠ "" := by
    have hnone : (s.runs.filter fun run => run.testName ≠ "") = [] :=
      List.filter_eq_nil_iff.2 fun run hrun => by simp [hs run hrun]
    rw [ht]
    unfold AutoRetryTests.testRuns Runner.record
    rw [List.filter_append, hnone, List.nil_append]
  refine ⟨fun run hrun => ?_, ?_⟩
  · rw [hruns] at hrun
    rw [hf]
    rcases List.mem_append.1 (List.mem_filter.1 hrun).1 with hrun | hrun
    · exact (hparallel run hrun).1
    · exact (hserial run hrun).1
  · rw [hruns]
    exact (hkeys hnodup).sublist (List.filter_sublist.map _)

/-- Of a run of a chain. -/
theorem testRuns_runFrom {start : Option (State String)}
    (hstart : ∀ state ∈ start, Saved state) (env : Env String)
    (hnodup : (runFrom env args start).2.failedTests.Nodup) :
    TestRuns (runFrom env args start).2 := by
  cases start with
  | none =>
    rcases runNew_ends env args with hinit | ⟨s, hs, hends⟩
    · have hnone : testRuns (runNew env args).2 = [] :=
        List.filter_eq_nil_iff.2 fun run hrun => by simp [(hinit.runs run hrun).1]
      exact ⟨by simp [runFrom, hnone], by simp [runFrom, hnone]⟩
    · obtain ⟨parallelRuns, serialRuns, h⟩ := hends.retryRuns
      exact h.testRuns (fun run hrun => (hs.runs run hrun).1) hnodup
  | some state =>
    have hresumable := (hstart state rfl).resumable
    obtain ⟨parallelRuns, serialRuns, h⟩ :=
      (runResumed_ends env args hresumable.failedTests hresumable.testSummaries).retryRuns
    exact h.testRuns (by simp [loadState, Runner.new]) hnodup

/-! ## No file is shared -/

/-- What is named after the test, the attempt and its type is not shared. -/
theorem TestRuns.nodup_map {t : Runner String} (h : TestRuns t) {file : Run String → String}
    {safe : String → String} (hsafe : (t.failedTests.map safe).Nodup)
    (hfile : ∀ run run', file run = file run' → safe run.testName = safe run'.testName ∧
      run.attempt = run'.attempt ∧ run.attemptType = run'.attemptType) :
    ((testRuns t).map file).Nodup := by
  refine List.Nodup.map_on (fun run hrun run' hrun' heq => ?_) (h.nodup.of_map _)
  obtain ⟨hname, hattempt, htype⟩ := hfile run run' heq
  have htest : run.testName = run'.testName :=
    List.inj_on_of_nodup_map hsafe (h.failedTests run hrun) (h.failedTests run' hrun') hname
  refine List.inj_on_of_nodup_map h.nodup hrun hrun' ?_
  unfold Run.key
  rw [htest, hattempt, htype]

/-- Within a run, no two executions of tests write the same log file, if the names of the failed
tests stay distinct in the names of the files. -/
theorem log_files_distinct (md5 : String → String) {start : Option (State String)}
    (hstart : ∀ state ∈ start, Saved state) (env : Env String)
    (hsafe : ((runFrom env args start).2.failedTests.map (safeTestName md5)).Nodup) :
    ((testRuns (runFrom env args start).2).map (Run.logFilename md5)).Nodup :=
  (testRuns_runFrom hstart env (hsafe.of_map _)).nodup_map hsafe fun _ _ h =>
    createSafeLogFilename_inj h

/-- Within a run, no two executions of tests use the same work directory, even at the same time, if
the names of the failed tests stay distinct in the names of the directories. -/
theorem work_dirs_distinct {start : Option (State String)}
    (hstart : ∀ state ∈ start, Saved state) (env : Env String)
    (hsafe : ((runFrom env args start).2.failedTests.map workTestName).Nodup)
    {timestamp : Run String → String}
    (htime : ∀ run run', (timestamp run).length = (timestamp run').length) :
    ((testRuns (runFrom env args start).2).map fun run => run.workDir (timestamp run)).Nodup :=
  (testRuns_runFrom hstart env (hsafe.of_map _)).nodup_map hsafe fun run run' h =>
    have hinj := workDirOf_inj (htime run run') h
    ⟨hinj.1, hinj.2.1, hinj.2.2.1⟩

/-- Two tests fail, and so do all their attempts. -/
def twoFail : Env String :=
  .always (.ok failsToStart) (.ok failsToStart)
    "--- FAIL: kuttl/harness/smoke (3.14s)\n--- FAIL: kuttl/harness/ldap (2.72s)\n"

def oneOfEach : Args :=
  ⟨2, 1, 1, false, none⟩

theorem failedTests_twoFail :
    (runFrom twoFail oneOfEach none).2.failedTests = ["smoke", "ldap"] := by
  decide +kernel

theorem log_files_distinct_twoFail : (testRuns (runFrom twoFail oneOfEach none).2).length = 4 ∧
    ((testRuns (runFrom twoFail oneOfEach none).2).map (Run.logFilename id)).Nodup := by
  have hsafe : (["smoke", "ldap"].map (safeTestName id)).Nodup := by decide +kernel
  refine ⟨by decide +kernel, log_files_distinct id (by simp) twoFail ?_⟩
  rw [failedTests_twoFail]
  exact hsafe

theorem work_dirs_distinct_twoFail :
    ((testRuns (runFrom twoFail oneOfEach none).2).map fun run =>
      run.workDir "20250101_120000_000").Nodup := by
  have hsafe : (["smoke", "ldap"].map workTestName).Nodup := by decide +kernel
  refine work_dirs_distinct (by simp) twoFail ?_ fun _ _ => rfl
  rw [failedTests_twoFail]
  exact hsafe

end CommonsOperator.AutoRetryTests
