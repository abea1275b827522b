import CommonsOperator.RetryResume
import CommonsOperator.RetrySerialTrace

/-!
# Namespaces kept for debugging

Without `--delete-failed-namespaces`, the summary of a failed test names a namespace that was kept
for debugging. Only the last attempt of a test is run with `--skip-delete`; the namespaces of all
others are deleted when they end. The summary names the last namespace that was found in a log, so
the namespace it names still exists exactly if one was found in the log of that attempt
(`kept_namespace_iff`).
-/

set_option linter.unusedSectionVars false

namespace CommonsOperator.AutoRetryTests

open Program

variable {N : Type} [DecidableEq N] [TestNames N] {env : Env N} {args : Args}

/-- Each execution has a namespace of its own, and in its log no other is found. -/
structure Owns (own : Nat → String) (runs : List (Run N)) : Prop where
  distinct : ∀ i, i < runs.length → ∀ j, j < runs.length → own i = own j → i = j
  extracted : ∀ i, ∀ h : i < runs.length, ∀ ns ∈ runs[i].extracted, own i = ns

/-- The namespace was deleted, at the end of an execution without `--skip-delete` or by
`delete_test_namespace`. -/
def Deleted (own : Nat → String) (runner : Runner N) (ns : String) : Prop :=
  (∃ i, ∃ h : i < runner.runs.length, runner.runs[i].skipDelete = false ∧ own i = ns) ∨
    ns ∈ runner.deleted

/-- The namespace was created by an execution with `--skip-delete`, and still exists. -/
def Kept (own : Nat → String) (runner : Runner N) (ns : String) : Prop :=
  (∃ i, ∃ h : i < runner.runs.length, runner.runs[i].skipDelete = true ∧ own i = ns) ∧
    ¬Deleted own runner ns

/-- The namespaces that summaries name are kept, and those of attempts that passed are not. -/
structure NamespacesHandled (own : Nat → String) (runner : Runner N) : Prop where
  failed : ∀ testName summary, Assoc.get? runner.testSummaries testName = some summary →
    summary.finalStatus = .failed → ∀ ns ∈ summary.finalNamespace, Kept own runner ns
  passed : ∀ run ∈ runner.runs, run.passed = true → ∀ ns ∈ run.extracted, Deleted own runner ns

/-- The attempts that a test is summed up by : the parallel ones, and the serial ones since its
last first attempt. -/
def attemptsOf (testName : N) (runs : List (Run N)) : List (Run N) :=
  (runsOf testName runs).filter (fun run => run.attemptType = .parallel) ++
    sinceFirstAttempt ((runsOf testName runs).filter fun run => run.attemptType = .serial)

/-- The executions of the last attempt. There are two if a test was in a parallel attempt twice. -/
def lastAttempt (attempts : List (Run N)) : List (Run N) :=
  attempts.filter fun run => attempts.getLast?.any fun last =>
    run.attemptType = last.attemptType ∧ run.attempt = last.attempt

/-- If a namespace was found in the log of some attempt of a failed test, then one was found in
that of its last attempt. -/
def LastNamespaceFound (runner : Runner N) : Prop :=
  ∀ testName ∈ runner.failedTests,
    (∀ run ∈ attemptsOf testName runner.runs, run.passed = false) →
      (∃ run ∈ attemptsOf testName runner.runs, run.extracted ≠ none) →
        ∃ run ∈ lastAttempt (attemptsOf testName runner.runs), run.extracted ≠ none

/-- A failed test with an empty name, or another one that is not true, stands for the full suite,
whose namespace `run_single_test_suite` does not delete. No attempt of one that passes with
`--skip-delete` has a namespace. -/
def NoSuiteKept (runner : Runner N) : Prop :=
  ∀ run ∈ runner.runs, TestNames.truthy run.testName = false → run.skipDelete = true →
    run.passed = true → run.extracted = none

/-! ## The namespace of a summary -/

theorem Run.extracted_of_result {run : Run N} {result : TestResult N}
    (h : run.result = some result) : result.ns.filter (· ≠ "") = run.extracted := by
  unfold Run.result at h
  unfold Run.extracted
  cases ho : run.outcome with
  | error message => simp [ho] at h
  | ok execution =>
    simp only [ho, Option.some.injEq] at h
    rw [← h]

theorem Run.extracted_of_result_none {run : Run N} (h : run.result = none) :
    run.extracted = none := by
  unfold Run.result at h
  unfold Run.extracted
  cases ho : run.outcome with
  | error message => rfl
  | ok execution => simp [ho] at h

/-- The last namespace found in the logs of the executions. -/
theorem lastNamespace_filterMap (runs : List (Run N)) :
    lastNamespace (runs.filterMap Run.result) = runs.reverse.findSome? Run.extracted := by
  unfold lastNamespace
  induction runs with
  | nil => rfl
  | cons run runs ih =>
    rw [List.reverse_cons, List.findSome?_append, ← ih]
    cases hres : run.result with
    | none =>
      rw [List.filterMap_cons_none hres]
      simp [Run.extracted_of_result_none hres]
    | some result =>
      rw [List.filterMap_cons_some hres, List.reverse_cons, List.findSome?_append]
      simp only [List.findSome?_cons, List.findSome?_nil, Run.extracted_of_result hres]

/-- The executions that keep the namespaces come last. -/
def KeepsLast (runs : List (Run N)) : Prop :=
  runs.Pairwise fun run run' => run.skipDelete = true → run'.skipDelete = true

/-- The last namespace is that of an execution with `--skip-delete`, if one was found in the log
of such an execution. -/
theorem KeepsLast.lastNamespace {runs : List (Run N)} (h : KeepsLast runs) {ns : String}
    (hlast : runs.reverse.findSome? Run.extracted = some ns) :
    ∃ run ∈ runs, run.extracted = some ns ∧
      ((∃ run' ∈ runs, run'.skipDelete = true ∧ run'.extracted ≠ none) →
        run.skipDelete = true) := by
  obtain ⟨later, run, earlier, hsplit, hns, hnone⟩ := List.findSome?_eq_some_iff.1 hlast
  have hruns : runs = earlier.reverse ++ run :: later.reverse := by
    rw [← runs.reverse_reverse, hsplit]
    simp
  refine ⟨run, hruns ▸ List.mem_append_right _ List.mem_cons_self, hns, ?_⟩
  rintro ⟨run', hmem, hskip, hfound⟩
  rw [hruns] at hmem h
  rcases List.mem_append.1 hmem with hmem | hmem
  · exact (List.pairwise_append.1 h).2.2 run' hmem run List.mem_cons_self hskip
  · rcases List.mem_cons.1 hmem with rfl | hmem
    · exact hskip
    · exact absurd (hnone run' (List.mem_reverse.1 hmem)) hfound

/-! ## The attempts of a test -/

section

variable {s t u v : Runner N} {parallelRuns serialRuns : List (Run N)}
  {allParallelResults allSerialResults : List (N × List (TestResult N))}

theorem filter_attemptType {runs : List (Run N)} {attemptType : AttemptType}
    (h : ∀ run ∈ runs, run.attemptType = attemptType) (attemptType' : AttemptType) :
    runs.filter (fun run => run.attemptType = attemptType') =
      if attemptType = attemptType' then runs else [] := by
  split
  · rename_i he
    exact List.filter_eq_self.2 fun run hrun => decide_eq_true ((h run hrun).trans he)
  · rename_i hne
    exact List.filter_eq_nil_iff.2 fun run hrun htype =>
      hne ((h run hrun).symm.trans (of_decide_eq_true htype))

/-- Only the last of the serial attempts keeps the namespace. -/
theorem Tries.keepsLast {testName : N} {n : Nat} {runs : List (Run N)}
    (h : Tries .serial testName (keepsSerial args n) n runs) : KeepsLast runs := by
  have hsorted : (runs.map Run.attempt).Pairwise (· < ·) := by
    rw [h.attempts]
    exact List.pairwise_lt_range' 1
  refine (List.pairwise_map.1 hsorted).imp_of_mem ?_
  intro run run' hrun hrun' hlt hskip
  have hlast : run.attempt = n := by
    rw [(h.fields run hrun).2.2] at hskip
    simpa using (Bool.and_eq_true_iff.1 hskip).2
  have hrange : run'.attempt ∈ List.range' 1 runs.length :=
    h.attempts ▸ List.mem_map.2 ⟨run', hrun', rfl⟩
  have hmax := (List.mem_range'_1.1 hrange).2
  have := h.le
  omega

/-- The attempts of a test are among those of the two phases. -/
theorem RetryRuns.attemptsOf_of_initial (h : RetryRuns args s parallelRuns serialRuns t)
    (hs : ∀ run ∈ s.runs, run.attemptType = .initial) (testName : N) :
    attemptsOf testName t.runs =
      runsOf testName parallelRuns ++ sinceFirstAttempt (runsOf testName serialRuns) := by
  obtain ⟨_, _, _, _, _, ht⟩ := h.state
  have hruns : runsOf testName t.runs = runsOf testName s.runs ++
      (runsOf testName parallelRuns ++ runsOf testName serialRuns) := by
    rw [ht, ← runsOf_append, ← runsOf_append]
    rfl
  have hinitial : ∀ run ∈ runsOf testName s.runs, run.attemptType = .initial :=
    fun run hrun => hs run (mem_runsOf.1 hrun).1
  have hparallel : ∀ run ∈ runsOf testName parallelRuns, run.attemptType = .parallel :=
    fun run hrun => (h.parallel run (mem_runsOf.1 hrun).1).2
  have hserial : ∀ run ∈ runsOf testName serialRuns, run.attemptType = .serial :=
    fun run hrun => (h.serial run (mem_runsOf.1 hrun).1).2
  rw [attemptsOf, hruns]
  simp [filter_attemptType hinitial, filter_attemptType hparallel, filter_attemptType hserial]

theorem RetryRuns.attemptsOf_eq (h : RetryRuns args s parallelRuns serialRuns t)
    (hs : Initialized s) (testName : N) : attemptsOf testName t.runs =
      runsOf testName parallelRuns ++ sinceFirstAttempt (runsOf testName serialRuns) :=
  h.attemptsOf_of_initial (fun run hrun => (hs.runs run hrun).2.1) testName

/-- An attempt of a test was run. -/
theorem RetryRuns.mem_runs_of_attempt (h : RetryRuns args s parallelRuns serialRuns t)
    {testName : N} {run : Run N} (hrun : run ∈ runsOf testName parallelRuns ++
      sinceFirstAttempt (runsOf testName serialRuns)) : run ∈ t.runs := by
  obtain ⟨_, _, _, _, _, ht⟩ := h.state
  rw [ht]
  refine List.mem_append_right _ ?_
  rcases List.mem_append.1 hrun with hrun | hrun
  · exact List.mem_append_left _ (mem_runsOf.1 hrun).1
  · exact List.mem_append_right _ (mem_runsOf.1 (mem_of_mem_sinceFirstAttempt hrun)).1

/-- A test is summed up by its attempts. -/
theorem RetriesDone.retryResults (h : RetriesDone args s parallelRuns serialRuns
    allParallelResults allSerialResults u v t) (testName : N) :
    resultsOf allParallelResults testName ++ resultsOf allSerialResults testName =
      (runsOf testName parallelRuns ++
        sinceFirstAttempt (runsOf testName serialRuns)).filterMap Run.result := by
  rw [List.filterMap_append, h.parallel.results]
  by_cases hfails : testName ∈ testsStillFailing s.failedTests allParallelResults
  · obtain ⟨n, -, hres, -⟩ := h.serial.retried testName hfails
    rw [hres]
  · rw [h.serial.other testName hfails, (h.serial.serialBudget_eq hfails).1]
    rfl

/-- The attempts that keep the namespaces are the last ones of a test. -/
theorem RetriesDone.keepsLast (h : RetriesDone args s parallelRuns serialRuns
    allParallelResults allSerialResults u v t) (testName : N) :
    KeepsLast (runsOf testName parallelRuns ++
      sinceFirstAttempt (runsOf testName serialRuns)) := by
  refine List.pairwise_append.2 ⟨?_, ?_, fun run hrun run' hrun' hskip => ?_⟩
  · refine (h.parallel.sorted.sublist List.filter_sublist).imp_of_mem ?_
    intro run run' hrun hrun' hle hskip
    obtain ⟨-, -, -, hkeeps⟩ := h.parallel.fields run (mem_runsOf.1 hrun).1
    obtain ⟨-, -, hmax, hkeeps'⟩ := h.parallel.fields run' (mem_runsOf.1 hrun').1
    rw [hkeeps, keepsParallel] at hskip
    rw [hkeeps', keepsParallel]
    have hlast : run'.attempt = run.attempt := by
      simp at hskip
      omega
    rw [hlast]
    exact hskip
  · by_cases hfails : testName ∈ testsStillFailing s.failedTests allParallelResults
    · obtain ⟨n, hblock, -⟩ := h.serial.retried testName hfails
      exact hblock.toTries.keepsLast
    · rw [(h.serial.serialBudget_eq hfails).1]
      exact List.Pairwise.nil
  · -- parallel attempts keep the namespaces only if no serial ones follow
    obtain ⟨-, -, -, hkeeps⟩ := h.parallel.fields run (mem_runsOf.1 hrun).1
    obtain ⟨-, -, -, hpos⟩ :=
      h.serial.fields run' (mem_runsOf.1 (mem_of_mem_sinceFirstAttempt hrun')).1
    rw [hkeeps, keepsParallel] at hskip
    simp [hpos] at hskip

theorem mem_lastAttempt {before : List (Run N)} {last run : Run N} :
    run ∈ lastAttempt (before ++ [last]) ↔ run ∈ before ++ [last] ∧
      run.attemptType = last.attemptType ∧ run.attempt = last.attempt := by
  rw [lastAttempt, List.mem_filter, List.getLast?_concat, Option.any_some, decide_eq_true_eq]

/-- The last of the attempts that use up the budget. -/
theorem Retried.attempt_last {attemptType : AttemptType} {testName : N} {keeps : Nat → Bool}
    {n : Nat} {before : List (Run N)} {last : Run N}
    (h : Retried attemptType testName keeps n (before ++ [last]))
    (hfailed : ∀ run ∈ before ++ [last], run.passed = false) : last.attempt = n := by
  have hlen := h.complete hfailed
  have hattempts := h.attempts
  rw [List.length_append, List.length_singleton] at hlen hattempts
  rw [List.map_append, List.map_singleton, List.range'_concat] at hattempts
  have hlast := (List.append_inj' hattempts rfl).2
  rw [List.singleton_inj] at hlast
  omega

/-- A test that has not passed in parallel was in all parallel attempts. -/
theorem ParallelPhase.attempt_last {testNames : List N} {follows : Bool} {n : Nat}
    {before : List (Run N)} {last : Run N}
    (h : ParallelPhase args testNames follows n s n parallelRuns allParallelResults t)
    {testName : N} (hmem : testName ∈ testNames)
    (hfails : anySuccess (resultsOf allParallelResults testName) = false)
    (hruns : runsOf testName parallelRuns = before ++ [last]) : last.attempt = n := by
  have hlast : last ∈ runsOf testName parallelRuns :=
    hruns ▸ List.mem_append_right _ List.mem_cons_self
  have hmax := (h.fields last (mem_runsOf.1 hlast).1).2.2.1
  rcases h.last testName hmem hfails with hzero | ⟨run, hrun, hattempt⟩
  · omega
  · have hsorted : (runsOf testName parallelRuns).Pairwise fun run run' =>
        run.attempt ≤ run'.attempt := h.sorted.sublist List.filter_sublist
    rw [hruns] at hsorted hrun
    rcases List.mem_append.1 hrun with hrun | hrun
    · have := (List.pairwise_append.1 hsorted).2.2 run hrun last List.mem_cons_self
      omega
    · rw [← List.mem_singleton.1 hrun]
      exact hattempt

/-- Parallel attempts keep the namespaces at the end of their budget, if no serial ones follow. -/
theorem RetriesDone.skipDelete_parallel (h : RetriesDone args s parallelRuns serialRuns
    allParallelResults allSerialResults u v t) (hkeep : args.deleteFailedNamespaces = false)
    {testName : N} {run : Run N} (hrun : run ∈ runsOf testName parallelRuns) :
    run.attemptType = .parallel ∧
      (run.skipDelete = true ↔ ¬0 < args.attemptsSerial ∧ run.attempt = parallelBudget args s) := by
  obtain ⟨-, htype, -, hkeeps⟩ := h.parallel.fields run (mem_runsOf.1 hrun).1
  refine ⟨htype, ?_⟩
  rw [hkeeps, keepsParallel, hkeep]
  simp

/-- A test that has not passed in parallel is attempted serially, if there are serial attempts. -/
theorem RetriesDone.sinceFirstAttempt_ne_nil (h : RetriesDone args s parallelRuns serialRuns
    allParallelResults allSerialResults u v t) (hs : Initialized s) {testName : N}
    (hmem : testName ∈ s.failedTests)
    (hfails : anySuccess (resultsOf allParallelResults testName) = false)
    (hserial : 0 < args.attemptsSerial) :
    sinceFirstAttempt (runsOf testName serialRuns) ≠ [] := by
  obtain ⟨n, hblock, -, hpos, -⟩ :=
    h.serial.retried testName (mem_testsStillFailing.2 ⟨hmem, hfails⟩)
  have hbudget : 0 < serialBudget args u.serialAttemptsDone testName := by
    rw [h.parallel.state]
    change 0 < serialBudget args s.serialAttemptsDone testName
    rw [(hs.budgets args).2.2.2.2]
    omega
  obtain ⟨first, hfirst, -⟩ := hblock.exists_first (hpos hbudget)
  exact List.ne_nil_of_mem hfirst

/-- A test that has not passed keeps the namespaces of its last attempt. -/
theorem RetriesDone.skipDelete_iff (h : RetriesDone args s parallelRuns serialRuns
    allParallelResults allSerialResults u v t) (hs : Initialized s)
    (hkeep : args.deleteFailedNamespaces = false) {testName : N}
    (hmem : testName ∈ s.failedTests) {attempts : List (Run N)}
    (hattempts : attempts = runsOf testName parallelRuns ++
      sinceFirstAttempt (runsOf testName serialRuns))
    (hfailed : ∀ run ∈ attempts, run.passed = false) {run : Run N} (hrun : run ∈ attempts) :
    run.skipDelete = true ↔ run ∈ lastAttempt attempts := by
  have hfails : anySuccess (resultsOf allParallelResults testName) = false := by
    rw [← Bool.not_eq_true, h.parallel.anySuccess_iff]
    rintro ⟨run, hrun, hpassed⟩
    have hnone := hfailed run (hattempts ▸ List.mem_append_left _ hrun)
    exact absurd (hnone.symm.trans hpassed) Bool.false_ne_true
  rcases List.eq_nil_or_concat (sinceFirstAttempt (runsOf testName serialRuns)) with
    hnil | ⟨before, last, hlast⟩
  · -- no serial attempts follow, so the last attempt is a parallel one
    have hserial : ¬0 < args.attemptsSerial :=
      fun hserial => h.sinceFirstAttempt_ne_nil hs hmem hfails hserial hnil
    rw [hnil, List.append_nil] at hattempts
    rw [hattempts] at hrun ⊢
    obtain ⟨before, last, hsplit⟩ :=
      (List.eq_nil_or_concat (runsOf testName parallelRuns)).resolve_left (List.ne_nil_of_mem hrun)
    rw [List.concat_eq_append] at hsplit
    have hlast : last ∈ runsOf testName parallelRuns :=
      hsplit ▸ List.mem_append_right _ List.mem_cons_self
    obtain ⟨htype, hskip⟩ := h.skipDelete_parallel hkeep hrun
    rw [hskip, hsplit, mem_lastAttempt, ← hsplit, htype, (h.skipDelete_parallel hkeep hlast).1,
      h.parallel.attempt_last hmem hfails hsplit]
    simp [hserial, hrun]
  · obtain ⟨n, hblock, -⟩ := h.serial.retried testName (mem_testsStillFailing.2 ⟨hmem, hfails⟩)
    rw [List.concat_eq_append] at hlast
    rw [hlast] at hblock hattempts
    have hmemLast : last ∈ before ++ [last] := List.mem_append_right _ List.mem_cons_self
    have hn : last.attempt = n :=
      hblock.attempt_last fun run hrun => hfailed run (hattempts ▸ List.mem_append_right _ hrun)
    have hserial : 0 < args.attemptsSerial := by
      have hmem : last ∈ runsOf testName serialRuns :=
        mem_of_mem_sinceFirstAttempt (hlast ▸ hmemLast)
      exact (h.serial.fields last (mem_runsOf.1 hmem).1).2.2.2
    rw [hattempts, ← List.append_assoc, mem_lastAttempt, List.append_assoc, ← hattempts]
    rw [hattempts] at hrun
    rcases List.mem_append.1 hrun with hrun | hrun
    · obtain ⟨htype, hskip⟩ := h.skipDelete_parallel hkeep hrun
      rw [hskip, htype, (hblock.fields last hmemLast).2.1]
      simp [hserial]
    · obtain ⟨-, htype, hkeeps⟩ := hblock.fields run hrun
      rw [hkeeps, keepsSerial, hkeep, htype, (hblock.fields last hmemLast).2.1, hn, hattempts]
      simp [hrun]

/-! ## What becomes of the namespaces -/

section

variable {own : Nat → String} {ns : String} {run : Run N}

theorem mem_deletes : ns ∈ run.deletes ↔ TestNames.truthy run.testName = true ∧
    run.skipDelete = true ∧ run.passed = true ∧ run.extracted = some ns := by
  unfold Run.deletes
  split
  · rename_i hcond
    simp [hcond]
  · rename_i hcond
    simp only [List.not_mem_nil, false_iff]
    exact fun h => hcond ⟨h.1, h.2.1, h.2.2.1⟩

theorem RetryRuns.mem_deleted (h : RetryRuns args s parallelRuns serialRuns t)
    (hs : Initialized s) : ns ∈ t.deleted ↔
      ∃ run ∈ parallelRuns ++ serialRuns, ns ∈ run.deletes := by
  obtain ⟨_, _, _, _, _, ht⟩ := h.state
  obtain ⟨_, _, _, _, he⟩ := hs.state
  rw [ht, he]
  exact List.mem_flatMap

theorem RetryRuns.mem_runs (h : RetryRuns args s parallelRuns serialRuns t) :
    run ∈ t.runs ↔ run ∈ s.runs ∨ run ∈ parallelRuns ++ serialRuns := by
  obtain ⟨_, _, _, _, _, ht⟩ := h.state
  rw [ht]
  exact List.mem_append

/-- The namespace of an execution without `--skip-delete` is deleted at its end. -/
theorem deleted_of_not_skipDelete {t : Runner N} (hown : Owns own t.runs) (hrun : run ∈ t.runs)
    (hskip : run.skipDelete = false) (hns : ns ∈ run.extracted) : Deleted own t ns := by
  obtain ⟨i, hi, rfl⟩ := List.getElem_of_mem hrun
  exact Or.inl ⟨i, hi, hskip, hown.extracted i hi ns hns⟩

/-- The namespace of an execution with `--skip-delete` is deleted if the script does so after it. -/
theorem RetryRuns.deleted_iff (h : RetryRuns args s parallelRuns serialRuns t) (hs : Initialized s)
    (hown : Owns own t.runs) (hrun : run ∈ t.runs) (hskip : run.skipDelete = true)
    (hns : ns ∈ run.extracted) : Deleted own t ns ↔ ns ∈ run.deletes := by
  obtain ⟨i, hi, rfl⟩ := List.getElem_of_mem hrun
  have hi' := hown.extracted i hi ns hns
  constructor
  · rintro (⟨j, hj, hnot, hj'⟩ | hdeleted)
    · obtain rfl := hown.distinct j hj i hi (hj'.trans hi'.symm)
      exact absurd (hnot.symm.trans hskip) Bool.false_ne_true
    · obtain ⟨run, hrun, hns'⟩ := (h.mem_deleted hs).1 hdeleted
      obtain ⟨j, hj, rfl⟩ := List.getElem_of_mem (h.mem_runs.2 (Or.inr hrun))
      -- the namespace was not found in the log of another attempt
      have hj' := hown.extracted j hj ns (mem_deletes.1 hns').2.2.2
      obtain rfl := hown.distinct j hj i hi (hj'.trans hi'.symm)
      exact hns'
  · intro hdeletes
    refine Or.inr ((h.mem_deleted hs).2 ⟨t.runs[i], ?_, hdeletes⟩)
    refine (h.mem_runs.1 (List.getElem_mem hi)).resolve_left fun hinitial => ?_
    exact absurd ((hs.runs _ hinitial).2.2.symm.trans hskip) Bool.false_ne_true

/-- When the namespaces of all attempts that passed are deleted. -/
theorem RetryRuns.deleted_of_passed_iff (h : RetryRuns args s parallelRuns serialRuns t)
    (hs : Initialized s) (hown : Owns own t.runs) :
    (∀ run ∈ t.runs, run.passed = true → ∀ ns ∈ run.extracted, Deleted own t ns) ↔
      NoSuiteKept t := by
  constructor
  · intro hdeleted run hrun hname hskip hpassed
    refine Option.eq_none_iff_forall_ne_some.2 fun ns hns => ?_
    have hdeletes := (h.deleted_iff hs hown hrun hskip hns).1 (hdeleted run hrun hpassed ns hns)
    exact absurd (hname.symm.trans (mem_deletes.1 hdeletes).1) Bool.false_ne_true
  · intro hsuite run hrun hpassed ns hns
    cases hskip : run.skipDelete with
    | false => exact deleted_of_not_skipDelete hown hrun hskip hns
    | true =>
      refine (h.deleted_iff hs hown hrun hskip hns).2 (mem_deletes.2 ⟨?_, hskip, hpassed, hns⟩)
      by_contra hname
      cases (hsuite run hrun (Bool.eq_false_iff.2 hname) hskip hpassed).symm.trans hns

/-- The namespace of a failed attempt with `--skip-delete` is kept. -/
theorem RetryRuns.kept (h : RetryRuns args s parallelRuns serialRuns t) (hs : Initialized s)
    (hown : Owns own t.runs) (hrun : run ∈ t.runs) (hskip : run.skipDelete = true)
    (hfailed : run.passed = false) (hns : ns ∈ run.extracted) : Kept own t ns := by
  refine ⟨?_, fun hdeleted => ?_⟩
  · obtain ⟨i, hi, rfl⟩ := List.getElem_of_mem hrun
    exact ⟨i, hi, hskip, hown.extracted i hi ns hns⟩
  · have hpassed := (mem_deletes.1 ((h.deleted_iff hs hown hrun hskip hns).1 hdeleted)).2.2.1
    exact absurd (hfailed.symm.trans hpassed) Bool.false_ne_true

end

/-- The summary of a test that has not passed names the last namespace. -/
theorem RetriesDone.summary_failed (h : RetriesDone args s parallelRuns serialRuns
    allParallelResults allSerialResults u v t) (hkeep : args.deleteFailedNamespaces = false)
    {testName : N} (hmem : testName ∈ s.failedTests) {attempts : List (Run N)}
    (hattempts : attempts = runsOf testName parallelRuns ++
      sinceFirstAttempt (runsOf testName serialRuns)) :
    ∃ summary, Assoc.get? t.testSummaries testName = some summary ∧
      (summary.finalStatus = .failed ↔ ∀ run ∈ attempts, run.passed = false) ∧
      (summary.finalStatus = .failed →
        summary.finalNamespace = attempts.reverse.findSome? Run.extracted) := by
  have hretry := h.retryResults testName
  rw [← hattempts] at hretry
  refine ⟨_, (h.summaries testName).trans (if_pos hmem), ?_, fun hstatus => ?_⟩
  · simp only [newSummary, summaryOf, finalStatusOf, initialResultOf, Bool.false_eq_true, if_false,
      hretry]
    have hany : anySuccess (attempts.filterMap Run.result) = true ↔
        ∃ run ∈ attempts, run.passed = true := anySuccess_filterMap
    split
    · rename_i hsuccess
      obtain ⟨run, hrun, hpassed⟩ := hany.1 hsuccess
      simp only [reduceCtorEq, false_iff]
      exact fun hnone => absurd ((hnone run hrun).symm.trans hpassed) Bool.false_ne_true
    · rename_i hnone
      simp only [true_iff]
      exact fun run hrun => Bool.eq_false_iff.2 fun hpassed => hnone (hany.2 ⟨run, hrun, hpassed⟩)
  · simp only [newSummary, summaryOf] at hstatus ⊢
    rw [hstatus, hkeep, hretry, if_pos (by simp), lastNamespace_filterMap]

theorem RetriesDone.failedTests_eq (h : RetriesDone args s parallelRuns serialRuns
    allParallelResults allSerialResults u v t) : t.failedTests = s.failedTests := by
  obtain ⟨_, _, _, _, _, ht⟩ := h.retryRuns.state
  rw [ht]
  rfl

/-- Where the summaries name namespaces that are kept, those are of last attempts. -/
theorem RetriesDone.lastNamespaceFound (h : RetriesDone args s parallelRuns serialRuns
    allParallelResults allSerialResults u v t) (hs : Initialized s)
    (hkeep : args.deleteFailedNamespaces = false) {own : Nat → String} (hown : Owns own t.runs)
    (hhandled : NamespacesHandled own t) : LastNamespaceFound t := by
  intro testName hmem hfailed hfound
  rw [h.failedTests_eq] at hmem
  have hattempts := h.retryRuns.attemptsOf_eq hs testName
  obtain ⟨summary, hget, hstatus, hnamed⟩ := h.summary_failed hkeep hmem hattempts
  have hstatus := hstatus.2 hfailed
  obtain ⟨ns, hns⟩ : ∃ ns,
      (attemptsOf testName t.runs).reverse.findSome? Run.extracted = some ns := by
    obtain ⟨run, hrun, hfound⟩ := hfound
    rw [← Option.isSome_iff_exists, List.findSome?_isSome_iff]
    exact ⟨run, List.mem_reverse.2 hrun, Option.isSome_iff_ne_none.2 hfound⟩
  obtain ⟨run, hrun, hextracted, -⟩ := (hattempts ▸ h.keepsLast testName).lastNamespace hns
  have hkept := hhandled.failed testName summary hget hstatus ns ((hnamed hstatus).trans hns)
  have hne : run.extracted ≠ none := by
    rw [hextracted]
    exact Option.some_ne_none ns
  -- the namespace of an attempt before the last one would have been deleted at its end
  cases hskip : run.skipDelete with
  | true =>
    exact ⟨run, (h.skipDelete_iff hs hkeep hmem hattempts hfailed hrun).1 hskip, hne⟩
  | false =>
    have hmemRuns := h.retryRuns.mem_runs_of_attempt (hattempts ▸ hrun)
    obtain ⟨i, hi, rfl⟩ := List.getElem_of_mem hmemRuns
    exact absurd (Or.inl ⟨i, hi, hskip, hown.extracted i hi ns hextracted⟩) hkept.2

/-- Where namespaces are found in the logs of last attempts, the summaries name those. -/
theorem RetriesDone.namespacesHandled (h : RetriesDone args s parallelRuns serialRuns
    allParallelResults allSerialResults u v t) (hs : Initialized s)
    (hkeep : args.deleteFailedNamespaces = false) {own : Nat → String} (hown : Owns own t.runs)
    (hfound : LastNamespaceFound t) (hsuite : NoSuiteKept t) : NamespacesHandled own t := by
  have hruns := h.retryRuns
  refine ⟨fun testName summary hget hstatus ns hns => ?_,
    (hruns.deleted_of_passed_iff hs hown).2 hsuite⟩
  have hmem : testName ∈ s.failedTests := by
    by_contra hnot
    rw [h.summaries, if_neg hnot] at hget
    cases hget
  have hattempts := hruns.attemptsOf_eq hs testName
  obtain ⟨summary', hget', hstatus', hnamed⟩ := h.summary_failed hkeep hmem hattempts
  obtain rfl := Option.some.inj (hget.symm.trans hget')
  have hfailed := hstatus'.1 hstatus
  have hlast := (hnamed hstatus).symm.trans hns
  obtain ⟨run, hrun, hextracted, hskip⟩ :=
    (hattempts ▸ h.keepsLast testName).lastNamespace hlast
  have hne : run.extracted ≠ none := by
    rw [hextracted]
    exact Option.some_ne_none ns
  obtain ⟨run', hlast, hne'⟩ :=
    hfound testName (h.failedTests_eq ▸ hmem) hfailed ⟨run, hrun, hne⟩
  have hrun' := (List.mem_filter.1 hlast).1
  have hskip' := (h.skipDelete_iff hs hkeep hmem hattempts hfailed hrun').2 hlast
  exact hruns.kept hs hown (hruns.mem_runs_of_attempt (hattempts ▸ hrun))
    (hskip ⟨run', hrun', hskip', hne'⟩) (hfailed run hrun) hextracted

/-- Without summaries, only the namespaces of attempts that passed matter. -/
theorem RetriesRaised.namespacesHandled {message : String}
    (h : RetriesRaised env args s parallelRuns serialRuns message t) (hs : Initialized s)
    {own : Nat → String} (hown : Owns own t.runs) : NamespacesHandled own t ↔ NoSuiteKept t := by
  have hpassed := h.retryRuns.deleted_of_passed_iff hs hown
  refine ⟨fun hhandled => hpassed.1 hhandled.passed, fun hsuite => ?_⟩
  refine ⟨fun testName summary hget => ?_, hpassed.2 hsuite⟩
  have hsum : t.testSummaries = [] := by
    obtain ⟨_, _, _, _, he⟩ := hs.state
    obtain ⟨k, _, u, hparallel, ⟨-, -, -, rfl⟩ | ⟨-, hserial⟩⟩ := h
    · rw [hparallel.state, he]
      rfl
    · rw [hserial.since.state, hparallel.state, he]
      rfl
  rw [hsum] at hget
  cases hget

/-- A run that ends before its retries has attempted nothing. -/
theorem Initialized.namespacesHandled {t : Runner N} (h : Initialized t) {own : Nat → String}
    (hown : Owns own t.runs) :
    NamespacesHandled own t ∧ NoSuiteKept t ∧ LastNamespaceFound t := by
  have hnotSkip : ∀ run ∈ t.runs, run.skipDelete = false := fun run hrun => (h.runs run hrun).2.2
  refine ⟨⟨fun testName summary hget => ?_, fun run hrun _ ns hns => ?_⟩,
    fun run hrun _ hskip => ?_, fun testName _ _ hfound => ?_⟩
  · obtain ⟨_, _, _, _, he⟩ := h.state
    rw [he] at hget
    cases hget
  · exact deleted_of_not_skipDelete hown hrun (hnotSkip run hrun) hns
  · exact absurd ((hnotSkip run hrun).symm.trans hskip) Bool.false_ne_true
  · obtain ⟨run, hrun, -⟩ := hfound
    have htypes : ∀ run ∈ runsOf testName t.runs, run.attemptType = .initial :=
      fun run hrun => (h.runs run (mem_runsOf.1 hrun).1).2.1
    have hnone : attemptsOf testName t.runs = [] := by
      rw [attemptsOf]
      simp [filter_attemptType htypes, sinceFirstAttempt]
    rw [hnone] at hrun
    cases hrun

end

/-- When the namespaces that summaries name still exist. In a new run that keeps failed namespaces,
they exist, and those of attempts that passed do not, if and only if no attempt of the full suite
leaves one behind and, when the run comes to its end, a namespace was found in the log of the last
attempt of every failed test that has one in any of its logs. -/
theorem kept_namespace_iff (hkeep : args.deleteFailedNamespaces = false)
    {own : Nat → String} (hown : Owns own (runNew env args).2.runs) :
    NamespacesHandled own (runNew env args).2 ↔ NoSuiteKept (runNew env args).2 ∧
      ∀ code, (runNew env args).1 = .ok code → LastNamespaceFound (runNew env args).2 := by
  rcases runNew_ends env args with hinit | ⟨s, hs, hends⟩
  · obtain ⟨hhandled, hsuite, hfound⟩ := hinit.namespacesHandled hown
    exact iff_of_true hhandled ⟨hsuite, fun _ _ => hfound⟩
  · cases hr : (runNew env args).1 with
    | error message =>
      rw [hr] at hends
      obtain ⟨_, _, hraised⟩ := hends
      rw [hraised.namespacesHandled hs hown]
      exact (and_iff_left fun code he => by cases he).symm
    | ok code =>
      rw [hr] at hends
      obtain ⟨-, -, _, _, _, _, _, _, hdone⟩ := hends
      constructor
      · intro hhandled
        exact ⟨(hdone.retryRuns.deleted_of_passed_iff hs hown).1 hhandled.passed,
          fun _ _ => hdone.lastNamespaceFound hs hkeep hown hhandled⟩
      · rintro ⟨hsuite, hfound⟩
        exact hdone.namespacesHandled hs hkeep hown (hfound code rfl) hsuite

/-- Two serial attempts for each failed test. -/
def twoSerialAttempts : Args :=
  ⟨2, 0, 2, false, none⟩

/-- The smoke test fails in both attempts, in whose logs the namespaces are found or not. -/
def failsTwice (ns : Nat → Option String) : Env String :=
  { allFail with
    readLog := fun _ => some smokeLog
    serial := fun _ _ attempt => .ok { failsToStart with ns := ns attempt } }

/-- The namespaces of the full suite and of the attempts. -/
def smokeNamespace (i : Nat) : String :=
  if i = 0 then "kuttl-test-suite"
  else if i = 1 then "kuttl-test-first"
  else "kuttl-test-second"

/-- The namespace is found in the logs of both attempts. -/
def bothFound : Env String :=
  failsTwice fun attempt => some (smokeNamespace attempt)

/-- The log of the last attempt does not have the namespace. -/
def firstFound : Env String :=
  failsTwice fun attempt => if attempt = 1 then some (smokeNamespace attempt) else none

theorem owns_bothFound : Owns smokeNamespace (runNew bothFound twoSerialAttempts).2.runs :=
  ⟨by decide +kernel, by decide +kernel⟩

theorem owns_firstFound : Owns smokeNamespace (runNew firstFound twoSerialAttempts).2.runs :=
  ⟨by decide +kernel, by decide +kernel⟩

theorem kept_namespace_bothFound :
    NamespacesHandled smokeNamespace (runNew bothFound twoSerialAttempts).2 := by
  have hfailed : (runNew bothFound twoSerialAttempts).2.failedTests = ["smoke"] := by
    decide +kernel
  have hlast : ∃ run ∈ lastAttempt (attemptsOf "smoke" (runNew bothFound twoSerialAttempts).2.runs),
      run.extracted ≠ none := by decide +kernel
  have hsuite : ∀ run ∈ (runNew bothFound twoSerialAttempts).2.runs,
      TestNames.truthy run.testName = false → run.skipDelete = true → run.passed = true →
        run.extracted = none := by decide +kernel
  refine (kept_namespace_iff rfl owns_bothFound).2 ⟨hsuite, fun code _ testName hmem _ _ => ?_⟩
  rw [hfailed, List.mem_singleton] at hmem
  rw [hmem]
  exact hlast

theorem lost_namespace_firstFound :
    ¬∀ (env : Env String) args own, args.deleteFailedNamespaces = false →
      Owns own (runNew env args).2.runs → NamespacesHandled own (runNew env args).2 := by
  intro h
  have hhandled := h firstFound twoSerialAttempts smokeNamespace rfl owns_firstFound
  have hsummary : ((Assoc.get? (runNew firstFound twoSerialAttempts).2.testSummaries "smoke").map
      fun summary => (summary.finalStatus, summary.finalNamespace)) =
        some (.failed, some (smokeNamespace 1)) := by decide +kernel
  obtain ⟨summary, hget, hsummary⟩ := Option.map_eq_some_iff.1 hsummary
  obtain ⟨hstatus, hns⟩ := Prod.mk.inj hsummary
  have hkept := hhandled.failed "smoke" summary hget hstatus _ hns
  have hfirst : ∃ i, ∃ hi : i < (runNew firstFound twoSerialAttempts).2.runs.length,
      (runNew firstFound twoSerialAttempts).2.runs[i].skipDelete = false ∧
        smokeNamespace i = smokeNamespace 1 := by
    refine ⟨1, ?_, ?_⟩ <;> decide +kernel
  exact hkept.2 (Or.inl hfirst)

end CommonsOperator.AutoRetryTests
