import CommonsOperator.RetryRunner

/-!
# The executions of a run, one by one

What the retry phases do, as the list of executions they start. `Runner.record` is the effect of
such a list : each execution that returned is recorded once, in order, and the namespaces of those
that passed with `--skip-delete` are deleted. `Tries` says of the executions of one test that they
are its attempts 1, 2, ... with none after one that passed, and `Retried` that they go on until one
has passed or the budget is used up. `wp_parallelAttempts_trace` and `wp_serialAttempts_trace` are
the two loops over the attempts, and `wp_executeSerialRetries_trace` the serial phase.
-/

set_option linter.unusedSectionVars false

namespace CommonsOperator.AutoRetryTests

open Program

variable {N : Type} [DecidableEq N] [TestNames N]

/-! ## Dictionaries of results -/

theorem resultsOf_set (allResults : List (N × List (TestResult N))) (testName testName' : N)
    (results : List (TestResult N)) :
    resultsOf (Assoc.set allResults testName results) testName' =
      if testName = testName' then results else resultsOf allResults testName' := by
  rw [resultsOf, Assoc.get?_set]
  split <;> rfl

theorem resultsOf_noResults (testNames : List N) (testName : N) :
    resultsOf (noResults testNames) testName = [] := by
  suffices ∀ allResults, resultsOf allResults testName = [] →
      resultsOf (testNames.foldl (fun results testName => Assoc.set results testName [])
        allResults) testName = [] from this [] rfl
  induction testNames with
  | nil => exact fun _ h => h
  | cons testName' testNames ih =>
    intro allResults h
    refine ih _ ?_
    rw [resultsOf_set]
    split <;> first | rfl | exact h

/-! ## The effect of executions -/

/-- The name under which an execution is recorded. -/
def recordedName (testName : N) : N :=
  if TestNames.truthy testName then testName else TestNames.ofText "full_suite"

/-- The result of an execution that returned. -/
def Run.result (run : Run N) : Option (TestResult N) :=
  match run.outcome with
  | .error _ => none
  | .ok execution => some {
      testName := recordedName run.testName
      attempt := run.attempt
      attemptType := run.attemptType
      success := execution.success
      ns := execution.ns
      logFile := some execution.logFile
      failedStep := if execution.success then none else some execution.failedStep }

/-- The namespace found in the log of the execution. -/
def Run.extracted (run : Run N) : Option String :=
  match run.outcome with
  | .error _ => none
  | .ok execution => execution.ns.filter (· ≠ "")

/-- The namespaces that are deleted after the execution. -/
def Run.deletes (run : Run N) : List String :=
  if TestNames.truthy run.testName ∧ run.skipDelete ∧ run.passed then run.extracted.toList else []

/-- The executions of a test. -/
def runsOf (testName : N) (runs : List (Run N)) : List (Run N) :=
  runs.filter fun run => run.testName = testName

/-- The runner after the executions. -/
def Runner.record (s : Runner N) (runs : List (Run N)) : Runner N :=
  { s with
    runs := s.runs ++ runs
    results := s.results ++ runs.filterMap Run.result
    deleted := s.deleted ++ runs.flatMap Run.deletes }

@[simp] theorem Runner.record_nil (s : Runner N) : s.record [] = s := by
  simp [Runner.record]

theorem Runner.record_append (s : Runner N) (runs runs' : List (Run N)) :
    s.record (runs ++ runs') = (s.record runs).record runs' := by
  simp [Runner.record]

theorem runsOf_append (testName : N) (runs runs' : List (Run N)) :
    runsOf testName (runs ++ runs') = runsOf testName runs ++ runsOf testName runs' :=
  List.filter_append runs runs'

theorem mem_runsOf {testName : N} {runs : List (Run N)} {run : Run N} :
    run ∈ runsOf testName runs ↔ run ∈ runs ∧ run.testName = testName := by
  simp [runsOf]

theorem runsOf_eq_self {testName : N} {runs : List (Run N)}
    (h : ∀ run ∈ runs, run.testName = testName) : runsOf testName runs = runs :=
  List.filter_eq_self.2 fun run hrun => decide_eq_true (h run hrun)

theorem runsOf_eq_nil {testName : N} {runs : List (Run N)}
    (h : ∀ run ∈ runs, run.testName ≠ testName) : runsOf testName runs = [] :=
  List.filter_eq_nil_iff.2 fun run hrun => by simpa using h run hrun

theorem Run.result_fields {run : Run N} {result : TestResult N} (h : run.result = some result) :
    result.testName = recordedName run.testName ∧ result.attempt = run.attempt ∧
      result.attemptType = run.attemptType := by
  unfold Run.result at h
  cases ho : run.outcome with
  | error message => simp [ho] at h
  | ok execution =>
    simp only [ho, Option.some.injEq] at h
    rw [← h]
    exact ⟨rfl, rfl, rfl⟩

theorem Run.result_success {run : Run N} {result : TestResult N} (h : run.result = some result) :
    result.success = run.passed := by
  unfold Run.result at h
  unfold Run.passed
  cases ho : run.outcome with
  | error message => simp [ho] at h
  | ok execution =>
    simp only [ho, Option.some.injEq] at h
    rw [← h]

/-- An execution that passed returned. -/
theorem Run.result_of_passed {run : Run N} (h : run.passed = true) :
    ∃ result, run.result = some result := by
  unfold Run.passed at h
  unfold Run.result
  cases ho : run.outcome with
  | error message => simp [ho] at h
  | ok execution => exact ⟨_, rfl⟩

/-- Some result is a success if and only if some execution has passed. -/
theorem anySuccess_filterMap {runs : List (Run N)} :
    anySuccess (runs.filterMap Run.result) = true ↔ ∃ run ∈ runs, run.passed = true := by
  simp only [anySuccess, List.any_eq_true, List.mem_filterMap]
  constructor
  · rintro ⟨result, ⟨run, hrun, hresult⟩, hs⟩
    exact ⟨run, hrun, (Run.result_success hresult).symm.trans hs⟩
  · rintro ⟨run, hrun, hpassed⟩
    obtain ⟨result, hresult⟩ := Run.result_of_passed hpassed
    exact ⟨result, ⟨run, hrun, hresult⟩, (Run.result_success hresult).trans hpassed⟩

theorem wp_runSingleTestSuite_record {outcome : Except String Execution} {testName : N}
    {skipDelete : Bool} {attempt : Nat} {attemptType : AttemptType} {s : Runner N} :
    let run : Run N :=
      ⟨testName, skipDelete, attempt, attemptType, outcomeOf testName outcome⟩
    wp (runSingleTestSuite outcome testName skipDelete attempt attemptType)
      (fun result t => run.result = some result ∧
        t = { s with runs := s.runs ++ [run], deleted := s.deleted ++ run.deletes })
      (fun message t => outcomeOf testName outcome = .error message ∧ t = s.record [run]) s := by
  unfold runSingleTestSuite
  cases outcomeOf testName outcome with
  | error message =>
    simp only [wp_bind, wp_modify, wp_throw]
    exact ⟨trivial, by simp [Runner.record, Run.result, Run.deletes, Run.passed]⟩
  | ok execution =>
    simp only [wp_bind, wp_modify]
    cases hns : execution.ns with
    | none =>
      simp [Run.result, Run.deletes, Run.extracted, recordedName, hns]
    | some ns =>
      simp only [deleteTestNamespace]
      split
      · rename_i hcond
        simp only [wp_bind, wp_modify, wp_pure]
        simp [Run.result, Run.deletes, Run.extracted, Run.passed, recordedName, hns, hcond,
          Option.filter]
      · rename_i hcond
        by_cases hne : ns = ""
        · simp [Run.result, Run.deletes, Run.extracted, Run.passed, recordedName, hns, hne]
        · have hkeep : ¬(TestNames.truthy testName = true ∧ skipDelete = true ∧
              execution.success = true) := fun h => hcond ⟨h.1, h.2.1, h.2.2, hne⟩
          simp [Run.result, Run.deletes, Run.passed, recordedName, hns, hkeep]

/-! ## Attempts of one test -/

/-- Attempts 1, 2, ... of a test, at most `n` of them, and none after one that passed. -/
structure Tries (attemptType : AttemptType) (testName : N) (keeps : Nat → Bool) (n : Nat)
    (runs : List (Run N)) : Prop where
  fields : ∀ run ∈ runs, run.testName = testName ∧ run.attemptType = attemptType ∧
    run.skipDelete = keeps run.attempt
  attempts : runs.map Run.attempt = List.range' 1 runs.length
  le : runs.length ≤ n
  stops : ∀ run ∈ runs.dropLast, run.passed = false

/-- Attempts 1, 2, ... of a test until the first that passes, or `n` of them. -/
structure Retried (attemptType : AttemptType) (testName : N) (keeps : Nat → Bool) (n : Nat)
    (runs : List (Run N)) : Prop extends Tries attemptType testName keeps n runs where
  complete : (∀ run ∈ runs, run.passed = false) → runs.length = n

section

variable {attemptType : AttemptType} {testName : N} {keeps : Nat → Bool} {n : Nat}
  {runs : List (Run N)}

theorem tries_nil (attemptType : AttemptType) (testName : N) (keeps : Nat → Bool) (n : Nat) :
    Tries attemptType testName keeps n [] :=
  ⟨by simp, rfl, Nat.zero_le n, by simp⟩

theorem retried_zero (attemptType : AttemptType) (testName : N) (keeps : Nat → Bool) :
    Retried attemptType testName keeps 0 [] :=
  ⟨tries_nil _ _ _ _, fun _ => rfl⟩

theorem Tries.mono (h : Tries attemptType testName keeps n runs) {n' : Nat} (hle : n ≤ n') :
    Tries attemptType testName keeps n' runs :=
  ⟨h.fields, h.attempts, Nat.le_trans h.le hle, h.stops⟩

/-- The next attempt, after attempts that have not passed. -/
theorem Tries.concat (h : Tries attemptType testName keeps n runs) {run : Run N}
    (hlt : runs.length < n) (hnone : ∀ run ∈ runs, run.passed = false)
    (hattempt : run.attempt = runs.length + 1) (hname : run.testName = testName)
    (htype : run.attemptType = attemptType) (hkeeps : run.skipDelete = keeps run.attempt) :
    Tries attemptType testName keeps n (runs ++ [run]) where
  fields run' hrun' := by
    rcases List.mem_append.1 hrun' with hrun' | hrun'
    · exact h.fields run' hrun'
    · rw [List.mem_singleton.1 hrun']
      exact ⟨hname, htype, hkeeps⟩
  attempts := by
    rw [List.map_append, h.attempts, List.length_append, List.length_singleton,
      List.range'_concat, List.map_singleton, hattempt, Nat.one_mul, Nat.add_comm 1]
  le := by
    rw [List.length_append]
    exact hlt
  stops run' hrun' := by
    rw [List.dropLast_concat] at hrun'
    exact hnone run' hrun'

/-- Attempts of which one has passed are complete for any larger budget. -/
theorem Tries.retried_of_passed (h : Tries attemptType testName keeps n runs) {run : Run N}
    (hrun : run ∈ runs) (hpassed : run.passed = true) :
    Retried attemptType testName keeps n runs :=
  ⟨h, fun hnone => absurd ((hnone run hrun).symm.trans hpassed) Bool.false_ne_true⟩

theorem Tries.retried_of_length (h : Tries attemptType testName keeps n runs)
    (hlen : runs.length = n) : Retried attemptType testName keeps n runs :=
  ⟨h, fun _ => hlen⟩

/-- Complete attempts are complete for a larger budget if one has passed. -/
theorem Retried.mono_of_passed (h : Retried attemptType testName keeps n runs) {n' : Nat}
    (hle : n ≤ n') (hpassed : ∃ run ∈ runs, run.passed = true) :
    Retried attemptType testName keeps n' runs := by
  obtain ⟨run, hrun, hp⟩ := hpassed
  exact (h.toTries.mono hle).retried_of_passed hrun hp

/-- Of complete attempts that have not passed, the budget is used up. -/
theorem Retried.concat (h : Retried attemptType testName keeps n runs) {run : Run N}
    (hnone : ∀ run ∈ runs, run.passed = false) (hattempt : run.attempt = n + 1)
    (hname : run.testName = testName) (htype : run.attemptType = attemptType)
    (hkeeps : run.skipDelete = keeps run.attempt) :
    Retried attemptType testName keeps (n + 1) (runs ++ [run]) := by
  have hlen : runs.length = n := h.complete hnone
  have htries : Tries attemptType testName keeps (n + 1) (runs ++ [run]) :=
    (h.toTries.mono (Nat.le_succ n)).concat (by omega) hnone (by omega) hname htype hkeeps
  exact htries.retried_of_length (by rw [List.length_append, hlen]; rfl)

end

/-! ## The parallel phase -/

section

variable {env : Env N} {args : Args}

/-- The execution of a test in a parallel attempt. -/
def parallelRun (attempt : Nat) (skipDelete : Bool)
    (completed : N × Except String Execution) : Run N :=
  ⟨completed.1, skipDelete, attempt, .parallel, outcomeOf completed.1 completed.2⟩

theorem wp_completeTest_record {attempt : Nat} {skipDelete : Bool}
    {allResults : List (N × List (TestResult N))} {completed : N × Except String Execution}
    {s : Runner N} {X : String → Runner N → Prop} :
    wp (completeTest attempt skipDelete allResults completed)
      (fun allResults' t => t = s.record [parallelRun attempt skipDelete completed] ∧
        ∀ testName, resultsOf allResults' testName = resultsOf allResults testName ++
          (runsOf testName [parallelRun attempt skipDelete completed]).filterMap Run.result)
      X s := by
  simp only [completeTest, wp_tryCatch, wp_bind]
  refine wp_mono wp_runSingleTestSuite_record ?_ ?_
  · rintro result t ⟨hresult, rfl⟩
    simp only [addResult, wp_modify, wp_pure]
    change (parallelRun attempt skipDelete completed).result = some result at hresult
    have hrecord : [result] =
        [parallelRun attempt skipDelete completed].filterMap Run.result := by
      simp [hresult]
    refine ⟨by rw [hrecord]; simp [Runner.record, parallelRun], fun testName => ?_⟩
    rw [resultsOf_set]
    split
    · rename_i hname
      rw [runsOf_eq_self (by simpa [parallelRun] using hname)]
      simp [hresult, hname]
    · rename_i hname
      rw [runsOf_eq_nil (by simpa [parallelRun] using hname)]
      simp
  · rintro message t ⟨he, rfl⟩
    rw [wp_pure]
    refine ⟨rfl, fun testName => ?_⟩
    have hnone : (parallelRun attempt skipDelete completed).result = none := by
      simp [Run.result, parallelRun, he]
    have hnil : (runsOf testName [parallelRun attempt skipDelete completed]).filterMap
        Run.result = [] := by
      refine List.filterMap_eq_nil_iff.2 fun run hrun => ?_
      rw [List.mem_singleton.1 (mem_runsOf.1 hrun).1]
      exact hnone
    rw [hnil, List.append_nil]

/-- The tests of a parallel attempt, in the order in which they complete. -/
theorem wp_completeTests {attempt : Nat} {skipDelete : Bool}
    {allResults : List (N × List (TestResult N))}
    {completed : List (N × Except String Execution)} {s : Runner N}
    {X : String → Runner N → Prop} :
    wp (completed.foldlM (completeTest attempt skipDelete) allResults)
      (fun allResults' t => t = s.record (completed.map (parallelRun attempt skipDelete)) ∧
        ∀ testName, resultsOf allResults' testName = resultsOf allResults testName ++
          (runsOf testName (completed.map (parallelRun attempt skipDelete))).filterMap
            Run.result) X s := by
  refine wp_foldlM (I := fun done allResults' t =>
    t = s.record (done.map (parallelRun attempt skipDelete)) ∧
      ∀ testName, resultsOf allResults' testName = resultsOf allResults testName ++
        (runsOf testName (done.map (parallelRun attempt skipDelete))).filterMap Run.result)
    ?_ ⟨by simp, by simp [runsOf]⟩
  rintro done next rest - allResults' _ ⟨rfl, hresults⟩
  refine wp_mono wp_completeTest_record ?_ fun _ _ h => h
  rintro allResults'' t ⟨rfl, hresults'⟩
  refine ⟨by rw [List.map_append, Runner.record_append]; rfl, fun testName => ?_⟩
  rw [hresults', hresults, List.map_append, runsOf_append, List.filterMap_append, List.append_assoc]
  rfl

theorem runsOf_parallelRuns_eq_nil {completed : List (N × Except String Execution)}
    {testName : N} (h : testName ∉ completed.map Prod.fst) (attempt : Nat)
    (skipDelete : Bool) :
    runsOf testName (completed.map (parallelRun attempt skipDelete)) = [] := by
  refine runsOf_eq_nil fun run hrun he => h ?_
  obtain ⟨other, ho, rfl⟩ := List.mem_map.1 hrun
  exact List.mem_map.2 ⟨other, ho, he⟩

/-- Of the distinct tests of a parallel attempt, each is executed once. -/
theorem runsOf_parallelRuns {completed : List (N × Except String Execution)}
    (hnodup : (completed.map Prod.fst).Nodup) (attempt : Nat) (skipDelete : Bool)
    {testName : N} (hmem : testName ∈ completed.map Prod.fst) :
    ∃ outcome, runsOf testName (completed.map (parallelRun attempt skipDelete)) =
      [parallelRun attempt skipDelete (testName, outcome)] := by
  obtain ⟨⟨name, outcome⟩, hc, rfl⟩ := List.mem_map.1 hmem
  obtain ⟨before, after, rfl⟩ := List.append_of_mem hc
  rw [List.map_append, List.map_cons, List.nodup_append] at hnodup
  obtain ⟨-, hafter, hbefore⟩ := hnodup
  have hnotAfter : name ∉ after.map Prod.fst := (List.nodup_cons.1 hafter).1
  have hnotBefore : name ∉ before.map Prod.fst :=
    fun hmem => hbefore name hmem name List.mem_cons_self rfl
  refine ⟨outcome, ?_⟩
  rw [List.map_append, List.map_cons, runsOf_append, runsOf_parallelRuns_eq_nil hnotBefore,
    List.nil_append, ← List.singleton_append, runsOf_append,
    runsOf_parallelRuns_eq_nil hnotAfter, List.append_nil]
  exact runsOf_eq_self (by simp [parallelRun])

/-- The parallel attempts that keep the namespaces : the last one, if no serial ones follow. -/
def keepsParallel (args : Args) (follows : Bool) (n attempt : Nat) : Bool :=
  !args.deleteFailedNamespaces && !follows && decide (attempt = n)

/-- After `k` of `n` parallel attempts, from `s` on. -/
structure ParallelPhase (args : Args) (testNames : List N) (follows : Bool) (n : Nat)
    (s : Runner N) (k : Nat) (runs : List (Run N)) (allResults : List (N × List (TestResult N)))
    (t : Runner N) : Prop where
  le : k ≤ n
  state : t = { s.record runs with parallelAttemptsDone := t.parallelAttemptsDone }
  results : ∀ testName, resultsOf allResults testName =
    (runsOf testName runs).filterMap Run.result
  fields : ∀ run ∈ runs, run.testName ∈ testNames ∧ run.attemptType = .parallel ∧
    run.attempt ≤ k ∧ run.skipDelete = keepsParallel args follows n run.attempt
  sorted : runs.Pairwise fun run run' => run.attempt ≤ run'.attempt
  retried : testNames.Nodup → ∀ testName ∈ testNames,
    Retried .parallel testName (keepsParallel args follows n) k (runsOf testName runs)
  /-- If some test still fails then all attempts have been counted. -/
  done : (∃ testName ∈ testNames, anySuccess (resultsOf allResults testName) = false) →
    k = 0 ∨ t.parallelAttemptsDone = k
  /-- A test that still fails was in all attempts. -/
  last : ∀ testName ∈ testNames, anySuccess (resultsOf allResults testName) = false →
    k = 0 ∨ ∃ run ∈ runsOf testName runs, run.attempt = k
  zero : n = 0 → runs = [] ∧ t = s

section

variable {testNames : List N} {follows : Bool} {n k : Nat} {s t : Runner N} {runs : List (Run N)}
  {allResults : List (N × List (TestResult N))}

theorem ParallelPhase.anySuccess_iff
    (h : ParallelPhase args testNames follows n s k runs allResults t) (testName : N) :
    anySuccess (resultsOf allResults testName) = true ↔
      ∃ run ∈ runsOf testName runs, run.passed = true := by
  rw [h.results, anySuccess_filterMap]

/-- When all tests have passed, no further attempt is made. -/
theorem ParallelPhase.of_passed (h : ParallelPhase args testNames follows n s k runs allResults t)
    (hpassed : ∀ testName ∈ testNames, anySuccess (resultsOf allResults testName) = true) :
    ParallelPhase args testNames follows n s n runs allResults t where
  le := Nat.le_refl n
  state := h.state
  results := h.results
  fields run hrun := by
    obtain ⟨hmem, htype, hattempt, hkeeps⟩ := h.fields run hrun
    exact ⟨hmem, htype, Nat.le_trans hattempt h.le, hkeeps⟩
  sorted := h.sorted
  retried hnodup testName hmem :=
    (h.retried hnodup testName hmem).mono_of_passed h.le
      ((h.anySuccess_iff testName).1 (hpassed testName hmem))
  done := by
    rintro ⟨testName, hmem, hfails⟩
    exact absurd (hfails.symm.trans (hpassed testName hmem)) Bool.false_ne_true
  last testName hmem hfails :=
    absurd (hfails.symm.trans (hpassed testName hmem)) Bool.false_ne_true
  zero := h.zero

/-- A test is retried in the next attempt if it still fails. -/
theorem ParallelPhase.retried_attempt
    (h : ParallelPhase args testNames follows n s k runs allResults t) (hnodup : testNames.Nodup)
    {testName : N} (hmem : testName ∈ testNames)
    {completed : List (N × Except String Execution)}
    (hperm : (completed.map Prod.fst).Perm
      (testNames.filter fun testName => !anySuccess (resultsOf allResults testName))) :
    Retried .parallel testName (keepsParallel args follows n) (k + 1) (runsOf testName
      (runs ++ completed.map (parallelRun (k + 1) (keepsParallel args follows n (k + 1))))) := by
  have hretried := h.retried hnodup testName hmem
  have hfails : testName ∈ completed.map Prod.fst ↔
      anySuccess (resultsOf allResults testName) = false := by
    rw [hperm.mem_iff, List.mem_filter, Bool.not_eq_true']
    exact and_iff_right hmem
  rw [runsOf_append]
  cases hs : anySuccess (resultsOf allResults testName) with
  | true =>
    have hnot : testName ∉ completed.map Prod.fst := fun hmem' =>
      absurd ((hfails.1 hmem').symm.trans hs) Bool.false_ne_true
    rw [runsOf_parallelRuns_eq_nil hnot, List.append_nil]
    exact hretried.mono_of_passed (Nat.le_succ k) ((h.anySuccess_iff testName).1 hs)
  | false =>
    obtain ⟨outcome, hrun⟩ := runsOf_parallelRuns (hperm.nodup_iff.2 (hnodup.filter _)) (k + 1)
      (keepsParallel args follows n (k + 1)) (hfails.2 hs)
    have hnone : ∀ run ∈ runsOf testName runs, run.passed = false := by
      intro run hrun
      by_contra hpassed
      have hany := (h.anySuccess_iff testName).2 ⟨run, hrun, Bool.not_eq_false _ ▸ hpassed⟩
      exact absurd (hs.symm.trans hany) Bool.false_ne_true
    rw [hrun]
    exact hretried.concat hnone rfl rfl rfl rfl

/-- The next attempt, of the tests that still fail. -/
theorem ParallelPhase.attempt (h : ParallelPhase args testNames follows n s k runs allResults t)
    (hlt : k < n)
    {retry : List N} (hretry : retry = testNames.filter fun testName =>
      !anySuccess (resultsOf allResults testName))
    {completed : List (N × Except String Execution)}
    (hperm : (completed.map Prod.fst).Perm retry)
    {allResults' : List (N × List (TestResult N))}
    (hresults : ∀ testName, resultsOf allResults' testName = resultsOf allResults testName ++
      (runsOf testName (completed.map
        (parallelRun (k + 1) (keepsParallel args follows n (k + 1))))).filterMap Run.result) :
    ParallelPhase args testNames follows n s (k + 1)
      (runs ++ completed.map (parallelRun (k + 1) (keepsParallel args follows n (k + 1))))
      allResults'
      { t.record (completed.map (parallelRun (k + 1) (keepsParallel args follows n (k + 1)))) with
        parallelAttemptsDone := k + 1 } where
  le := hlt
  state := by
    rw [Runner.record_append, h.state]
    rfl
  results testName := by
    rw [hresults, h.results, runsOf_append, List.filterMap_append]
  fields run hrun := by
    rcases List.mem_append.1 hrun with hrun | hrun
    · obtain ⟨hmem, htype, hattempt, hkeeps⟩ := h.fields run hrun
      exact ⟨hmem, htype, Nat.le_succ_of_le hattempt, hkeeps⟩
    · obtain ⟨next, hnext, rfl⟩ := List.mem_map.1 hrun
      have hmem : next.1 ∈ retry := hperm.mem_iff.1 (List.mem_map.2 ⟨next, hnext, rfl⟩)
      rw [hretry] at hmem
      exact ⟨(List.mem_filter.1 hmem).1, rfl, Nat.le_refl _, rfl⟩
  sorted := by
    refine List.pairwise_append.2 ⟨h.sorted, ?_, fun run hrun run' hrun' => ?_⟩
    · rw [List.pairwise_map]
      exact List.pairwise_of_forall fun _ _ => Nat.le_refl _
    · obtain ⟨next, -, rfl⟩ := List.mem_map.1 hrun'
      exact Nat.le_succ_of_le (h.fields run hrun).2.2.1
  retried hnodup testName hmem := h.retried_attempt hnodup hmem (hretry ▸ hperm)
  done _ := Or.inr rfl
  last testName hmem hfails := by
    rw [hresults, anySuccess, List.any_append, Bool.or_eq_false_iff] at hfails
    have hbefore : anySuccess (resultsOf allResults testName) = false := hfails.1
    have hretry : testName ∈ completed.map Prod.fst := by
      rw [hperm.mem_iff, hretry]
      exact List.mem_filter.2 ⟨hmem, by simpa using hbefore⟩
    obtain ⟨next, hnext, hname⟩ := List.mem_map.1 hretry
    refine Or.inr ⟨parallelRun (k + 1) (keepsParallel args follows n (k + 1)) next, ?_, rfl⟩
    exact mem_runsOf.2 ⟨List.mem_append_right _ (List.mem_map.2 ⟨next, hnext, rfl⟩), hname⟩
  zero hzero := by omega

/-- The attempts of the parallel phase. -/
theorem wp_parallelAttempts_trace {m : Nat} (hn : k + m = n)
    (h : ParallelPhase args testNames follows n s k runs allResults t) :
    wp (parallelAttempts env args testNames n follows (List.range' (k + 1) m) allResults)
      (fun allResults' u => ∃ runs', ParallelPhase args testNames follows n s n runs' allResults' u)
      (fun _ u => 0 < n ∧ args.parallel ≤ 0 ∧ ∃ k' runs' allResults',
        ParallelPhase args testNames follows n s k' runs' allResults' u) t := by
  induction m generalizing k t runs allResults with
  | zero =>
    obtain rfl : k = n := by omega
    exact ⟨runs, h⟩
  | succ m ih =>
    rw [List.range'_succ]
    simp only [parallelAttempts]
    split
    · rename_i hretry
      refine ⟨runs, h.of_passed fun testName hmem => ?_⟩
      simpa using List.filter_eq_nil_iff.1 hretry testName hmem
    · rename_i hretry
      split
      · have hpos := List.length_pos_iff.2 hretry
        exact ⟨by omega, by omega, k, runs, allResults, h⟩
      · simp only [wp_bind, wp_modify]
        refine wp_mono (wp_completeTests (X := fun _ _ => False)) ?_ fun _ _ h => h.elim
        rintro allResults' _ ⟨rfl, hresults⟩
        have hkeeps : (!args.deleteFailedNamespaces && !follows &&
            decide (((k + 1 : Nat) : Int) = (n : Int))) = keepsParallel args follows n (k + 1) := by
          simp only [keepsParallel, Int.ofNat_inj]
        rw [hkeeps] at hresults ⊢
        exact ih (by omega) (h.attempt (by omega) rfl (env.complete_perm _ _) hresults)

theorem parallelPhase_zero (hresults : ∀ testName, resultsOf allResults testName = []) :
    ParallelPhase args testNames follows n s 0 [] allResults s where
  le := Nat.zero_le n
  state := by rw [Runner.record_nil]
  results := hresults
  fields := by simp
  sorted := List.Pairwise.nil
  retried _ testName _ := retried_zero _ _ _
  done _ := Or.inl rfl
  last _ _ _ := Or.inl rfl
  zero _ := ⟨rfl, rfl⟩

end

/-- The attempts that are left to the parallel phase. -/
def parallelBudget (args : Args) (s : Runner N) : Nat :=
  (args.attemptsParallel - s.parallelAttemptsDone).toNat

/-- The parallel phase, of tests none of which has a summary yet. -/
theorem wp_executeParallelRetries_trace {s : Runner N} (hs : s.testSummaries = []) :
    wp (executeParallelRetries env args)
      (fun allResults t => ∃ runs, ParallelPhase args s.failedTests
        (decide (0 < args.attemptsSerial)) (parallelBudget args s) s (parallelBudget args s) runs
        allResults t)
      (fun _ t => 0 < parallelBudget args s ∧ args.parallel ≤ 0 ∧
        ∃ k runs allResults, ParallelPhase args s.failedTests
        (decide (0 < args.attemptsSerial)) (parallelBudget args s) s k runs allResults t) s := by
  have hpassed : ∀ testName, alreadyPassed s testName = false := by
    intro testName
    simp [alreadyPassed, hs]
  simp only [executeParallelRetries, wp_bind, wp_get]
  split
  · rename_i hcond
    simp only [hpassed, Bool.not_false, List.filter_eq_self.2 fun _ _ => rfl]
    split
    · rename_i hne
      have hbudget : args.attemptsParallel - s.parallelAttemptsDone =
          ((parallelBudget args s : Nat) : Int) := by
        rw [parallelBudget]
        omega
      have hpos : ¬((parallelBudget args s : Nat) : Int) ≤ 0 := by omega
      rw [hbudget, retryTestsInParallel, if_neg (by simpa [hne] using hpos), Int.toNat_natCast]
      exact wp_parallelAttempts_trace (k := 0) (Nat.zero_add _)
        (parallelPhase_zero (resultsOf_noResults s.failedTests))
    · rename_i hnil
      have hnil : s.failedTests = [] := by simpa using hnil
      refine ⟨[], (parallelPhase_zero fun _ => rfl).of_passed ?_⟩
      simp [hnil]
  · rename_i hcond
    have hbudget : parallelBudget args s = 0 := by
      rw [parallelBudget]
      omega
    rw [hbudget]
    exact ⟨[], parallelPhase_zero fun _ => rfl⟩

end

end CommonsOperator.AutoRetryTests
