import Mathlib.Data.List.Nodup
import CommonsOperator.RetryResume
import CommonsOperator.RetrySerialTrace

/-!
# The retry budget of a chain of runs

Over a chain of runs, each resumed from a state that the one before has saved, no test should
have more than `--attempts-parallel` and `--attempts-serial` attempts recorded, each type in
increasing order (`WithinBudget`). In a run that is not resumed this is so. A state is saved after
the result of an attempt is recorded and before the attempt is counted, and a resumed run numbers
its attempts from 1 again, so every resumed run repeats an attempt (`retry_budget_iff`).
-/

set_option linter.unusedSectionVars false

namespace CommonsOperator.AutoRetryTests

open Program

variable {args : Args}

/-- The numbers of the attempts of a test that are recorded, of one type. -/
def recordedAttempts (attemptType : AttemptType) (testName : String)
    (results : List (TestResult String)) : List Nat :=
  (results.filter fun result =>
    result.attemptType = attemptType ∧ result.testName = testName).map TestResult.attempt

/-- At no point of a run that records the results does a test have more attempts than its budget,
or attempts that are out of order. -/
def WithinBudget (args : Args) (results : List (TestResult String)) : Prop :=
  ∀ held, held <+: results → ∀ testName,
    (recordedAttempts .parallel testName held).length ≤ args.attemptsParallel.toNat ∧
    (recordedAttempts .serial testName held).length ≤ args.attemptsSerial.toNat ∧
    (recordedAttempts .parallel testName held).Pairwise (· < ·) ∧
    (recordedAttempts .serial testName held).Pairwise (· < ·)

/-- The tests are recorded under different names. -/
def DistinctTests (testNames : List String) : Prop :=
  (testNames.map recordedName).Nodup

/-- A run of a chain : a new one, or one resumed from a state. -/
def runFrom (env : Env String) (args : Args) :
    Option (State String) → Except String Int × Runner String
  | none => runNew env args
  | some state => runResumed env args state

/-! ## Recorded attempts -/

theorem recordedAttempts_append (attemptType : AttemptType) (testName : String)
    (results results' : List (TestResult String)) :
    recordedAttempts attemptType testName (results ++ results') =
      recordedAttempts attemptType testName results ++
        recordedAttempts attemptType testName results' := by
  simp [recordedAttempts]

theorem recordedAttempts_sublist (attemptType : AttemptType) (testName : String)
    {results results' : List (TestResult String)} (h : results.Sublist results') :
    (recordedAttempts attemptType testName results).Sublist
      (recordedAttempts attemptType testName results') :=
  (h.filter _).map _

theorem mem_recordedAttempts {attemptType : AttemptType} {testName : String}
    {results : List (TestResult String)} {result : TestResult String} (hmem : result ∈ results)
    (htype : result.attemptType = attemptType) (hname : result.testName = testName) :
    result.attempt ∈ recordedAttempts attemptType testName results :=
  List.mem_map.2 ⟨result, List.mem_filter.2 ⟨hmem, decide_eq_true ⟨htype, hname⟩⟩, rfl⟩

/-- The recorded attempts are attempts of executions. -/
theorem recordedAttempts_filterMap (attemptType : AttemptType) (testName : String)
    (runs : List (Run String)) :
    (recordedAttempts attemptType testName (runs.filterMap Run.result)).Sublist
      ((runs.filter fun run =>
        run.attemptType = attemptType ∧ recordedName run.testName = testName).map Run.attempt) := by
  induction runs with
  | nil => exact List.Sublist.refl _
  | cons run runs ih =>
    cases hres : run.result with
    | none =>
      rw [List.filterMap_cons_none hres]
      exact ih.trans (((List.sublist_cons_self run runs).filter _).map _)
    | some result =>
      obtain ⟨hname, hattempt, htype⟩ := Run.result_fields hres
      rw [List.filterMap_cons_some hres]
      simp only [recordedAttempts, List.filter_cons, hname, htype]
      split
      · rw [List.map_cons, List.map_cons, hattempt]
        exact ih.cons_cons _
      · exact ih

/-- Attempts 1, 2, ... of each of the tests are recorded within a budget, and in order. -/
theorem recordedAttempts_tries {attemptType : AttemptType} {testNames : List String}
    (hdistinct : DistinctTests testNames) {n : Nat} {runs : List (Run String)}
    (hmem : ∀ run ∈ runs, run.testName ∈ testNames)
    (htries : ∀ testName ∈ testNames, ∃ keeps,
      Tries attemptType testName keeps n (runsOf testName runs)) (recorded : String) :
    ∃ m, m ≤ n ∧ (recordedAttempts attemptType recorded (runs.filterMap Run.result)).Sublist
      (List.range' 1 m) := by
  have hsub := recordedAttempts_filterMap attemptType recorded runs
  by_cases hnamed : ∃ testName ∈ testNames, recordedName testName = recorded
  · obtain ⟨testName, hname, rfl⟩ := hnamed
    obtain ⟨keeps, htry⟩ := htries testName hname
    have hruns : (runs.filter fun run => run.attemptType = attemptType ∧
        recordedName run.testName = recordedName testName) =
        (runsOf testName runs).filter fun run => run.attemptType = attemptType := by
      rw [runsOf, List.filter_filter]
      refine List.filter_congr fun run hrun => ?_
      -- no other test is recorded under the name
      have hinj : recordedName run.testName = recordedName testName ↔ run.testName = testName :=
        ⟨List.inj_on_of_nodup_map hdistinct (hmem run hrun) hname, congrArg recordedName⟩
      simp only [hinj, Bool.decide_and]
    rw [hruns] at hsub
    refine ⟨_, htry.le, hsub.trans ?_⟩
    rw [← htry.attempts]
    exact List.filter_sublist.map _
  · refine ⟨0, Nat.zero_le n, ?_⟩
    have hnil : (runs.filter fun run => run.attemptType = attemptType ∧
        recordedName run.testName = recorded) = [] := by
      refine List.filter_eq_nil_iff.2 fun run hrun htype => hnamed ?_
      exact ⟨run.testName, hmem run hrun, (of_decide_eq_true htype).2⟩
    rw [hnil] at hsub
    exact hsub

/-- Attempts of another type are not recorded. -/
theorem recordedAttempts_eq_nil {attemptType : AttemptType} {runs : List (Run String)}
    (h : ∀ run ∈ runs, run.attemptType ≠ attemptType) (recorded : String) :
    recordedAttempts attemptType recorded (runs.filterMap Run.result) = [] := by
  have hsub := recordedAttempts_filterMap attemptType recorded runs
  have hnil : (runs.filter fun run => run.attemptType = attemptType ∧
      recordedName run.testName = recorded) = [] :=
    List.filter_eq_nil_iff.2 fun run hrun htype => h run hrun (of_decide_eq_true htype).1
  rw [hnil] at hsub
  exact List.sublist_nil.1 hsub

theorem inOrder_of_sublist {attempts attempts' : List Nat} {n : Nat}
    (hsub : attempts.Sublist attempts')
    (h : ∃ m, m ≤ n ∧ attempts'.Sublist (List.range' 1 m)) :
    attempts.length ≤ n ∧ attempts.Pairwise (· < ·) := by
  obtain ⟨m, hle, hrange⟩ := h
  have hlen := (hsub.trans hrange).length_le
  rw [List.length_range'] at hlen
  exact ⟨Nat.le_trans hlen hle, (List.pairwise_lt_range' 1).sublist (hsub.trans hrange)⟩

/-! ## New runs -/

/-- The retries of a new run are within the budget. -/
theorem RetryRuns.withinBudget {s t : Runner String} {parallelRuns serialRuns : List (Run String)}
    (h : RetryRuns args s parallelRuns serialRuns t) (hs : Initialized s)
    (hdistinct : DistinctTests s.failedTests) : WithinBudget args t.results := by
  obtain ⟨hresults, -, -, hparallel, hserial⟩ := hs.budgets args
  have hnodup : s.failedTests.Nodup := List.Nodup.of_map _ hdistinct
  have ht : t.results =
      parallelRuns.filterMap Run.result ++ serialRuns.filterMap Run.result := by
    obtain ⟨_, _, _, _, _, he⟩ := h.state
    rw [he]
    simp [Runner.record, hresults]
  have hparallelTries : ∀ testName ∈ s.failedTests, ∃ keeps, Tries .parallel testName keeps
      args.attemptsParallel.toNat (runsOf testName parallelRuns) := by
    intro testName hmem
    obtain ⟨keeps, -, htries, -⟩ := h.tries hnodup testName hmem
    exact ⟨keeps, hparallel ▸ htries⟩
  have hserialTries : ∀ testName ∈ s.failedTests, ∃ keeps, Tries .serial testName keeps
      args.attemptsSerial.toNat (runsOf testName serialRuns) := by
    intro testName hmem
    obtain ⟨-, keeps, -, htries⟩ := h.tries hnodup testName hmem
    exact ⟨keeps, hserial testName ▸ htries⟩
  have hp := recordedAttempts_tries hdistinct (fun run hrun => (h.parallel run hrun).1)
    hparallelTries
  have hs := recordedAttempts_tries hdistinct (fun run hrun => (h.serial run hrun).1) hserialTries
  intro held hheld testName
  have hsub : ∀ attemptType, (recordedAttempts attemptType testName held).Sublist
      (recordedAttempts attemptType testName (parallelRuns.filterMap Run.result) ++
        recordedAttempts attemptType testName (serialRuns.filterMap Run.result)) := by
    intro attemptType
    rw [← recordedAttempts_append, ← ht]
    exact recordedAttempts_sublist _ _ hheld.sublist
  have hnoParallel : recordedAttempts .serial testName (parallelRuns.filterMap Run.result) = [] :=
    recordedAttempts_eq_nil (fun run hrun => by simp [h.parallel run hrun]) testName
  have hnoSerial : recordedAttempts .parallel testName (serialRuns.filterMap Run.result) = [] :=
    recordedAttempts_eq_nil (fun run hrun => by simp [h.serial run hrun]) testName
  have hp' := hsub .parallel
  have hs' := hsub .serial
  rw [hnoSerial, List.append_nil] at hp'
  rw [hnoParallel, List.nil_append] at hs'
  obtain ⟨hlen, hsorted⟩ := inOrder_of_sublist hp' (hp testName)
  obtain ⟨hlen', hsorted'⟩ := inOrder_of_sublist hs' (hs testName)
  exact ⟨hlen, hlen', hsorted, hsorted'⟩

theorem withinBudget_nil (args : Args) : WithinBudget args [] := by
  intro held hheld testName
  rw [List.prefix_nil.1 hheld]
  simp [recordedAttempts]

/-- A new run is within the budget, also if it raises. -/
theorem withinBudget_new (env : Env String)
    (hdistinct : DistinctTests (runNew env args).2.failedTests) :
    WithinBudget args (runNew env args).2.results := by
  rcases runNew_ends env args with hinit | ⟨s, hs, hends⟩
  · rw [(hinit.budgets args).1]
    exact withinBudget_nil args
  · obtain ⟨parallelRuns, serialRuns, h⟩ := hends.retryRuns
    refine h.withinBudget hs ?_
    obtain ⟨_, _, _, _, _, he⟩ := h.state
    rwa [he] at hdistinct

/-! ## Resumed runs -/

/-- A resumed run starts again with the first attempt of a test that has a later one recorded. -/
theorem not_withinBudget_resumed {env : Env String} {state : State String}
    (h : SavedInSerial args state) (henv : ∀ message, ¬SerialRaises env message) :
    ¬WithinBudget args (runResumed env args state).2.results := by
  intro hwithin
  obtain ⟨_, -, parallelRuns, serialRuns, allParallelResults, _, u, v, hdone⟩ := h.retriesDone henv
  obtain ⟨testName, hmem, hleft, result, hold, htype, hname, hattempt⟩ := h.uncounted
  obtain ⟨rfl, rfl⟩ := hdone.parallel.zero h.parallel
  have hfails : testName ∈
      testsStillFailing (loadState state Runner.new).failedTests allParallelResults := by
    refine mem_testsStillFailing.2 ⟨hmem, ?_⟩
    rw [hdone.parallel.results]
    rfl
  obtain ⟨n, hblock, -, hpos, -⟩ := hdone.serial.retried testName hfails
  obtain ⟨run, hrun, hfirst⟩ := hblock.exists_first (hpos hleft)
  obtain ⟨hrun, hrunName⟩ := mem_runsOf.1 (mem_of_mem_sinceFirstAttempt hrun)
  obtain ⟨-, hrunType, hreturned, -⟩ := hdone.serial.fields run hrun
  obtain ⟨again, hagain⟩ := Option.ne_none_iff_exists'.1 hreturned
  obtain ⟨hagainName, hagainAttempt, hagainType⟩ := Run.result_fields hagain
  have hresults : (runResumed env args state).2.results =
      state.allResults ++ serialRuns.filterMap Run.result := by
    obtain ⟨_, _, _, _, _, he⟩ := hdone.retryRuns.state
    rw [he]
    rfl
  have hsorted := (hwithin _ List.prefix_rfl (recordedName testName)).2.2.2
  rw [hresults, recordedAttempts_append, List.pairwise_append] at hsorted
  have hlt : result.attempt < again.attempt :=
    hsorted.2.2 _ (mem_recordedAttempts hold htype hname) _
      (mem_recordedAttempts (List.mem_filterMap.2 ⟨run, hrun, hagain⟩)
        (hagainType.trans hrunType) (hagainName.trans (congrArg recordedName hrunName)))
  omega

/-- When the retry budget holds. A run of a chain, new or resumed from a state of the chain,
stays within the budget, however its attempts end, if and only if it is not a resumed one. The
same holds of each single run in which no serial attempt raises. -/
theorem retry_budget_iff {start : Option (State String)}
    (hstart : ∀ state ∈ start, Interrupted args state ∧ DistinctTests state.failedTests) :
    ((∀ env, DistinctTests (runFrom env args start).2.failedTests →
        WithinBudget args (runFrom env args start).2.results) ↔ start = none) ∧
      ∀ env, (∀ message, ¬SerialRaises env message) →
        DistinctTests (runFrom env args start).2.failedTests →
          (WithinBudget args (runFrom env args start).2.results ↔ start = none) := by
  cases start with
  | none =>
    exact ⟨⟨fun _ => rfl, fun _ env hdistinct => withinBudget_new env hdistinct⟩,
      fun env _ hdistinct => ⟨fun _ => rfl, fun _ => withinBudget_new env hdistinct⟩⟩
  | some state =>
    obtain ⟨hstate, hdistinct⟩ := hstart state rfl
    have hsaved := hstate.savedInSerial
    have hover : ∀ env, (∀ message, ¬SerialRaises env message) →
        ¬WithinBudget args (runFrom env args (some state)).2.results :=
      fun env henv => not_withinBudget_resumed hsaved henv
    have hfailed : ∀ env, (runFrom env args (some state)).2.failedTests = state.failedTests := by
      intro env
      have hends := runResumed_ends env args hsaved.failedTests hsaved.testSummaries
      obtain ⟨_, _, h⟩ := hends.retryRuns
      obtain ⟨_, _, _, _, _, he⟩ := h.state
      rw [runFrom, he]
      rfl
    refine ⟨iff_of_false (fun hwithin => ?_) (Option.some_ne_none state),
      fun env henv _ => iff_of_false (hover env henv) (Option.some_ne_none state)⟩
    exact hover allFail not_serialRaises_always (hwithin allFail (hfailed allFail ▸ hdistinct))

theorem distinctTests_smoke : DistinctTests ["smoke"] :=
  List.nodup_singleton _

theorem interrupted_afterAttempt {retry : Execution} {state : State String}
    (hmem : state ∈ afterAttempt retry) (hfailed : state.failedTests = ["smoke"]) :
    ∀ state' ∈ some state,
      Interrupted oneSerialAttempt state' ∧ DistinctTests state'.failedTests := by
  intro state' hstate'
  obtain rfl := Option.some.inj hstate'
  rw [hfailed]
  exact ⟨.new _ hmem, distinctTests_smoke⟩

/-- The first attempt of a run that is resumed after one attempt is over the budget. -/
theorem retry_budget_failedAttempt : ∃ state ∈ afterAttempt failsToStart,
    ¬∀ env, DistinctTests (runFrom env oneSerialAttempt (some state)).2.failedTests →
      WithinBudget oneSerialAttempt (runFrom env oneSerialAttempt (some state)).2.results := by
  have hfailed : ((afterAttempt failsToStart).any fun state =>
      state.failedTests = ["smoke"]) = true := by decide +kernel
  obtain ⟨state, hmem, hfailed⟩ := List.any_eq_true.1 hfailed
  have hstart := interrupted_afterAttempt hmem (of_decide_eq_true hfailed)
  refine ⟨state, hmem, fun hwithin => ?_⟩
  exact absurd ((retry_budget_iff hstart).1.1 hwithin) (Option.some_ne_none state)

theorem over_budget_failedAttempt :
    ¬∀ args start, (∀ state ∈ start, Interrupted args state ∧ DistinctTests state.failedTests) →
      ∀ env, DistinctTests (runFrom env args start).2.failedTests →
        WithinBudget args (runFrom env args start).2.results := by
  intro h
  have hagain : ((afterAttempt failsToStart).any fun state => state.failedTests = ["smoke"] ∧
      (runResumed allFail oneSerialAttempt state).2.failedTests = ["smoke"] ∧
      recordedAttempts .serial "smoke" (runResumed allFail oneSerialAttempt state).2.results =
        [1, 1]) = true := by decide +kernel
  obtain ⟨state, hmem, hagain⟩ := List.any_eq_true.1 hagain
  obtain ⟨hfailed, hfailed', hattempts⟩ := of_decide_eq_true hagain
  have hdistinct :
      DistinctTests (runFrom allFail oneSerialAttempt (some state)).2.failedTests := by
    rw [runFrom, hfailed']
    exact distinctTests_smoke
  have hwithin := h oneSerialAttempt (some state) (interrupted_afterAttempt hmem hfailed) allFail
    hdistinct _ List.prefix_rfl "smoke"
  rw [runFrom, hattempts] at hwithin
  exact absurd hwithin.2.1 (by decide)

end CommonsOperator.AutoRetryTests
