import CommonsOperator.RetryTrace

/-!
# The serial phase of a run

The serial phase retries the tests that still fail one after another (`SerialPhase`), and saves
the state in between (`SerialSince`). It raises only if an attempt does (`SerialPhaseRaised`).
`wp_executeSerialRetries_trace` is the whole phase.
-/

set_option linter.unusedSectionVars false

namespace CommonsOperator.AutoRetryTests

open Program

variable {N : Type} [DecidableEq N] [TestNames N]

section

variable {env : Env N} {args : Args}

/-- An exception of the serial phase is one of an attempt. -/
def SerialRaises (env : Env N) (message : String) : Prop :=
  ∃ place testName attempt, outcomeOf testName (env.serial place testName attempt) = .error message

/-- The serial attempts that keep the namespaces : the last one. -/
def keepsSerial (args : Args) (n attempt : Nat) : Bool :=
  !args.deleteFailedNamespaces && decide (attempt = n)

/-- The serial attempts left to a test, by the counters. -/
def serialBudget (args : Args) (serialAttemptsDone : List (N × Nat)) (testName : N) : Nat :=
  (args.attemptsSerial - ((Assoc.get? serialAttemptsDone testName).getD 0 : Nat)).toNat

/-- The state has the result of one of the serial attempts, but by its counters attempts are left
to the test. -/
def Uncounted (args : Args) (runs : List (Run N)) (state : State N) : Prop :=
  ∃ run ∈ runs, run.attemptType = .serial ∧ 1 ≤ run.attempt ∧
    (∃ result ∈ state.allResults, run.result = some result) ∧
    0 < serialBudget args state.serialAttemptsDone run.testName

/-- The state was saved since `s`, after one of the attempts. -/
structure SavedSince (args : Args) (s : Runner N) (runs : List (Run N)) (state : State N) :
    Prop where
  failedTests : state.failedTests = s.failedTests
  testSummaries : state.testSummaries = s.testSummaries
  parallelAttemptsDone : state.parallelAttemptsDone = s.parallelAttemptsDone
  uncounted : Uncounted args runs state

/-- What the serial phase has done, from `s` on. -/
structure SerialSince (args : Args) (s : Runner N) (runs : List (Run N)) (t : Runner N) : Prop where
  state : t = { s.record runs with serialAttemptsDone := t.serialAttemptsDone, saved := t.saved }
  saved : ∀ state ∈ t.saved, state ∈ s.saved ∨ SavedSince args s runs state
  /-- The counters of other tests stay. -/
  counters : ∀ testName, runsOf testName runs = [] →
    Assoc.get? t.serialAttemptsDone testName = Assoc.get? s.serialAttemptsDone testName

theorem SerialSince.refl (args : Args) (s : Runner N) : SerialSince args s [] s :=
  ⟨by rw [Runner.record_nil], fun _ h => Or.inl h, fun _ _ => rfl⟩

theorem Uncounted.mono {runs runs' : List (Run N)} {state : State N} (h : Uncounted args runs state)
    (hsub : runs ⊆ runs') : Uncounted args runs' state := by
  obtain ⟨run, hrun, hrest⟩ := h
  exact ⟨run, hsub hrun, hrest⟩

section

variable {s t u : Runner N} {runs runs' : List (Run N)}

theorem SerialSince.trans (h : SerialSince args s runs t) (h' : SerialSince args t runs' u) :
    SerialSince args s (runs ++ runs') u where
  state := by
    rw [Runner.record_append, h'.state, h.state]
    rfl
  saved state hstate := by
    rcases h'.saved state hstate with hstate | hsince
    · rcases h.saved state hstate with hstate | hsince
      · exact Or.inl hstate
      · exact Or.inr ⟨hsince.failedTests, hsince.testSummaries, hsince.parallelAttemptsDone,
          hsince.uncounted.mono (List.subset_append_left _ _)⟩
    · have ht := h.state
      have hf : t.failedTests = s.failedTests := by
        rw [ht]
        rfl
      have hs : t.testSummaries = s.testSummaries := by
        rw [ht]
        rfl
      have hp : t.parallelAttemptsDone = s.parallelAttemptsDone := by
        rw [ht]
        rfl
      exact Or.inr ⟨hsince.failedTests.trans hf, hsince.testSummaries.trans hs,
        hsince.parallelAttemptsDone.trans hp,
        hsince.uncounted.mono (List.subset_append_right _ _)⟩
  counters testName hnone := by
    rw [runsOf_append, List.append_eq_nil_iff] at hnone
    rw [h'.counters testName hnone.2, h.counters testName hnone.1]

/-- One attempt : its result is recorded, the state is saved, and then the attempt is counted. -/
theorem serialSince_attempt {run : Run N} {result : TestResult N}
    (hresult : run.result = some result) (htype : run.attemptType = .serial)
    (hattempt : 1 ≤ run.attempt)
    (hbudget : 0 < serialBudget args t.serialAttemptsDone run.testName) :
    SerialSince args t [run] { t.record [run] with
      saved := t.saved ++ [buildStateData (t.record [run])]
      serialAttemptsDone := Assoc.set t.serialAttemptsDone run.testName run.attempt } where
  state := rfl
  saved state hstate := by
    rcases List.mem_append.1 hstate with hstate | hstate
    · exact Or.inl hstate
    · have hmem : result ∈ (t.record [run]).results := by
        simp [Runner.record, hresult]
      rw [List.mem_singleton.1 hstate]
      exact Or.inr ⟨rfl, rfl, rfl, run, List.mem_cons_self, htype, hattempt,
        ⟨result, hmem, hresult⟩, hbudget⟩
  counters testName hnone := by
    have hne : run.testName ≠ testName := by
      intro he
      rw [runsOf_eq_self (by simpa using he)] at hnone
      cases hnone
    exact Assoc.get?_set_of_ne hne _ _

/-- The attempts of one test in the serial phase. -/
theorem wp_serialAttempts_trace {place : Nat} {testName : N} {n k m : Nat} (hn : k + m = n)
    (hle : (n : Int) ≤ args.attemptsSerial)
    (hbudget : m ≠ 0 → 0 < serialBudget args t.serialAttemptsDone testName)
    (hsince : SerialSince args s runs t)
    (htries : Tries .serial testName (keepsSerial args n) n runs)
    (hlen : runs.length = k) (hnone : ∀ run ∈ runs, run.passed = false)
    (hreturned : ∀ run ∈ runs, run.result ≠ none) :
    wp (serialAttempts env args place testName n (List.range' (k + 1) m)
        (runs.filterMap Run.result))
      (fun results u => ∃ runs', SerialSince args s runs' u ∧
        Retried .serial testName (keepsSerial args n) n runs' ∧
        (∀ run ∈ runs', run.result ≠ none) ∧ results = runs'.filterMap Run.result)
      (fun message u => ∃ runs', SerialSince args s runs' u ∧
        Tries .serial testName (keepsSerial args n) n runs' ∧ SerialRaises env message) t := by
  induction m generalizing k t runs with
  | zero => exact ⟨runs, hsince, htries.retried_of_length (by omega), hreturned, rfl⟩
  | succ m ih =>
    have hkeeps : (!args.deleteFailedNamespaces && decide (((k + 1 : Nat) : Int) = (n : Int))) =
        keepsSerial args n (k + 1) := by
      simp only [keepsSerial, Int.ofNat_inj]
    rw [List.range'_succ]
    simp only [serialAttempts, wp_bind, addResult, saveState, wp_modify, hkeeps]
    set run : Run N := ⟨testName, keepsSerial args n (k + 1), k + 1, .serial,
      outcomeOf testName (env.serial place testName (k + 1))⟩
    have htries' : Tries .serial testName (keepsSerial args n) n (runs ++ [run]) :=
      htries.concat (by omega) hnone (by rw [hlen]) rfl rfl rfl
    refine wp_mono wp_runSingleTestSuite_record ?_ ?_
    · rintro result _ ⟨hresult, rfl⟩
      change run.result = some result at hresult
      have hrecord : [result] = [run].filterMap Run.result := by
        simp [hresult]
      have hsince' := hsince.trans
        (serialSince_attempt hresult rfl (Nat.le_add_left 1 k) (hbudget (Nat.succ_ne_zero m)))
      have hreturned' : ∀ run' ∈ runs ++ [run], run'.result ≠ none := by
        intro run' hrun'
        rcases List.mem_append.1 hrun' with hrun' | hrun'
        · exact hreturned run' hrun'
        · rw [List.mem_singleton.1 hrun', hresult]
          exact Option.some_ne_none result
      have hsuccess := Run.result_success hresult
      rw [hrecord, ← List.filterMap_append]
      split
      · rename_i hpassed
        refine ⟨runs ++ [run], ?_, htries'.retried_of_passed (by simp)
          (hsuccess.symm.trans hpassed), hreturned', rfl⟩
        simpa [Runner.record, buildStateData, run] using hsince'
      · rename_i hfailed
        refine ih (by omega) (fun hm => ?_)
          (by simpa [Runner.record, buildStateData, run] using hsince') htries'
          (by simp [hlen]) (fun run' hrun' => ?_) hreturned'
        · simp only [serialBudget, Assoc.get?_set_self, Option.getD_some]
          omega
        · rcases List.mem_append.1 hrun' with hrun' | hrun'
          · exact hnone run' hrun'
          · rw [List.mem_singleton.1 hrun', ← hsuccess]
            exact Bool.eq_false_iff.2 hfailed
    · rintro message _ ⟨he, rfl⟩
      have hraised : SerialSince args t [run] (t.record [run]) :=
        ⟨rfl, fun _ h => Or.inl h, fun _ _ => rfl⟩
      exact ⟨runs ++ [run], hsince.trans hraised, htries', place, testName, k + 1, he⟩

/-- The serial retries of a test. -/
theorem wp_serialRetriesOf_trace {allSerialResults : List (N × List (TestResult N))}
    {test : N × Nat} {n : Nat} (hn : n = serialBudget args t.serialAttemptsDone test.1) :
    wp (serialRetriesOf env args allSerialResults test)
      (fun allSerialResults' u => ∃ runs, SerialSince args t runs u ∧
        Retried .serial test.1 (keepsSerial args n) n runs ∧
        (∀ run ∈ runs, run.result ≠ none) ∧ allSerialResults' =
          if n = 0 then allSerialResults
          else Assoc.set allSerialResults test.1 (runs.filterMap Run.result))
      (fun message u => ∃ runs, SerialSince args t runs u ∧
        Tries .serial test.1 (keepsSerial args n) n runs ∧ SerialRaises env message) t := by
  simp only [serialRetriesOf, wp_bind, wp_get]
  rw [serialBudget] at hn
  split
  · rename_i hpos
    have hleft : args.attemptsSerial - ((Assoc.get? t.serialAttemptsDone test.1).getD 0 : Nat) =
        (n : Int) := by omega
    have hzero : n ≠ 0 := by omega
    rw [hleft, retryTestSerially, if_neg (by omega), Int.toNat_natCast, wp_bind]
    have htries : Tries .serial test.1 (keepsSerial args n) n [] := tries_nil _ _ _ _
    refine wp_mono (wp_serialAttempts_trace n.zero_add (by omega) (fun _ => ?_) (.refl args t)
      htries rfl (by simp) (by simp)) ?_ fun _ _ h => h
    · rw [serialBudget]
      omega
    · rintro results u ⟨runs, hsince, hretried, hreturned, rfl⟩
      rw [wp_pure]
      exact ⟨runs, hsince, hretried, hreturned, (if_neg hzero).symm⟩
  · rename_i hpos
    obtain rfl : n = 0 := by omega
    exact ⟨[], .refl args t, retried_zero _ _ _, by simp, rfl⟩

/-- The executions of a test since its last first attempt. -/
def sinceFirstAttempt : List (Run N) → List (Run N)
  | [] => []
  | run :: runs =>
    if runs.any fun later => later.attempt = 1 then sinceFirstAttempt runs else run :: runs

theorem mem_of_mem_sinceFirstAttempt {run : Run N} (h : run ∈ sinceFirstAttempt runs) :
    run ∈ runs := by
  induction runs with
  | nil => exact h
  | cons run' runs ih =>
    unfold sinceFirstAttempt at h
    split at h
    · exact List.mem_cons_of_mem _ (ih h)
    · exact h

theorem sinceFirstAttempt_append {block : List (Run N)} (h : ∃ run ∈ block, run.attempt = 1)
    (before : List (Run N)) : sinceFirstAttempt (before ++ block) = sinceFirstAttempt block := by
  induction before with
  | nil => rfl
  | cons run before ih =>
    have hlater : ((before ++ block).any fun later => later.attempt = 1) = true := by
      obtain ⟨first, hmem, hfirst⟩ := h
      exact List.any_eq_true.2 ⟨first, List.mem_append_right _ hmem, decide_eq_true hfirst⟩
    rw [List.cons_append, sinceFirstAttempt, if_pos hlater, ih]

/-- Attempts 1, 2, ... of a test have no other first attempt. -/
theorem Tries.sinceFirstAttempt_eq {attemptType : AttemptType} {testName : N}
    {keeps : Nat → Bool} {n : Nat} (h : Tries attemptType testName keeps n runs) :
    sinceFirstAttempt runs = runs := by
  cases runs with
  | nil => rfl
  | cons run runs =>
    have hattempts := h.attempts
    rw [List.map_cons, List.length_cons, List.range'_succ, List.cons.injEq] at hattempts
    have hlater : ¬(runs.any fun later => later.attempt = 1) = true := by
      rw [List.any_eq_true]
      rintro ⟨later, hmem, hfirst⟩
      have hrange : later.attempt ∈ List.range' (1 + 1) runs.length :=
        hattempts.2 ▸ List.mem_map.2 ⟨later, hmem, rfl⟩
      have := (List.mem_range'_1.1 hrange).1
      have := of_decide_eq_true hfirst
      omega
    rw [sinceFirstAttempt, if_neg hlater]

/-- A test whose budget is not used up is attempted. -/
theorem Retried.exists_first {attemptType : AttemptType} {testName : N}
    {keeps : Nat → Bool} {n : Nat} (h : Retried attemptType testName keeps n runs) (hpos : 0 < n) :
    ∃ run ∈ runs, run.attempt = 1 := by
  cases runs with
  | nil =>
    have hzero : 0 = n := h.complete (by simp)
    omega
  | cons run runs =>
    have hattempts := h.attempts
    rw [List.map_cons, List.length_cons, List.range'_succ, List.cons.injEq] at hattempts
    exact ⟨run, List.mem_cons_self, hattempts.1⟩

/-- What the serial phase has done for the tests of `done`, from `s` on. A test that is in the
list twice may be taken up twice; the results of the last time are kept for it. -/
structure SerialPhase (args : Args) (done : List N) (s : Runner N) (runs : List (Run N))
    (allResults : List (N × List (TestResult N))) (t : Runner N) : Prop where
  since : SerialSince args s runs t
  fields : ∀ run ∈ runs, run.testName ∈ done ∧ run.attemptType = .serial ∧ run.result ≠ none ∧
    0 < args.attemptsSerial
  other : ∀ testName ∉ done, resultsOf allResults testName = []
  retried : ∀ testName ∈ done, ∃ n,
    let block := sinceFirstAttempt (runsOf testName runs)
    Retried .serial testName (keepsSerial args n) n block ∧
      resultsOf allResults testName = block.filterMap Run.result ∧
      (0 < serialBudget args s.serialAttemptsDone testName → 0 < n) ∧
      (done.Nodup → n = serialBudget args s.serialAttemptsDone testName ∧
        block = runsOf testName runs)

theorem serialPhase_nil (args : Args) (s : Runner N) : SerialPhase args [] s [] [] s where
  since := .refl args s
  fields := by simp
  other _ _ := rfl
  retried := by simp

/-- A test that has not been taken up yet has its budget. -/
theorem SerialPhase.serialBudget_eq {done : List N}
    {allResults : List (N × List (TestResult N))} (h : SerialPhase args done s runs allResults t)
    {testName : N} (hnew : testName ∉ done) :
    runsOf testName runs = [] ∧ serialBudget args t.serialAttemptsDone testName =
      serialBudget args s.serialAttemptsDone testName := by
  have hnone : runsOf testName runs = [] :=
    runsOf_eq_nil fun run hrun he => hnew (he ▸ (h.fields run hrun).1)
  exact ⟨hnone, by rw [serialBudget, serialBudget, h.since.counters testName hnone]⟩

/-- What the serial phase knows of the test that it has just taken up. -/
theorem SerialPhase.retried_concat {done : List N}
    {allResults : List (N × List (TestResult N))} (h : SerialPhase args done s runs allResults t)
    {testName : N} {n : Nat} (hn : n = serialBudget args t.serialAttemptsDone testName)
    (hretried : Retried .serial testName (keepsSerial args n) n runs') :
    ∃ n', let block := sinceFirstAttempt (runsOf testName runs ++ runs')
      Retried .serial testName (keepsSerial args n') n' block ∧
        resultsOf (if n = 0 then allResults
          else Assoc.set allResults testName (runs'.filterMap Run.result)) testName =
            block.filterMap Run.result ∧
        (0 < serialBudget args s.serialAttemptsDone testName → 0 < n') ∧
        ((done ++ [testName]).Nodup → n' = serialBudget args s.serialAttemptsDone testName ∧
          block = runsOf testName runs ++ runs') := by
  have hdup : testName ∈ done → ¬(done ++ [testName]).Nodup := fun hmem hnodup =>
    (List.nodup_append.1 hnodup).2.2 _ hmem _ List.mem_cons_self rfl
  rcases Nat.eq_zero_or_pos n with hzero | hpos
  · -- no attempts are left, so what is known of the test stays
    have hnil : runs' = [] := List.length_eq_zero_iff.1 (Nat.le_zero.1 (hzero ▸ hretried.le))
    rw [if_pos hzero, hnil, List.append_nil]
    by_cases hnew : testName ∈ done
    · obtain ⟨n', hblock, hres, hpos, -⟩ := h.retried testName hnew
      exact ⟨n', hblock, hres, hpos, fun hnodup => (hdup hnew hnodup).elim⟩
    · obtain ⟨hnone, hbudget⟩ := h.serialBudget_eq hnew
      rw [hnone]
      exact ⟨0, retried_zero _ _ _, h.other testName hnew, fun hlt => by omega,
        fun _ => ⟨by omega, rfl⟩⟩
  · rw [sinceFirstAttempt_append (hretried.exists_first hpos), hretried.sinceFirstAttempt_eq,
      if_neg (Nat.pos_iff_ne_zero.1 hpos), resultsOf_set, if_pos rfl]
    refine ⟨n, hretried, rfl, fun _ => hpos, fun hnodup => ?_⟩
    obtain ⟨hnone, hbudget⟩ := h.serialBudget_eq fun hnew => hdup hnew hnodup
    rw [hnone]
    exact ⟨hn.trans hbudget, rfl⟩

/-- The next test of the serial phase. -/
theorem SerialPhase.concat {done : List N} {allResults : List (N × List (TestResult N))}
    (h : SerialPhase args done s runs allResults t) {testName : N} {n : Nat}
    (hn : n = serialBudget args t.serialAttemptsDone testName)
    (hsince : SerialSince args t runs' u)
    (hretried : Retried .serial testName (keepsSerial args n) n runs')
    (hreturned : ∀ run ∈ runs', run.result ≠ none) :
    SerialPhase args (done ++ [testName]) s (runs ++ runs')
      (if n = 0 then allResults
        else Assoc.set allResults testName (runs'.filterMap Run.result)) u where
  since := h.since.trans hsince
  fields run hrun := by
    rcases List.mem_append.1 hrun with hrun | hrun
    · obtain ⟨hmem, htype, hres⟩ := h.fields run hrun
      exact ⟨List.mem_append_left _ hmem, htype, hres⟩
    · obtain ⟨hname, htype, -⟩ := hretried.fields run hrun
      have hpos : 0 < args.attemptsSerial := by
        have := Nat.le_trans (List.length_pos_of_mem hrun) hretried.le
        rw [hn, serialBudget] at this
        omega
      exact ⟨hname ▸ List.mem_append_right _ List.mem_cons_self, htype, hreturned run hrun, hpos⟩
  other testName' hnot := by
    rw [List.mem_append, List.mem_singleton, not_or] at hnot
    split
    · exact h.other testName' hnot.1
    · rw [resultsOf_set, if_neg (Ne.symm hnot.2)]
      exact h.other testName' hnot.1
  retried testName' hmem := by
    rw [runsOf_append]
    by_cases hname : testName' = testName
    · subst hname
      have hruns : runsOf testName' runs' = runs' :=
        runsOf_eq_self fun run hrun => (hretried.fields run hrun).1
      rw [hruns]
      exact h.retried_concat hn hretried
    · have hmem : testName' ∈ done := by
        simpa [hname] using hmem
      have hnone : runsOf testName' runs' = [] := runsOf_eq_nil fun run hrun he =>
        hname (he ▸ (hretried.fields run hrun).1)
      obtain ⟨n', hblock, hres, hpos, hnodup⟩ := h.retried testName' hmem
      rw [hnone, List.append_nil]
      refine ⟨n', hblock, ?_, hpos, fun hnd => hnodup (List.nodup_append.1 hnd).1⟩
      rw [← hres]
      split
      · rfl
      · rw [resultsOf_set, if_neg (Ne.symm hname)]

/-- What a serial phase has done when it raises. -/
structure SerialPhaseRaised (env : Env N) (args : Args) (testNames : List N) (s : Runner N)
    (runs : List (Run N)) (message : String) (t : Runner N) : Prop where
  since : SerialSince args s runs t
  fields : ∀ run ∈ runs, run.testName ∈ testNames ∧ run.attemptType = .serial
  raises : SerialRaises env message
  tries : testNames.Nodup → ∀ testName ∈ testNames, ∃ keeps,
    Tries .serial testName keeps (serialBudget args s.serialAttemptsDone testName)
      (runsOf testName runs)

/-- An attempt of the next test raises. -/
theorem SerialPhase.raised {done rest : List N}
    {allResults : List (N × List (TestResult N))} (h : SerialPhase args done s runs allResults t)
    {testName : N} {message : String} {n : Nat}
    (hn : n = serialBudget args t.serialAttemptsDone testName) (hsince : SerialSince args t runs' u)
    (htries : Tries .serial testName (keepsSerial args n) n runs')
    (hraises : SerialRaises env message) :
    SerialPhaseRaised env args (done ++ testName :: rest) s (runs ++ runs') message u where
  since := h.since.trans hsince
  raises := hraises
  fields run hrun := by
    rcases List.mem_append.1 hrun with hrun | hrun
    · obtain ⟨hmem, htype, -⟩ := h.fields run hrun
      exact ⟨List.mem_append_left _ hmem, htype⟩
    · obtain ⟨hname, htype, -⟩ := htries.fields run hrun
      exact ⟨hname ▸ List.mem_append_right _ List.mem_cons_self, htype⟩
  tries hnodup testName' _ := by
    obtain ⟨hdone, -, hdisj⟩ := List.nodup_append.1 hnodup
    rw [runsOf_append]
    by_cases hname : testName' = testName
    · subst hname
      obtain ⟨hnone, hbudget⟩ := h.serialBudget_eq fun hmem =>
        hdisj _ hmem _ List.mem_cons_self rfl
      rw [hnone, List.nil_append, runsOf_eq_self fun run hrun => (htries.fields run hrun).1,
        ← hbudget, ← hn]
      exact ⟨_, htries⟩
    · have hnone : runsOf testName' runs' = [] := runsOf_eq_nil fun run hrun he =>
        hname (he ▸ (htries.fields run hrun).1)
      rw [hnone, List.append_nil]
      by_cases hmem : testName' ∈ done
      · obtain ⟨n', hblock, -, -, hnd⟩ := h.retried testName' hmem
        obtain ⟨rfl, hruns⟩ := hnd hdone
        exact ⟨_, hruns ▸ hblock.toTries⟩
      · rw [(h.serialBudget_eq hmem).1]
        exact ⟨fun _ => false, tries_nil _ _ _ _⟩

/-- The serial retries of the tests, one after another. -/
theorem wp_serialRetries_trace {testNames : List N} :
    wp ((testNames.zipIdx 1).foldlM (serialRetriesOf env args) [])
      (fun allSerialResults t => ∃ runs, SerialPhase args testNames s runs allSerialResults t)
      (fun message t => ∃ runs, SerialPhaseRaised env args testNames s runs message t) s := by
  have hnames : (testNames.zipIdx 1).map Prod.fst = testNames := List.zipIdx_map_fst 1 testNames
  refine wp_mono (wp_foldlM (I := fun done allSerialResults t => ∃ runs,
    SerialPhase args (done.map Prod.fst) s runs allSerialResults t) ?_
    ⟨[], serialPhase_nil args s⟩) ?_ fun _ _ h => h
  · rintro done test rest hsplit allSerialResults t ⟨runs, h⟩
    refine wp_mono (wp_serialRetriesOf_trace rfl) ?_ ?_
    · rintro _ u ⟨runs', hsince, hretried, hreturned, rfl⟩
      rw [List.map_append, List.map_singleton]
      exact ⟨runs ++ runs', h.concat rfl hsince hretried hreturned⟩
    · rintro message u ⟨runs', hsince, htries, hraises⟩
      have hraised : SerialPhaseRaised env args
          (done.map Prod.fst ++ test.1 :: rest.map Prod.fst) s (runs ++ runs') message u :=
        h.raised rfl hsince htries hraises
      rw [← List.map_cons, ← List.map_append, ← hsplit, hnames] at hraised
      exact ⟨runs ++ runs', hraised⟩
  · rintro allSerialResults t ⟨runs, h⟩
    rw [hnames] at h
    exact ⟨runs, h⟩

/-- The tests that have not passed in parallel. -/
def testsStillFailing (testNames : List N)
    (allParallelResults : List (N × List (TestResult N))) : List N :=
  testNames.filter fun testName => !anySuccess (resultsOf allParallelResults testName)

/-- The serial phase, of tests none of which has a summary yet. -/
theorem wp_executeSerialRetries_trace {allParallelResults : List (N × List (TestResult N))}
    (hs : s.testSummaries = []) :
    wp (executeSerialRetries env args allParallelResults)
      (fun allSerialResults t => ∃ runs, SerialPhase args
        (testsStillFailing s.failedTests allParallelResults) s runs allSerialResults t)
      (fun message t => ∃ runs, SerialPhaseRaised env args
        (testsStillFailing s.failedTests allParallelResults) s runs message t) s := by
  have hpassed : ∀ testName, alreadyPassed s testName = false := by
    intro testName
    simp [alreadyPassed, hs]
  simp only [executeSerialRetries, wp_bind, wp_get, hpassed, Bool.not_false, Bool.true_and]
  split
  · exact wp_serialRetries_trace
  · rename_i hcond
    refine ⟨[], .refl args s, by simp, fun _ _ => rfl, fun testName hmem => ?_⟩
    have hbudget : serialBudget args s.serialAttemptsDone testName = 0 := by
      have hserial : ¬0 < args.attemptsSerial := fun hpos =>
        hcond ⟨hpos, List.ne_nil_of_mem hmem⟩
      rw [serialBudget]
      omega
    exact ⟨0, retried_zero _ _ _, rfl, fun hpos => by omega, fun _ => ⟨hbudget.symm, rfl⟩⟩

end

end

end CommonsOperator.AutoRetryTests
