import CommonsOperator.StateFile
import CommonsOperator.Transition
import Mathlib.Data.List.DropRight

/-!
# The history of runtimes

How long a test takes is estimated from the runtimes that `runtime_history.json` keeps. Every
process reads the file once, drops what is too short, and writes all it knows with each test that
ends ; a write can fail in any way, and the next process reads what it left. The threads of a
parallel attempt share the histories and the file : each adds to the histories, takes what is to
be written and writes it, and others may do theirs in between.

`Log` is what this is for : the measurements a process knows, those it is about to write and those
the file has, none of them dropped. `runtimes_of_logs` : in every run of processes, the histories
in memory and in the file are the recent measurements of the logs, the last fifty of a test that
were long enough. Without parallel attempts, and if nothing goes wrong with the file, the logs have
all measurements (`runtimes_of_measurements`).
-/

set_option linter.unusedSectionVars false

namespace CommonsOperator.AutoRetryTests

/-! ## `RuntimeHistory` -/

/-- `MIN_RUNTIME_THRESHOLD`, in seconds. -/
def minRuntimeThreshold : Rat :=
  30

/-- `MAX_RUNTIME_HISTORY`. -/
def maxRuntimeHistory : Nat :=
  50

/-- The history of a test. What a file has for the two texts is not checked. -/
structure RuntimeHistory where
  testName : Json
  runtimes : List Rat
  lastUpdated : Json

/-- `add_runtime`. -/
def RuntimeHistory.addRuntime (history : RuntimeHistory) (duration : Rat) (now : String) :
    RuntimeHistory :=
  if minRuntimeThreshold ≤ duration then
    let runtimes := history.runtimes ++ [duration]
    { history with
      runtimes :=
        if maxRuntimeHistory < runtimes.length then
          runtimes.drop (runtimes.length - maxRuntimeHistory)
        else runtimes
      lastUpdated := .str now }
  else history

/-- `asdict`, of a `RuntimeHistory`. -/
def RuntimeHistory.asdict (history : RuntimeHistory) : Json :=
  .obj [("test_name", history.testName), ("runtimes", .arr (history.runtimes.map .num)),
    ("last_updated", history.lastUpdated)]

/-- The histories by the names of their tests. -/
abbrev Histories :=
  List (String × RuntimeHistory)

/-- What `save_runtime_history` writes. -/
def Histories.toJson (histories : Histories) : Json :=
  .obj (histories.map fun entry => (entry.1, entry.2.asdict))

/-! ## The file -/

/-- How the writing of a file ends. -/
inductive Write where
  | done
  /-- The file cannot be opened, and is as before. -/
  | refused
  /-- The file was opened, and cannot be read again : it has not all of it, or is mixed up with
  what another thread wrote at the same time. -/
  | torn
  /-- There is no directory for the file. -/
  | noDirectory

structure StateManager where
  /-- What is in the file `runtime_history.json`. -/
  runtimeFile : JsonFile
  runtimeHistory : Histories

abbrev ManagerM (α : Type) :=
  Program StateManager String α

/-- `safe_json_operation`, of `"save"`. Of what goes wrong, only `FileNotFoundError` is not
caught. -/
def safeJsonSave (data : Json) (write : Write) : ManagerM Bool := do
  match write with
  | .done =>
    modify fun manager => { manager with runtimeFile := .json data }
    return true
  | .refused => return false
  | .torn =>
    modify fun manager => { manager with runtimeFile := .unreadable }
    return false
  | .noDirectory =>
    modify fun manager => { manager with runtimeFile := .missing }
    throw "FileNotFoundError"

/-- `save_runtime_history`. -/
def saveRuntimeHistory (write : Write) : ManagerM Bool := do
  let manager ← get
  safeJsonSave (Histories.toJson manager.runtimeHistory) write

/-- `runtime >= MIN_RUNTIME_THRESHOLD`, and the runtime if it is ; `True` is 1. -/
def longRuntime : Json → Except String (Option Rat)
  | .num runtime => .ok (if minRuntimeThreshold ≤ runtime then some runtime else none)
  | .bool _ => .ok none
  | _ => .error "'>=' not supported"

/-- `filtered_runtimes`. -/
def filteredRuntimes (data : Json) : Except String (List Rat) := do
  let runtimes ← (← elementsOf (← item data "runtimes")).mapM longRuntime
  return runtimes.filterMap id

/-- The body of the loop of `load_runtime_history`, with `loaded_count`. -/
def loadHistory (loaded : Histories × Nat) (entry : String × Json) :
    Except String (Histories × Nat) := do
  let runtimes ← filteredRuntimes entry.2
  if runtimes.isEmpty then
    return loaded
  let testName ← item entry.2 "test_name"
  let lastUpdated ← item entry.2 "last_updated"
  return (Assoc.set loaded.1 entry.1 { testName, runtimes, lastUpdated }, loaded.2 + 1)

/-- The loop of `load_runtime_history`. -/
def loadHistories (runtimeHistory : Histories) (content : Json) :
    Except String (Histories × Nat) := do
  (← itemsOf content).foldlM loadHistory (runtimeHistory, 0)

/-- `load_runtime_history`. A file that cannot be read is none. -/
def loadRuntimeHistory (readable : Bool) (write : Write) : ManagerM Unit := do
  let manager ← get
  match if readable then manager.runtimeFile else .unreadable with
  | .json content =>
    if truthy content then
      match loadHistories manager.runtimeHistory content with
      | .ok (runtimeHistory, loadedCount) =>
        modify fun manager => { manager with runtimeHistory }
        if 0 < loadedCount then
          let _ ← saveRuntimeHistory write
      | .error message => throw message
  | _ => return

/-- `update_runtime_history`, but for its last statement. -/
def addToHistory (testName : String) (duration : Rat) (created now : String) : ManagerM Unit :=
  modify fun manager =>
    let history := (Assoc.get? manager.runtimeHistory testName).getD
      { testName := .str testName, runtimes := [], lastUpdated := .str created }
    { manager with
      runtimeHistory :=
        Assoc.set manager.runtimeHistory testName (history.addRuntime duration now) }

/-- `update_runtime_history`. -/
def updateRuntimeHistory (testName : String) (duration : Rat) (created now : String)
    (write : Write) : ManagerM Unit := do
  addToHistory testName duration created now
  let _ ← saveRuntimeHistory write

/-! ## Processes -/

/-- The file, the histories of the process that runs, and what its threads are about to write. -/
structure Sessions where
  runtimeFile : JsonFile
  runtimeHistory : Option Histories
  saving : List Json

/-- There was no process yet. -/
def Sessions.new : Sessions where
  runtimeFile := .missing
  runtimeHistory := none
  saving := []

inductive SessionLabel where
  /-- The process that ran has ended, in some way, and there is a new `StateManager`. -/
  | start (readable : Bool) (write : Write)
  /-- An attempt of a test has ended, and its thread adds to the histories. -/
  | add (testName : String) (duration : Rat) (created now : String)
  /-- A thread has built what it writes. -/
  | take
  /-- One of the threads writes it. An exception is swallowed in a parallel attempt, and ends the
  process in a serial one. -/
  | write (place : Nat) (write : Write) (inParallel : Bool)

/-- What a process leaves that does something by itself ; it is over if it raises. -/
def Sessions.after {α : Type} (method : ManagerM α) (manager : StateManager) : Sessions :=
  match method.exec manager with
  | (.ok _, manager) => ⟨manager.runtimeFile, some manager.runtimeHistory, []⟩
  | (.error _, manager) => ⟨manager.runtimeFile, none, []⟩

def Sessions.step (s : Sessions) : SessionLabel → Option Sessions
  | .start readable write =>
    some (Sessions.after (loadRuntimeHistory readable write) ⟨s.runtimeFile, []⟩)
  | .add testName duration created now =>
    s.runtimeHistory.map fun histories =>
      let manager :=
        ((addToHistory testName duration created now).exec ⟨s.runtimeFile, histories⟩).2
      { s with runtimeHistory := some manager.runtimeHistory }
  | .take =>
    s.runtimeHistory.map fun histories => { s with saving := s.saving ++ [histories.toJson] }
  | .write place write inParallel =>
    s.runtimeHistory.bind fun histories => s.saving[place]?.map fun data =>
      let (result, manager) := (safeJsonSave data write).exec ⟨s.runtimeFile, histories⟩
      { runtimeFile := manager.runtimeFile
        runtimeHistory := if result.isOk || inParallel then some manager.runtimeHistory else none
        saving := if result.isOk || inParallel then s.saving.eraseIdx place else [] }

/-- Outside parallel attempts, the steps of a thread are those of the method. -/
theorem run_update {s : Sessions} {histories : Histories} (h : s.runtimeHistory = some histories)
    (hsaving : s.saving = []) (testName : String) (duration : Rat) (created now : String)
    (write : Write) :
    Transition.run Sessions.step s
        [.add testName duration created now, .take, .write 0 write false] =
      some (Sessions.after (updateRuntimeHistory testName duration created now write)
        ⟨s.runtimeFile, histories⟩) := by
  obtain ⟨runtimeFile, runtimeHistory, saving⟩ := s
  obtain rfl := h
  obtain rfl := hsaving
  cases write <;> rfl

/-! ## Logs -/

structure Measurement where
  testName : String
  duration : Rat
  now : String

/-- The measurement counts. -/
def Measurement.isLong (measurement : Measurement) : Bool :=
  minRuntimeThreshold ≤ measurement.duration

/-- The measurements of a test that count for its estimate. -/
def recent (measurements : List Measurement) (testName : String) : List Measurement :=
  (measurements.filter fun measurement =>
    measurement.testName = testName ∧ measurement.isLong).rtake maxRuntimeHistory

/-- The measurements that the file has, those that the process knows, and those that its threads
are about to write. -/
structure Log where
  stored : List Measurement
  known : Option (List Measurement)
  saving : List (List Measurement)

def Log.new : Log where
  stored := []
  known := none
  saving := []

/-- What the file has after a write. -/
def Write.leaves (stored saved : List Measurement) : Write → List Measurement
  | .done => saved
  | .refused => stored
  | .torn => []
  | .noDirectory => []

/-- The write raises. -/
def Write.raises : Write → Bool
  | .noDirectory => true
  | _ => false

/-- A process starts from what the file has, and writes it if any of it counts. -/
def Log.start (stored : List Measurement) (readable : Bool) (write : Write) : Log :=
  let known := if readable then stored else []
  if known.any Measurement.isLong then
    ⟨write.leaves stored known, if write.raises then none else some known, []⟩
  else ⟨stored, some known, []⟩

/-- A process adds to what it knows. -/
def Log.step (log : Log) : SessionLabel → Option Log
  | .start readable write => some (Log.start log.stored readable write)
  | .add testName duration _ now =>
    log.known.map fun known => { log with known := some (known ++ [⟨testName, duration, now⟩]) }
  | .take => log.known.map fun known => { log with saving := log.saving ++ [known] }
  | .write place write inParallel =>
    log.known.bind fun known => log.saving[place]?.map fun saved => {
      stored := write.leaves log.stored saved
      known := if !write.raises || inParallel then some known else none
      saving := if !write.raises || inParallel then log.saving.eraseIdx place else [] }

/-! ## The last measurements -/

/-- The last of a list are found among its last and what comes after them. -/
theorem rtake_rtake_append {α : Type} (n : Nat) (l m : List α) :
    (l.rtake n ++ m).rtake n = (l ++ m).rtake n := by
  simp only [List.rtake_eq_reverse_take_reverse, List.reverse_append, List.reverse_reverse,
    List.take_append, List.take_take]
  congr 3
  omega

theorem recent_of_isLong {testName : String} {measurement : Measurement}
    (htest : measurement.testName = testName) (hlong : measurement.isLong)
    (measurements : List Measurement) :
    recent (measurements ++ [measurement]) testName =
      (recent measurements testName ++ [measurement]).rtake maxRuntimeHistory := by
  unfold recent
  rw [rtake_rtake_append, List.filter_append]
  simp [htest, hlong]

theorem recent_of_not_isLong {testName : String} {measurement : Measurement}
    (h : ¬(measurement.testName = testName ∧ measurement.isLong))
    (measurements : List Measurement) :
    recent (measurements ++ [measurement]) testName = recent measurements testName := by
  unfold recent
  rw [List.filter_append, List.filter_cons_of_neg (by simpa using h), List.filter_nil,
    List.append_nil]

theorem isLong_of_mem_recent {measurements : List Measurement} {testName : String}
    {measurement : Measurement} (h : measurement ∈ recent measurements testName) :
    measurement.isLong := by
  have hmem := (List.drop_sublist _ _).subset h
  simp only [List.mem_filter, decide_eq_true_eq] at hmem
  exact hmem.2.2

/-- There are recent measurements of some test if any measurement counts. -/
theorem exists_recent_iff (measurements : List Measurement) :
    (∃ testName, recent measurements testName ≠ []) ↔ measurements.any Measurement.isLong := by
  constructor
  · rintro ⟨testName, h⟩
    obtain ⟨measurement, hmem⟩ := List.exists_mem_of_ne_nil _ h
    have hin := (List.drop_sublist _ _).subset hmem
    exact List.any_eq_true.2 ⟨measurement, (List.mem_filter.1 hin).1, isLong_of_mem_recent hmem⟩
  · intro h
    obtain ⟨measurement, hmem, hlong⟩ := List.any_eq_true.1 h
    refine ⟨measurement.testName, ?_⟩
    have hin : measurement ∈ measurements.filter fun m =>
        m.testName = measurement.testName ∧ m.isLong := List.mem_filter.2 ⟨hmem, by simp [hlong]⟩
    have hlength := List.length_pos_of_mem hin
    unfold recent List.rtake maxRuntimeHistory
    rw [Ne, List.drop_eq_nil_iff]
    omega

/-! ## Histories and logs -/

/-- What is found for a test whose recent measurements are these. -/
def IsHistory (testName : String) (measurements : List Measurement) :
    Option RuntimeHistory → Prop
  | none => measurements = []
  | some history =>
    history.testName = .str testName ∧
      history.runtimes = measurements.map Measurement.duration ∧
      ∀ measurement ∈ measurements.getLast?, history.lastUpdated = .str measurement.now

/-- The histories have what is recent in a log. -/
structure Holds (histories : Histories) (measurements : List Measurement) : Prop where
  nodup : (histories.map Prod.fst).Nodup
  isHistory : ∀ testName,
    IsHistory testName (recent measurements testName) (Assoc.get? histories testName)

/-- The file has what is recent in a log. -/
def Stores (measurements : List Measurement) : JsonFile → Prop
  | .json content =>
    ∃ histories, content = Histories.toJson histories ∧ Holds histories measurements
  | _ => measurements = []

/-- The file, the process and its threads have what is recent in their logs. -/
structure Shows (s : Sessions) (log : Log) : Prop where
  stored : Stores log.stored s.runtimeFile
  known : Option.Rel Holds s.runtimeHistory log.known
  saving : List.Forall₂ (fun data saved => Stores saved (.json data)) s.saving log.saving

theorem shows_new : Shows Sessions.new Log.new :=
  ⟨rfl, .none, .nil⟩

theorem holds_nil : Holds [] [] :=
  ⟨List.nodup_nil, fun _ => rfl⟩

/-- `add_runtime` keeps the last fifty. -/
theorem addRuntime_of_isLong (history : RuntimeHistory) {duration : Rat}
    (hlong : minRuntimeThreshold ≤ duration) (now : String) :
    history.addRuntime duration now =
      { history with
        runtimes := (history.runtimes ++ [duration]).rtake maxRuntimeHistory
        lastUpdated := .str now } := by
  unfold RuntimeHistory.addRuntime List.rtake
  rw [if_pos hlong]
  dsimp only
  split
  · rfl
  · rename_i hlen
    have hdrop : (history.runtimes ++ [duration]).length - maxRuntimeHistory = 0 := by omega
    rw [hdrop, List.drop_zero]

theorem map_rtake {α β : Type} (f : α → β) (l : List α) (n : Nat) :
    (l.rtake n).map f = (l.map f).rtake n := by
  unfold List.rtake
  rw [List.map_drop, List.length_map]

theorem getLast?_rtake_concat {α : Type} (l : List α) (a : α) {n : Nat} (hn : 0 < n) :
    ((l ++ [a]).rtake n).getLast? = some a := by
  obtain ⟨m, rfl⟩ := Nat.exists_eq_succ_of_ne_zero (Nat.ne_of_gt hn)
  rw [List.rtake_concat_succ, List.getLast?_concat]

/-- The history of the test that was measured. -/
theorem isHistory_addRuntime {testName created : String} {measurements : List Measurement}
    {found : Option RuntimeHistory}
    (h : IsHistory testName (recent measurements testName) found) (duration : Rat) (now : String) :
    IsHistory testName (recent (measurements ++ [⟨testName, duration, now⟩]) testName)
      (some ((found.getD ⟨.str testName, [], .str created⟩).addRuntime duration now)) := by
  have hfound : IsHistory testName (recent measurements testName)
      (some (found.getD ⟨.str testName, [], .str created⟩)) := by
    cases found with
    | some history => exact h
    | none =>
      have hnil : recent measurements testName = [] := h
      rw [hnil]
      exact ⟨rfl, rfl, by simp⟩
  obtain ⟨hname, hruntimes, hlast⟩ := hfound
  by_cases hlong : minRuntimeThreshold ≤ duration
  · have hcounts : Measurement.isLong ⟨testName, duration, now⟩ := by
      simpa [Measurement.isLong] using hlong
    rw [addRuntime_of_isLong _ hlong, recent_of_isLong rfl hcounts]
    refine ⟨hname, ?_, ?_⟩
    · rw [map_rtake, List.map_append, ← hruntimes]
      rfl
    · rw [getLast?_rtake_concat _ _ (by decide)]
      rintro measurement ⟨rfl⟩
      rfl
  · rw [recent_of_not_isLong (by simp [Measurement.isLong, hlong])]
    unfold RuntimeHistory.addRuntime
    rw [if_neg hlong]
    exact ⟨hname, hruntimes, hlast⟩

/-- What is known after an attempt of a test. -/
theorem holds_measure {histories : Histories} {measurements : List Measurement}
    (h : Holds histories measurements) (testName : String) (duration : Rat)
    (created now : String) :
    Holds
      (Assoc.set histories testName
        (((Assoc.get? histories testName).getD ⟨.str testName, [], .str created⟩).addRuntime
          duration now))
      (measurements ++ [⟨testName, duration, now⟩]) := by
  refine ⟨Assoc.nodup_set _ h.nodup, fun testName' => ?_⟩
  by_cases ht : testName = testName'
  · subst ht
    rw [Assoc.get?_set_self]
    exact isHistory_addRuntime (h.isHistory testName) duration now
  · rw [Assoc.get?_set_of_ne ht, recent_of_not_isLong (by simp [ht])]
    exact h.isHistory testName'

/-! ## Reading what was written -/

/-- The histories that are read again. -/
def Histories.kept (histories : Histories) : Histories :=
  histories.filter fun entry => !entry.2.runtimes.isEmpty

theorem mapM_longRuntime {runtimes : List Rat}
    (h : ∀ runtime ∈ runtimes, minRuntimeThreshold ≤ runtime) :
    (runtimes.map Json.num).mapM longRuntime = .ok (runtimes.map some) := by
  induction runtimes with
  | nil => rfl
  | cons runtime runtimes ih =>
    have hlong := h runtime List.mem_cons_self
    have hrest := ih fun r hr => h r (List.mem_cons_of_mem _ hr)
    rw [List.map_cons, List.mapM_cons, hrest, longRuntime, if_pos hlong]
    rfl

theorem filteredRuntimes_asdict {history : RuntimeHistory}
    (h : ∀ runtime ∈ history.runtimes, minRuntimeThreshold ≤ runtime) :
    filteredRuntimes history.asdict = .ok history.runtimes := by
  have hitem : item history.asdict "runtimes" = .ok (.arr (history.runtimes.map .num)) := rfl
  have hfilter : (history.runtimes.map some).filterMap id = history.runtimes := by
    simp [List.filterMap_map]
  unfold filteredRuntimes
  simp only [hitem, bind, Except.bind, elementsOf, mapM_longRuntime h, pure, Except.pure, hfilter]

theorem loadHistory_asdict {entry : String × RuntimeHistory}
    (h : ∀ runtime ∈ entry.2.runtimes, minRuntimeThreshold ≤ runtime)
    (loaded : Histories × Nat) :
    loadHistory loaded (entry.1, entry.2.asdict) =
      .ok (if entry.2.runtimes.isEmpty then loaded
        else (Assoc.set loaded.1 entry.1 entry.2, loaded.2 + 1)) := by
  have hname : item entry.2.asdict "test_name" = .ok entry.2.testName := rfl
  have hlast : item entry.2.asdict "last_updated" = .ok entry.2.lastUpdated := rfl
  unfold loadHistory
  simp only [filteredRuntimes_asdict h, bind, Except.bind, hname, hlast, pure, Except.pure]
  split
  · rfl
  · rfl

/-- The histories are read on top of others. -/
theorem foldlM_loadHistory {histories : Histories}
    (h : ∀ entry ∈ histories, ∀ runtime ∈ entry.2.runtimes, minRuntimeThreshold ≤ runtime)
    (loaded : Histories) (n : Nat)
    (hnodup : (loaded.map Prod.fst ++ histories.map Prod.fst).Nodup) :
    (histories.map fun entry => (entry.1, entry.2.asdict)).foldlM loadHistory (loaded, n) =
      .ok (loaded ++ histories.kept, n + histories.kept.length) := by
  induction histories generalizing loaded n with
  | nil => simp [Histories.kept, pure, Except.pure]
  | cons entry histories ih =>
    have hrest := fun e (he : e ∈ histories) => h e (List.mem_cons_of_mem _ he)
    rw [List.map_cons, List.foldlM_cons, loadHistory_asdict (h entry List.mem_cons_self)]
    have hfresh : entry.1 ∉ loaded.map Prod.fst := by
      intro hmem
      exact (List.nodup_append.1 hnodup).2.2 _ hmem _ (by simp) rfl
    unfold Histories.kept
    rw [List.filter_cons]
    by_cases hempty : entry.2.runtimes.isEmpty
    · rw [if_pos hempty, if_neg (by simp [hempty])]
      have hsub : (loaded.map Prod.fst ++ histories.map Prod.fst).Nodup :=
        hnodup.sublist (List.Sublist.append_left (List.sublist_cons_self _ _) _)
      exact ih hrest loaded n hsub
    · rw [if_neg hempty, if_pos (by simp [hempty])]
      have hset : Assoc.set loaded entry.1 entry.2 = loaded ++ [entry] :=
        Assoc.set_of_notMem entry.2 hfresh
      have hsplit := ih hrest (loaded ++ [entry]) (n + 1) (by simpa using hnodup)
      simp only [bind, Except.bind, hset]
      rw [hsplit]
      simp only [Histories.kept, List.append_assoc, List.singleton_append, List.length_cons]
      congr 2
      omega

section

variable {histories : Histories} {measurements : List Measurement}

/-- Nothing short is ever in a history. -/
theorem Holds.isLong (h : Holds histories measurements) {testName : String}
    {history : RuntimeHistory} (hfound : Assoc.get? histories testName = some history) :
    ∀ runtime ∈ history.runtimes, minRuntimeThreshold ≤ runtime := by
  have hhistory := h.isHistory testName
  rw [hfound] at hhistory
  intro runtime hmem
  rw [hhistory.2.1] at hmem
  obtain ⟨measurement, hin, rfl⟩ := List.mem_map.1 hmem
  simpa [Measurement.isLong] using isLong_of_mem_recent hin

/-- What is left out is recent of no test. -/
theorem Holds.kept (h : Holds histories measurements) : Holds histories.kept measurements := by
  refine ⟨h.nodup.sublist (List.filter_sublist.map _), fun testName => ?_⟩
  have hhistory := h.isHistory testName
  unfold Histories.kept
  rw [Assoc.get?_filter h.nodup]
  cases hfound : Assoc.get? histories testName with
  | none =>
    rw [hfound] at hhistory
    exact hhistory
  | some history =>
    rw [hfound] at hhistory
    cases hempty : history.runtimes.isEmpty with
    | true =>
      have hnil : (recent measurements testName).map Measurement.duration = [] := by
        rw [← hhistory.2.1]
        exact List.isEmpty_iff.1 hempty
      simpa [Option.filter, hempty, IsHistory] using hnil
    | false => simpa [Option.filter, hempty] using hhistory

/-- A process that reads the file loads something if any measurement counts. -/
theorem Holds.kept_ne_nil_iff (h : Holds histories measurements) :
    histories.kept ≠ [] ↔ measurements.any Measurement.isLong := by
  rw [← exists_recent_iff]
  constructor
  · intro hne
    obtain ⟨entry, hmem⟩ := List.exists_mem_of_ne_nil _ hne
    obtain ⟨hin, hsome⟩ := List.mem_filter.1 hmem
    have hhistory := h.isHistory entry.1
    rw [Assoc.get?_of_mem h.nodup hin] at hhistory
    refine ⟨entry.1, fun hnil => ?_⟩
    have hruntimes := hhistory.2.1
    rw [hnil] at hruntimes
    simp [hruntimes] at hsome
  · rintro ⟨testName, hne⟩ hnil
    have hhistory := h.kept.isHistory testName
    rw [hnil] at hhistory
    exact hne hhistory

end

/-! ## The steps -/

/-- What was built of the histories has what they have. -/
theorem Holds.stores {histories : Histories} {measurements : List Measurement}
    (h : Holds histories measurements) : Stores measurements (.json histories.toJson) :=
  ⟨histories, rfl, h⟩

/-- A write leaves the histories, and in the file what it leaves in the log. -/
theorem exec_safeJsonSave (data : Json) (write : Write) (manager : StateManager) :
    ((safeJsonSave data write).exec manager).1.isOk = !write.raises ∧
      ((safeJsonSave data write).exec manager).2.runtimeHistory = manager.runtimeHistory ∧
      ∀ stored saved, Stores stored manager.runtimeFile → Stores saved (.json data) →
        Stores (write.leaves stored saved)
          ((safeJsonSave data write).exec manager).2.runtimeFile := by
  cases write with
  | done => exact ⟨rfl, rfl, fun _ _ _ hsaved => hsaved⟩
  | refused => exact ⟨rfl, rfl, fun _ _ hstored _ => hstored⟩
  | torn => exact ⟨rfl, rfl, fun _ _ _ _ => rfl⟩
  | noDirectory => exact ⟨rfl, rfl, fun _ _ _ _ => rfl⟩

/-- A process that writes by itself. -/
theorem shows_save {manager : StateManager} {stored known : List Measurement}
    (hstored : Stores stored manager.runtimeFile) (hknown : Holds manager.runtimeHistory known)
    (write : Write) :
    Shows (Sessions.after (saveRuntimeHistory write) manager)
      ⟨write.leaves stored known, if write.raises then none else some known, []⟩ := by
  obtain ⟨-, -, hfile⟩ := exec_safeJsonSave manager.runtimeHistory.toJson write manager
  have hfile := hfile stored known hstored hknown.stores
  cases write with
  | done => exact ⟨hfile, .some hknown, .nil⟩
  | refused => exact ⟨hfile, .some hknown, .nil⟩
  | torn => exact ⟨hfile, .some hknown, .nil⟩
  | noDirectory => exact ⟨hfile, .none, .nil⟩

theorem loadHistories_toJson {histories : Histories} {measurements : List Measurement}
    (h : Holds histories measurements) :
    loadHistories [] histories.toJson = .ok (histories.kept, histories.kept.length) := by
  have hlong : ∀ entry ∈ histories, ∀ runtime ∈ entry.2.runtimes,
      minRuntimeThreshold ≤ runtime :=
    fun entry hmem => h.isLong (Assoc.get?_of_mem h.nodup hmem)
  have hload := foldlM_loadHistory hlong [] 0 (by simpa using h.nodup)
  rw [List.nil_append, Nat.zero_add] at hload
  exact hload

/-- A process reads what a write left. -/
theorem after_load {histories : Histories} {measurements : List Measurement}
    (h : Holds histories measurements) (write : Write) :
    Sessions.after (loadRuntimeHistory true write) ⟨.json histories.toJson, []⟩ =
      if histories.kept = [] then ⟨.json histories.toJson, some [], []⟩
      else Sessions.after (saveRuntimeHistory write)
        ⟨.json histories.toJson, histories.kept⟩ := by
  have hload := loadHistories_toJson h
  cases histories with
  | nil => rfl
  | cons entry histories =>
    have htruthy : truthy (Histories.toJson (entry :: histories)) = true := rfl
    generalize Histories.toJson (entry :: histories) = content at hload htruthy ⊢
    generalize Histories.kept (entry :: histories) = kept at hload ⊢
    have hprogram : (loadRuntimeHistory true write).exec ⟨.json content, []⟩ =
        (do if 0 < kept.length then let _ ← saveRuntimeHistory write : ManagerM Unit).exec
          ⟨.json content, kept⟩ := by
      unfold loadRuntimeHistory
      rw [Program.exec_bind]
      change Program.exec (if truthy content = true then _ else _) _ = _
      rw [if_pos htruthy, hload, Program.exec_bind]
      rfl
    unfold Sessions.after
    rw [hprogram]
    cases kept with
    | nil => rfl
    | cons first kept => cases write <;> rfl

/-- A process starts from the recent measurements in the file. -/
theorem shows_start {file : JsonFile} {stored : List Measurement} (h : Stores stored file)
    (readable : Bool) (write : Write) :
    Shows (Sessions.after (loadRuntimeHistory readable write) ⟨file, []⟩)
      (Log.start stored readable write) := by
  cases readable with
  | false => exact ⟨h, .some holds_nil, .nil⟩
  | true =>
    cases file with
    | missing =>
      obtain rfl : stored = [] := h
      exact ⟨rfl, .some holds_nil, .nil⟩
    | unreadable =>
      obtain rfl : stored = [] := h
      exact ⟨rfl, .some holds_nil, .nil⟩
    | json content =>
      obtain ⟨histories, rfl, hhistories⟩ := h
      have hstores : Stores stored (.json histories.toJson) := ⟨histories, rfl, hhistories⟩
      have hkept := hhistories.kept
      have hiff := hhistories.kept_ne_nil_iff
      rw [after_load hhistories, Log.start]
      simp only [if_true]
      split
      · rename_i hnil
        rw [hnil] at hkept hiff
        rw [if_neg fun hany => hiff.2 hany rfl]
        exact ⟨hstores, .some hkept, .nil⟩
      · rename_i hne
        rw [if_pos (hiff.1 hne)]
        exact shows_save hstores hkept write

theorem forall₂_eraseIdx {α β : Type} {R : α → β → Prop} {as : List α} {bs : List β}
    (h : List.Forall₂ R as bs) (i : Nat) : List.Forall₂ R (as.eraseIdx i) (bs.eraseIdx i) := by
  rw [List.eraseIdx_eq_take_drop_succ, List.eraseIdx_eq_take_drop_succ]
  exact List.rel_append (List.forall₂_take i h) (List.forall₂_drop (i + 1) h)

theorem forall₂_getElem? {α β : Type} {R : α → β → Prop} {as : List α} {bs : List β}
    (h : List.Forall₂ R as bs) (i : Nat) : Option.Rel R as[i]? bs[i]? := by
  induction h generalizing i with
  | nil => exact .none
  | cons hab _ ih =>
    cases i with
    | zero => exact .some hab
    | succ i => exact ih i

/-- One of the threads writes what it has built. -/
theorem shows_write {s : Sessions} {log : Log} (h : Shows s log) {histories : Histories}
    {known : List Measurement} (hknown : Holds histories known) {place : Nat} {data : Json}
    {saved : List Measurement} (hsaved : Stores saved (.json data)) (write : Write)
    (inParallel : Bool) :
    let run := (safeJsonSave data write).exec ⟨s.runtimeFile, histories⟩
    Shows
      { runtimeFile := run.2.runtimeFile
        runtimeHistory := if run.1.isOk || inParallel then some run.2.runtimeHistory else none
        saving := if run.1.isOk || inParallel then s.saving.eraseIdx place else [] }
      { stored := write.leaves log.stored saved
        known := if !write.raises || inParallel then some known else none
        saving := if !write.raises || inParallel then log.saving.eraseIdx place else [] } := by
  obtain ⟨hok, hkept, hfile⟩ := exec_safeJsonSave data write ⟨s.runtimeFile, histories⟩
  dsimp only
  rw [hok, hkept]
  cases !write.raises || inParallel with
  | true => exact ⟨hfile _ _ h.stored hsaved, .some hknown, forall₂_eraseIdx h.saving place⟩
  | false => exact ⟨hfile _ _ h.stored hsaved, .none, .nil⟩

/-- Whatever a process does, the histories show the logs. -/
theorem shows_step (s : Sessions) (log : Log) (l : SessionLabel) (h : Shows s log) :
    Option.Rel Shows (s.step l) (log.step l) := by
  cases l with
  | start readable write => exact .some (shows_start h.stored readable write)
  | add testName duration created now =>
    refine Transition.rel_map h.known fun histories known hknown => ?_
    exact ⟨h.stored, .some (holds_measure hknown testName duration created now), h.saving⟩
  | take =>
    refine Transition.rel_map h.known fun histories known hknown => ?_
    exact ⟨h.stored, h.known, List.rel_append h.saving (.cons hknown.stores .nil)⟩
  | write place write inParallel =>
    refine Transition.rel_bind h.known fun histories known hknown => ?_
    refine Transition.rel_map (forall₂_getElem? h.saving place) fun data saved hsaved => ?_
    exact shows_write h hknown hsaved write inParallel

/-! ## Runs -/

/-- In every run of processes that start, measure tests and end at any time, in which the threads
of parallel attempts add, build and write in any order and whether reads and writes succeed or not,
the histories that a process knows and those in the file are the recent measurements of the
logs. -/
theorem runtimes_of_logs (ls : List SessionLabel) :
    Option.Rel Shows (Transition.run Sessions.step Sessions.new ls)
      (Transition.run Log.step Log.new ls) :=
  Transition.run_rel shows_step shows_new ls

/-- A thread that writes late takes what another has measured out of the file. -/
example :
    let labels := [.start true .done, .add "smoke" 45 "10:00" "10:01", .take,
      .add "tls" 60 "10:01" "10:02", .take, .write 1 .done true, .write 0 .done true,
      .start true .done]
    ((Transition.run Sessions.step Sessions.new labels).bind fun s =>
      s.runtimeHistory.map fun histories =>
        histories.map fun entry => (entry.1, entry.2.runtimes)) = some [("smoke", [45])] := by
  decide

/-! ## Processes without parallel attempts -/

/-- What a process does one after the other. -/
inductive Call where
  | loadRuntimeHistory
  | updateRuntimeHistory (testName : String) (duration : Rat) (created now : String)

/-- Nothing goes wrong with the file. -/
def Call.steps : Call → List SessionLabel
  | .loadRuntimeHistory => [.start true .done]
  | .updateRuntimeHistory testName duration created now =>
    [.add testName duration created now, .take, .write 0 .done false]

/-- The measurements of all processes. -/
def measurementsOf (calls : List Call) : List Measurement :=
  calls.filterMap fun
    | .loadRuntimeHistory => none
    | .updateRuntimeHistory testName duration _ now => some ⟨testName, duration, now⟩

/-- Nothing is lost between processes. -/
structure Log.IsAll (measurements : List Measurement) (log : Log) : Prop where
  stored : log.stored = measurements
  known : ∀ known ∈ log.known, known = measurements
  saving : log.saving = []

theorem isAll_call {measurements : List Measurement} {log log' : Log} {call : Call}
    (h : log.IsAll measurements) (hs : Transition.run Log.step log call.steps = some log') :
    log'.IsAll (measurements ++ measurementsOf [call]) := by
  cases call with
  | loadRuntimeHistory =>
    have hstart : log.step (.start true .done) = some log' := by
      simpa [Call.steps, Transition.run_cons] using hs
    obtain rfl := Option.some.inj hstart
    have hnone : measurementsOf [.loadRuntimeHistory] = [] := rfl
    rw [hnone, List.append_nil, Log.start]
    simp only [if_true]
    split
    · exact ⟨h.stored, fun known hk => (Option.some.inj hk).symm.trans h.stored, rfl⟩
    · exact ⟨h.stored, fun known hk => (Option.some.inj hk).symm.trans h.stored, rfl⟩
  | updateRuntimeHistory testName duration created now =>
    obtain ⟨stored, known, saving⟩ := log
    obtain rfl : saving = [] := h.saving
    obtain ⟨added, hadded, hrest⟩ := Transition.run_cons_eq_some.1 hs
    obtain ⟨known, rfl, rfl⟩ := Option.map_eq_some_iff.1 hadded
    obtain rfl : known = measurements := h.known known rfl
    obtain rfl := Option.some.inj hrest
    exact ⟨rfl, fun known hk => (Option.some.inj hk).symm, rfl⟩

theorem isAll_calls {calls : List Call} {measurements : List Measurement} {log log' : Log}
    (h : log.IsAll measurements)
    (hrun : Transition.run Log.step log (calls.flatMap Call.steps) = some log') :
    log'.IsAll (measurements ++ measurementsOf calls) := by
  induction calls generalizing measurements log with
  | nil =>
    obtain rfl := Option.some.inj hrun
    simpa [measurementsOf] using h
  | cons call calls ih =>
    obtain ⟨next, hcall, hcalls⟩ := Transition.run_append_eq_some.1 hrun
    have happend : measurementsOf (call :: calls) = measurementsOf [call] ++ measurementsOf calls :=
      List.filterMap_append (l := [call])
    rw [happend, ← List.append_assoc]
    exact ih (isAll_call h hcall) hcalls

/-- If nothing goes wrong with the file and there are no parallel attempts, every process knows
the recent measurements that all processes before it have made, and its own. -/
theorem runtimes_of_measurements {calls : List Call} {s : Sessions}
    (h : Transition.run Sessions.step Sessions.new (calls.flatMap Call.steps) = some s) :
    Stores (measurementsOf calls) s.runtimeFile ∧
      ∀ histories ∈ s.runtimeHistory, Holds histories (measurementsOf calls) := by
  have hrel := Transition.run_rel shows_step shows_new (calls.flatMap Call.steps)
  rw [h] at hrel
  generalize hlog : Transition.run Log.step Log.new (calls.flatMap Call.steps) = result at hrel
  obtain @⟨_, log, hshows⟩ := hrel
  have hnew : Log.new.IsAll [] := ⟨rfl, by simp [Log.new], rfl⟩
  have hall : log.IsAll (measurementsOf calls) := isAll_calls hnew hlog
  refine ⟨hall.stored ▸ hshows.stored, fun histories hmem => ?_⟩
  have hknown := hshows.known
  rw [Option.mem_def.1 hmem] at hknown
  have hmeasured := hall.known
  generalize log.known = known at hknown hmeasured
  obtain @⟨_, measurements, hholds⟩ := hknown
  rw [← hmeasured measurements rfl]
  exact hholds

end CommonsOperator.AutoRetryTests
