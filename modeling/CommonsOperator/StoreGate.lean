import CommonsOperator.DelayedInit
import CommonsOperator.Reflector
import CommonsOperator.RestarterAnnotations

/-!
# The gate of the stores

`start` hands the reader of the ConfigMap store to the getters of `ctx.cms` when the watch
yields its first item, whatever that is, and does the same for the Secrets. `System` is one
such watch : its reflector, the initializer held by the `inspect` closure (`Gate`), and the
`DelayedInit` that any number of tasks poll. Each item reaches the store before the closure.

A listing is published at its end only, so a poll between the first item and the end of the
first listing gets a store that has not been filled. `listed_before_resolved_iff` : these
polls are the only ones that do.
-/

set_option linter.unusedSectionVars false

namespace CommonsOperator.StoreGate

open StatefulSetController Transition

variable {Task : Type*} [DecidableEq Task]

/-- The initializer that the `inspect` closure holds. -/
inductive Gate where
  /-- `cm_store_tx` is still there. -/
  | armed
  /-- It was taken at the first item, and the reader was handed over. -/
  | opened
  /-- It was dropped with the stream, before any item. -/
  | dropped
  deriving DecidableEq

/-- What the getters are to get. -/
def Gate.outcome : Gate → Option (Except InitDropped Unit)
  | armed => none
  | opened => some (.ok ())
  | dropped => some (.error .initDropped)

/-- A watch and the getters of its store. The value the getters are handed is the reader of
the store, which reads `reflector.published` when it is used. -/
structure System (Task : Type*) where
  reflector : Reflector ObjectRef PartialObjectMeta
  gate : Gate
  delayed : DelayedInit.System Unit Task

/-- Nothing has happened yet. -/
def System.new : System Task :=
  ⟨Reflector.new, .armed, DelayedInit.System.new⟩

inductive Label (Task : Type*) where
  /-- The watch yields an item, or the message of an error. -/
  | item (item : Except String (WatchEvent PartialObjectMeta))
  /-- The stream is dropped before it yields an item. -/
  | drop
  /-- A task begins a poll of `get`. -/
  | readLocked (t : Task)
  /-- The task goes on under the write lock. -/
  | writeLocked (t : Task)

/-- The reflector's part of an item. -/
def observeItem (reflector : Reflector ObjectRef PartialObjectMeta) :
    Except String (WatchEvent PartialObjectMeta) → Reflector ObjectRef PartialObjectMeta
  | .ok event => reflector.observe objectRef event
  | .error _ => reflector

def step (s : System Task) : Label Task → Option (System Task)
  | .item item =>
    let s := { s with reflector := observeItem s.reflector item }
    match s.gate with
    | .armed =>
      (DelayedInit.step s.delayed (.init ())).map fun delayed => { s with gate := .opened, delayed }
    | .opened => some s
    | .dropped => none
  | .drop =>
    if s.gate = .armed then
      (DelayedInit.step s.delayed .dropInitializer).map fun delayed =>
        { s with gate := .dropped, delayed }
    else none
  | .readLocked t =>
    (DelayedInit.step s.delayed (.readLocked t)).map fun delayed => { s with delayed }
  | .writeLocked t =>
    (DelayedInit.step s.delayed (.writeLocked t)).map fun delayed => { s with delayed }

/-- What the poll returns that the step ends. -/
def returned (s : System Task) : Label Task → Option (Task × Poll (Except InitDropped Unit))
  | .readLocked t => DelayedInit.returned s.delayed (.readLocked t)
  | .writeLocked t => DelayedInit.returned s.delayed (.writeLocked t)
  | _ => none

/-- A poll that resolves to the store finds that some listing was published. -/
def ListedBeforeResolved (s : System Task) (l : Label Task) : Prop :=
  ∀ t, returned s l = some (t, .ready (.ok ())) → s.reflector.ready = true

/-- No poll takes the write lock after the first item and before the first listing was
published. -/
def QuietUntilListed (s : System Task) (l : Label Task) : Prop :=
  s.gate = .opened → s.reflector.ready = false → ∀ t, l ≠ .writeLocked t

/-! ## The gate and the getters -/

/-- The gate is open exactly if the getters are handed the reader. -/
structure GateInv (s : System Task) : Prop where
  delayed : DelayedInit.Inv s.delayed
  settled : DelayedInit.settled s.delayed = s.gate.outcome

theorem gateInv_new : GateInv (System.new : System Task) :=
  ⟨DelayedInit.inv_new, rfl⟩

theorem gateInv_step {s s' : System Task} {l : Label Task} (hs : GateInv s)
    (h : step s l = some s') : GateInv s' := by
  cases l with
  | item item =>
    simp only [step] at h
    have hset := hs.settled
    cases hg : s.gate with
    | armed =>
      simp only [hg, Option.map_eq_some_iff] at h
      obtain ⟨delayed, hd, rfl⟩ := h
      obtain ⟨hinv, hset', -⟩ := DelayedInit.step_settled hs.delayed hd
      rw [hg] at hset
      exact ⟨hinv, by rw [hset', hset]; rfl⟩
    | opened =>
      simp only [hg, Option.some.injEq] at h
      subst h
      exact ⟨hs.delayed, hg ▸ hset⟩
    | dropped => simp [hg] at h
  | drop =>
    simp only [step, Option.ite_none_right_eq_some, Option.map_eq_some_iff] at h
    obtain ⟨hg, delayed, hd, rfl⟩ := h
    obtain ⟨hinv, hset', -⟩ := DelayedInit.step_settled hs.delayed hd
    have hset := hs.settled
    rw [hg] at hset
    exact ⟨hinv, by rw [hset', hset]; rfl⟩
  | readLocked t =>
    obtain ⟨delayed, hd, rfl⟩ := Option.map_eq_some_iff.1 h
    obtain ⟨hinv, hset', -⟩ := DelayedInit.step_settled hs.delayed hd
    exact ⟨hinv, by rw [hset', hs.settled]; simp [DelayedInit.Label.settles]⟩
  | writeLocked t =>
    obtain ⟨delayed, hd, rfl⟩ := Option.map_eq_some_iff.1 h
    obtain ⟨hinv, hset', -⟩ := DelayedInit.step_settled hs.delayed hd
    exact ⟨hinv, by rw [hset', hs.settled]; simp [DelayedInit.Label.settles]⟩

/-- A poll that resolves to the store finds the gate open. -/
theorem gate_of_returned {s : System Task} (hs : GateInv s) {l : Label Task} {t : Task}
    (h : returned s l = some (t, .ready (.ok ()))) : s.gate = .opened := by
  have hset : DelayedInit.settled s.delayed = some (.ok ()) := by
    cases l with
    | readLocked t => exact DelayedInit.settled_of_returned (l := .readLocked t) h
    | writeLocked t => exact DelayedInit.settled_of_returned (l := .writeLocked t) h
    | _ => cases h
  have hgate := hs.settled
  rw [hset] at hgate
  cases hg : s.gate <;> simp [hg, Gate.outcome] at hgate ⊢

/-! ## The time between the first item and the first listing -/

/-- A poll under the write lock resolves to the store once the gate is open. -/
theorem returned_writeLocked {s : System Task} (hs : GateInv s) (hg : s.gate = .opened)
    (t : Task) : returned s (.writeLocked t) = some (t, .ready (.ok ())) := by
  have hset : DelayedInit.settled s.delayed = some (.ok ()) := by rw [hs.settled, hg]; rfl
  simp only [returned, DelayedInit.returned]
  cases hst : s.delayed.state with
  | ready v =>
    simp only [DelayedInit.settled, hst, Option.some.injEq] at hset
    rw [hset]
  | waiting =>
    simp only [DelayedInit.settled, hst, Option.map_eq_some_iff] at hset
    obtain ⟨r, ho, hr⟩ := hset
    simp only [Oneshot.poll_of_outcome ho, Poll.map, hr]

/-- Nothing is memoized before the first listing. -/
structure QuietInv (s : System Task) : Prop where
  gate : GateInv s
  waiting : s.gate = .opened → s.reflector.ready = false → s.delayed.state = .waiting

theorem quietInv_new : QuietInv (System.new : System Task) :=
  ⟨gateInv_new, fun h => nomatch h⟩

theorem quietInv_step {s s' : System Task} {l : Label Task} (hs : QuietInv s)
    (hl : QuietUntilListed s l) (h : step s l = some s') : QuietInv s' := by
  refine ⟨gateInv_step hs.gate h, ?_⟩
  cases l with
  | item item =>
    simp only [step] at h
    cases hg : s.gate with
    | armed =>
      simp only [hg, Option.map_eq_some_iff] at h
      obtain ⟨delayed, hd, rfl⟩ := h
      obtain ⟨hc, -, hd', -⟩ := DelayedInit.step_initializer rfl hd
      intro _ _
      rw [hd']
      exact hs.gate.delayed.waiting hc
    | opened =>
      simp only [hg, Option.some.injEq] at h
      subst h
      intro _ hr
      refine hs.waiting hg (Bool.eq_false_iff.2 fun hready => ?_)
      have : (observeItem s.reflector item).ready = true := by
        cases item with
        | ok event => exact Reflector.ready_observe hready
        | error message => exact hready
      exact nomatch this.symm.trans hr
    | dropped => simp [hg] at h
  | drop =>
    simp only [step, Option.ite_none_right_eq_some, Option.map_eq_some_iff] at h
    obtain ⟨-, delayed, -, rfl⟩ := h
    exact fun hg => nomatch hg
  | readLocked t =>
    obtain ⟨delayed, hd, rfl⟩ := Option.map_eq_some_iff.1 h
    obtain ⟨-, p, rfl⟩ := DelayedInit.step_readLocked hd
    exact hs.waiting
  | writeLocked t =>
    obtain ⟨delayed, hd, rfl⟩ := Option.map_eq_some_iff.1 h
    exact fun hg hr => (hl hg hr t rfl).elim

theorem listedBeforeResolved_of_quiet {s : System Task} (hs : QuietInv s) {l : Label Task}
    (hl : QuietUntilListed s l) : ListedBeforeResolved s l := by
  intro t hret
  by_contra hr
  have hg := gate_of_returned hs.gate hret
  have hw := hs.waiting hg (Bool.eq_false_iff.2 hr)
  cases l with
  | readLocked t' => simp [returned, DelayedInit.returned, hw] at hret
  | writeLocked t' => exact hl hg (Bool.eq_false_iff.2 hr) t' rfl
  | _ => cases hret

theorem quiet_of_listedBeforeResolved {s : System Task} (hs : GateInv s) {l : Label Task}
    (hl : ListedBeforeResolved s l) : QuietUntilListed s l := by
  rintro hg hr t rfl
  exact nomatch (hl t (returned_writeLocked hs hg t)).symm.trans hr

/-! ## Objects that are there throughout -/

/-- The item keeps the object under `ref`, with its uid and its resource version. -/
def KeepsVersion (ref : ObjectRef) (s : System Task) (l : Label Task) : Prop :=
  ∀ event, l = .item (.ok event) →
    Reflector.Keeps objectRef ref (fun object => version (some object) ≠ none)
      s.reflector event

/-- What a step does to the reflector. -/
theorem reflector_step {s s' : System Task} {l : Label Task} (h : step s l = some s') :
    (∃ event, l = .item (.ok event) ∧ s'.reflector = s.reflector.observe objectRef event) ∨
      s'.reflector = s.reflector := by
  cases l with
  | item item =>
    have hrefl : s'.reflector = observeItem s.reflector item := by
      simp only [step] at h
      split at h
      · obtain ⟨delayed, -, rfl⟩ := Option.map_eq_some_iff.1 h
        rfl
      · obtain rfl := Option.some.inj h
        rfl
      · cases h
    cases item with
    | ok event => exact Or.inl ⟨event, rfl, hrefl⟩
    | error message => exact Or.inr hrefl
  | drop =>
    simp only [step, Option.ite_none_right_eq_some, Option.map_eq_some_iff] at h
    obtain ⟨-, delayed, -, rfl⟩ := h
    exact Or.inr rfl
  | readLocked t =>
    obtain ⟨delayed, -, rfl⟩ := Option.map_eq_some_iff.1 h
    exact Or.inr rfl
  | writeLocked t =>
    obtain ⟨delayed, -, rfl⟩ := Option.map_eq_some_iff.1 h
    exact Or.inr rfl

theorem ready_run {s s' : System Task} {ls : List (Label Task)} (h : run step s ls = some s')
    (hr : s.reflector.ready = true) : s'.reflector.ready = true := by
  refine run_invariant (P := fun s => s.reflector.ready = true) (fun u l u' hu hstep => ?_) hr h
  rcases reflector_step hstep with ⟨event, -, he⟩ | he
  · rw [he]
    exact Reflector.ready_observe hu
  · rw [he]
    exact hu

theorem version_of_keepsVersion {ref : ObjectRef} {s : System Task} {ls : List (Label Task)}
    (hk : Along step (KeepsVersion ref) System.new ls) (h : run step System.new ls = some s)
    (hr : s.reflector.ready = true) : version (s.reflector.published ref) ≠ none := by
  have hinv : s.reflector.ready = true →
      ∃ object, s.reflector.published ref = some object ∧ version (some object) ≠ none := by
    refine hk.run_invariant (P := fun s => s.reflector.ready = true →
      ∃ object, s.reflector.published ref = some object ∧ version (some object) ≠ none) ?_
      (fun h => nomatch h) h
    intro u l u' hu hkeep hstep
    rcases reflector_step hstep with ⟨event, rfl, he⟩ | he
    · rw [he]
      exact Reflector.keeps_observe (hkeep event rfl) hu
    · rw [he]
      exact hu
  obtain ⟨object, hobject, hv⟩ := hinv hr
  rw [hobject]
  exact hv

/-- When the stores are listed before they are read. For every sequence of items and every
interleaving with polls, each poll that resolves to the store finds a listing published if
and only if no poll takes the write lock between the first item and the end of the first
listing. In a run that meets this condition, from the first poll that resolves on, no object
that is referenced, not ignored and there throughout is recorded as ignored. -/
theorem listed_before_resolved_iff (ls : List (Label Task)) :
    (Along step QuietUntilListed (System.new : System Task) ls ↔
      Along step ListedBeforeResolved System.new ls) ∧
    (Along step QuietUntilListed (System.new : System Task) ls →
      ∀ pre l post u t s, ls = pre ++ l :: post → run step System.new pre = some u →
        returned u l = some (t, .ready (.ok ())) → run step System.new ls = some s →
        ∀ kind sts ns name, References kind sts name → ¬Ignores kind sts name →
          Along step (KeepsVersion ⟨name, some ns⟩) System.new ls →
            recordedValue kind sts ns s.reflector.published name ≠ "changes-ignored") := by
  have hlisted : ∀ ls, Along step QuietUntilListed (System.new : System Task) ls →
      Along step ListedBeforeResolved System.new ls := fun ls =>
    along_of_invariant (fun _ _ _ hs hl h => quietInv_step hs hl h)
      (fun _ _ hs hl => listedBeforeResolved_of_quiet hs hl) quietInv_new
  refine ⟨⟨hlisted ls, ?_⟩, ?_⟩
  · exact along_of_invariant (fun _ _ _ hs _ h => gateInv_step hs h)
      (fun _ _ hs hl => quiet_of_listedBeforeResolved hs hl) gateInv_new
  · rintro hquiet pre l post u t s rfl hu hret hs kind sts ns name - hni hkeeps
    have hready : u.reflector.ready = true := (hlisted _ hquiet).at hu t hret
    obtain ⟨u', hu', hrest⟩ := run_append_eq_some.1 hs
    obtain rfl := Option.some.inj (hu.symm.trans hu')
    have hv := version_of_keepsVersion hkeeps hs (ready_run hrest hready)
    obtain ⟨v, hv⟩ := Option.ne_none_iff_exists'.1 hv
    rw [recordedValue, contains_ignored_eq_false hni, hv]
    exact annotationValue_ne v

/-- The ConfigMap `cfg`. -/
def cfg : PartialObjectMeta :=
  ⟨⟨some "cfg", some "prod", some "u", some "1", none, none⟩⟩

/-- An error, then the first listing, with `cfg` in it, and then the store is polled. -/
def listedFirst : List (Label Bool) :=
  [.item (.error "connection refused"), .item (.ok .init), .item (.ok (.initApply cfg)),
    .item (.ok .initDone), .readLocked true, .writeLocked true]

theorem quiet_listedFirst : Along step QuietUntilListed (System.new : System Bool) listedFirst := by
  refine ⟨nofun, ?_⟩
  rintro _ ⟨⟩
  refine ⟨fun _ _ => nofun, ?_⟩
  rintro _ ⟨⟩
  refine ⟨fun _ _ => nofun, ?_⟩
  rintro _ ⟨⟩
  refine ⟨fun _ _ => nofun, ?_⟩
  rintro _ ⟨⟩
  refine ⟨fun _ _ => nofun, ?_⟩
  rintro _ ⟨⟩
  exact ⟨fun _ => nofun, fun _ _ => trivial⟩

/-- An item that neither ends a listing nor speaks of a single object keeps every version. -/
theorem keepsVersion_of_listing {ref : ObjectRef} {s : System Bool} {l : Label Bool}
    (h : ∀ event, l = .item (.ok event) → event = .init ∨ ∃ object, event = .initApply object) :
    KeepsVersion ref s l := by
  intro event he
  rcases h event he with rfl | ⟨object, rfl⟩
  · exact ⟨nofun, nofun, nofun⟩
  · exact ⟨nofun, nofun, nofun⟩

theorem keepsVersion_listedFirst :
    Along step (KeepsVersion ⟨"cfg", some "prod"⟩) (System.new : System Bool) listedFirst := by
  refine ⟨keepsVersion_of_listing nofun, ?_⟩
  rintro _ ⟨⟩
  refine ⟨keepsVersion_of_listing fun _ he => by cases he; exact Or.inl rfl, ?_⟩
  rintro _ ⟨⟩
  refine ⟨keepsVersion_of_listing fun _ he => by cases he; exact Or.inr ⟨cfg, rfl⟩, ?_⟩
  rintro _ ⟨⟩
  refine ⟨?_, ?_⟩
  · rintro event ⟨⟩
    exact ⟨fun _ => ⟨cfg, rfl, by decide⟩, nofun, nofun⟩
  rintro _ ⟨⟩
  refine ⟨keepsVersion_of_listing nofun, ?_⟩
  rintro _ ⟨⟩
  exact ⟨keepsVersion_of_listing nofun, fun _ _ => trivial⟩

theorem listed_before_resolved_listedFirst :
    Along step ListedBeforeResolved (System.new : System Bool) listedFirst ∧
      ∃ s, run step (System.new : System Bool) listedFirst = some s ∧
        recordedValue .configMap (mountsConfigMap "web" "prod" "cfg") "prod" s.reflector.published
          "cfg" ≠ "changes-ignored" :=
  have h := listed_before_resolved_iff listedFirst
  ⟨h.1.1 quiet_listedFirst, _, rfl,
    h.2 quiet_listedFirst (listedFirst.take 5) _ [] _ true _ rfl rfl rfl rfl .configMap _ _ _
      (references_mountsConfigMap.2 ⟨rfl, rfl⟩) not_ignores_mountsConfigMap
      keepsVersion_listedFirst⟩

/-- The watch has found a ConfigMap, but its listing is not over, and the store is polled. -/
def polledWhileListing : List (Label Bool) :=
  [.item (.ok .init), .item (.ok (.initApply cfg)), .readLocked true, .writeLocked true]

theorem resolved_polledWhileListing :
    ¬∀ (ls : List (Label Bool)) s, run step System.new ls = some s →
      Along step ListedBeforeResolved System.new ls := by
  intro h
  have hready := ((((h polledWhileListing _ rfl).2 _ rfl).2 _ rfl).2 _ rfl).1 true rfl
  cases hready

end CommonsOperator.StoreGate
