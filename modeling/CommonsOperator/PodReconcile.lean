import CommonsOperator.Kubernetes
import CommonsOperator.Program

/-!
# Reconciling a Pod

`reconcile` reads the expiry annotations of a Pod and evicts it once the first of them is in
the past. What it does before the request is `decision`, a function of the Pod and the clock
(`exec_reconcile`). How a timestamp is parsed is a parameter, and what `kube` reports is its
message.
-/

set_option linter.unusedSectionVars false

namespace CommonsOperator.PodController

/-- `DateTime<FixedOffset>` : an instant in nanoseconds since the epoch, and the offset in
seconds it is displayed with. Only the instants are compared. -/
structure DateTime where
  instant : Int
  offset : Int

/-- The errors of the Pod controller. -/
inductive Error where
  | podHasNoName
  | podHasNoNamespace
  | unparsableExpiryTimestamp (source annotation value : String)
  | evictPod (source : String)

/-- The prefix of the annotations that say when a Pod expires. -/
def expiresAtPrefix : String :=
  "restarter.stackable.tech/expires-at."

/-! ## The expiry annotations -/

section

variable (parse : String → Except String DateTime)

/-- The expiry annotations, in the order of their keys. -/
def expiryAnnotations (annotations : Option (BTreeMap String String)) : List (String × String) :=
  (annotations.elim [] fun annotations => annotations.toList).filter fun entry =>
    startsWith entry.1 expiresAtPrefix

/-- An expiry annotation as a timestamp. -/
def parseExpiry (entry : String × String) : Except Error DateTime :=
  (parse entry.2).mapError fun source =>
    .unparsableExpiryTimestamp source entry.1 entry.2

/-- The order of the keys `(is_ok, ok)` : errors come before timestamps, and timestamps are
ordered by their instants. -/
def expiryLt : Except Error DateTime → Except Error DateTime → Bool
  | .error _, .ok _ => true
  | .ok expiresAt, .ok expiresAt' => expiresAt.instant < expiresAt'.instant
  | _, .error _ => false

/-- `Iterator::min_by_key` : the first element of which no other is less. -/
def minBy {α : Type*} (lt : α → α → Bool) : List α → Option α
  | [] => none
  | a :: as => some (as.foldl (fun least b => if lt b least then b else least) a)

/-- `Option::transpose`. -/
def transpose {E α : Type*} : Option (Except E α) → Except E (Option α)
  | none => .ok none
  | some (.ok a) => .ok (some a)
  | some (.error e) => .error e

/-- The soonest timestamp, if all of them can be parsed. -/
def podExpiresAt (annotations : Option (BTreeMap String String)) :
    Except Error (Option DateTime) :=
  transpose (minBy expiryLt ((expiryAnnotations annotations).map (parseExpiry parse)))

/-- Some expiry annotation is in the past. -/
def Expired (now : Int) (annotations : Option (BTreeMap String String)) : Prop :=
  ∃ entry ∈ expiryAnnotations annotations, ∃ expiresAt,
    parse entry.2 = .ok expiresAt ∧ expiresAt.instant < now

end

/-! ## Evictions -/

/-- `Preconditions`. -/
structure Preconditions where
  uid : Option String
  deriving DecidableEq

/-- `DeleteParams`. -/
structure DeleteParams where
  preconditions : Option Preconditions
  deriving DecidableEq

/-- `EvictParams`. -/
structure EvictParams where
  deleteOptions : Option DeleteParams
  deriving DecidableEq

/-- `EvictParams::default`. -/
instance : Inhabited EvictParams :=
  ⟨⟨none⟩⟩

/-- The eviction of the Pod `name` in the namespace `ns`. -/
structure EvictRequest where
  ns : String
  name : String
  params : EvictParams
  deriving DecidableEq

/-- The uid the request insists on. -/
def EvictRequest.uid (request : EvictRequest) : Option String :=
  request.params.deleteOptions.bind fun options =>
    options.preconditions.bind fun preconditions => preconditions.uid

/-- The API server acts on the Pod that has the name, whatever its uid, unless the request
insists on one. -/
def EvictRequest.admits (request : EvictRequest) (pod : PartialObjectMeta) : Bool :=
  request.uid.all fun uid => pod.metadata.uid == some uid

/-- The name the eviction is for. -/
def EvictRequest.target (request : EvictRequest) : ObjectRef :=
  ⟨request.name, some request.ns⟩

/-! ## The reconciler -/

/-- What the reconciler does about a Pod. -/
inductive Decision where
  | evict (request : EvictRequest)
  | finish (action : Action)
  deriving DecidableEq

/-- `OptionExt::context`. -/
def okOr {E α : Type*} (error : E) : Option α → Except E α
  | some a => .ok a
  | none => .error error

/-- `TimeDelta::to_std`, which fails for negative durations. -/
def toStd (nanoseconds : Int) : Option Nat :=
  if nanoseconds < 0 then none else some nanoseconds.toNat

section

variable (parse : String → Except String DateTime) (now : Int)

/-- `reconcile` up to its request. -/
def decision (pod : PartialObjectMeta) : Except Error Decision := do
  if pod.metadata.deletionTimestamp.isSome then
    return .finish .awaitChange
  match ← podExpiresAt parse pod.metadata.annotations with
  | none => return .finish .awaitChange
  | some expiresAt =>
    match toStd (expiresAt.instant - now) with
    | some timeUntilPodExpires => return .finish (.requeue timeUntilPodExpires)
    | none =>
      let ns ← okOr .podHasNoNamespace pod.metadata.ns
      let name ← okOr .podHasNoName pod.metadata.name
      return .evict ⟨ns, name, default⟩

/-- `reconcile`, on the state of the API server, which answers the request `evict`. -/
def reconcile {S : Type} (evict : EvictRequest → StateM S (Except String Unit))
    (pod : PartialObjectMeta) : Program S Error Action := do
  match ← MonadExcept.ofExcept (decision parse now pod) with
  | .evict request =>
    match ← evict request with
    | .ok () => return .awaitChange
    | .error source => throw (.evictPod source)
  | .finish action => return action

/-- A reconcile is its decision and, if that is to evict the Pod, one request. -/
theorem exec_reconcile {S : Type} (evict : EvictRequest → StateM S (Except String Unit))
    (pod : PartialObjectMeta) (s : S) :
    (reconcile parse now evict pod).exec s =
      match decision parse now pod with
      | .error error => (.error error, s)
      | .ok (.finish action) => (.ok action, s)
      | .ok (.evict request) =>
        (((evict request).run s).1.mapError .evictPod |>.map fun _ => .awaitChange,
          ((evict request).run s).2) := by
  unfold reconcile
  rw [Program.exec_bind, Program.exec_ofExcept]
  rcases decision parse now pod with error | (request | action)
  · rfl
  · simp only [Program.exec_bind, Program.exec_liftM]
    rcases (evict request).run s with ⟨_ | _, t⟩ <;> rfl
  · rfl

end

/-- `error_policy`. -/
def errorPolicy (_ : Error) : Action :=
  .requeue (seconds 5)

/-! ## What is decided -/

section

variable {parse : String → Except String DateTime} {now : Int}

theorem transpose_eq_ok_some {E α : Type*} {x : Option (Except E α)} {a : α} :
    transpose x = .ok (some a) ↔ x = some (.ok a) := by
  rcases x with _ | (_ | _) <;> simp [transpose]

theorem mem_of_minBy {α : Type*} {lt : α → α → Bool} {as : List α} {least : α}
    (h : minBy lt as = some least) : least ∈ as := by
  suffices ∀ (as : List α) a,
      as.foldl (fun least b => if lt b least then b else least) a ∈ a :: as by
    cases as with
    | nil => cases h
    | cons a as => exact Option.some.inj h ▸ this as a
  intro as
  induction as with
  | nil => exact fun a => List.mem_cons_self
  | cons b as ih =>
    intro a
    rw [List.foldl_cons]
    split
    · exact List.mem_cons_of_mem _ (ih b)
    · rcases List.mem_cons.1 (ih a) with h | h
      · exact List.mem_cons.2 (Or.inl h)
      · exact List.mem_cons_of_mem _ (List.mem_cons_of_mem _ h)

/-- The timestamp found is that of an annotation. -/
theorem mem_of_podExpiresAt {annotations : Option (BTreeMap String String)} {expiresAt : DateTime}
    (h : podExpiresAt parse annotations = .ok (some expiresAt)) :
    ∃ entry ∈ expiryAnnotations annotations, parse entry.2 = .ok expiresAt := by
  have hmem := mem_of_minBy (transpose_eq_ok_some.1 h)
  obtain ⟨entry, hann, hparse⟩ := List.mem_map.1 hmem
  refine ⟨entry, hann, ?_⟩
  unfold parseExpiry at hparse
  cases hp : parse entry.2 with
  | error e => simp [hp, Except.mapError] at hparse
  | ok t => simpa [hp, Except.mapError] using hparse

theorem toStd_eq_none {nanoseconds : Int} : toStd nanoseconds = none ↔ nanoseconds < 0 := by
  simp [toStd]

/-- A Pod that is to be evicted is not being deleted and has expired. -/
theorem decision_eq_evict {pod : PartialObjectMeta} {request : EvictRequest}
    (h : decision parse now pod = .ok (.evict request)) :
    pod.metadata.deletionTimestamp = none ∧ Expired parse now pod.metadata.annotations ∧
      objectRef pod = request.target ∧ request.params = default := by
  unfold decision at h
  cases hdel : pod.metadata.deletionTimestamp with
  | some t => simp [hdel, pure, Except.pure] at h
  | none =>
    cases hexp : podExpiresAt parse pod.metadata.annotations with
    | error e => simp [hdel, hexp, bind, Except.bind] at h
    | ok found =>
      cases found with
      | none => simp [hdel, hexp, bind, Except.bind, pure, Except.pure] at h
      | some expiresAt =>
        cases hstd : toStd (expiresAt.instant - now) with
        | some d => simp [hdel, hexp, hstd, bind, Except.bind, pure, Except.pure] at h
        | none =>
          obtain ⟨entry, hann, hparse⟩ := mem_of_podExpiresAt hexp
          have hlt : expiresAt.instant < now := by
            have := toStd_eq_none.1 hstd
            omega
          refine ⟨rfl, ⟨entry, hann, expiresAt, hparse, hlt⟩, ?_⟩
          cases hns : pod.metadata.ns with
          | none => simp [hdel, hexp, hstd, hns, okOr, bind, Except.bind] at h
          | some ns =>
            cases hname : pod.metadata.name with
            | none => simp [hdel, hexp, hstd, hns, hname, okOr, bind, Except.bind] at h
            | some name =>
              simp only [hdel, hexp, hstd, hns, hname, okOr, bind, Except.bind, pure, Except.pure,
                Option.isSome_none, Bool.false_eq_true, if_false, Except.ok.injEq,
                Decision.evict.injEq] at h
              subst h
              simp [objectRef, ObjectRef.fromObj, hns, hname, EvictRequest.target]

/-- The expired stay expired. -/
theorem Expired.mono {now' : Int} (hle : now ≤ now') {annotations : Option (BTreeMap String String)}
    (h : Expired parse now annotations) : Expired parse now' annotations := by
  obtain ⟨entry, hann, expiresAt, hparse, hlt⟩ := h
  exact ⟨entry, hann, expiresAt, hparse, Int.lt_of_lt_of_le hlt hle⟩

end

end CommonsOperator.PodController
