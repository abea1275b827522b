import CommonsOperator.JsonPatch
import CommonsOperator.Program
import CommonsOperator.RestarterAnnotations

/-!
# Reconciling a StatefulSet

`reconcile` sends one server-side apply with the restarter annotations of the StatefulSet.
`reconcileRequest` is that request, and `toJson` its body as it is sent.
-/

namespace CommonsOperator.StatefulSetController

/-! ## The request -/

/-- The object of the apply, with what varies in it. -/
structure AppliedStatefulSet where
  name : Option String
  /-- `namespace`. -/
  ns : Option String
  uid : Option String
  annotations : BTreeMap String String

/-- An optional text as JSON. -/
def jsonOfOption : Option String → Json
  | some s => .str s
  | none => .null

/-- Annotations as the members of a JSON object. -/
def jsonAnnotations (annotations : BTreeMap String String) : List (String × Json) :=
  annotations.toList.map fun entry => (entry.1, .str entry.2)

/-- The body of the apply. -/
def AppliedStatefulSet.toJson (applied : AppliedStatefulSet) : Json :=
  .obj [
    ("apiVersion", .str "apps/v1"),
    ("kind", .str "StatefulSet"),
    ("metadata", .obj [
      ("name", jsonOfOption applied.name),
      ("namespace", jsonOfOption applied.ns),
      ("uid", jsonOfOption applied.uid)]),
    ("spec", .obj [
      ("template", .obj [
        ("metadata", .obj [
          ("annotations", .obj (jsonAnnotations applied.annotations))])])])]

/-- `PatchParams`. -/
structure PatchParams where
  force : Bool
  fieldManager : Option String
  deriving DecidableEq

/-- A patch of the StatefulSet `name` in the namespace `ns`. -/
structure PatchRequest where
  ns : String
  name : String
  params : PatchParams
  apply : AppliedStatefulSet

/-- The manager the controller applies as. -/
def fieldManager : String :=
  "restarter.stackable.tech/statefulset"

/-- The request of `reconcile`. -/
def reconcileRequest (sts : StatefulSet) (ctx : Ctx) : Except (Fault Error) PatchRequest := do
  let ns ← expect "called `Option::unwrap()` on a `None` value" sts.metadata.ns
  let name ← expect ".metadata.name missing" sts.metadata.name
  let annotations ← getUpdatedRestarterAnnotations sts ctx
  return {
    ns, name
    params := { force := true, fieldManager := some fieldManager }
    apply := {
      name := sts.metadata.name, ns := sts.metadata.ns, uid := sts.metadata.uid, annotations } }

theorem reconcileRequest_eq_ok {sts : StatefulSet} {ctx : Ctx} {request : PatchRequest} :
    reconcileRequest sts ctx = .ok request ↔
      ∃ ns name annotations, sts.metadata.ns = some ns ∧ sts.metadata.name = some name ∧
        getUpdatedRestarterAnnotations sts ctx = .ok annotations ∧
        request = ⟨ns, name, ⟨true, some fieldManager⟩,
          ⟨sts.metadata.name, sts.metadata.ns, sts.metadata.uid, annotations⟩⟩ := by
  unfold reconcileRequest
  cases hns : sts.metadata.ns with
  | none => simp [expect, bind, Except.bind]
  | some ns =>
    cases hname : sts.metadata.name with
    | none => simp [expect, bind, Except.bind]
    | some name =>
      cases getUpdatedRestarterAnnotations sts ctx with
      | error e => simp [expect, bind, Except.bind]
      | ok annotations => simp [expect, bind, Except.bind, pure, Except.pure, eq_comm]

/-! ## The reconciler -/

/-- `reconcile`, on the state of the API server, which answers the request `patch`. -/
def reconcile {S : Type} (sts : Except InvalidObject StatefulSet) (ctx : Ctx)
    (patch : PatchRequest → StateM S (Except String Unit)) : Program S (Fault Error) Action := do
  let sts ← MonadExcept.ofExcept (context Error.invalidStatefulSet sts)
  let request ← MonadExcept.ofExcept (reconcileRequest sts ctx)
  let answer ← patch request
  MonadExcept.ofExcept (context (Error.patchFailed · (ObjectRef.fromObj sts.metadata)) answer)
  return .awaitChange

/-- `error_policy`. -/
def errorPolicy : Error → Action
  | .invalidStatefulSet _ => .awaitChange
  | _ => .requeue (seconds 5)

/-- The reconciler succeeds when the API server accepts its request. -/
theorem exec_reconcile_eq_ok {S : Type} {sts : Except InvalidObject StatefulSet} {ctx : Ctx}
    {patch : PatchRequest → StateM S (Except String Unit)} {s t : S} {action : Action} :
    (reconcile sts ctx patch).exec s = (.ok action, t) ↔
      ∃ object request, sts = .ok object ∧ reconcileRequest object ctx = .ok request ∧
        ((patch request).run s).1 = .ok () ∧ ((patch request).run s).2 = t ∧
        action = .awaitChange := by
  unfold reconcile
  simp only [Program.exec_bind, Program.exec_ofExcept]
  cases sts with
  | error e => simp [context, Except.mapError]
  | ok object =>
    cases hr : reconcileRequest object ctx with
    | error e => simp [context, Except.mapError, hr]
    | ok request =>
      simp only [context, Except.mapError, hr, Program.exec_liftM]
      rcases hp : ((patch request).run s).1 with e | u
      · simp [hr, hp]
      · simp [hr, hp, eq_comm, and_comm]

end CommonsOperator.StatefulSetController
