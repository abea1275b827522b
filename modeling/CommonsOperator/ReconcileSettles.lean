import CommonsOperator.ServerSideApply
import CommonsOperator.StatefulSetJson
import CommonsOperator.StatefulSetReconcile
import CommonsOperator.Transition

/-!
# Reconciling settles

The StatefulSet as the API server has it, field by field with the managers of each, the stores,
and the steps that change them : writes of other managers, changes of the stores, and runs of
`reconcile` on the object as it is decoded. The API server takes the body that `reconcile`
sends and applies it. Others leave the restarter keys alone.

The invariant is that the controller alone owns every restarter key there is, and no other
field. With it an apply of the controller leaves exactly the restarter keys it sends
(`reconciled_of_owns`), and `reconcile_settles` says so of every reconcile of every run from a
StatefulSet without restarter keys, together with what a reconcile leaves alone and that the
next one changes nothing.
-/

set_option linter.unusedSectionVars false

namespace CommonsOperator.StatefulSetController

open Transition

/-! ## The fields of an apply -/

/-- Where an annotation of the pod template is. -/
def annotationPath (key : String) : List String :=
  annotationsPath ++ [key]

theorem annotationPath_inj {key key' : String} (h : annotationPath key = annotationPath key') :
    key = key' := by
  simpa [annotationPath] using h

/-- Where the restarter annotations are. -/
def IsRestarterPath (path : List String) : Prop :=
  ∃ key, IsRestarterKey key ∧ path = annotationPath key

theorem isRestarterPath_iff {path : List String} : IsRestarterPath path ↔
    path.dropLast = annotationsPath ∧ IsRestarterKey (path.getLastD "") ∧ path ≠ [] := by
  constructor
  · rintro ⟨key, hkey, rfl⟩
    exact ⟨List.dropLast_concat, by simpa [annotationPath] using hkey, by simp [annotationPath]⟩
  · rintro ⟨hpath, hkey, hne⟩
    refine ⟨path.getLastD "", hkey, ?_⟩
    rw [annotationPath, ← hpath, List.getLastD_eq_getLast?, List.getLast?_eq_some_getLast hne,
      Option.getD_some, List.dropLast_concat_getLast hne]

instance (path : List String) : Decidable (IsRestarterPath path) :=
  decidable_of_iff _ isRestarterPath_iff.symm

/-- The annotations as fields. -/
def annotationFields (annotations : BTreeMap String String) : BTreeMap (List String) Json :=
  BTreeMap.extend ∅ (annotations.toList.map fun entry => (annotationPath entry.1, .str entry.2))

theorem getElem?_annotationFields (annotations : BTreeMap String String) (key : String) :
    (annotationFields annotations)[annotationPath key]? = annotations[key]?.map Json.str := by
  have hmem : ∀ v, (annotationPath key, v) ∈
      annotations.toList.map (fun entry => (annotationPath entry.1, Json.str entry.2)) ↔
        ∃ value, annotations[key]? = some value ∧ v = .str value := by
    intro v
    simp only [List.mem_map, Prod.exists, Prod.mk.injEq]
    constructor
    · rintro ⟨k, value, h, hk, rfl⟩
      obtain rfl := annotationPath_inj hk
      exact ⟨value, Std.ExtTreeMap.mem_toList_iff_getElem?_eq_some.1 h, rfl⟩
    · rintro ⟨value, h, rfl⟩
      exact ⟨key, value, Std.ExtTreeMap.mem_toList_iff_getElem?_eq_some.2 h, rfl, rfl⟩
  cases h : annotations[key]? with
  | none =>
    refine (BTreeMap.getElem?_extend_of_notMem ∅ ?_).trans Std.ExtTreeMap.getElem?_empty
    rintro ⟨path, v⟩ hkv rfl
    obtain ⟨value, hvalue, -⟩ := (hmem v).1 hkv
    exact nomatch h.symm.trans hvalue
  | some value =>
    refine BTreeMap.getElem?_extend_of_mem ∅ ((hmem _).2 ⟨value, h, rfl⟩) fun v hv => ?_
    obtain ⟨value', hvalue', rfl⟩ := (hmem v).1 hv
    rw [Option.some.inj (h.symm.trans hvalue')]

theorem path_of_annotationFields {annotations : BTreeMap String String} {path : List String}
    {v : Json} (h : (annotationFields annotations)[path]? = some v) :
    ∃ key, path = annotationPath key := by
  by_contra hno
  refine nomatch h.symm.trans ((BTreeMap.getElem?_extend_of_notMem ∅ ?_).trans
    Std.ExtTreeMap.getElem?_empty)
  intro kv hkv he
  obtain ⟨entry, -, rfl⟩ := List.mem_map.1 hkv
  exact hno ⟨entry.1, he.symm⟩

theorem leaves_jsonOfOption (s : Option String) :
    (jsonOfOption s).leaves = [([], jsonOfOption s)] := by
  cases s <;> simp [jsonOfOption]

theorem memberLeaves_jsonAnnotations (annotations : BTreeMap String String) :
    Json.memberLeaves (jsonAnnotations annotations) =
      annotations.toList.map fun entry => ([entry.1], .str entry.2) := by
  unfold jsonAnnotations
  induction annotations.toList with
  | nil => simp
  | cons entry entries ih => simp [ih]

/-- The fields in the body of an apply. -/
theorem leaves_toJson (applied : AppliedStatefulSet) :
    applied.toJson.leaves =
      [(["apiVersion"], .str "apps/v1"), (["kind"], .str "StatefulSet"),
        (["metadata", "name"], jsonOfOption applied.name),
        (["metadata", "namespace"], jsonOfOption applied.ns),
        (["metadata", "uid"], jsonOfOption applied.uid)] ++
      applied.annotations.toList.map fun entry => (annotationPath entry.1, .str entry.2) := by
  simp [AppliedStatefulSet.toJson, leaves_jsonOfOption, memberLeaves_jsonAnnotations,
    annotationPath, annotationsPath, templatePath, Function.comp_def]

/-- What is applied is the annotations. -/
theorem sent_toJson (manager : Option String) (force : Bool) (applied : AppliedStatefulSet) :
    (ApplyRequest.mk manager force applied.toJson).sent = annotationFields applied.annotations := by
  have hall : (applied.annotations.toList.map fun entry =>
      (annotationPath entry.1, Json.str entry.2)).filter
        (fun field => decide (field.1 ∉ ApplyRequest.identifying)) =
      applied.annotations.toList.map fun entry => (annotationPath entry.1, .str entry.2) := by
    refine List.filter_eq_self.2 fun field hfield => ?_
    obtain ⟨entry, -, rfl⟩ := List.mem_map.1 hfield
    simp [ApplyRequest.identifying, annotationPath, annotationsPath, templatePath]
  rw [ApplyRequest.sent, leaves_toJson, List.filter_append, hall]
  simp [ApplyRequest.identifying, annotationFields]

/-- The object is the StatefulSet of that name, namespace and uid. -/
structure IsOf (object : ManagedObject String) (metadata : ObjectMeta) : Prop where
  apiVersion : object.entries[["apiVersion"]]? = some (.str "apps/v1")
  kind : object.entries[["kind"]]? = some (.str "StatefulSet")
  name : ∀ name, metadata.name = some name →
    object.entries[["metadata", "name"]]? = some (.str name)
  ns : ∀ ns, metadata.ns = some ns → object.entries[["metadata", "namespace"]]? = some (.str ns)
  uid : ∀ uid, metadata.uid = some uid → object.entries[["metadata", "uid"]]? = some (.str uid)

theorem identifies_toJson {manager : Option String} {force : Bool} {object : ManagedObject String}
    {metadata : ObjectMeta} {annotations : BTreeMap String String} :
    (ApplyRequest.mk manager force (AppliedStatefulSet.mk metadata.name metadata.ns metadata.uid
      annotations).toJson).Identifies object ↔ IsOf object metadata := by
  have hnot : ∀ key, annotationPath key ∉ ApplyRequest.identifying := by
    simp [ApplyRequest.identifying, annotationPath, annotationsPath, templatePath]
  have hoption : ∀ (s : Option String) (path : List String),
      (jsonOfOption s ≠ .null → object.entries[path]? = some (jsonOfOption s)) ↔
        ∀ value, s = some value → object.entries[path]? = some (.str value) := by
    intro s path
    cases s <;> simp [jsonOfOption]
  rw [ApplyRequest.Identifies, leaves_toJson]
  constructor
  · intro h
    have hfield := fun path v hmem => h (path, v) (List.mem_append_left _ hmem)
    have hname := hfield ["metadata", "name"] (jsonOfOption metadata.name) (by simp)
      (by simp [ApplyRequest.identifying])
    have hns := hfield ["metadata", "namespace"] (jsonOfOption metadata.ns) (by simp)
      (by simp [ApplyRequest.identifying])
    have huid := hfield ["metadata", "uid"] (jsonOfOption metadata.uid) (by simp)
      (by simp [ApplyRequest.identifying])
    exact ⟨hfield ["apiVersion"] (.str "apps/v1") (by simp) (by decide) (by decide),
      hfield ["kind"] (.str "StatefulSet") (by simp) (by decide) (by decide),
      (hoption _ _).1 hname, (hoption _ _).1 hns, (hoption _ _).1 huid⟩
  · intro h field hf hid
    rcases List.mem_append.1 hf with hf | hf
    · simp only [List.mem_cons, List.not_mem_nil, or_false] at hf
      rcases hf with rfl | rfl | rfl | rfl | rfl
      · exact fun _ => h.apiVersion
      · exact fun _ => h.kind
      · exact (hoption _ _).2 h.name
      · exact (hoption _ _).2 h.ns
      · exact (hoption _ _).2 h.uid
    · obtain ⟨entry, -, rfl⟩ := List.mem_map.1 hf
      exact (hnot _ hid).elim

/-! ## The system -/

/-- What the operator relies on in the decoding of a StatefulSet : the annotations of the template
are texts, they may be any texts, and nothing but themselves is decoded from them. -/
structure IsFieldDecoder
    (decode : BTreeMap (List String) Json → Except InvalidObject StatefulSet) : Prop where
  texts : ∀ {fields sts key v}, decode fields = .ok sts → fields[annotationPath key]? = some v →
    ∃ text, v = .str text
  accepts : ∀ {fields fields' sts}, decode fields = .ok sts →
    (∀ path, (∀ key, path ≠ annotationPath key) → fields'[path]? = fields[path]?) →
    (∀ key v, fields'[annotationPath key]? = some v → ∃ text, v = .str text) →
    ∃ sts', decode fields' = .ok sts' ∧ sts'.metadata = sts.metadata ∧ podSpecs sts' = podSpecs sts

/-- The API server has one StatefulSet, and takes patches of it. -/
def patchStatefulSet (request : PatchRequest) :
    StateM (ManagedObject String) (Except String Unit) := fun object =>
  if object.entries[["metadata", "namespace"]]? = some (.str request.ns) ∧
      object.entries[["metadata", "name"]]? = some (.str request.name) then
    let ⟨force, fieldManager⟩ := request.params
    match object.serve ⟨fieldManager, force, request.apply.toJson⟩ with
    | .ok object' => (.ok (), object')
    | .error message => (.error message, object)
  else (.error "statefulsets.apps not found", object)

/-- The StatefulSet and the two stores. The bookkeeping of the API server (the resource version)
is left out. -/
structure World where
  object : ManagedObject String
  cms : Store PartialObjectMeta
  secrets : Store PartialObjectMeta

/-- The context of a reconcile. -/
def World.ctx (world : World) : Ctx :=
  ⟨.ok world.cms, .ok world.secrets⟩

inductive WorldLabel where
  /-- Another manager sets a field. -/
  | write (manager : String) (path : List String) (value : Json)
  /-- Another manager removes a field. -/
  | remove (path : List String)
  /-- The stores change. -/
  | observe (cms secrets : Store PartialObjectMeta)
  /-- The controller reconciles the object. -/
  | reconcile

/-- Others may write the field. What identifies an object does not change. -/
def Writable (path : List String) : Prop :=
  ¬IsRestarterPath path ∧ path ∉ ApplyRequest.identifying

instance (path : List String) : Decidable (Writable path) :=
  inferInstanceAs (Decidable (_ ∧ _))

section

variable (decode : BTreeMap (List String) Json → Except InvalidObject StatefulSet)

/-- One step. -/
def worldStep (world : World) : WorldLabel → Option World
  | .write manager path value =>
    if manager ≠ fieldManager ∧ Writable path then
      some { world with object := world.object.write manager path value }
    else none
  | .remove path =>
    if Writable path then some { world with object := world.object.remove path } else none
  | .observe cms secrets => some { world with cms, secrets }
  | .reconcile =>
    let sts := decode world.object.entries
    match (reconcile sts world.ctx patchStatefulSet).exec world.object with
    | (.ok _, object) => some { world with object }
    | (.error _, _) => none

end

/-- The world after the annotations are applied to the object. -/
def World.applied (world : World) (annotations : BTreeMap String String) : World :=
  { world with object := world.object.apply fieldManager (annotationFields annotations) }

section

variable {decode : BTreeMap (List String) Json → Except InvalidObject StatefulSet}

/-- The API server applies what it is sent for the object it has. -/
theorem run_patchStatefulSet {metadata : ObjectMeta} {ns name : String}
    (hns : metadata.ns = some ns) (hname : metadata.name = some name)
    {annotations : BTreeMap String String} {object object' : ManagedObject String} :
    ((patchStatefulSet ⟨ns, name, ⟨true, some fieldManager⟩,
        ⟨metadata.name, metadata.ns, metadata.uid, annotations⟩⟩).run object).1 = .ok () ∧
      ((patchStatefulSet ⟨ns, name, ⟨true, some fieldManager⟩,
        ⟨metadata.name, metadata.ns, metadata.uid, annotations⟩⟩).run object).2 = object' ↔
      IsOf object metadata ∧
        object' = object.apply fieldManager (annotationFields annotations) := by
  have hserve : ∀ object', object.serve ⟨some fieldManager, true, (AppliedStatefulSet.mk
      metadata.name metadata.ns metadata.uid annotations).toJson⟩ = .ok object' ↔ _ :=
    fun _ => ManagedObject.serve_force
  simp only [identifies_toJson, sent_toJson] at hserve
  simp only [patchStatefulSet, StateT.run]
  by_cases hfound : object.entries[["metadata", "namespace"]]? = some (.str ns) ∧
      object.entries[["metadata", "name"]]? = some (.str name)
  · rw [if_pos hfound]
    cases hs : object.serve ⟨some fieldManager, true, (AppliedStatefulSet.mk metadata.name
        metadata.ns metadata.uid annotations).toJson⟩ with
    | ok object'' =>
      obtain ⟨hof, rfl⟩ := (hserve object'').1 hs
      simp [hof, eq_comm]
    | error message =>
      have hnot : ¬IsOf object metadata := by
        intro hof
        rw [(hserve _).2 ⟨hof, rfl⟩] at hs
        cases hs
      simp [hnot]
  · rw [if_neg hfound]
    have hnot : ¬IsOf object metadata := fun hof => hfound ⟨hof.ns ns hns, hof.name name hname⟩
    simp [hnot]

/-- What a reconcile does. -/
theorem worldStep_reconcile {world world' : World} :
    worldStep decode world .reconcile = some world' ↔
      ∃ sts ns, decode world.object.entries = .ok sts ∧ sts.metadata.ns = some ns ∧
        sts.metadata.name ≠ none ∧ IsOf world.object sts.metadata ∧
        world' = world.applied (restarterMap sts ns world.cms world.secrets) := by
  have hexec : worldStep decode world .reconcile = some world' ↔
      ∃ action object, (reconcile (decode world.object.entries) world.ctx patchStatefulSet).exec
        world.object = (.ok action, object) ∧ world' = { world with object } := by
    simp only [worldStep]
    rcases (reconcile (decode world.object.entries) world.ctx patchStatefulSet).exec
      world.object with ⟨e | action, object⟩
    · simp
    · simp [eq_comm]
  have hget : ∀ {sts ns}, sts.metadata.ns = some ns →
      getUpdatedRestarterAnnotations sts world.ctx =
        .ok (restarterMap sts ns world.cms world.secrets) :=
    fun hns => getUpdatedRestarterAnnotations_ok hns _ _
  rw [hexec]
  constructor
  · rintro ⟨action, object, h, rfl⟩
    obtain ⟨sts, request, hsts, hrequest, hok, hobject, -⟩ := exec_reconcile_eq_ok.1 h
    obtain ⟨ns, name, annotations, hns, hname, ha, rfl⟩ := reconcileRequest_eq_ok.1 hrequest
    obtain rfl := Except.ok.inj (ha.symm.trans (hget hns))
    obtain ⟨hof, rfl⟩ := (run_patchStatefulSet hns hname).1 ⟨hok, hobject⟩
    exact ⟨sts, ns, hsts, hns, by simp [hname], hof, rfl⟩
  · rintro ⟨sts, ns, hsts, hns, hname, hof, rfl⟩
    obtain ⟨name, hname⟩ := Option.ne_none_iff_exists'.1 hname
    obtain ⟨hok, hobject⟩ := (run_patchStatefulSet hns hname).2 ⟨hof, rfl⟩
    exact ⟨.awaitChange, _, exec_reconcile_eq_ok.2 ⟨sts, _, hsts,
      reconcileRequest_eq_ok.2 ⟨ns, name, _, hns, hname, hget hns, rfl⟩, hok, hobject, rfl⟩, rfl⟩

/-! ## Ownership -/

/-- The controller alone owns every restarter annotation there is, and no other field. -/
def World.Owned (world : World) : Prop :=
  world.object.Owns IsRestarterPath fieldManager

theorem isRestarterPath_of_annotationFields {sts : StatefulSet} {ns : String}
    {cms secrets : Store PartialObjectMeta} {path : List String} {v : Json}
    (h : (annotationFields (restarterMap sts ns cms secrets))[path]? = some v) :
    IsRestarterPath path := by
  obtain ⟨key, rfl⟩ := path_of_annotationFields h
  rw [getElem?_annotationFields] at h
  obtain ⟨value, hvalue, -⟩ := Option.map_eq_some_iff.1 h
  exact ⟨key, isRestarterKey_of_getElem? hvalue, rfl⟩

theorem owned_step {world world' : World} {l : WorldLabel} (h : world.Owned)
    (hstep : worldStep decode world l = some world') : world'.Owned := by
  cases l with
  | write manager path value =>
    simp only [worldStep, Option.ite_none_right_eq_some, Option.some.injEq] at hstep
    obtain ⟨⟨hmanager, hpath⟩, rfl⟩ := hstep
    exact h.write hmanager hpath.1 value
  | remove path =>
    simp only [worldStep, Option.ite_none_right_eq_some, Option.some.injEq] at hstep
    obtain ⟨hpath, rfl⟩ := hstep
    exact h.remove hpath.1
  | observe cms secrets =>
    obtain rfl := Option.some.inj hstep
    exact h
  | reconcile =>
    obtain ⟨sts, ns, -, -, -, -, rfl⟩ := worldStep_reconcile.1 hstep
    exact h.apply fun _ _ => isRestarterPath_of_annotationFields

/-! ## After a reconcile -/

/-- What a reconcile that took `world` to `world'` comes to. -/
structure Reconciled (decode : BTreeMap (List String) Json → Except InvalidObject StatefulSet)
    (world world' : World) : Prop where
  /-- The restarter keys are those computed, before and after. -/
  computed : ∃ sts sts' annotations, decode world.object.entries = .ok sts ∧
    decode world'.object.entries = .ok sts' ∧
    getUpdatedRestarterAnnotations sts world.ctx = .ok annotations ∧
    getUpdatedRestarterAnnotations sts' world'.ctx = .ok annotations ∧
    ∀ key, IsRestarterKey key →
      world'.object.entries[annotationPath key]? = annotations[key]?.map Json.str
  /-- Every other field is as it was, and has the managers it had. -/
  frame : ∀ path, ¬IsRestarterPath path →
    world'.object.entries[path]? = world.object.entries[path]? ∧
    world'.object.owners path = world.object.owners path
  stores : world'.cms = world.cms ∧ world'.secrets = world.secrets
  /-- From here, any number of reconciles changes nothing. -/
  settled : ∀ n, run (worldStep decode) world' (List.replicate n .reconcile) = some world'

theorem not_isRestarterPath_of_identifying {path : List String}
    (h : path ∈ ApplyRequest.identifying) : ¬IsRestarterPath path := by
  rintro ⟨key, -, rfl⟩
  simp [ApplyRequest.identifying, annotationPath, annotationsPath, templatePath] at h

/-- An apply of the controller leaves alone what identifies the object. -/
theorem isOf_applied {world : World} (h : world.Owned) {sts : StatefulSet} {ns : String}
    {cms secrets : Store PartialObjectMeta} {metadata : ObjectMeta}
    (hof : IsOf world.object metadata) :
    IsOf (world.applied (restarterMap sts ns cms secrets)).object metadata := by
  have hsame : ∀ path ∈ ApplyRequest.identifying,
      (world.applied (restarterMap sts ns cms secrets)).object.entries[path]? =
        world.object.entries[path]? := fun path hpath =>
    (h.apply_of_foreign (fun _ _ => isRestarterPath_of_annotationFields)
      (not_isRestarterPath_of_identifying hpath)).1
  refine ⟨?_, ?_, fun name hname => ?_, fun ns hns => ?_, fun uid huid => ?_⟩
  · rw [hsame _ (by decide), hof.apiVersion]
  · rw [hsame _ (by decide), hof.kind]
  · rw [hsame _ (by decide), hof.name name hname]
  · rw [hsame _ (by decide), hof.ns ns hns]
  · rw [hsame _ (by decide), hof.uid uid huid]

/-- The object is decoded after an apply of the controller, and the same is computed for it. -/
theorem decode_applied (hd : IsFieldDecoder decode) {world : World} (h : world.Owned)
    {sts : StatefulSet} (hsts : decode world.object.entries = .ok sts) (ns : String)
    (cms secrets : Store PartialObjectMeta) :
    ∃ sts', decode (world.applied (restarterMap sts ns cms secrets)).object.entries = .ok sts' ∧
      sts'.metadata = sts.metadata ∧ podSpecs sts' = podSpecs sts := by
  refine hd.accepts hsts (fun path hpath => ?_) fun key v hv => ?_
  · refine (h.apply_of_foreign (fun _ _ => isRestarterPath_of_annotationFields) ?_).1
    rintro ⟨key, -, rfl⟩
    exact hpath key rfl
  · by_cases hkey : IsRestarterKey key
    · have hsent := h.getElem?_apply ⟨key, hkey, rfl⟩
        (annotationFields (restarterMap sts ns cms secrets))
      rw [getElem?_annotationFields] at hsent
      obtain ⟨text, -, rfl⟩ := Option.map_eq_some_iff.1 (hsent.symm.trans hv)
      exact ⟨text, rfl⟩
    · have hforeign : ¬IsRestarterPath (annotationPath key) := by
        rintro ⟨key', hkey', he⟩
        obtain rfl := annotationPath_inj he
        exact hkey hkey'
      have hsame := h.apply_of_foreign (fun path v (hsent : (annotationFields
        (restarterMap sts ns cms secrets))[path]? = some v) =>
          isRestarterPath_of_annotationFields hsent) hforeign
      exact hd.texts hsts (hsame.1.symm.trans hv)

theorem run_replicate {world : World} (h : worldStep decode world .reconcile = some world) :
    ∀ n, run (worldStep decode) world (List.replicate n .reconcile) = some world
  | 0 => rfl
  | n + 1 => run_cons_eq_some.2 ⟨world, h, run_replicate h n⟩

theorem reconciled_of_owned (hd : IsFieldDecoder decode) {world world' : World} (h : world.Owned)
    (hstep : worldStep decode world .reconcile = some world') :
    Reconciled decode world world' := by
  obtain ⟨sts, ns, hsts, hns, hname, hof, rfl⟩ := worldStep_reconcile.1 hstep
  obtain ⟨sts', hsts', hmetadata, hpods⟩ := decode_applied hd h hsts ns world.cms world.secrets
  have hns' : sts'.metadata.ns = some ns := by rw [hmetadata, hns]
  have hmap : restarterMap sts' ns world.cms world.secrets =
      restarterMap sts ns world.cms world.secrets :=
    restarterMap_congr (SameInputs.of_eq (by rw [hmetadata]) (by rw [hmetadata]) hpods)
      (fun _ _ _ => rfl) fun _ _ _ => rfl
  refine ⟨⟨sts, sts', _, hsts, hsts', getUpdatedRestarterAnnotations_ok hns _ _, ?_,
    fun key hkey => ?_⟩, fun path hpath => ?_, ⟨rfl, rfl⟩, run_replicate ?_⟩
  · rw [← hmap]
    exact getUpdatedRestarterAnnotations_ok hns' _ _
  · rw [← getElem?_annotationFields]
    exact h.getElem?_apply ⟨key, hkey, rfl⟩ _
  · exact h.apply_of_foreign (fun _ _ => isRestarterPath_of_annotationFields) hpath
  · refine worldStep_reconcile.2 ⟨sts', ns, hsts', hns', by rw [hmetadata]; exact hname, ?_, ?_⟩
    · rw [hmetadata]
      exact isOf_applied h hof
    · -- the same annotations are applied again
      have hagain := ManagedMap.apply_apply world.object fieldManager
        (annotationFields (restarterMap sts ns world.cms world.secrets))
      simp only [World.applied, hmap, hagain]

/-- A StatefulSet that the controller has not touched. -/
structure Untouched (object : ManagedObject String) : Prop where
  keys : ∀ path, IsRestarterPath path → object.entries[path]? = none
  manager : ∀ path, fieldManager ∉ object.owners path

/-- Reconciles settle. In every run from a StatefulSet without restarter keys, immediately
after each reconcile the restarter keys of the template are exactly those computed for the
object and the stores as they are, everything else is as it was, and reconciling again
changes nothing. -/
theorem reconcile_settles (hd : IsFieldDecoder decode) {world : World} (h : Untouched world.object)
    {ls : List WorldLabel} {u u' : World} (hrun : run (worldStep decode) world ls = some u)
    (hstep : worldStep decode u .reconcile = some u') : Reconciled decode u u' := by
  have howned : world.Owned :=
    ⟨fun path hpath hentry => (hentry (h.keys path hpath)).elim, fun path _ => h.manager path⟩
  have hu : u.Owned :=
    run_invariant (P := World.Owned) (fun _ _ _ hs hstep => owned_step hs hstep) howned hrun
  exact reconciled_of_owned hd hu hstep

end

/-! ## A run -/

/-- A field that is a text, or is not there. -/
def textField (fields : BTreeMap (List String) Json) (path : List String) : Option String :=
  fields[path]?.bind decodeText

/-- The annotations of the template are texts. -/
def HasTexts (fields : BTreeMap (List String) Json) : Prop :=
  ∀ field ∈ fields.toList, field.1.dropLast = annotationsPath → (decodeText field.2).isSome

instance (fields : BTreeMap (List String) Json) : Decidable (HasTexts fields) :=
  inferInstanceAs (Decidable (∀ field ∈ fields.toList, _))

/-- Decoding, of pods that have volumes only. -/
def decodeFields (fields : BTreeMap (List String) Json) : Except InvalidObject StatefulSet :=
  let metadata : ObjectMeta := { (default : ObjectMeta) with
    name := textField fields ["metadata", "name"]
    ns := textField fields ["metadata", "namespace"]
    uid := textField fields ["metadata", "uid"] }
  let annotations := fields.toList.filterMap fun field =>
    if field.1.dropLast = annotationsPath then
      (decodeText field.2).map fun text => (field.1.getLastD "", text)
    else none
  match decodeOptional (decodeArray decodeVolume) fields[templatePath ++ ["spec", "volumes"]]? with
  | some volumes =>
    if HasTexts fields then
      .ok {
        metadata
        spec := some ⟨
          some { (default : ObjectMeta) with annotations := some (BTreeMap.extend ∅ annotations) },
          some ⟨volumes, [], none⟩⟩ }
    else .error ⟨"invalid type, expected a string", metadata⟩
  | none => .error ⟨"invalid type, expected a volume", metadata⟩

theorem hasTexts_iff {fields : BTreeMap (List String) Json} : HasTexts fields ↔
    ∀ key v, fields[annotationPath key]? = some v → ∃ text, v = .str text := by
  have htext : ∀ v, (decodeText v).isSome ↔ ∃ text, v = .str text := by
    intro v
    cases v <;> simp [decodeText]
  constructor
  · intro h key v hv
    exact (htext v).1 (h (annotationPath key, v)
      (Std.ExtTreeMap.mem_toList_iff_getElem?_eq_some.2 hv) List.dropLast_concat)
  · rintro h ⟨path, v⟩ hmem hpath
    have hv := Std.ExtTreeMap.mem_toList_iff_getElem?_eq_some.1 hmem
    rcases List.eq_nil_or_concat path with rfl | ⟨path', key, rfl⟩
    · cases hpath
    · obtain rfl : path' = annotationsPath := by simpa using hpath
      exact (htext v).2 (h key v hv)

theorem isFieldDecoder_decodeFields : IsFieldDecoder decodeFields where
  texts {fields sts key v} hsts hv := by
    unfold decodeFields at hsts
    split at hsts
    · split at hsts
      · rename_i htexts
        exact hasTexts_iff.1 htexts key v hv
      · cases hsts
    · cases hsts
  accepts {fields fields' sts} hsts hsame htexts := by
    have hother : ∀ path : List String, path.length ≠ 5 → fields'[path]? = fields[path]? := by
      refine fun path hlength => hsame path ?_
      rintro key rfl
      exact hlength rfl
    unfold decodeFields at hsts ⊢
    simp only [textField, hother ["metadata", "name"] (by decide),
      hother ["metadata", "namespace"] (by decide), hother ["metadata", "uid"] (by decide),
      hother (templatePath ++ ["spec", "volumes"]) (by decide)]
    split at hsts
    · rename_i volumes hvolumes
      rw [if_pos (hasTexts_iff.2 htexts)]
      split at hsts
      · obtain rfl := Except.ok.inj hsts
        exact ⟨_, rfl, rfl, rfl⟩
      · cases hsts
    · cases hsts

/-- The volumes of a pod that mounts a ConfigMap. -/
def configMapVolumes (cm : String) : Json :=
  .arr [.obj [("configMap", .obj [("name", .str cm)])]]

/-- What the author of a StatefulSet applied. -/
def authored : BTreeMap (List String) Json :=
  BTreeMap.extend ∅ [
    (["apiVersion"], .str "apps/v1"), (["kind"], .str "StatefulSet"),
    (["metadata", "name"], .str "web"), (["metadata", "namespace"], .str "prod"),
    (["metadata", "uid"], .str "s"), (annotationPath "team", .str "a"),
    (templatePath ++ ["spec", "volumes"], configMapVolumes "cfg")]

/-- A StatefulSet that mounts a ConfigMap, with an annotation of its author. -/
def authoredWorld : World where
  object := ManagedMap.empty.apply "kubectl" authored
  cms := singleStore ⟨"cfg", some "prod"⟩ "u" "1"
  secrets := fun _ => none

theorem untouched_authoredWorld : Untouched authoredWorld.object := by
  constructor
  · rintro path ⟨key, hkey, rfl⟩
    have hteam : annotationPath "team" ≠ annotationPath key := by
      intro he
      obtain rfl := annotationPath_inj he
      revert hkey
      decide
    have hsent : authored[annotationPath key]? = none := by
      refine (BTreeMap.getElem?_extend_of_notMem ∅ ?_).trans Std.ExtTreeMap.getElem?_empty
      have hlong : ∀ path : List String, path.length < 5 → path ≠ annotationPath key :=
        fun path hlength he => absurd (congrArg List.length he) (Nat.ne_of_lt hlength)
      intro field hfield
      simp only [List.mem_cons, List.not_mem_nil, or_false] at hfield
      rcases hfield with rfl | rfl | rfl | rfl | rfl | rfl | rfl
      · exact hlong _ (by decide)
      · exact hlong _ (by decide)
      · exact hlong _ (by decide)
      · exact hlong _ (by decide)
      · exact hlong _ (by decide)
      · exact hteam
      · exact hlong _ (by decide)
    have hnone : (ManagedMap.empty : ManagedObject String).entries[annotationPath key]? = none :=
      Std.ExtTreeMap.getElem?_empty
    rw [authoredWorld, ManagedMap.getElem?_apply, hsent, Option.none_or, hnone]
    split <;> rfl
  · intro path hmem
    rcases ManagedMap.mem_owners_of_apply hmem with h | h
    · revert h
      decide
    · cases h

/-- The controller reconciles, the author mounts another ConfigMap, and the controller
reconciles again. -/
theorem reconcile_settles_edited :
    ∃ u u', run (worldStep decodeFields) authoredWorld
        [.reconcile, .write "kubectl" (templatePath ++ ["spec", "volumes"])
          (configMapVolumes "other")] = some u ∧
      worldStep decodeFields u .reconcile = some u' ∧ Reconciled decodeFields u u' := by
  have hrun : ((run (worldStep decodeFields) authoredWorld
      [.reconcile, .write "kubectl" (templatePath ++ ["spec", "volumes"])
        (configMapVolumes "other")]).bind fun u =>
          (worldStep decodeFields u .reconcile)).isSome = true := by
    decide +kernel
  obtain ⟨u', hu'⟩ := Option.isSome_iff_exists.1 hrun
  obtain ⟨u, hu, hstep⟩ := Option.bind_eq_some_iff.1 hu'
  exact ⟨u, u', hu, hstep,
    reconcile_settles isFieldDecoder_decodeFields untouched_authoredWorld hu hstep⟩

end CommonsOperator.StatefulSetController
