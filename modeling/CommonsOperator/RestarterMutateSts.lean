import CommonsOperator.ServerSideApply
import CommonsOperator.StatefulSetJson
import CommonsOperator.StatefulSetReconcile

/-!
# The mutating webhook for StatefulSets

`addStsRestarterAnnotationsHandler` answers an admission request with a JSON patch that adds
the restarter annotations, and the objects that contain them where they are missing.

The object is JSON, of which the handler gets the decoded StatefulSet. `applyPatch_handler`
is the object after the patch. `admission_agrees` says what admission by the patch does to
the object, and that neither a second run of the handler nor the apply of the controller
changes the template again.
-/

set_option linter.unusedSectionVars false

namespace CommonsOperator.RestarterMutateSts

open StatefulSetController

/-! ## The handler -/

/-- `AdmissionRequest`. -/
structure AdmissionRequest where
  object : Option StatefulSet

/-- `AdmissionResponse`. -/
inductive AdmissionResponse where
  | invalid (reason : String)
  | patched (patch : List AddOperation)

/-- The objects that have to be created to hold the annotations. -/
def pathsToBeCreated (sts : StatefulSet) : List String :=
  let spec := sts.spec
  let metadata := spec.bind fun spec => spec.template.metadata
  let annotations := metadata.bind fun metadata => metadata.annotations
  (if spec.isNone then ["/spec"] else []) ++
    (if metadata.isNone then ["/spec/template/metadata"] else []) ++
    (if annotations.isNone then ["/spec/template/metadata/annotations"] else [])

/-- The operation that creates an empty object. -/
def createPath (path : String) : Except (Fault Empty) AddOperation := do
  let path ← expect "hard-coded annotation paths are valid" (PointerBuf.parse path)
  return ⟨path, .obj []⟩

/-- The operation that adds one annotation. -/
def addAnnotation (entry : String × String) : AddOperation :=
  ⟨.fromTokens (annotationsPath ++ [entry.1]), .str entry.2⟩

/-- `add_sts_restarter_annotations_handler`. -/
def addStsRestarterAnnotationsHandler (ctx : Ctx) (request : AdmissionRequest) :
    Except (Fault Empty) AdmissionResponse :=
  match request.object with
  | none =>
    .ok (.invalid
      "object (of type StatefulSet) missing - for operation CREATE it must be always present")
  | some sts =>
    match getUpdatedRestarterAnnotations sts ctx with
    | .error (.panic message) => .error (.panic message)
    | .error (.error err) =>
      .ok (.invalid ("failed to get updated restarted annotations: " ++ err.display))
    | .ok annotations => do
      let createPaths ← (pathsToBeCreated sts).mapM createPath
      return .patched (createPaths ++ annotations.toList.map addAnnotation)

/-- The operations that create the objects missing for a StatefulSet with a template. -/
def createOps (sts : StatefulSet) : List AddOperation :=
  (if sts.templateMetadata.isNone then
    [⟨.fromTokens metadataPath, .obj []⟩] else []) ++
  (if sts.templateAnnotations.isNone then [⟨.fromTokens annotationsPath, .obj []⟩] else [])

theorem createPath_metadata :
    createPath "/spec/template/metadata" =
      .ok ⟨.fromTokens metadataPath, .obj []⟩ :=
  rfl

theorem createPath_annotations :
    createPath "/spec/template/metadata/annotations" =
      .ok ⟨.fromTokens annotationsPath, .obj []⟩ :=
  rfl

/-- The patch for a StatefulSet with a template. -/
theorem handler_eq {sts : StatefulSet} (hspec : sts.spec ≠ none) {ctx : Ctx}
    {annotations : BTreeMap String String}
    (ha : getUpdatedRestarterAnnotations sts ctx = .ok annotations) :
    addStsRestarterAnnotationsHandler ctx ⟨some sts⟩ =
      .ok (.patched (createOps sts ++ annotations.toList.map addAnnotation)) := by
  obtain ⟨spec, hspec⟩ := Option.ne_none_iff_exists'.1 hspec
  have hpaths : (pathsToBeCreated sts).mapM createPath = .ok (createOps sts) := by
    simp only [pathsToBeCreated, createOps, StatefulSet.templateMetadata,
      StatefulSet.templateAnnotations, hspec, Option.bind_some, Option.isNone_some,
      Bool.false_eq_true, if_false, List.nil_append]
    split <;> split <;>
      simp [createPath_metadata, createPath_annotations, bind, Except.bind, pure, Except.pure]
  simp [addStsRestarterAnnotationsHandler, ha, hpaths, bind, Except.bind, pure, Except.pure]

/-! ## Applying the patch -/

theorem get?_setAll_jsonAnnotations (annotations : BTreeMap String String)
    (kvs : List (String × Json)) (key : String) :
    Assoc.get? (Assoc.setAll kvs (jsonAnnotations annotations)) key =
      (annotations[key]?.map Json.str).or (Assoc.get? kvs key) := by
  have hmem : ∀ v, (key, v) ∈ jsonAnnotations annotations ↔
      ∃ value, annotations[key]? = some value ∧ v = .str value := by
    intro v
    simp only [jsonAnnotations, List.mem_map, Prod.exists, Prod.mk.injEq]
    constructor
    · rintro ⟨k, value, h, rfl, rfl⟩
      exact ⟨value, Std.ExtTreeMap.mem_toList_iff_getElem?_eq_some.1 h, rfl⟩
    · rintro ⟨value, h, rfl⟩
      exact ⟨key, value, Std.ExtTreeMap.mem_toList_iff_getElem?_eq_some.2 h, rfl, rfl⟩
  cases h : annotations[key]? with
  | none =>
    rw [Assoc.get?_setAll_of_notMem]
    · rfl
    · rintro ⟨k, v⟩ hkv rfl
      obtain ⟨value, hvalue, -⟩ := (hmem v).1 hkv
      rw [h] at hvalue
      cases hvalue
  | some value =>
    rw [Assoc.get?_setAll_of_mem kvs ((hmem (.str value)).2 ⟨value, h, rfl⟩)]
    · rfl
    · intro v' hv'
      obtain ⟨value', hvalue', rfl⟩ := (hmem v').1 hv'
      rw [h] at hvalue'
      rw [Option.some.inj hvalue']

/-- The annotations that are set are there. -/
theorem get?_setAll_of_mem_jsonAnnotations {annotations : BTreeMap String String}
    (kvs : List (String × Json)) :
    ∀ kv ∈ jsonAnnotations annotations,
      Assoc.get? (Assoc.setAll kvs (jsonAnnotations annotations)) kv.1 = some kv.2 := by
  intro kv hkv
  obtain ⟨entry, hmem, rfl⟩ := List.mem_map.1 hkv
  have hentry : annotations[entry.1]? = some entry.2 :=
    Std.ExtTreeMap.mem_toList_iff_getElem?_eq_some.1 hmem
  rw [get?_setAll_jsonAnnotations, hentry]
  rfl

section

variable {j : Json} {sts : StatefulSet} {template : List (String × Json)}

theorem add_metadata (ht : j.at? templatePath = some (.obj template)) (v : Json) :
    j.add metadataPath v = some (j.put templatePath (.obj (Assoc.set template "metadata" v))) :=
  Json.add_member_at ht "metadata" v

theorem add_annotations (ht : j.at? templatePath = some (.obj template))
    {metadata : List (String × Json)}
    (hm : Assoc.get? template "metadata" = some (.obj metadata)) (v : Json) :
    j.add annotationsPath v =
      some (j.put templatePath (.obj (Assoc.set template "metadata"
        (.obj (Assoc.set metadata "annotations" v))))) := by
  rw [annotationsPath, Json.add_append (List.cons_ne_nil _ _) v ht]
  simp [Json.add_obj_cons, hm]

/-- The operations that add annotations, when there is an object to hold them. -/
theorem applyPatch_addAnnotation (ht : j.at? templatePath = some (.obj template))
    {metadata annotations : List (String × Json)}
    (hm : Assoc.get? template "metadata" = some (.obj metadata))
    (ha : Assoc.get? metadata "annotations" = some (.obj annotations))
    (new : BTreeMap String String) :
    applyPatch j (new.toList.map addAnnotation) =
      some (j.put templatePath (.obj
        (withAnnotations template (Assoc.setAll annotations (jsonAnnotations new))))) := by
  have hat : j.at? annotationsPath = some (.obj annotations) := by
    rw [annotationsPath, Json.at?_append, ht]
    simp [Json.at?, hm, ha]
  have hops : new.toList.map addAnnotation =
      (jsonAnnotations new).map fun kv => ⟨.fromTokens (annotationsPath ++ [kv.1]), kv.2⟩ := by
    rw [jsonAnnotations, List.map_map]
    rfl
  rw [hops, applyPatch_members _ hat, annotationsPath, Json.put_append _ _ ht]
  simp [Json.put, hm, ha, withAnnotations, Json.members]

theorem forall_mem_setAll_texts (hs : Shape sts template) (new : BTreeMap String String) :
    ∀ kv ∈ Assoc.setAll (annotationsOf template) (jsonAnnotations new), ∃ s, kv.2 = .str s := by
  refine Assoc.forall_mem_setAll (fun v => ∃ s, v = Json.str s) hs.texts fun kv hkv => ?_
  obtain ⟨entry, -, rfl⟩ := List.mem_map.1 hkv
  exact ⟨entry.2, rfl⟩

/-- Creating what is missing leaves an empty object of annotations. -/
theorem applyPatch_createOps (hs : Shape sts template)
    (ht : j.at? templatePath = some (.obj template)) (hsts : sts.templateAnnotations = none) :
    annotationsOf template = [] ∧
      applyPatch j (createOps sts) =
        some (j.put templatePath (.obj (withAnnotations template []))) := by
  cases hs with
  | noMetadata hsts' hm =>
    have hops : createOps sts =
        [⟨.fromTokens metadataPath, .obj []⟩, ⟨.fromTokens annotationsPath, .obj []⟩] := by
      simp [createOps, hsts, hsts']
    have hput := Json.at?_put (.obj (Assoc.set template "metadata" (.obj []))) ht
    refine ⟨by rw [annotationsOf, members_of_null hm]; rfl, ?_⟩
    rw [hops, applyPatch_cons, PointerBuf.tokens_fromTokens, add_metadata ht, Option.bind_some,
      applyPatch_cons, PointerBuf.tokens_fromTokens,
      add_annotations hput (Assoc.get?_set_self _ _ _), Json.put_put _ _ ht, Assoc.set_set,
      withAnnotations, members_of_null hm]
    rfl
  | noAnnotations hsts' _ hm ha =>
    have hops : createOps sts = [⟨.fromTokens annotationsPath, .obj []⟩] := by
      rw [createOps, if_neg (by simpa using hsts'), if_pos (by simp [hsts])]
      rfl
    refine ⟨by rw [annotationsOf, hm, Json.members, members_of_null ha], ?_⟩
    rw [hops, applyPatch_cons, PointerBuf.tokens_fromTokens, add_annotations ht hm,
      withAnnotations, hm]
    rfl
  | annotations _ hsts' => exact (hsts' hsts).elim

/-- The patch of the handler adds to the annotations of the template. -/
theorem applyPatch_handler (hs : Shape sts template)
    (ht : j.at? templatePath = some (.obj template)) (new : BTreeMap String String) :
    applyPatch j (createOps sts ++ new.toList.map addAnnotation) =
      some (j.put templatePath (.obj (withAnnotations template
        (Assoc.setAll (annotationsOf template) (jsonAnnotations new))))) := by
  by_cases hsts : sts.templateAnnotations = none
  · obtain ⟨hof, hcreate⟩ := applyPatch_createOps hs ht hsts
    have hm : Assoc.get? (withAnnotations template []) "metadata" = some (.obj
        (Assoc.set (Json.members (Assoc.get? template "metadata")) "annotations" (.obj []))) :=
      Assoc.get?_set_self _ _ _
    rw [applyPatch_append, hcreate, Option.bind_some,
      applyPatch_addAnnotation (Json.at?_put _ ht) hm (Assoc.get?_set_self _ _ _),
      Json.put_put _ _ ht, withAnnotations_withAnnotations, hof]
  · cases hs with
    | noMetadata hsts' => exact (hsts (by simp [StatefulSet.templateAnnotations, hsts'])).elim
    | noAnnotations _ hsts' => exact (hsts hsts').elim
    | annotations hsts' _ hm ha =>
      have hops : createOps sts = [] := by
        rw [createOps, if_neg (by simpa using hsts'), if_neg (by simpa using hsts)]
        rfl
      rw [hops, List.nil_append, applyPatch_addAnnotation ht hm ha]
      simp [annotationsOf, hm, ha, Json.members]

/-! ## What the patch leaves alone -/

/-- Within the template, every location that is neither on the way to the annotations nor one
of those set is unchanged. -/
theorem get?_withAnnotations (hs : Shape sts template) (new : BTreeMap String String)
    {location : List String} (hl : ¬location <+: ["metadata", "annotations"])
    (hnew : ∀ key ∈ new, ¬["metadata", "annotations", key] <+: location) :
    (Json.obj (withAnnotations template
        (Assoc.setAll (annotationsOf template) (jsonAnnotations new)))).get? location =
      (Json.obj template).get? location := by
  rcases location with _ | ⟨k, location⟩
  · exact (hl List.nil_prefix).elim
  rw [Json.get?_obj, Json.get?_obj, withAnnotations, Assoc.get?_set]
  split
  · rename_i hk
    subst hk
    rcases location with _ | ⟨k, location⟩
    · exact (hl (List.prefix_append ["metadata"] _)).elim
    rw [Option.bind_some, Json.get?_obj, Json.get?_members hs.metadata_shape, Assoc.get?_set]
    split
    · rename_i hk
      subst hk
      rcases location with _ | ⟨k, location⟩
      · exact (hl List.prefix_rfl).elim
      have hk : new[k]? = none := by
        refine Std.ExtTreeMap.getElem?_eq_none ?_
        exact fun hmem => hnew k hmem (List.prefix_append ["metadata", "annotations", k] _)
      rw [Option.bind_some, Json.get?_obj, Json.get?_members hs.annotations_shape,
        get?_setAll_jsonAnnotations, hk]
      rfl
    · rfl
  · rfl

/-- Every location of the object that is neither on the way to the annotations nor one of
those set is unchanged. -/
theorem get?_put_withAnnotations (hs : Shape sts template)
    (ht : j.at? templatePath = some (.obj template)) (new : BTreeMap String String)
    {location : List String} (hl : ¬location <+: annotationsPath)
    (hnew : ∀ key ∈ new, ¬annotationsPath ++ [key] <+: location) :
    (j.put templatePath (.obj (withAnnotations template
        (Assoc.setAll (annotationsOf template) (jsonAnnotations new))))).get? location =
      j.get? location := by
  by_cases hp : templatePath <+: location
  · obtain ⟨location, rfl⟩ := hp
    rw [Json.get?_append, Json.get?_append, Json.get?_of_at? (Json.at?_put _ ht),
      Json.get?_of_at? ht]
    refine get?_withAnnotations hs new (fun h => hl ?_) fun key hkey h => hnew key hkey ?_
    · exact (List.prefix_append_right_inj templatePath).2 h
    · exact (List.prefix_append_right_inj templatePath).2 h
  · exact Json.get?_put_of_not_prefix _ ht hp fun h => hl (h.trans (List.prefix_append _ _))

theorem at?_put_withAnnotations (ht : j.at? templatePath = some (.obj template))
    (kvs : List (String × Json)) :
    (j.put templatePath (.obj (withAnnotations template kvs))).at? annotationsPath =
      some (.obj kvs) := by
  rw [annotationsPath, Json.at?_append, Json.at?_put _ ht, Option.bind_some]
  simp [Json.at?, withAnnotations]

/-- An annotation is the one that is set, or else the one that was there. -/
theorem get?_annotation_put (hs : Shape sts template)
    (ht : j.at? templatePath = some (.obj template)) (new : BTreeMap String String)
    (key : String) :
    (j.put templatePath (.obj (withAnnotations template
        (Assoc.setAll (annotationsOf template) (jsonAnnotations new))))).get?
      (annotationsPath ++ [key]) =
      (new[key]?.map Json.str).or (j.get? (annotationsPath ++ [key])) := by
  have hold : j.get? (annotationsPath ++ [key]) = Assoc.get? (annotationsOf template) key := by
    rw [← hs.get?_annotations, annotationsPath, List.append_assoc, Json.get?_append,
      Json.get?_of_at? ht]
    rfl
  rw [hold, ← get?_setAll_jsonAnnotations, Json.get?_append,
    Json.get?_of_at? (at?_put_withAnnotations ht _), Option.bind_some, Json.get?_obj]
  cases Assoc.get? (Assoc.setAll (annotationsOf template) (jsonAnnotations new)) key with
  | none => rfl
  | some v => simp

/-- The annotations computed for an object with the new template are the ones computed before,
for nothing they are computed from has changed. -/
theorem getUpdatedRestarterAnnotations_withAnnotations {decode : Json → Option StatefulSet}
    (hd : IsDecoder decode) (hj : decode j = some sts) (hs : Shape sts template)
    (ht : j.at? templatePath = some (.obj template)) (new : BTreeMap String String)
    {live : Json} {sts' : StatefulSet} (hlive : decode live = some sts')
    (hlt : live.at? templatePath = some (.obj (withAnnotations template
      (Assoc.setAll (annotationsOf template) (jsonAnnotations new)))))
    (hns' : sts'.metadata.ns = sts.metadata.ns)
    (ha' : sts'.metadata.annotations = sts.metadata.annotations) {ns : String}
    (hns : sts.metadata.ns = some ns) (cms secrets : Store PartialObjectMeta) :
    getUpdatedRestarterAnnotations sts' ⟨.ok cms, .ok secrets⟩ =
      .ok (restarterMap sts ns cms secrets) := by
  have hspec : live.get? (templatePath ++ ["spec"]) = j.get? (templatePath ++ ["spec"]) := by
    rw [Json.get?_append, Json.get?_append, Json.get?_of_at? hlt, Json.get?_of_at? ht]
    exact get?_withAnnotations hs new (by decide) fun key _ h => by simp at h
  have hin : SameInputs sts' sts :=
    SameInputs.of_eq hns' ha' (hd.podSpecs_congr hlive hj hspec)
  rw [getUpdatedRestarterAnnotations_ok (hns'.trans hns)]
  rw [restarterMap_congr hin (fun _ _ _ => rfl) fun _ _ _ => rfl]

end

/-! ## The controller's apply -/

/-- The apply leaves alone a template that has the annotations it sends. -/
theorem at?_merge_toJson {live : Json} {applied : AppliedStatefulSet}
    {template metadata annotations : List (String × Json)}
    (ht : live.at? templatePath = some (.obj template))
    (hm : Assoc.get? template "metadata" = some (.obj metadata))
    (ha : Assoc.get? metadata "annotations" = some (.obj annotations))
    (hall : ∀ kv ∈ jsonAnnotations applied.annotations,
      Assoc.get? annotations kv.1 = some kv.2) :
    (live.merge applied.toJson).at? templatePath = live.at? templatePath := by
  obtain ⟨fields, spec, rfl, hspec, ht'⟩ := Json.at?_cons_eq_some.1 ht
  obtain ⟨fields', template', rfl, htemplate, ht'⟩ := Json.at?_cons_eq_some.1 ht'
  obtain rfl : template' = .obj template := by simpa using ht'
  have hannotations : Json.mergeFields annotations (jsonAnnotations applied.annotations) =
      annotations := by
    refine Json.mergeFields_eq_self fun kv hkv => ⟨kv.2, hall kv hkv, ?_⟩
    obtain ⟨entry, -, rfl⟩ := List.mem_map.1 hkv
    exact Json.merge_str _ _
  have hmetadata : Json.mergeFields metadata
      [("annotations", .obj (jsonAnnotations applied.annotations))] = metadata := by
    refine Json.mergeFields_eq_self fun kv hkv => ?_
    obtain rfl := List.mem_singleton.1 hkv
    exact ⟨_, ha, by rw [Json.merge_obj, hannotations]⟩
  have htemplate' : Json.mergeFields template [("metadata",
      .obj [("annotations", .obj (jsonAnnotations applied.annotations))])] = template := by
    refine Json.mergeFields_eq_self fun kv hkv => ?_
    obtain rfl := List.mem_singleton.1 hkv
    exact ⟨_, hm, by rw [Json.merge_obj, hmetadata]⟩
  have hspec' : Assoc.get? (Json.mergeField (Json.mergeField (Json.mergeField fields
      ("apiVersion", .str "apps/v1")) ("kind", .str "StatefulSet")) ("metadata", .obj [
        ("name", jsonOfOption applied.name),
        ("namespace", jsonOfOption applied.ns),
        ("uid", jsonOfOption applied.uid)])) "spec" = some (.obj fields') := by
    rw [Json.get?_mergeField_of_ne (by decide), Json.get?_mergeField_of_ne (by decide),
      Json.get?_mergeField_of_ne (by decide), hspec]
  rw [ht, AppliedStatefulSet.toJson, Json.merge_obj, Json.mergeFields_cons, Json.mergeFields_cons,
    Json.mergeFields_cons, Json.mergeFields_cons, Json.mergeFields_nil, templatePath,
    Json.at?_mergeField hspec', Json.merge_obj, Json.mergeFields_cons, Json.mergeFields_nil,
    Json.at?_mergeField htemplate, Json.merge_obj, htemplate', Json.at?_nil]

/-! ## Admission -/

/-- What admission by the patch comes to. -/
structure Admitted (decode : Json → Option StatefulSet) (ctx : Ctx)
    (annotations : BTreeMap String String) (sts : StatefulSet) (j j' : Json) : Prop where
  /-- There is an object of annotations. -/
  annotations_obj : ∃ fields, j'.get? annotationsPath = some (.obj fields)
  /-- The annotations are those there were, overridden by the new ones. -/
  annotations_get? : ∀ key, j'.get? (annotationsPath ++ [key]) =
    (annotations[key]?.map Json.str).or (j.get? (annotationsPath ++ [key]))
  /-- Every location that is neither on the way to the annotations nor one of those set is
  unchanged. -/
  frame : ∀ location, ¬location <+: annotationsPath →
    (∀ key ∈ annotations, ¬annotationsPath ++ [key] <+: location) →
      j'.get? location = j.get? location
  /-- The handler changes nothing when it is called again. -/
  reinvocation : ∃ sts' patch, decode j' = some sts' ∧
    addStsRestarterAnnotationsHandler ctx ⟨some sts'⟩ = .ok (.patched patch) ∧
    applyPatch j' patch = some j'
  /-- The apply of the controller for the admitted object leaves the template as it is. -/
  reconcile : ∀ live sts' request, decode live = some sts' →
    live.at? templatePath = j'.at? templatePath → sts'.metadata.ns = sts.metadata.ns →
    sts'.metadata.annotations = sts.metadata.annotations →
    reconcileRequest sts' ctx = .ok request →
      (live.merge request.apply.toJson).at? templatePath = live.at? templatePath

/-- The webhook and the controller agree : for a StatefulSet with a template, whatever its
annotations, the patch of the handler applies, adds exactly the annotations the controller
computes, and is not changed again by the handler or by the controller. -/
theorem admission_agrees {decode : Json → Option StatefulSet} (hd : IsDecoder decode)
    {j : Json} {sts : StatefulSet} {template : List (String × Json)} (hj : decode j = some sts)
    (ht : j.at? templatePath = some (.obj template)) (hns : sts.metadata.ns ≠ none)
    (cms secrets : Store PartialObjectMeta) :
    ∃ annotations patch j',
      getUpdatedRestarterAnnotations sts ⟨.ok cms, .ok secrets⟩ = .ok annotations ∧
      addStsRestarterAnnotationsHandler ⟨.ok cms, .ok secrets⟩ ⟨some sts⟩ =
        .ok (.patched patch) ∧
      applyPatch j patch = some j' ∧
      Admitted decode ⟨.ok cms, .ok secrets⟩ annotations sts j j' := by
  obtain ⟨ns, hns⟩ := Option.ne_none_iff_exists'.1 hns
  have hs := shape hd hj ht
  have hget := getUpdatedRestarterAnnotations_ok hns cms secrets
  set annotations := restarterMap sts ns cms secrets
  set members := Assoc.setAll (annotationsOf template) (jsonAnnotations annotations)
  set j' := j.put templatePath (.obj (withAnnotations template members))
  have ht' : j'.at? templatePath = some (.obj (withAnnotations template members)) :=
    Json.at?_put _ ht
  have hmembers := @get?_setAll_of_mem_jsonAnnotations annotations (annotationsOf template)
  refine ⟨annotations, _, j', hget, handler_eq (hd.spec hj ht) hget,
    applyPatch_handler hs ht annotations, ?_⟩
  constructor
  · exact ⟨members, Json.get?_of_at? (at?_put_withAnnotations ht members)⟩
  · exact get?_annotation_put hs ht annotations
  · exact fun location hl hnew => get?_put_withAnnotations hs ht annotations hl hnew
  · obtain ⟨sts', hsts'⟩ := hd.accepts hj ht (forall_mem_setAll_texts hs annotations)
    have hmetadata : sts'.metadata = sts.metadata :=
      hd.metadata_congr hsts' hj
        (get?_put_withAnnotations hs ht annotations (by decide) fun key _ h => by
          simp [annotationsPath, templatePath] at h)
    have hget' := getUpdatedRestarterAnnotations_withAnnotations hd hj hs ht annotations hsts' ht'
      (by rw [hmetadata]) (by rw [hmetadata]) hns cms secrets
    refine ⟨sts', _, hsts', handler_eq (hd.spec hsts' ht') hget', ?_⟩
    rw [applyPatch_handler (shape hd hsts' ht') ht', annotationsOf_withAnnotations,
      Assoc.setAll_eq_self hmembers, withAnnotations_withAnnotations, Json.put_of_at? ht']
  · intro live sts' request hlive htemplate hns' ha' hrequest
    have hget' := getUpdatedRestarterAnnotations_withAnnotations hd hj hs ht annotations hlive
      (htemplate.trans ht') hns' ha' hns cms secrets
    obtain ⟨-, -, annotations', -, -, hget'', rfl⟩ := reconcileRequest_eq_ok.1 hrequest
    obtain rfl : annotations' = annotations := Except.ok.inj (hget''.symm.trans hget')
    exact at?_merge_toJson (htemplate.trans ht') (Assoc.get?_set_self _ _ _)
      (Assoc.get?_set_self _ _ _) hmembers

/-- The annotations of an object to which the patch of the handler has been applied. -/
theorem get?_annotation_of_patched {decode : Json → Option StatefulSet} (hd : IsDecoder decode)
    {j j' : Json} {sts : StatefulSet} {template : List (String × Json)} (hj : decode j = some sts)
    (ht : j.at? templatePath = some (.obj template)) {ctx : Ctx} {patch : List AddOperation}
    (hpatched : addStsRestarterAnnotationsHandler ctx ⟨some sts⟩ = .ok (.patched patch))
    (happlied : applyPatch j patch = some j') {annotations : BTreeMap String String}
    (hget : getUpdatedRestarterAnnotations sts ctx = .ok annotations) (key : String) :
    j'.get? (annotationsPath ++ [key]) =
      (annotations[key]?.map Json.str).or (j.get? (annotationsPath ++ [key])) := by
  have hs := shape hd hj ht
  rw [handler_eq (hd.spec hj ht) hget] at hpatched
  obtain rfl := AdmissionResponse.patched.inj (Except.ok.inj hpatched)
  rw [applyPatch_handler hs ht annotations] at happlied
  rw [← Option.some.inj happlied]
  exact get?_annotation_put hs ht annotations key

/-- The JSON of a StatefulSet that mounts a ConfigMap and whose template has no metadata. -/
def mountsConfigMapJson : Json :=
  .obj [
    ("metadata", .obj [("name", .str "web"), ("namespace", .str "prod")]),
    ("spec", .obj [
      ("template", .obj [
        ("metadata", .null),
        ("spec", .obj [
          ("volumes", .arr [.obj [("configMap", .obj [("name", .str "cfg")])]])])])])]

/-- A StatefulSet admitted when its ConfigMap is known. -/
theorem admission_agrees_mountsConfigMap :
    ∃ annotations patch j',
      getUpdatedRestarterAnnotations (mountsConfigMap "web" "prod" "cfg")
        ⟨.ok (singleStore ⟨"cfg", some "prod"⟩ "u" "1"), .ok fun _ => none⟩ = .ok annotations ∧
      addStsRestarterAnnotationsHandler
        ⟨.ok (singleStore ⟨"cfg", some "prod"⟩ "u" "1"), .ok fun _ => none⟩
        ⟨some (mountsConfigMap "web" "prod" "cfg")⟩ = .ok (.patched patch) ∧
      applyPatch mountsConfigMapJson patch = some j' ∧
      Admitted decodeStatefulSet
        ⟨.ok (singleStore ⟨"cfg", some "prod"⟩ "u" "1"), .ok fun _ => none⟩ annotations
        (mountsConfigMap "web" "prod" "cfg") mountsConfigMapJson j' :=
  admission_agrees isDecoder_decodeStatefulSet rfl rfl (Option.some_ne_none _) _ _

end CommonsOperator.RestarterMutateSts
