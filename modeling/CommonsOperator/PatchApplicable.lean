import CommonsOperator.RestarterMutateSts
import CommonsOperator.TrackedReferences

/-!
# Whether the patch of the webhook applies

The handler creates the metadata and the annotations of the pod template, and the spec, where
they are missing, but never the template between them. So its patch applies if and only if the
object has one (`patch_applies_iff`).
-/

namespace CommonsOperator.RestarterMutateSts

open StatefulSetController

/-- A decoder for objects without a template : it then decodes to the default, which has no
metadata. -/
structure IsDefaultingDecoder (decode : Json → Option StatefulSet) : Prop
    extends IsDecoder decode where
  template_none : ∀ {j sts}, decode j = some sts →
    (∀ template, j.at? templatePath ≠ some (.obj template)) → sts.templateMetadata = none

/-- The patch applies, operation by operation, and the object then has all the annotations. -/
structure Applies (annotations : BTreeMap String String) (j : Json) (patch : List AddOperation) :
    Prop where
  parents : ParentsExist j patch
  applied : ∃ j', applyPatch j patch = some j' ∧ ∀ key value, annotations[key]? = some value →
    j'.get? (annotationsPath ++ [key]) = some (.str value)

/-- The operations of an accepted request. -/
theorem handler_eq_ok {ctx : Ctx} {sts : StatefulSet} {annotations : BTreeMap String String}
    {patch : List AddOperation} (ha : getUpdatedRestarterAnnotations sts ctx = .ok annotations)
    (h : addStsRestarterAnnotationsHandler ctx ⟨some sts⟩ = .ok (.patched patch)) :
    ∃ createPaths, (pathsToBeCreated sts).mapM createPath = .ok createPaths ∧
      patch = createPaths ++ annotations.toList.map addAnnotation := by
  cases hcreate : (pathsToBeCreated sts).mapM createPath with
  | error e =>
    simp [addStsRestarterAnnotationsHandler, ha, hcreate, bind, Except.bind] at h
  | ok createPaths =>
    refine ⟨createPaths, rfl, ?_⟩
    simpa [addStsRestarterAnnotationsHandler, ha, hcreate, bind, Except.bind, pure, Except.pure,
      eq_comm] using h

/-- Nothing is created below a template that is not there. -/
theorem add_metadata_eq_none {j : Json} (h : ∀ template, j.at? templatePath ≠ some (.obj template))
    (v : Json) : j.add metadataPath v = none := by
  cases hadd : j.add metadataPath v with
  | none => rfl
  | some j' =>
    have hnames : ∀ token ∈ templatePath ++ ["metadata"],
        Json.parseIndex token = none ∧ token ≠ "-" := by decide
    obtain ⟨template, ht⟩ := Json.at?_of_add hnames hadd
    exact (h template ht).elim

/-- Without a template the patch fails : its operations create the spec, if that is missing, and
then the metadata below the template. -/
theorem applyPatch_eq_none {j : Json} {sts : StatefulSet} {createPaths ops : List AddOperation}
    (h : ∀ template, j.at? templatePath ≠ some (.obj template)) (hsts : sts.templateMetadata = none)
    (hcreate : (pathsToBeCreated sts).mapM createPath = .ok createPaths) :
    applyPatch j (createPaths ++ ops) = none := by
  have hspec : createPath "/spec" = .ok ⟨.fromTokens ["spec"], .obj []⟩ := rfl
  cases hs : sts.spec with
  | none =>
    obtain rfl : createPaths = [⟨.fromTokens ["spec"], .obj []⟩,
        ⟨.fromTokens metadataPath, .obj []⟩, ⟨.fromTokens annotationsPath, .obj []⟩] := by
      simpa [pathsToBeCreated, hs, hspec, createPath_metadata, createPath_annotations, bind,
        Except.bind, pure, Except.pure, eq_comm] using hcreate
    rw [List.cons_append, applyPatch_cons, PointerBuf.tokens_fromTokens]
    cases hadd : j.add ["spec"] (.obj []) with
    | none => rfl
    | some j' =>
      have hnames : ∀ token ∈ [] ++ ["spec"], Json.parseIndex token = none ∧ token ≠ "-" := by
        decide
      obtain ⟨fields, hj⟩ := Json.at?_of_add hnames hadd
      obtain rfl : j = .obj fields := by simpa using hj
      obtain rfl : j' = .obj (Assoc.set fields "spec" (.obj [])) := by simpa using hadd.symm
      have hempty : ∀ template, (Json.obj (Assoc.set fields "spec" (.obj []))).at? templatePath ≠
          some (.obj template) := by
        intro template ht
        simp [templatePath, Json.at?] at ht
      rw [Option.bind_some, List.cons_append, applyPatch_cons, PointerBuf.tokens_fromTokens,
        add_metadata_eq_none hempty]
      rfl
  | some spec =>
    have hm : spec.template.metadata = none := by
      simpa [StatefulSet.templateMetadata, hs] using hsts
    obtain rfl : createPaths =
        [⟨.fromTokens metadataPath, .obj []⟩, ⟨.fromTokens annotationsPath, .obj []⟩] := by
      simpa [pathsToBeCreated, hs, hm, createPath_metadata, createPath_annotations, bind,
        Except.bind, pure, Except.pure, eq_comm] using hcreate
    rw [List.cons_append, applyPatch_cons, PointerBuf.tokens_fromTokens, add_metadata_eq_none h]
    rfl

/-- When the patch applies. The patch of an accepted request applies as a whole, and adds all
annotations, if and only if the object has a pod template. -/
theorem patch_applies_iff {decode : Json → Option StatefulSet} (hd : IsDefaultingDecoder decode)
    {j : Json} {sts : StatefulSet} (hj : decode j = some sts) {ctx : Ctx}
    {annotations : BTreeMap String String}
    (ha : getUpdatedRestarterAnnotations sts ctx = .ok annotations) {patch : List AddOperation}
    (h : addStsRestarterAnnotationsHandler ctx ⟨some sts⟩ = .ok (.patched patch)) :
    Applies annotations j patch ↔ ∃ template, j.at? templatePath = some (.obj template) := by
  constructor
  · rintro ⟨-, j', hj', -⟩
    by_contra hnone
    obtain ⟨createPaths, hcreate, rfl⟩ := handler_eq_ok ha h
    have ht : ∀ template, j.at? templatePath ≠ some (.obj template) :=
      fun template ht => hnone ⟨template, ht⟩
    have hfails : applyPatch j (createPaths ++ annotations.toList.map addAnnotation) = none :=
      applyPatch_eq_none ht (hd.template_none hj ht) hcreate
    cases hfails.symm.trans hj'
  · rintro ⟨template, ht⟩
    have hs := shape hd.toIsDecoder hj ht
    obtain rfl : patch = createOps sts ++ annotations.toList.map addAnnotation := by
      have hpatch := (handler_eq (hd.spec hj ht) ha).symm.trans h
      simpa using (Except.ok.inj hpatch).symm
    have happly := applyPatch_handler hs ht annotations
    refine ⟨parentsExist_of_applyPatch happly, _, happly, fun key value hvalue => ?_⟩
    rw [get?_annotation_put hs ht, hvalue]
    rfl

/-- An object that is not decoded from fields below `null` has the default. -/
theorem isDefaultingDecoder_decodeStatefulSet : IsDefaultingDecoder decodeStatefulSet where
  toIsDecoder := isDecoder_decodeStatefulSet
  template_none {j sts} hj ht := by
    obtain ⟨fields, rfl, -⟩ := decodeObject_eq_some.1 hj
    obtain ⟨metadata, spec, -, hspec, rfl⟩ := decodeStatefulSet_obj.1 hj
    rcases decodeOptional_eq_some.1 hspec with ⟨rfl, -⟩ | ⟨_, _, hget, -, rfl, hdspec⟩
    · rfl
    · obtain ⟨specFields, rfl, -⟩ := decodeObject_eq_some.1 hdspec
      obtain ⟨template, htemplate, rfl⟩ := decodeSpec_obj.1 hdspec
      rcases decodeOptional_eq_some.1 htemplate with ⟨rfl, -⟩ | ⟨_, _, hget', -, -, hdt⟩
      · rfl
      · obtain ⟨templateFields, rfl, -⟩ := decodeObject_eq_some.1 hdt
        refine (ht templateFields ?_).elim
        simp [templatePath, Json.at?, hget, hget']

/-- The patch for a StatefulSet that mounts a ConfigMap applies. -/
theorem patch_applies_mountsConfigMap :
    ∃ annotations patch, addStsRestarterAnnotationsHandler
        ⟨.ok fun _ => none, .ok fun _ => none⟩ ⟨some (mountsConfigMap "web" "prod" "cfg")⟩ =
      .ok (.patched patch) ∧ Applies annotations mountsConfigMapJson patch :=
  ⟨_, _, rfl, (patch_applies_iff isDefaultingDecoder_decodeStatefulSet rfl
    (getUpdatedRestarterAnnotations_ok rfl _ _) rfl).2 ⟨_, rfl⟩⟩

/-- The JSON of a StatefulSet without a spec. -/
def noSpecJson : Json :=
  .obj [("metadata", .obj [("name", .str "web"), ("namespace", .str "prod")])]

theorem patch_fails_noSpec :
    ¬∀ j sts ctx annotations patch, decodeStatefulSet j = some sts →
      getUpdatedRestarterAnnotations sts ctx = .ok annotations →
      addStsRestarterAnnotationsHandler ctx ⟨some sts⟩ = .ok (.patched patch) →
        Applies annotations j patch := by
  intro h
  have happlies := h noSpecJson _ ⟨.ok fun _ => none, .ok fun _ => none⟩ _ _ rfl
    (getUpdatedRestarterAnnotations_ok rfl _ _) rfl
  obtain ⟨j', hj', -⟩ := happlies.applied
  cases hj'

end CommonsOperator.RestarterMutateSts
