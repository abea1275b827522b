import CommonsOperator.Json
import CommonsOperator.RestarterAnnotations

/-!
# StatefulSets as JSON

The places of the pod template and its annotations in the JSON of a StatefulSet, and the
template with other annotations (`withAnnotations`). `IsDecoder` is what is assumed of the
decoding of a StatefulSet : the parts that are read come from their own places, and the
annotations of the template may be replaced. `Shape` sums up what it says of one template,
and `decodeStatefulSet` is a decoder, for pods with volumes only.
-/

set_option linter.unusedSectionVars false

namespace CommonsOperator

open StatefulSetController

/-! ## Places -/

/-- Where the pod template is. -/
def templatePath : List String :=
  ["spec", "template"]

/-- Where the metadata of the pod template is. -/
def metadataPath : List String :=
  templatePath ++ ["metadata"]

/-- Where the annotations of the pod template are. -/
def annotationsPath : List String :=
  templatePath ++ ["metadata", "annotations"]

/-- The template with its annotations replaced. -/
def withAnnotations (template annotations : List (String × Json)) : List (String × Json) :=
  Assoc.set template "metadata"
    (.obj (Assoc.set (Json.members (Assoc.get? template "metadata")) "annotations"
      (.obj annotations)))

/-- The annotations of a template. -/
def annotationsOf (template : List (String × Json)) : List (String × Json) :=
  Json.members (Assoc.get? (Json.members (Assoc.get? template "metadata")) "annotations")

/-! ## Decoding -/

/-- What the handler relies on in the decoding of a StatefulSet : an optional field is absent
from the decoded object if it is absent or `null` in the JSON and is otherwise an object;
the metadata and the pod spec are decoded from their own places; and the annotations of the
template may be any texts. -/
structure IsDecoder (decode : Json → Option StatefulSet) : Prop where
  spec : ∀ {j sts template}, decode j = some sts → j.at? templatePath = some (.obj template) →
    sts.spec ≠ none
  metadata_none : ∀ {j sts template}, decode j = some sts →
    j.at? templatePath = some (.obj template) → sts.templateMetadata = none →
    ∀ m, Assoc.get? template "metadata" = some m → m = .null
  metadata_some : ∀ {j sts template}, decode j = some sts →
    j.at? templatePath = some (.obj template) → sts.templateMetadata ≠ none →
    ∃ metadata, Assoc.get? template "metadata" = some (.obj metadata)
  annotations_none : ∀ {j sts template metadata}, decode j = some sts →
    j.at? templatePath = some (.obj template) →
    Assoc.get? template "metadata" = some (.obj metadata) → sts.templateAnnotations = none →
    ∀ a, Assoc.get? metadata "annotations" = some a → a = .null
  annotations_some : ∀ {j sts template metadata}, decode j = some sts →
    j.at? templatePath = some (.obj template) →
    Assoc.get? template "metadata" = some (.obj metadata) → sts.templateAnnotations ≠ none →
    ∃ annotations, Assoc.get? metadata "annotations" = some (.obj annotations) ∧
      ∀ kv ∈ annotations, ∃ s, kv.2 = .str s
  metadata_congr : ∀ {j j' sts sts'}, decode j = some sts → decode j' = some sts' →
    j.get? ["metadata"] = j'.get? ["metadata"] → sts.metadata = sts'.metadata
  podSpecs_congr : ∀ {j j' sts sts'}, decode j = some sts → decode j' = some sts' →
    j.get? (templatePath ++ ["spec"]) = j'.get? (templatePath ++ ["spec"]) →
    podSpecs sts = podSpecs sts'
  accepts : ∀ {j sts template annotations}, decode j = some sts →
    j.at? templatePath = some (.obj template) → (∀ kv ∈ annotations, ∃ s, kv.2 = .str s) →
    ∃ sts', decode (j.put templatePath (.obj (withAnnotations template annotations))) = some sts'

/-! ## The shapes of a template -/

section

variable {decode : Json → Option StatefulSet} {j : Json} {sts : StatefulSet}
  {template : List (String × Json)}

/-- The three shapes of the template. -/
inductive Shape (sts : StatefulSet) (template : List (String × Json)) : Prop where
  | noMetadata (hsts : sts.templateMetadata = none)
      (hm : ∀ m, Assoc.get? template "metadata" = some m → m = .null)
  | noAnnotations {metadata} (hsts : sts.templateMetadata ≠ none)
      (hsts' : sts.templateAnnotations = none)
      (hm : Assoc.get? template "metadata" = some (.obj metadata))
      (ha : ∀ a, Assoc.get? metadata "annotations" = some a → a = .null)
  | annotations {metadata annotations} (hsts : sts.templateMetadata ≠ none)
      (hsts' : sts.templateAnnotations ≠ none)
      (hm : Assoc.get? template "metadata" = some (.obj metadata))
      (ha : Assoc.get? metadata "annotations" = some (.obj annotations))
      (htexts : ∀ kv ∈ annotations, ∃ s, kv.2 = .str s)

theorem shape (hd : IsDecoder decode) (hj : decode j = some sts)
    (ht : j.at? templatePath = some (.obj template)) : Shape sts template := by
  by_cases hsts : sts.templateMetadata = none
  · exact .noMetadata hsts (hd.metadata_none hj ht hsts)
  · obtain ⟨metadata, hm⟩ := hd.metadata_some hj ht hsts
    by_cases hsts' : sts.templateAnnotations = none
    · exact .noAnnotations hsts hsts' hm (hd.annotations_none hj ht hm hsts')
    · obtain ⟨annotations, ha, htexts⟩ := hd.annotations_some hj ht hm hsts'
      exact .annotations hsts hsts' hm ha htexts

theorem members_of_null {fields : List (String × Json)} {k : String}
    (h : ∀ m, Assoc.get? fields k = some m → m = .null) :
    Json.members (Assoc.get? fields k) = [] := by
  cases hk : Assoc.get? fields k with
  | none => rfl
  | some m => rw [h m hk]; rfl

/-- The annotations there are, are texts. -/
theorem Shape.texts (h : Shape sts template) :
    ∀ kv ∈ annotationsOf template, ∃ s, kv.2 = .str s := by
  cases h with
  | noMetadata hsts hm =>
    rw [annotationsOf, members_of_null hm]
    exact fun _ h => nomatch h
  | noAnnotations hsts hsts' hm ha =>
    rw [annotationsOf, hm, Json.members, members_of_null ha]
    exact fun _ h => nomatch h
  | annotations hsts hsts' hm ha htexts =>
    rw [annotationsOf, hm, Json.members, ha]
    exact htexts

theorem withAnnotations_withAnnotations (template annotations annotations' : List (String × Json)) :
    withAnnotations (withAnnotations template annotations) annotations' =
      withAnnotations template annotations' := by
  simp [withAnnotations, Assoc.set_set, Json.members]

@[simp] theorem annotationsOf_withAnnotations (template annotations : List (String × Json)) :
    annotationsOf (withAnnotations template annotations) = annotations := by
  simp [annotationsOf, withAnnotations, Json.members]

theorem Shape.metadata_shape (hs : Shape sts template) (t : Json)
    (h : Assoc.get? template "metadata" = some t) : t = .null ∨ ∃ fields, t = .obj fields := by
  cases hs with
  | noMetadata _ hm => exact Or.inl (hm t h)
  | noAnnotations _ _ hm => exact Or.inr ⟨_, Option.some.inj (h.symm.trans hm)⟩
  | annotations _ _ hm => exact Or.inr ⟨_, Option.some.inj (h.symm.trans hm)⟩

theorem Shape.annotations_shape (hs : Shape sts template) (t : Json)
    (h : Assoc.get? (Json.members (Assoc.get? template "metadata")) "annotations" = some t) :
    t = .null ∨ ∃ fields, t = .obj fields := by
  cases hs with
  | noMetadata _ hm =>
    rw [members_of_null hm] at h
    cases h
  | noAnnotations _ _ hm ha =>
    rw [hm, Json.members] at h
    exact Or.inl (ha t h)
  | annotations _ _ hm ha =>
    rw [hm, Json.members] at h
    exact Or.inr ⟨_, Option.some.inj (h.symm.trans ha)⟩

/-- The annotations of the template, as locations. -/
theorem Shape.get?_annotations (hs : Shape sts template) (key : String) :
    (Json.obj template).get? ["metadata", "annotations", key] =
      Assoc.get? (annotationsOf template) key := by
  rw [Json.get?_obj, Json.get?_members hs.metadata_shape, Json.get?_members hs.annotations_shape,
    annotationsOf]
  cases Assoc.get? (Json.members (Assoc.get? (Json.members (Assoc.get? template "metadata"))
    "annotations")) key <;> simp

end

/-! ## A decoder

Decoding field by field, as `k8s-openapi` does, of pods that have volumes only. -/

def decodeObject {α : Type} (decode : List (String × Json) → Option α) : Json → Option α
  | .obj fields => decode fields
  | _ => none

def decodeOptional {α : Type} (decode : Json → Option α) : Option Json → Option (Option α)
  | none => some none
  | some .null => some none
  | some j => (decode j).map some

def decodeText : Json → Option String
  | .str s => some s
  | _ => none

def decodeTexts : List (String × Json) → Option (List (String × String))
  | [] => some []
  | (k, v) :: kvs => (decodeText v).bind fun v => (decodeTexts kvs).map fun kvs => (k, v) :: kvs

def decodeArray {α : Type} (decode : Json → Option α) : Json → Option (List α)
  | .arr elems => elems.mapM decode
  | _ => none

def decodeObjectMeta : Json → Option ObjectMeta :=
  decodeObject fun fields => do
    let name ← decodeOptional decodeText (Assoc.get? fields "name")
    let ns ← decodeOptional decodeText (Assoc.get? fields "namespace")
    let uid ← decodeOptional decodeText (Assoc.get? fields "uid")
    let resourceVersion ← decodeOptional decodeText (Assoc.get? fields "resourceVersion")
    let annotations ← decodeOptional (decodeObject decodeTexts) (Assoc.get? fields "annotations")
    let deletionTimestamp ← decodeOptional decodeText (Assoc.get? fields "deletionTimestamp")
    return {
      name, ns, uid, resourceVersion, deletionTimestamp
      annotations := annotations.map fun kvs => BTreeMap.extend ∅ kvs }

/-- An object with a name. -/
def decodeNamed (key : String) : Json → Option (Option String) :=
  decodeObject fun fields => decodeOptional decodeText (Assoc.get? fields key)

def decodeProjection : Json → Option VolumeProjection :=
  decodeObject fun fields => do
    let configMap ← decodeOptional (decodeNamed "name") (Assoc.get? fields "configMap")
    let secret ← decodeOptional (decodeNamed "name") (Assoc.get? fields "secret")
    return ⟨configMap.map fun name => ⟨name.getD ""⟩, secret.map fun name => ⟨name.getD ""⟩⟩

def decodeProjected : Json → Option ProjectedVolumeSource :=
  decodeObject fun fields => do
    let sources ← decodeOptional (decodeArray decodeProjection) (Assoc.get? fields "sources")
    return ⟨sources⟩

def decodeVolume : Json → Option Volume :=
  decodeObject fun fields => do
    let configMap ← decodeOptional (decodeNamed "name") (Assoc.get? fields "configMap")
    let secret ← decodeOptional (decodeNamed "secretName") (Assoc.get? fields "secret")
    let projected ← decodeOptional decodeProjected (Assoc.get? fields "projected")
    return ⟨configMap.map fun name => ⟨name.getD ""⟩, secret.map fun name => ⟨name⟩, projected⟩

def decodePodSpec : Json → Option PodSpec :=
  decodeObject fun fields => do
    let volumes ← decodeOptional (decodeArray decodeVolume) (Assoc.get? fields "volumes")
    return ⟨volumes, [], none⟩

def decodeTemplate : Json → Option PodTemplateSpec :=
  decodeObject fun fields => do
    let metadata ← decodeOptional decodeObjectMeta (Assoc.get? fields "metadata")
    let spec ← decodeOptional decodePodSpec (Assoc.get? fields "spec")
    return ⟨metadata, spec⟩

def decodeSpec : Json → Option StatefulSetSpec :=
  decodeObject fun fields => do
    let template ← decodeOptional decodeTemplate (Assoc.get? fields "template")
    return ⟨template.getD ⟨none, none⟩⟩

def decodeStatefulSet : Json → Option StatefulSet :=
  decodeObject fun fields => do
    let metadata ← decodeOptional decodeObjectMeta (Assoc.get? fields "metadata")
    let spec ← decodeOptional decodeSpec (Assoc.get? fields "spec")
    return ⟨metadata.getD default, spec⟩

theorem decodeObject_eq_some {α : Type} {decode : List (String × Json) → Option α} {j : Json}
    {a : α} : decodeObject decode j = some a ↔
      ∃ fields, j = .obj fields ∧ decode fields = some a := by
  cases j <;> simp [decodeObject]

/-- An optional field that is not decoded to `none` is there, and not `null`. -/
theorem decodeOptional_eq_some {α : Type} {decode : Json → Option α} {j : Option Json}
    {a : Option α} : decodeOptional decode j = some a ↔
      (a = none ∧ ∀ t, j = some t → t = .null) ∨
      ∃ t a', j = some t ∧ t ≠ .null ∧ a = some a' ∧ decode t = some a' := by
  cases j with
  | none => simp [decodeOptional, eq_comm]
  | some t => cases t <;> simp [decodeOptional, eq_comm, and_comm]

theorem decodeStatefulSet_obj {fields : List (String × Json)} {sts : StatefulSet} :
    decodeStatefulSet (.obj fields) = some sts ↔ ∃ metadata spec,
      decodeOptional decodeObjectMeta (Assoc.get? fields "metadata") = some metadata ∧
      decodeOptional decodeSpec (Assoc.get? fields "spec") = some spec ∧
      ⟨metadata.getD default, spec⟩ = sts := by
  simp [decodeStatefulSet, decodeObject, Option.bind_eq_some_iff]

theorem decodeSpec_obj {fields : List (String × Json)} {spec : StatefulSetSpec} :
    decodeSpec (.obj fields) = some spec ↔ ∃ template,
      decodeOptional decodeTemplate (Assoc.get? fields "template") = some template ∧
      ⟨template.getD ⟨none, none⟩⟩ = spec := by
  simp [decodeSpec, decodeObject, Option.bind_eq_some_iff]

theorem decodeTemplate_obj {fields : List (String × Json)} {template : PodTemplateSpec} :
    decodeTemplate (.obj fields) = some template ↔ ∃ metadata spec,
      decodeOptional decodeObjectMeta (Assoc.get? fields "metadata") = some metadata ∧
      decodeOptional decodePodSpec (Assoc.get? fields "spec") = some spec ∧
      ⟨metadata, spec⟩ = template := by
  simp [decodeTemplate, decodeObject, Option.bind_eq_some_iff]

theorem decodeObjectMeta_obj {fields : List (String × Json)} {metadata : ObjectMeta} :
    decodeObjectMeta (.obj fields) = some metadata ↔
      ∃ name ns uid resourceVersion annotations deletionTimestamp,
        decodeOptional decodeText (Assoc.get? fields "name") = some name ∧
        decodeOptional decodeText (Assoc.get? fields "namespace") = some ns ∧
        decodeOptional decodeText (Assoc.get? fields "uid") = some uid ∧
        decodeOptional decodeText (Assoc.get? fields "resourceVersion") = some resourceVersion ∧
        decodeOptional (decodeObject decodeTexts) (Assoc.get? fields "annotations") =
          some annotations ∧
        decodeOptional decodeText (Assoc.get? fields "deletionTimestamp") =
          some deletionTimestamp ∧
        ⟨name, ns, uid, resourceVersion, annotations.map fun kvs => BTreeMap.extend ∅ kvs,
          deletionTimestamp⟩ = metadata := by
  simp [decodeObjectMeta, decodeObject, Option.bind_eq_some_iff]

theorem decodeOptional_obj {α : Type} {decode : Json → Option α} {j : Option Json}
    {fields : List (String × Json)} (hj : j = some (.obj fields)) {a : Option α} :
    decodeOptional decode j = some a ↔ ∃ a', a = some a' ∧ decode (.obj fields) = some a' := by
  subst hj
  simp [decodeOptional, eq_comm, and_comm]

theorem texts_of_decodeTexts : ∀ {fields : List (String × Json)} {kvs : List (String × String)},
    decodeTexts fields = some kvs → ∀ kv ∈ fields, ∃ s, kv.2 = .str s
  | [], _, _ => fun _ h => nomatch h
  | (k, v) :: fields, kvs, h => by
    obtain ⟨s, hs, kvs', hkvs, -⟩ := by
      simpa [decodeTexts, Option.bind_eq_some_iff] using h
    intro kv hkv
    rcases List.mem_cons.1 hkv with rfl | hkv
    · cases v <;> simp_all [decodeText]
    · exact texts_of_decodeTexts hkvs kv hkv

theorem decodeTexts_of_texts : ∀ {fields : List (String × Json)},
    (∀ kv ∈ fields, ∃ s, kv.2 = .str s) → ∃ kvs, decodeTexts fields = some kvs
  | [], _ => ⟨[], rfl⟩
  | (k, v) :: fields, h => by
    obtain ⟨s, rfl⟩ := h _ List.mem_cons_self
    obtain ⟨kvs, hkvs⟩ := decodeTexts_of_texts fun kv hkv => h kv (List.mem_cons_of_mem _ hkv)
    exact ⟨(k, s) :: kvs, by simp [decodeTexts, decodeText, hkvs]⟩

/-- Decoding an object with a template. -/
theorem decodeStatefulSet_template {j : Json} {sts : StatefulSet}
    {template : List (String × Json)} (hj : decodeStatefulSet j = some sts)
    (ht : j.at? templatePath = some (.obj template)) :
    ∃ fields spec metadata tm ts, j = .obj fields ∧ Assoc.get? fields "spec" = some (.obj spec) ∧
      Assoc.get? spec "template" = some (.obj template) ∧
      decodeOptional decodeObjectMeta (Assoc.get? fields "metadata") = some metadata ∧
      decodeOptional decodeObjectMeta (Assoc.get? template "metadata") = some tm ∧
      decodeOptional decodePodSpec (Assoc.get? template "spec") = some ts ∧
      sts = ⟨metadata.getD default, some ⟨⟨tm, ts⟩⟩⟩ := by
  obtain ⟨fields, _, rfl, hspec, ht'⟩ := Json.at?_cons_eq_some.1 ht
  obtain ⟨spec, _, rfl, htemplate, ht'⟩ := Json.at?_cons_eq_some.1 ht'
  obtain rfl := Option.some.inj ((Json.at?_nil _).symm.trans ht')
  obtain ⟨metadata, _, hmetadata, hdspec, rfl⟩ := decodeStatefulSet_obj.1 hj
  obtain ⟨_, rfl, hdspec'⟩ := (decodeOptional_obj hspec).1 hdspec
  obtain ⟨_, hdt, rfl⟩ := decodeSpec_obj.1 hdspec'
  obtain ⟨_, rfl, hdt'⟩ := (decodeOptional_obj htemplate).1 hdt
  obtain ⟨tm, ts, htm, hts, rfl⟩ := decodeTemplate_obj.1 hdt'
  exact ⟨fields, spec, metadata, tm, ts, rfl, hspec, htemplate, hmetadata, htm, hts, rfl⟩

theorem get?_below_null {j : Option Json} (h : ∀ t, j = some t → t = .null) (k : String)
    (path : List String) : (j.bind fun t => t.get? (k :: path)) = none := by
  cases j with
  | none => rfl
  | some t =>
    rw [h t rfl]
    rfl

/-- Where the pod spec is decoded from. -/
theorem decodeStatefulSet_podSpec {j : Json} {sts : StatefulSet}
    (hj : decodeStatefulSet j = some sts) :
    decodeOptional decodePodSpec (j.get? (templatePath ++ ["spec"])) =
      some (sts.spec.bind fun spec => spec.template.spec) := by
  obtain ⟨fields, rfl, -⟩ := decodeObject_eq_some.1 hj
  obtain ⟨_, _, -, hspec, rfl⟩ := decodeStatefulSet_obj.1 hj
  rw [templatePath, List.cons_append, Json.get?_obj]
  rcases decodeOptional_eq_some.1 hspec with ⟨rfl, hnull⟩ | ⟨_, _, hget, -, rfl, hdspec⟩
  · rw [List.cons_append, get?_below_null hnull]
    rfl
  obtain ⟨spec, rfl, -⟩ := decodeObject_eq_some.1 hdspec
  obtain ⟨_, ht, rfl⟩ := decodeSpec_obj.1 hdspec
  rw [hget, Option.bind_some, List.cons_append, Json.get?_obj, List.nil_append]
  rcases decodeOptional_eq_some.1 ht with ⟨rfl, hnull⟩ | ⟨_, _, hget', -, rfl, hdt⟩
  · rw [get?_below_null hnull]
    rfl
  obtain ⟨template, rfl, -⟩ := decodeObject_eq_some.1 hdt
  obtain ⟨_, ts, -, hts, rfl⟩ := decodeTemplate_obj.1 hdt
  rw [hget', Option.bind_some, Json.get?_obj]
  simpa using hts

/-- Metadata decodes with other annotations. -/
theorem decodeObjectMeta_annotations {j : Option Json} {metadata : Option ObjectMeta}
    {annotations : List (String × Json)} (hj : decodeOptional decodeObjectMeta j = some metadata)
    (htexts : ∀ kv ∈ annotations, ∃ s, kv.2 = .str s) :
    ∃ metadata', decodeObjectMeta
      (.obj (Assoc.set (Json.members j) "annotations" (.obj annotations))) = some metadata' := by
  obtain ⟨kvs, hkvs⟩ := decodeTexts_of_texts htexts
  have hrest : ∃ name ns uid resourceVersion deletionTimestamp,
      decodeOptional decodeText (Assoc.get? (Json.members j) "name") = some name ∧
      decodeOptional decodeText (Assoc.get? (Json.members j) "namespace") = some ns ∧
      decodeOptional decodeText (Assoc.get? (Json.members j) "uid") = some uid ∧
      decodeOptional decodeText (Assoc.get? (Json.members j) "resourceVersion") =
        some resourceVersion ∧
      decodeOptional decodeText (Assoc.get? (Json.members j) "deletionTimestamp") =
        some deletionTimestamp := by
    rcases decodeOptional_eq_some.1 hj with ⟨-, hnull⟩ | ⟨_, _, rfl, -, -, hdm⟩
    · have hempty : Json.members j = [] := by
        cases j with
        | none => rfl
        | some t => rw [hnull t rfl]; rfl
      rw [hempty]
      exact ⟨none, none, none, none, none, rfl, rfl, rfl, rfl, rfl⟩
    · obtain ⟨fields, rfl, -⟩ := decodeObject_eq_some.1 hdm
      obtain ⟨name, ns, uid, rv, _, del, h1, h2, h3, h4, -, h5, -⟩ := decodeObjectMeta_obj.1 hdm
      exact ⟨name, ns, uid, rv, del, h1, h2, h3, h4, h5⟩
  obtain ⟨name, ns, uid, rv, del, h1, h2, h3, h4, h5⟩ := hrest
  refine ⟨_, decodeObjectMeta_obj.2
    ⟨name, ns, uid, rv, some kvs, del, ?_, ?_, ?_, ?_, ?_, ?_, rfl⟩⟩
  · rw [Assoc.get?_set_of_ne (by decide), h1]
  · rw [Assoc.get?_set_of_ne (by decide), h2]
  · rw [Assoc.get?_set_of_ne (by decide), h3]
  · rw [Assoc.get?_set_of_ne (by decide), h4]
  · rw [Assoc.get?_set_self]
    exact (decodeOptional_obj rfl).2 ⟨kvs, rfl, hkvs⟩
  · rw [Assoc.get?_set_of_ne (by decide), h5]

theorem isDecoder_decodeStatefulSet : IsDecoder decodeStatefulSet where
  spec hj ht := by
    obtain ⟨_, _, _, _, _, -, -, -, -, -, -, rfl⟩ := decodeStatefulSet_template hj ht
    exact Option.some_ne_none _
  metadata_none hj ht hsts m hm := by
    obtain ⟨_, _, _, tm, _, -, -, -, -, htm, -, rfl⟩ := decodeStatefulSet_template hj ht
    rcases decodeOptional_eq_some.1 htm with ⟨-, hnull⟩ | ⟨_, _, -, -, rfl, -⟩
    · exact hnull m hm
    · cases hsts
  metadata_some hj ht hsts := by
    obtain ⟨_, _, _, tm, _, -, -, -, -, htm, -, rfl⟩ := decodeStatefulSet_template hj ht
    rcases decodeOptional_eq_some.1 htm with ⟨rfl, -⟩ | ⟨t, _, ht, -, -, hdt⟩
    · exact (hsts rfl).elim
    · obtain ⟨metadata, rfl, -⟩ := decodeObject_eq_some.1 hdt
      exact ⟨metadata, ht⟩
  annotations_none hj ht hm hsts a ha := by
    obtain ⟨_, _, _, tm, _, -, -, -, -, htm, -, rfl⟩ := decodeStatefulSet_template hj ht
    obtain ⟨_, rfl, hdm⟩ := (decodeOptional_obj hm).1 htm
    obtain ⟨_, _, _, _, annotations, _, -, -, -, -, hda, -, rfl⟩ := decodeObjectMeta_obj.1 hdm
    rcases decodeOptional_eq_some.1 hda with ⟨-, hnull⟩ | ⟨_, _, -, -, rfl, -⟩
    · exact hnull a ha
    · cases hsts
  annotations_some hj ht hm hsts := by
    obtain ⟨_, _, _, tm, _, -, -, -, -, htm, -, rfl⟩ := decodeStatefulSet_template hj ht
    obtain ⟨_, rfl, hdm⟩ := (decodeOptional_obj hm).1 htm
    obtain ⟨_, _, _, _, annotations, _, -, -, -, -, hda, -, rfl⟩ := decodeObjectMeta_obj.1 hdm
    rcases decodeOptional_eq_some.1 hda with ⟨rfl, -⟩ | ⟨t, _, ha, -, -, hdt⟩
    · exact (hsts rfl).elim
    · obtain ⟨fields, rfl, hfields⟩ := decodeObject_eq_some.1 hdt
      exact ⟨fields, ha, texts_of_decodeTexts hfields⟩
  metadata_congr {j j' sts sts'} hj hj' h := by
    obtain ⟨fields, rfl, -⟩ := decodeObject_eq_some.1 hj
    obtain ⟨fields', rfl, -⟩ := decodeObject_eq_some.1 hj'
    obtain ⟨metadata, _, hm, -, rfl⟩ := decodeStatefulSet_obj.1 hj
    obtain ⟨metadata', _, hm', -, rfl⟩ := decodeStatefulSet_obj.1 hj'
    have hfields : Assoc.get? fields "metadata" = Assoc.get? fields' "metadata" := by
      simpa [Json.get?_obj] using h
    rw [hfields, hm'] at hm
    rw [Option.some.inj hm]
  podSpecs_congr hj hj' h := by
    have hspec := decodeStatefulSet_podSpec hj
    rw [h, decodeStatefulSet_podSpec hj'] at hspec
    rw [podSpecs, podSpecs, Option.some.inj hspec]
  accepts {j sts template annotations} hj ht htexts := by
    obtain ⟨fields, spec, metadata, tm, ts, rfl, hspec, htemplate, hmetadata, htm, hts, rfl⟩ :=
      decodeStatefulSet_template hj ht
    obtain ⟨tm', htm'⟩ := decodeObjectMeta_annotations htm htexts
    have htemplate' : decodeTemplate (.obj (withAnnotations template annotations)) =
        some ⟨some tm', ts⟩ := by
      refine decodeTemplate_obj.2 ⟨some tm', ts, ?_, ?_, rfl⟩
      · rw [withAnnotations, Assoc.get?_set_self]
        exact (decodeOptional_obj rfl).2 ⟨tm', rfl, htm'⟩
      · rw [withAnnotations, Assoc.get?_set_of_ne (by decide), hts]
    have hspec' : decodeSpec (.obj (Assoc.set spec "template"
        (.obj (withAnnotations template annotations)))) = some ⟨⟨some tm', ts⟩⟩ := by
      refine decodeSpec_obj.2 ⟨some ⟨some tm', ts⟩, ?_, rfl⟩
      rw [Assoc.get?_set_self]
      exact (decodeOptional_obj rfl).2 ⟨_, rfl, htemplate'⟩
    refine ⟨⟨metadata.getD default, some ⟨⟨some tm', ts⟩⟩⟩, ?_⟩
    rw [templatePath, Json.put, hspec]
    simp only [Json.put, htemplate]
    refine decodeStatefulSet_obj.2 ⟨metadata, some ⟨⟨some tm', ts⟩⟩, ?_, ?_, rfl⟩
    · rw [Assoc.get?_set_of_ne (by decide), hmetadata]
    · rw [Assoc.get?_set_self]
      exact (decodeOptional_obj rfl).2 ⟨_, rfl, hspec'⟩

end CommonsOperator
