import CommonsOperator.BTreeMap

/-!
# Kubernetes objects

The fields of the API types that the operator reads, under the names of `k8s-openapi` and
`kube`.
-/

namespace CommonsOperator

/-- `str::starts_with`. -/
def startsWith (s keyPrefix : String) : Bool :=
  keyPrefix.toList.isPrefixOf s.toList

theorem startsWith_iff {s keyPrefix : String} :
    startsWith s keyPrefix = true ↔ ∃ rest, s = keyPrefix ++ rest := by
  rw [startsWith, List.isPrefixOf_iff_prefix]
  constructor
  · rintro ⟨rest, h⟩
    exact ⟨String.ofList rest, by simpa [← String.toList_inj] using h.symm⟩
  · rintro ⟨rest, rfl⟩
    exact ⟨rest.toList, String.toList_append.symm⟩

/-- `metadata` of an object, with the fields the operator reads or sends. -/
structure ObjectMeta where
  name : Option String
  /-- `namespace`. -/
  ns : Option String
  uid : Option String
  resourceVersion : Option String
  annotations : Option (BTreeMap String String)
  deletionTimestamp : Option String

/-- `ObjectMeta::default`. -/
instance : Inhabited ObjectMeta :=
  ⟨⟨none, none, none, none, none, none⟩⟩

/-- An object of which only the metadata was fetched. -/
structure PartialObjectMeta where
  metadata : ObjectMeta

/-! ## The pod template -/

structure ConfigMapVolumeSource where
  name : String

structure SecretVolumeSource where
  secretName : Option String

structure ConfigMapProjection where
  name : String

structure SecretProjection where
  name : String

structure VolumeProjection where
  configMap : Option ConfigMapProjection
  secret : Option SecretProjection

structure ProjectedVolumeSource where
  sources : Option (List VolumeProjection)

structure Volume where
  configMap : Option ConfigMapVolumeSource
  secret : Option SecretVolumeSource
  projected : Option ProjectedVolumeSource

structure ConfigMapKeySelector where
  name : String

structure SecretKeySelector where
  name : String

structure EnvVarSource where
  configMapKeyRef : Option ConfigMapKeySelector
  secretKeyRef : Option SecretKeySelector

structure EnvVar where
  valueFrom : Option EnvVarSource

structure ConfigMapEnvSource where
  name : String

structure SecretEnvSource where
  name : String

structure EnvFromSource where
  configMapRef : Option ConfigMapEnvSource
  secretRef : Option SecretEnvSource

structure Container where
  env : Option (List EnvVar)
  envFrom : Option (List EnvFromSource)

structure PodSpec where
  volumes : Option (List Volume)
  containers : List Container
  initContainers : Option (List Container)

structure PodTemplateSpec where
  metadata : Option ObjectMeta
  spec : Option PodSpec

structure StatefulSetSpec where
  template : PodTemplateSpec

structure StatefulSet where
  metadata : ObjectMeta
  spec : Option StatefulSetSpec

namespace StatefulSet

/-- The metadata of the pod template. -/
def templateMetadata (sts : StatefulSet) : Option ObjectMeta :=
  sts.spec.bind fun spec => spec.template.metadata

/-- The annotations of the pod template. -/
def templateAnnotations (sts : StatefulSet) : Option (BTreeMap String String) :=
  sts.templateMetadata.bind fun metadata => metadata.annotations

/-- The StatefulSet with other annotations of its pod template. -/
def withTemplateAnnotations (sts : StatefulSet) (annotations : BTreeMap String String) :
    StatefulSet :=
  let spec := sts.spec.getD ⟨⟨none, none⟩⟩
  let metadata := spec.template.metadata.getD default
  { sts with
    spec := some ⟨{ spec.template with
      metadata := some { metadata with annotations := some annotations } }⟩ }

@[simp] theorem metadata_withTemplateAnnotations (sts : StatefulSet)
    (annotations : BTreeMap String String) :
    (sts.withTemplateAnnotations annotations).metadata = sts.metadata :=
  rfl

@[simp] theorem templateAnnotations_withTemplateAnnotations (sts : StatefulSet)
    (annotations : BTreeMap String String) :
    (sts.withTemplateAnnotations annotations).templateAnnotations = some annotations :=
  rfl

end StatefulSet

/-! ## References and stores -/

/-- A reference to an object of a kind fixed by the context. -/
structure ObjectRef where
  name : String
  /-- `namespace`. -/
  ns : Option String
  deriving DecidableEq

namespace ObjectRef

/-- A reference without a namespace. -/
def new (name : String) : ObjectRef :=
  ⟨name, none⟩

/-- The reference, within the namespace `ns`. -/
def within (ref : ObjectRef) (ns : String) : ObjectRef :=
  { ref with ns := some ns }

/-- The reference to the object that carries `metadata`. -/
def fromObj (metadata : ObjectMeta) : ObjectRef :=
  ⟨metadata.name.getD "", metadata.ns⟩

@[simp] theorem name_new (name : String) : (new name).name = name :=
  rfl

@[simp] theorem name_within (ref : ObjectRef) (ns : String) : (ref.within ns).name = ref.name :=
  rfl

end ObjectRef

/-- The reference to an object of which the metadata was fetched. -/
def objectRef (object : PartialObjectMeta) : ObjectRef :=
  ObjectRef.fromObj object.metadata

/-- What a reflector's store finds under a reference. -/
abbrev Store (K : Type*) :=
  ObjectRef → Option K

/-! ## Reconcilers -/

/-- `Duration::from_secs`, in nanoseconds. -/
def seconds (n : Nat) : Nat :=
  n * 1000000000

/-- `Action` : what is to be done with an object after it was reconciled. -/
inductive Action where
  | awaitChange
  | requeue (nanoseconds : Nat)
  deriving DecidableEq

end CommonsOperator
