import CommonsOperator.DelayedInit
import CommonsOperator.Kubernetes

/-!
# The restarter annotations of a StatefulSet

`getUpdatedRestarterAnnotations` collects the ConfigMaps and Secrets the pod template
refers to, looks each up in its store, and records its uid and resource version in one
annotation. An object that is absent, incomplete or ignored is recorded as
`changes-ignored`. The two halves, for ConfigMaps and for Secrets, are `trackedAnnotations`
with different references, prefixes and ignore annotations.

`getUpdatedRestarterAnnotations_ok` is its value once both stores are there.
`restarterMap_of_references` and `restarterMap_of_not_references` are that map read at every
key, and `restarterMap_congr` says what it depends on.
-/

set_option linter.unusedSectionVars false

namespace CommonsOperator

/-! ## Errors -/

/-- A failure of Rust code : a panic, or an error it returns. -/
inductive Fault (E : Type*) where
  | panic (message : String)
  | error (source : E)

/-- `Option::expect`. -/
def expect {E α : Type*} (message : String) : Option α → Except (Fault E) α
  | some a => .ok a
  | none => .error (.panic message)

/-- `ResultExt::context`. -/
def context {E E' α : Type*} (wrap : E → E') (result : Except E α) : Except (Fault E') α :=
  result.mapError fun e => .error (wrap e)

/-- An object the API server sent that did not deserialize. -/
structure InvalidObject where
  error : String
  metadata : ObjectMeta

namespace StatefulSetController

/-- The errors of the StatefulSet controller. What `kube` reports is its message. -/
inductive Error where
  | invalidStatefulSet (source : InvalidObject)
  | patchFailed (source : String) (objRef : ObjectRef)
  | configMapsUninitialized (source : InitDropped)
  | secretsUninitialized (source : InitDropped)

/-- The messages of the errors. -/
def Error.display : Error → String
  | .invalidStatefulSet _ => "StatefulSet object is invalid"
  | .patchFailed _ objRef =>
    "failed to patch object StatefulSet.v1.apps/" ++ objRef.name ++
      (objRef.ns.elim "" fun ns => "." ++ ns)
  | .configMapsUninitialized _ => "configmap initializer was cancelled"
  | .secretsUninitialized _ => "secrets initializer was cancelled"

/-! ## References of the pod template -/

/-- The two kinds of configuration objects. The code treats them alike but for the values
below. -/
inductive Kind where
  | configMap
  | secret
  deriving DecidableEq

namespace Kind

/-- The prefix of the annotations the controller writes. -/
def annotationPrefix : Kind → String
  | configMap => "configmap.restarter.stackable.tech/"
  | secret => "secret.restarter.stackable.tech/"

/-- The prefix of the annotations that exclude an object. -/
def ignorePrefix : Kind → String
  | configMap => "restarter.stackable.tech/ignore-configmap."
  | secret => "restarter.stackable.tech/ignore-secret."

/-- The object a volume refers to. -/
def ofVolume : Kind → Volume → Option String
  | configMap, volume => volume.configMap.map fun source => source.name
  | secret, volume => volume.secret.bind fun source => source.secretName

/-- The object an `env` entry refers to. -/
def ofEnvVar : Kind → EnvVar → Option String
  | configMap, envVar =>
    envVar.valueFrom.bind fun source => source.configMapKeyRef.map fun ref => ref.name
  | secret, envVar =>
    envVar.valueFrom.bind fun source => source.secretKeyRef.map fun ref => ref.name

/-- The object an `envFrom` entry refers to. -/
def ofEnvFrom : Kind → EnvFromSource → Option String
  | configMap, envFrom => envFrom.configMapRef.map fun ref => ref.name
  | secret, envFrom => envFrom.secretRef.map fun ref => ref.name

end Kind

/-- What the two `DelayedInit`s of the context resolve to. -/
structure Ctx where
  cms : Except InitDropped (Store PartialObjectMeta)
  secrets : Except InitDropped (Store PartialObjectMeta)

/-- The references of a pod spec, in the order of its volumes, the `env` and the `envFrom`
of its containers and init containers. -/
def findPodRefs (podSpec : PodSpec) (volumeRef : Volume → Option ObjectRef)
    (envVarRef : EnvVar → Option ObjectRef) (envFromRef : EnvFromSource → Option ObjectRef) :
    List ObjectRef :=
  let volumeRefs := (podSpec.volumes.toList.flatten).filterMap volumeRef
  let podContainers := podSpec.containers ++ podSpec.initContainers.toList.flatten
  let containerEnvVarRefs :=
    ((podContainers.filterMap fun container => container.env).flatten).filterMap envVarRef
  let containerEnvFromRefs :=
    ((podContainers.filterMap fun container => container.envFrom).flatten).filterMap envFromRef
  volumeRefs ++ containerEnvVarRefs ++ containerEnvFromRefs

/-- The pod spec of the template, if the StatefulSet has one. -/
def podSpecs (sts : StatefulSet) : List PodSpec :=
  (sts.spec.bind fun stsSpec => stsSpec.template.spec).toList

/-- `cm_refs` and `secret_refs`. -/
def refs (kind : Kind) (sts : StatefulSet) (ns : String) : List ObjectRef :=
  ((podSpecs sts).flatMap fun podSpec =>
    findPodRefs podSpec
      (fun volume => (kind.ofVolume volume).map ObjectRef.new)
      (fun envVar => (kind.ofEnvVar envVar).map ObjectRef.new)
      (fun envFrom => (kind.ofEnvFrom envFrom).map ObjectRef.new)).map
    fun ref => ref.within ns

/-- `ignored_cms` and `ignored_secrets`. -/
def ignored (kind : Kind) (sts : StatefulSet) : List String :=
  ((sts.metadata.annotations.toList.flatMap Std.ExtTreeMap.toList).filter fun annotation =>
    startsWith annotation.1 kind.ignorePrefix).map Prod.snd

/-! ## The annotations -/

/-- The uid and the resource version of an object found in a store, if it has both. -/
def version (object : Option PartialObjectMeta) : Option (String × String) := do
  let object ← object
  let uid ← object.metadata.uid
  let resourceVersion ← object.metadata.resourceVersion
  return (uid, resourceVersion)

theorem version_eq_some_iff {object : Option PartialObjectMeta} {uid resourceVersion : String} :
    version object = some (uid, resourceVersion) ↔ ∃ o, object = some o ∧
      o.metadata.uid = some uid ∧ o.metadata.resourceVersion = some resourceVersion := by
  simp [version, Option.bind_eq_some_iff]

/-- The value of the annotation for an object of a given version. -/
def annotationValue (isIgnored : Bool) : Option (String × String) → String
  | some (uid, resourceVersion) =>
    if isIgnored then "changes-ignored" else uid ++ "/" ++ resourceVersion
  | none => "changes-ignored"

/-- One annotation for each reference : its key is the prefix of the kind and the name, its
value the version found in the store unless the name is ignored. -/
def trackedAnnotations (kind : Kind) (sts : StatefulSet) (ns : String)
    (store : Store PartialObjectMeta) : List (String × String) :=
  (refs kind sts ns).map fun ref =>
    (kind.annotationPrefix ++ ref.name,
      annotationValue ((ignored kind sts).contains ref.name) (version (store ref)))

/-- The message of the panic on a StatefulSet without a namespace. -/
def namespaceExpected : String :=
  "A StatefulSet observed by a reflector (so send by Kubernetes) always has a namespace set"

/-- `get_updated_restarter_annotations`. -/
def getUpdatedRestarterAnnotations (sts : StatefulSet) (ctx : Ctx) :
    Except (Fault Error) (BTreeMap String String) := do
  let ns ← expect namespaceExpected sts.metadata.ns
  let cms ← context Error.configMapsUninitialized ctx.cms
  let annotations := BTreeMap.extend ∅ (trackedAnnotations .configMap sts ns cms)
  let secrets ← context Error.secretsUninitialized ctx.secrets
  return BTreeMap.extend annotations (trackedAnnotations .secret sts ns secrets)

/-! ## What is referenced and ignored -/

/-- A container or init container of the pod. -/
def HasContainer (podSpec : PodSpec) (container : Container) : Prop :=
  container ∈ podSpec.containers ∨
    ∃ initContainers, podSpec.initContainers = some initContainers ∧ container ∈ initContainers

/-- The pod refers to the object : one constructor for each kind and each place of the pod spec
that names an object of it. -/
inductive PodReferences (podSpec : PodSpec) : Kind → String → Prop where
  | configMapVolume {volumes volume source} (hvs : podSpec.volumes = some volumes)
      (hv : volume ∈ volumes) (hsource : volume.configMap = some source) :
      PodReferences podSpec .configMap source.name
  | secretVolume {volumes volume source name} (hvs : podSpec.volumes = some volumes)
      (hv : volume ∈ volumes) (hsource : volume.secret = some source)
      (hname : source.secretName = some name) : PodReferences podSpec .secret name
  | configMapKeyRef {container env envVar valueFrom ref} (hc : HasContainer podSpec container)
      (henv : container.env = some env) (he : envVar ∈ env)
      (hfrom : envVar.valueFrom = some valueFrom) (href : valueFrom.configMapKeyRef = some ref) :
      PodReferences podSpec .configMap ref.name
  | secretKeyRef {container env envVar valueFrom ref} (hc : HasContainer podSpec container)
      (henv : container.env = some env) (he : envVar ∈ env)
      (hfrom : envVar.valueFrom = some valueFrom) (href : valueFrom.secretKeyRef = some ref) :
      PodReferences podSpec .secret ref.name
  | configMapRef {container envFrom source ref} (hc : HasContainer podSpec container)
      (henv : container.envFrom = some envFrom) (he : source ∈ envFrom)
      (href : source.configMapRef = some ref) : PodReferences podSpec .configMap ref.name
  | secretRef {container envFrom source ref} (hc : HasContainer podSpec container)
      (henv : container.envFrom = some envFrom) (he : source ∈ envFrom)
      (href : source.secretRef = some ref) : PodReferences podSpec .secret ref.name

/-- The pod template refers to the object. -/
def References (kind : Kind) (sts : StatefulSet) (name : String) : Prop :=
  ∃ stsSpec podSpec, sts.spec = some stsSpec ∧ stsSpec.template.spec = some podSpec ∧
    PodReferences podSpec kind name

/-- The object is named by an ignore annotation of the StatefulSet. -/
def Ignores (kind : Kind) (sts : StatefulSet) (name : String) : Prop :=
  ∃ annotations, ∃ key : String, sts.metadata.annotations = some annotations ∧
    annotations[key]? = some name ∧ startsWith key kind.ignorePrefix

theorem podReferences_of_ofVolume {kind : Kind} {podSpec : PodSpec} {name : String}
    {volumes : List Volume} {volume : Volume} (hvs : podSpec.volumes = some volumes)
    (hv : volume ∈ volumes) (hname : kind.ofVolume volume = some name) :
    PodReferences podSpec kind name := by
  cases kind with
  | configMap =>
    obtain ⟨source, hsource, rfl⟩ := Option.map_eq_some_iff.1 hname
    exact .configMapVolume hvs hv hsource
  | secret =>
    obtain ⟨source, hsource, hname⟩ := Option.bind_eq_some_iff.1 hname
    exact .secretVolume hvs hv hsource hname

theorem podReferences_of_ofEnvVar {kind : Kind} {podSpec : PodSpec} {name : String}
    {container : Container} {env : List EnvVar} {envVar : EnvVar}
    (hc : HasContainer podSpec container) (henv : container.env = some env) (he : envVar ∈ env)
    (hname : kind.ofEnvVar envVar = some name) : PodReferences podSpec kind name := by
  cases kind with
  | configMap =>
    obtain ⟨valueFrom, hfrom, hname⟩ := Option.bind_eq_some_iff.1 hname
    obtain ⟨ref, href, rfl⟩ := Option.map_eq_some_iff.1 hname
    exact .configMapKeyRef hc henv he hfrom href
  | secret =>
    obtain ⟨valueFrom, hfrom, hname⟩ := Option.bind_eq_some_iff.1 hname
    obtain ⟨ref, href, rfl⟩ := Option.map_eq_some_iff.1 hname
    exact .secretKeyRef hc henv he hfrom href

theorem podReferences_of_ofEnvFrom {kind : Kind} {podSpec : PodSpec} {name : String}
    {container : Container} {envFrom : List EnvFromSource} {source : EnvFromSource}
    (hc : HasContainer podSpec container) (henv : container.envFrom = some envFrom)
    (he : source ∈ envFrom) (hname : kind.ofEnvFrom source = some name) :
    PodReferences podSpec kind name := by
  cases kind with
  | configMap =>
    obtain ⟨ref, href, rfl⟩ := Option.map_eq_some_iff.1 hname
    exact .configMapRef hc henv he href
  | secret =>
    obtain ⟨ref, href, rfl⟩ := Option.map_eq_some_iff.1 hname
    exact .secretRef hc henv he href

/-- The references found are those of the pod spec, in every place and of either kind. -/
theorem mem_findPodRefs {kind : Kind} {podSpec : PodSpec} {ref : ObjectRef} :
    ref ∈ findPodRefs podSpec
        (fun volume => (kind.ofVolume volume).map ObjectRef.new)
        (fun envVar => (kind.ofEnvVar envVar).map ObjectRef.new)
        (fun envFrom => (kind.ofEnvFrom envFrom).map ObjectRef.new) ↔
      ∃ name, PodReferences podSpec kind name ∧ ref = ObjectRef.new name := by
  simp only [findPodRefs, List.mem_append, List.mem_filterMap, List.mem_flatten,
    Option.mem_toList, Option.map_eq_some_iff]
  constructor
  · rintro ((⟨v, ⟨vs, hvs, hv⟩, name, hn, rfl⟩ | ⟨e, ⟨es, ⟨c, hc, hes⟩, he⟩, name, hn, rfl⟩) |
      ⟨e, ⟨es, ⟨c, hc, hes⟩, he⟩, name, hn, rfl⟩)
    · exact ⟨name, podReferences_of_ofVolume hvs hv hn, rfl⟩
    · exact ⟨name, podReferences_of_ofEnvVar hc hes he hn, rfl⟩
    · exact ⟨name, podReferences_of_ofEnvFrom hc hes he hn, rfl⟩
  · rintro ⟨name, h, rfl⟩
    cases h with
    | configMapVolume hvs hv hsource =>
      exact Or.inl (Or.inl ⟨_, ⟨_, hvs, hv⟩, _, Option.map_eq_some_iff.2 ⟨_, hsource, rfl⟩, rfl⟩)
    | secretVolume hvs hv hsource hname =>
      exact Or.inl (Or.inl ⟨_, ⟨_, hvs, hv⟩, _, Option.bind_eq_some_iff.2 ⟨_, hsource, hname⟩, rfl⟩)
    | configMapKeyRef hc henv he hfrom href =>
      exact Or.inl (Or.inr ⟨_, ⟨_, ⟨_, hc, henv⟩, he⟩, _,
        Option.bind_eq_some_iff.2 ⟨_, hfrom, Option.map_eq_some_iff.2 ⟨_, href, rfl⟩⟩, rfl⟩)
    | secretKeyRef hc henv he hfrom href =>
      exact Or.inl (Or.inr ⟨_, ⟨_, ⟨_, hc, henv⟩, he⟩, _,
        Option.bind_eq_some_iff.2 ⟨_, hfrom, Option.map_eq_some_iff.2 ⟨_, href, rfl⟩⟩, rfl⟩)
    | configMapRef hc henv he href =>
      exact Or.inr ⟨_, ⟨_, ⟨_, hc, henv⟩, he⟩, _, Option.map_eq_some_iff.2 ⟨_, href, rfl⟩, rfl⟩
    | secretRef hc henv he href =>
      exact Or.inr ⟨_, ⟨_, ⟨_, hc, henv⟩, he⟩, _, Option.map_eq_some_iff.2 ⟨_, href, rfl⟩, rfl⟩

theorem mem_refs {kind : Kind} {sts : StatefulSet} {ns : String} {ref : ObjectRef} :
    ref ∈ refs kind sts ns ↔ ∃ name, References kind sts name ∧ ref = ⟨name, some ns⟩ := by
  simp only [refs, podSpecs, List.mem_map, List.mem_flatMap, Option.mem_toList,
    Option.bind_eq_some_iff, mem_findPodRefs]
  constructor
  · rintro ⟨-, ⟨podSpec, ⟨stsSpec, hsts, hspec⟩, name, hname, rfl⟩, rfl⟩
    exact ⟨name, ⟨stsSpec, podSpec, hsts, hspec, hname⟩, rfl⟩
  · rintro ⟨name, ⟨stsSpec, podSpec, hsts, hspec, hname⟩, rfl⟩
    exact ⟨ObjectRef.new name, ⟨podSpec, ⟨stsSpec, hsts, hspec⟩, name, hname, rfl⟩, rfl⟩

theorem mem_ignored {kind : Kind} {sts : StatefulSet} {name : String} :
    name ∈ ignored kind sts ↔ Ignores kind sts name := by
  simp only [ignored, List.mem_map, List.mem_filter, List.mem_flatMap, Option.mem_toList, Ignores]
  constructor
  · rintro ⟨⟨key, v⟩, ⟨⟨annotations, ha, hkv⟩, hpre⟩, rfl⟩
    exact ⟨annotations, key, ha, Std.ExtTreeMap.mem_toList_iff_getElem?_eq_some.1 hkv, hpre⟩
  · rintro ⟨annotations, key, ha, hkv, hpre⟩
    exact ⟨(key, name), ⟨⟨annotations, ha, Std.ExtTreeMap.mem_toList_iff_getElem?_eq_some.2 hkv⟩,
      hpre⟩, rfl⟩

theorem contains_ignored {kind : Kind} {sts : StatefulSet} {name : String} :
    (ignored kind sts).contains name = true ↔ Ignores kind sts name := by
  rw [List.contains_iff_mem, mem_ignored]

theorem contains_ignored_eq_false {kind : Kind} {sts : StatefulSet} {name : String}
    (h : ¬Ignores kind sts name) : (ignored kind sts).contains name = false :=
  Bool.eq_false_iff.2 (mt contains_ignored.1 h)

/-! ## The map at every key -/

/-- The key of the annotation for an object. -/
def annotationKey (kind : Kind) (name : String) : String :=
  kind.annotationPrefix ++ name

/-- The keys the controller owns. -/
def IsRestarterKey (key : String) : Prop :=
  ∃ kind name, key = annotationKey kind name

theorem annotationKey_inj {kind kind' : Kind} {name name' : String}
    (h : annotationKey kind name = annotationKey kind' name') : kind = kind' ∧ name = name' := by
  have hk : kind = kind' := by
    have := congrArg String.toList h
    simp only [annotationKey, String.toList_append] at this
    cases kind <;> cases kind' <;> simp [Kind.annotationPrefix] at this <;> rfl
  subst hk
  exact ⟨rfl, (String.append_right_inj _).1 h⟩

theorem isRestarterKey_iff {key : String} : IsRestarterKey key ↔
    startsWith key Kind.configMap.annotationPrefix ∨
      startsWith key Kind.secret.annotationPrefix := by
  rw [startsWith_iff, startsWith_iff]
  constructor
  · rintro ⟨kind, name, rfl⟩
    cases kind with
    | configMap => exact Or.inl ⟨name, rfl⟩
    | secret => exact Or.inr ⟨name, rfl⟩
  · rintro (⟨name, h⟩ | ⟨name, h⟩)
    · exact ⟨.configMap, name, h⟩
    · exact ⟨.secret, name, h⟩

instance (key : String) : Decidable (IsRestarterKey key) :=
  decidable_of_iff _ isRestarterKey_iff.symm

/-- The map of `getUpdatedRestarterAnnotations` once both stores are there. -/
def restarterMap (sts : StatefulSet) (ns : String) (cms secrets : Store PartialObjectMeta) :
    BTreeMap String String :=
  BTreeMap.extend (BTreeMap.extend ∅ (trackedAnnotations .configMap sts ns cms))
    (trackedAnnotations .secret sts ns secrets)

theorem getUpdatedRestarterAnnotations_ok {sts : StatefulSet} {ns : String}
    (hns : sts.metadata.ns = some ns) (cms secrets : Store PartialObjectMeta) :
    getUpdatedRestarterAnnotations sts ⟨.ok cms, .ok secrets⟩ =
      .ok (restarterMap sts ns cms secrets) := by
  simp [getUpdatedRestarterAnnotations, hns, expect, context, Except.mapError, restarterMap]
  rfl

/-- The store for the kind, of the two. -/
def Kind.pick {α : Type*} (cms secrets : α) : Kind → α
  | .configMap => cms
  | .secret => secrets

/-- The value `getUpdatedRestarterAnnotations` records for an object. -/
def recordedValue (kind : Kind) (sts : StatefulSet) (ns : String)
    (store : Store PartialObjectMeta) (name : String) : String :=
  annotationValue ((ignored kind sts).contains name) (version (store ⟨name, some ns⟩))

/-- A version that is recorded is not taken for an ignored object. -/
theorem annotationValue_ne (v : String × String) :
    annotationValue false (some v) ≠ "changes-ignored" := by
  intro h
  have hmem : '/' ∈ (annotationValue false (some v)).toList := by simp [annotationValue]
  rw [h] at hmem
  revert hmem
  decide

theorem mem_trackedAnnotations {kind : Kind} {sts : StatefulSet} {ns : String}
    {store : Store PartialObjectMeta} {kv : String × String} :
    kv ∈ trackedAnnotations kind sts ns store ↔ ∃ name, References kind sts name ∧
      kv = (annotationKey kind name, recordedValue kind sts ns store name) := by
  simp only [trackedAnnotations, List.mem_map, mem_refs]
  constructor
  · rintro ⟨-, ⟨name, hname, rfl⟩, rfl⟩
    exact ⟨name, hname, rfl⟩
  · rintro ⟨name, hname, rfl⟩
    exact ⟨_, ⟨name, hname, rfl⟩, rfl⟩

theorem getElem?_extend_trackedAnnotations {kind : Kind} {sts : StatefulSet} {ns : String}
    {store : Store PartialObjectMeta} {name : String} (h : References kind sts name)
    (m : BTreeMap String String) :
    (BTreeMap.extend m (trackedAnnotations kind sts ns store))[annotationKey kind name]? =
      some (recordedValue kind sts ns store name) := by
  refine BTreeMap.getElem?_extend_of_mem m (mem_trackedAnnotations.2 ⟨name, h, rfl⟩) fun v hv => ?_
  obtain ⟨name', -, he⟩ := mem_trackedAnnotations.1 hv
  obtain ⟨hk, rfl⟩ := Prod.mk.inj he
  rw [(annotationKey_inj hk).2]

theorem getElem?_extend_trackedAnnotations_of_not {kind : Kind} {sts : StatefulSet} {ns : String}
    {store : Store PartialObjectMeta} {key : String}
    (h : ∀ name, References kind sts name → key ≠ annotationKey kind name)
    (m : BTreeMap String String) :
    (BTreeMap.extend m (trackedAnnotations kind sts ns store))[key]? = m[key]? := by
  refine BTreeMap.getElem?_extend_of_notMem m fun kv hkv => ?_
  obtain ⟨name, hname, rfl⟩ := mem_trackedAnnotations.1 hkv
  exact (h name hname).symm

/-- A referenced object is recorded under its key. -/
theorem restarterMap_of_references {kind : Kind} {sts : StatefulSet} {name : String}
    (h : References kind sts name) (ns : String) (cms secrets : Store PartialObjectMeta) :
    (restarterMap sts ns cms secrets)[annotationKey kind name]? =
      some (recordedValue kind sts ns (kind.pick cms secrets) name) := by
  cases kind with
  | configMap =>
    rw [restarterMap, getElem?_extend_trackedAnnotations_of_not,
      getElem?_extend_trackedAnnotations h]
    · rfl
    · intro name' _ he
      cases (annotationKey_inj he).1
  | secret => exact getElem?_extend_trackedAnnotations h _

/-- No other key is in the map. -/
theorem restarterMap_of_not_references {sts : StatefulSet} {key : String}
    (h : ∀ kind name, References kind sts name → key ≠ annotationKey kind name) (ns : String)
    (cms secrets : Store PartialObjectMeta) : (restarterMap sts ns cms secrets)[key]? = none := by
  rw [restarterMap, getElem?_extend_trackedAnnotations_of_not (h .secret),
    getElem?_extend_trackedAnnotations_of_not (h .configMap)]
  exact Std.ExtTreeMap.getElem?_empty

/-- The map has restarter keys only. -/
theorem isRestarterKey_of_getElem? {sts : StatefulSet} {ns : String}
    {cms secrets : Store PartialObjectMeta} {key value : String}
    (h : (restarterMap sts ns cms secrets)[key]? = some value) : IsRestarterKey key := by
  by_contra hkey
  rw [restarterMap_of_not_references fun kind name _ he => hkey ⟨kind, name, he⟩] at h
  cases h

/-! ## What the map depends on -/

/-- Two StatefulSets agree in what the map is computed from. -/
structure SameInputs (sts sts' : StatefulSet) : Prop where
  ns : sts.metadata.ns = sts'.metadata.ns
  references : ∀ kind name, References kind sts name ↔ References kind sts' name
  ignores : ∀ kind name, References kind sts name →
    (Ignores kind sts name ↔ Ignores kind sts' name)

namespace SameInputs

theorem refl (sts : StatefulSet) : SameInputs sts sts :=
  ⟨rfl, fun _ _ => Iff.rfl, fun _ _ _ => Iff.rfl⟩

theorem symm {sts sts' : StatefulSet} (h : SameInputs sts sts') : SameInputs sts' sts :=
  ⟨h.ns.symm, fun kind name => (h.references kind name).symm,
    fun kind name hname => (h.ignores kind name ((h.references kind name).2 hname)).symm⟩

theorem trans {sts sts' sts'' : StatefulSet} (h : SameInputs sts sts')
    (h' : SameInputs sts' sts'') : SameInputs sts sts'' :=
  ⟨h.ns.trans h'.ns, fun kind name => (h.references kind name).trans (h'.references kind name),
    fun kind name hname => (h.ignores kind name hname).trans
      (h'.ignores kind name ((h.references kind name).1 hname))⟩

/-- The metadata's namespace and annotations and the pod spec are all that is read. -/
theorem of_eq {sts sts' : StatefulSet} (hns : sts.metadata.ns = sts'.metadata.ns)
    (ha : sts.metadata.annotations = sts'.metadata.annotations)
    (hspec : podSpecs sts = podSpecs sts') : SameInputs sts sts' := by
  have href : ∀ kind name, References kind sts name ↔ References kind sts' name := by
    intro kind name
    have hrefs : refs kind sts "" = refs kind sts' "" := by rw [refs, refs, hspec]
    constructor
    · intro h
      obtain ⟨name', h', he⟩ := mem_refs.1 (hrefs ▸ mem_refs.2 ⟨name, h, rfl⟩)
      obtain rfl : name = name' := congrArg ObjectRef.name he
      exact h'
    · intro h
      obtain ⟨name', h', he⟩ := mem_refs.1 (hrefs ▸ mem_refs.2 ⟨name, h, rfl⟩)
      obtain rfl : name = name' := congrArg ObjectRef.name he
      exact h'
  refine ⟨hns, href, fun kind name _ => ?_⟩
  rw [Ignores, Ignores, ha]

end SameInputs

theorem podSpecs_withTemplateAnnotations (sts : StatefulSet)
    (annotations : BTreeMap String String) :
    podSpecs (sts.withTemplateAnnotations annotations) = podSpecs sts := by
  obtain ⟨metadata, spec⟩ := sts
  cases spec <;> rfl

/-- The annotations of the template are not read. -/
theorem SameInputs.withTemplateAnnotations (sts : StatefulSet)
    (annotations annotations' : BTreeMap String String) :
    SameInputs (sts.withTemplateAnnotations annotations)
      (sts.withTemplateAnnotations annotations') :=
  .of_eq rfl rfl (by rw [podSpecs_withTemplateAnnotations, podSpecs_withTemplateAnnotations])

/-- Two stores agree on the versions of what the StatefulSet tracks. -/
def SameVersions (kind : Kind) (sts : StatefulSet) (ns : String)
    (store store' : Store PartialObjectMeta) : Prop :=
  ∀ name, References kind sts name → ¬Ignores kind sts name →
    version (store ⟨name, some ns⟩) = version (store' ⟨name, some ns⟩)

theorem recordedValue_congr {kind : Kind} {sts sts' : StatefulSet} {ns : String}
    {store store' : Store PartialObjectMeta} {name : String}
    (hi : Ignores kind sts name ↔ Ignores kind sts' name)
    (hv : ¬Ignores kind sts name →
      version (store ⟨name, some ns⟩) = version (store' ⟨name, some ns⟩)) :
    recordedValue kind sts ns store name = recordedValue kind sts' ns store' name := by
  by_cases h : Ignores kind sts name
  · rw [recordedValue, recordedValue, contains_ignored.2 h, contains_ignored.2 (hi.1 h)]
    cases version (store ⟨name, some ns⟩) <;> cases version (store' ⟨name, some ns⟩) <;> rfl
  · rw [recordedValue, recordedValue, contains_ignored_eq_false h,
      contains_ignored_eq_false (mt hi.2 h), hv h]

/-- One half of the map depends on the inputs and on the versions of the tracked objects. -/
theorem extend_trackedAnnotations_congr {kind : Kind} {sts sts' : StatefulSet} {ns : String}
    {store store' : Store PartialObjectMeta} (hin : SameInputs sts sts')
    (hv : SameVersions kind sts ns store store') (m : BTreeMap String String) :
    BTreeMap.extend m (trackedAnnotations kind sts ns store) =
      BTreeMap.extend m (trackedAnnotations kind sts' ns store') := by
  refine Std.ExtTreeMap.ext_getElem? fun key => ?_
  by_cases h : ∃ name, References kind sts name ∧ key = annotationKey kind name
  · obtain ⟨name, hname, rfl⟩ := h
    rw [getElem?_extend_trackedAnnotations hname,
      getElem?_extend_trackedAnnotations ((hin.references kind name).1 hname),
      recordedValue_congr (hin.ignores kind name hname) (hv name hname)]
  · have hno : ∀ name, References kind sts name → key ≠ annotationKey kind name :=
      fun name hname he => h ⟨name, hname, he⟩
    rw [getElem?_extend_trackedAnnotations_of_not hno,
      getElem?_extend_trackedAnnotations_of_not fun name hname =>
        hno name ((hin.references kind name).2 hname)]

theorem restarterMap_congr {sts sts' : StatefulSet} {ns : String}
    {cms cms' secrets secrets' : Store PartialObjectMeta} (hin : SameInputs sts sts')
    (hc : SameVersions .configMap sts ns cms cms')
    (hs : SameVersions .secret sts ns secrets secrets') :
    restarterMap sts ns cms secrets = restarterMap sts' ns cms' secrets' := by
  rw [restarterMap, restarterMap, extend_trackedAnnotations_congr hin hc,
    extend_trackedAnnotations_congr hin hs]

/-! ## A StatefulSet with one volume -/

/-- A StatefulSet whose pods mount the ConfigMap `cm`. -/
def mountsConfigMap (name ns cm : String) : StatefulSet where
  metadata := { (default : ObjectMeta) with name := some name, ns := some ns }
  spec := some ⟨none, some ⟨some [⟨some ⟨cm⟩, none, none⟩], [], none⟩⟩

/-- A store with one object. -/
def singleStore (ref : ObjectRef) (uid resourceVersion : String) : Store PartialObjectMeta :=
  fun r =>
    if r = ref then some ⟨some ref.name, ref.ns, some uid, some resourceVersion, none, none⟩
    else none

theorem references_mountsConfigMap {name ns cm name' : String} {kind : Kind} :
    References kind (mountsConfigMap name ns cm) name' ↔ kind = .configMap ∧ name' = cm := by
  constructor
  · rintro ⟨stsSpec, podSpec, hsts, hspec, h⟩
    obtain rfl := Option.some.inj hsts
    obtain rfl := Option.some.inj hspec
    have hno : ∀ {container},
        ¬HasContainer ⟨some [⟨some ⟨cm⟩, none, none⟩], [], none⟩ container := by
      rintro _ (hc | ⟨_, hc, _⟩) <;> cases hc
    cases h with
    | configMapVolume hvs hv hsource =>
      obtain rfl := Option.some.inj hvs
      obtain rfl := List.mem_singleton.1 hv
      obtain rfl := Option.some.inj hsource
      exact ⟨rfl, rfl⟩
    | secretVolume hvs hv hsource =>
      obtain rfl := Option.some.inj hvs
      obtain rfl := List.mem_singleton.1 hv
      cases hsource
    | configMapKeyRef hc => exact (hno hc).elim
    | secretKeyRef hc => exact (hno hc).elim
    | configMapRef hc => exact (hno hc).elim
    | secretRef hc => exact (hno hc).elim
  · rintro ⟨rfl, rfl⟩
    exact ⟨_, _, rfl, rfl, .configMapVolume rfl List.mem_cons_self rfl⟩

theorem not_ignores_mountsConfigMap {name ns cm name' : String} {kind : Kind} :
    ¬Ignores kind (mountsConfigMap name ns cm) name' := by
  rintro ⟨_, _, h, -⟩
  cases h

end StatefulSetController

end CommonsOperator
