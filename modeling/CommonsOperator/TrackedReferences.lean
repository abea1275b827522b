import CommonsOperator.RestarterAnnotations

/-!
# Which references are tracked

A pod template takes content from a ConfigMap or Secret in four ways : a volume of that kind,
a source of a projected volume, an `env` entry and an `envFrom` entry. `find_pod_refs` looks at
the volumes of the kind, the `env` and the `envFrom`. So the map tracks all content if and only
if whatever a projected volume takes is also taken in one of the other ways
(`references_tracked_iff`), and it never tracks anything else.
-/

namespace CommonsOperator.StatefulSetController

/-! ## The content of a pod -/

/-- A projected volume of the pod takes content from the object. -/
inductive PodProjects (podSpec : PodSpec) : Kind → String → Prop where
  | configMap {volumes volume projected sources projection source}
      (hvs : podSpec.volumes = some volumes) (hv : volume ∈ volumes)
      (hprojected : volume.projected = some projected) (hsources : projected.sources = some sources)
      (hp : projection ∈ sources) (hsource : projection.configMap = some source) :
      PodProjects podSpec .configMap source.name
  | secret {volumes volume projected sources projection source}
      (hvs : podSpec.volumes = some volumes) (hv : volume ∈ volumes)
      (hprojected : volume.projected = some projected) (hsources : projected.sources = some sources)
      (hp : projection ∈ sources) (hsource : projection.secret = some source) :
      PodProjects podSpec .secret source.name

/-- A projected volume of the pod template takes content from the object. -/
def Projects (kind : Kind) (sts : StatefulSet) (name : String) : Prop :=
  ∃ stsSpec podSpec, sts.spec = some stsSpec ∧ stsSpec.template.spec = some podSpec ∧
    PodProjects podSpec kind name

/-- The pod template takes content from the object, in any way. -/
def TakesContent (kind : Kind) (sts : StatefulSet) (name : String) : Prop :=
  References kind sts name ∨ Projects kind sts name

/-- The keys of the map are those of the objects the pod template takes content from. -/
structure TracksContent (sts : StatefulSet) (annotations : BTreeMap String String) : Prop where
  tracked : ∀ kind name, TakesContent kind sts name → annotationKey kind name ∈ annotations
  content : ∀ kind name, annotationKey kind name ∈ annotations → TakesContent kind sts name

/-! ## The keys of the map -/

theorem getUpdatedRestarterAnnotations_eq_ok {sts : StatefulSet} {ctx : Ctx}
    {annotations : BTreeMap String String} :
    getUpdatedRestarterAnnotations sts ctx = .ok annotations ↔ ∃ ns cms secrets,
      sts.metadata.ns = some ns ∧ ctx = ⟨.ok cms, .ok secrets⟩ ∧
        annotations = restarterMap sts ns cms secrets := by
  constructor
  · intro h
    obtain ⟨cms, secrets⟩ := ctx
    cases hns : sts.metadata.ns with
    | none => simp [getUpdatedRestarterAnnotations, hns, expect, bind, Except.bind] at h
    | some ns =>
      cases cms with
      | error e =>
        simp [getUpdatedRestarterAnnotations, hns, expect, context, Except.mapError, bind,
          Except.bind] at h
      | ok cms =>
        cases secrets with
        | error e =>
          simp [getUpdatedRestarterAnnotations, hns, expect, context, Except.mapError, bind,
            Except.bind] at h
        | ok secrets =>
          rw [getUpdatedRestarterAnnotations_ok hns] at h
          exact ⟨ns, cms, secrets, rfl, rfl, (Except.ok.inj h).symm⟩
  · rintro ⟨ns, cms, secrets, hns, rfl, rfl⟩
    exact getUpdatedRestarterAnnotations_ok hns cms secrets

/-- The keys of the map are those of the references found. -/
theorem mem_restarterMap {sts : StatefulSet} {ns : String} {cms secrets : Store PartialObjectMeta}
    {key : String} : key ∈ restarterMap sts ns cms secrets ↔
      ∃ kind name, References kind sts name ∧ key = annotationKey kind name := by
  constructor
  · intro hkey
    by_contra h
    have hnone := restarterMap_of_not_references
      (fun kind name href he => h ⟨kind, name, href, he⟩) ns cms secrets
    rw [Std.ExtTreeMap.mem_iff_isSome_getElem?, hnone] at hkey
    cases hkey
  · rintro ⟨kind, name, href, rfl⟩
    rw [Std.ExtTreeMap.mem_iff_isSome_getElem?, restarterMap_of_references href]
    rfl

theorem annotationKey_mem_restarterMap {sts : StatefulSet} {ns : String}
    {cms secrets : Store PartialObjectMeta} {kind : Kind} {name : String} :
    annotationKey kind name ∈ restarterMap sts ns cms secrets ↔ References kind sts name := by
  rw [mem_restarterMap]
  constructor
  · rintro ⟨kind', name', href, he⟩
    obtain ⟨rfl, rfl⟩ := annotationKey_inj he
    exact href
  · exact fun href => ⟨kind, name, href, rfl⟩

/-- When all content is tracked. The keys of the map are exactly those of the ConfigMaps and
Secrets the pod template takes content from if and only if each one in a projected volume is
also referenced by a volume of its kind, an `env` or an `envFrom`. -/
theorem references_tracked_iff {sts : StatefulSet} {ctx : Ctx}
    {annotations : BTreeMap String String}
    (h : getUpdatedRestarterAnnotations sts ctx = .ok annotations) :
    TracksContent sts annotations ↔ ∀ kind name, Projects kind sts name →
      References kind sts name := by
  obtain ⟨ns, cms, secrets, -, -, rfl⟩ := getUpdatedRestarterAnnotations_eq_ok.1 h
  constructor
  · intro htracks kind name hproj
    exact annotationKey_mem_restarterMap.1 (htracks.tracked kind name (Or.inr hproj))
  · intro hproj
    refine ⟨fun kind name htakes => ?_, fun kind name hkey => ?_⟩
    · rcases htakes with href | hp
      · exact annotationKey_mem_restarterMap.2 href
      · exact annotationKey_mem_restarterMap.2 (hproj kind name hp)
    · exact Or.inl (annotationKey_mem_restarterMap.1 hkey)

/-! ## A projected volume -/

/-- A volume that mounts the ConfigMap `cm`. -/
def mountedVolume (cm : String) : Volume :=
  ⟨some ⟨cm⟩, none, none⟩

/-- A projected volume with `cm` as a source. -/
def projectedVolume (cm : String) : Volume :=
  ⟨none, none, some ⟨some [⟨some ⟨cm⟩, none⟩]⟩⟩

/-- A StatefulSet whose pods have the volumes. -/
def withVolumes (name ns : String) (volumes : List Volume) : StatefulSet where
  metadata := { (default : ObjectMeta) with name := some name, ns := some ns }
  spec := some ⟨none, some ⟨some volumes, [], none⟩⟩

theorem projects_withVolumes {name ns cm name' : String} {kind : Kind}
    (h : Projects kind (withVolumes name ns [mountedVolume cm, projectedVolume cm]) name') :
    kind = .configMap ∧ name' = cm := by
  obtain ⟨stsSpec, podSpec, hspec, hpod, h⟩ := h
  obtain rfl := Option.some.inj hspec
  obtain rfl := Option.some.inj hpod
  have honly : ∀ {volumes volume projected sources} {projection : VolumeProjection},
      some [mountedVolume cm, projectedVolume cm] = some volumes → volume ∈ volumes →
      volume.projected = some projected → projected.sources = some sources →
      projection ∈ sources → projection = ⟨some ⟨cm⟩, none⟩ := by
    intro volumes volume projected sources projection hvs hv hprojected hsources hp
    obtain rfl := Option.some.inj hvs
    rcases List.mem_cons.1 hv with rfl | hv
    · cases hprojected
    · obtain rfl := List.mem_singleton.1 hv
      obtain rfl := Option.some.inj hprojected
      obtain rfl := Option.some.inj hsources
      exact List.mem_singleton.1 hp
  cases h with
  | configMap hvs hv hprojected hsources hp hsource =>
    obtain rfl := honly hvs hv hprojected hsources hp
    obtain rfl := Option.some.inj hsource
    exact ⟨rfl, rfl⟩
  | secret hvs hv hprojected hsources hp hsource =>
    obtain rfl := honly hvs hv hprojected hsources hp
    cases hsource

/-- A ConfigMap in a projected volume is tracked when a volume of its own mounts it too. -/
theorem references_tracked_mounted :
    TracksContent (withVolumes "web" "prod" [mountedVolume "cfg", projectedVolume "cfg"])
      (restarterMap (withVolumes "web" "prod" [mountedVolume "cfg", projectedVolume "cfg"]) "prod"
        (fun _ => none) fun _ => none) := by
  refine (references_tracked_iff (getUpdatedRestarterAnnotations_ok rfl _ _)).2
    fun kind name hp => ?_
  obtain ⟨rfl, rfl⟩ := projects_withVolumes hp
  exact ⟨_, _, rfl, rfl, .configMapVolume rfl List.mem_cons_self rfl⟩

theorem untracked_projected :
    ¬∀ sts ctx annotations, getUpdatedRestarterAnnotations sts ctx = .ok annotations →
      TracksContent sts annotations := by
  intro h
  let sts := withVolumes "web" "prod" [projectedVolume "cfg"]
  have hok : getUpdatedRestarterAnnotations sts ⟨.ok fun _ => none, .ok fun _ => none⟩ =
      .ok (restarterMap sts "prod" (fun _ => none) fun _ => none) :=
    getUpdatedRestarterAnnotations_ok rfl (fun _ => none) fun _ => none
  have hmem : annotationKey .configMap "cfg" ∈ restarterMap sts "prod" (fun _ => none)
      fun _ => none :=
    (h _ _ _ hok).tracked .configMap "cfg" (Or.inr ⟨_, _, rfl, rfl,
      .configMap rfl List.mem_cons_self rfl rfl List.mem_cons_self rfl⟩)
  obtain ⟨ref, hmem⟩ : ∃ ref, ref ∈ refs .configMap sts "" :=
    ⟨_, mem_refs.2 ⟨"cfg", annotationKey_mem_restarterMap.1 hmem, rfl⟩⟩
  cases hmem

end CommonsOperator.StatefulSetController
