import CommonsOperator.QualifiedName
import CommonsOperator.TrackedReferences

/-!
# Validity of the annotations

The API server takes DNS subdomains of up to 253 characters for the names of ConfigMaps and
Secrets, but at most 63 characters after the prefix of an annotation's key. The key of a
restarter annotation has the name there, so the keys are valid if and only if no name that is
referenced is longer than that (`restarter_keys_valid_iff`).
-/

namespace CommonsOperator.StatefulSetController

/-- The StatefulSet passes the validation of names and annotation keys. -/
structure Valid (sts : StatefulSet) : Prop where
  names : ∀ kind name, TakesContent kind sts name → isDnsSubdomain name = true
  keys : ∀ annotations, sts.metadata.annotations = some annotations →
    ∀ key ∈ annotations, isQualifiedName key = true
  templateKeys : ∀ annotations, sts.templateAnnotations = some annotations →
    ∀ key ∈ annotations, isQualifiedName key = true

/-- A key is valid if the name is short enough. -/
theorem isQualifiedName_annotationKey {kind : Kind} {name : String}
    (h : isDnsSubdomain name = true) :
    isQualifiedName (annotationKey kind name) = true ↔ name.length ≤ 63 := by
  obtain ⟨domain, hp, hdomain⟩ : ∃ domain, kind.annotationPrefix = domain ++ "/" ∧
      isDnsSubdomain domain = true := by
    cases kind with
    | configMap => exact ⟨"configmap.restarter.stackable.tech", by decide, by decide +kernel⟩
    | secret => exact ⟨"secret.restarter.stackable.tech", by decide, by decide +kernel⟩
  rw [annotationKey, hp]
  exact isQualifiedName_append hdomain h

/-- When the keys are valid. For a valid StatefulSet the keys of the map are qualified names if
and only if the names of the ConfigMaps and Secrets it is computed from have at most 63
characters. -/
theorem restarter_keys_valid_iff {sts : StatefulSet} (hvalid : Valid sts) {ctx : Ctx}
    {annotations : BTreeMap String String}
    (h : getUpdatedRestarterAnnotations sts ctx = .ok annotations) :
    (∀ key ∈ annotations, isQualifiedName key = true) ↔
      ∀ kind name, References kind sts name → name.length ≤ 63 := by
  obtain ⟨ns, cms, secrets, -, -, rfl⟩ := getUpdatedRestarterAnnotations_eq_ok.1 h
  have hkey : ∀ kind name, References kind sts name →
      (isQualifiedName (annotationKey kind name) = true ↔ name.length ≤ 63) :=
    fun kind name href => isQualifiedName_annotationKey (hvalid.names kind name (Or.inl href))
  constructor
  · intro hkeys kind name href
    exact (hkey kind name href).1 (hkeys _ (annotationKey_mem_restarterMap.2 href))
  · intro hlen key hmem
    obtain ⟨kind, name, href, rfl⟩ := mem_restarterMap.1 hmem
    exact (hkey kind name href).2 (hlen kind name href)

theorem not_projects_mountsConfigMap {name ns cm name' : String} {kind : Kind} :
    ¬Projects kind (mountsConfigMap name ns cm) name' := by
  rintro ⟨stsSpec, podSpec, hspec, hpod, h⟩
  obtain rfl := Option.some.inj hspec
  obtain rfl := Option.some.inj hpod
  have hno : ∀ {volumes : List Volume} {volume : Volume} {projected : ProjectedVolumeSource},
      some [⟨some ⟨cm⟩, none, none⟩] = some volumes → volume ∈ volumes →
      volume.projected ≠ some projected := by
    intro volumes volume projected hvs hv hprojected
    obtain rfl := Option.some.inj hvs
    obtain rfl := List.mem_singleton.1 hv
    cases hprojected
  cases h with
  | configMap hvs hv hprojected => exact hno hvs hv hprojected
  | secret hvs hv hprojected => exact hno hvs hv hprojected

/-- A StatefulSet that mounts a ConfigMap with a valid name is valid. -/
theorem valid_mountsConfigMap {cm : String} (h : isDnsSubdomain cm = true) :
    Valid (mountsConfigMap "web" "prod" cm) where
  names kind name htakes := by
    rcases htakes with href | hproj
    · rw [(references_mountsConfigMap.1 href).2]
      exact h
    · exact (not_projects_mountsConfigMap hproj).elim
  keys annotations ha := by cases ha
  templateKeys annotations ha := by cases ha

/-- The annotations for one that mounts the ConfigMap `cfg`. -/
def webAnnotations : BTreeMap String String :=
  restarterMap (mountsConfigMap "web" "prod" "cfg") "prod" (fun _ => none) fun _ => none

theorem restarter_keys_valid_mountsConfigMap :
    annotationKey .configMap "cfg" ∈ webAnnotations ∧
      ∀ key ∈ webAnnotations, isQualifiedName key = true := by
  have href : References .configMap (mountsConfigMap "web" "prod" "cfg") "cfg" :=
    references_mountsConfigMap.2 ⟨rfl, rfl⟩
  refine ⟨annotationKey_mem_restarterMap.2 href, ?_⟩
  refine (restarter_keys_valid_iff (valid_mountsConfigMap (by decide +kernel))
    (getUpdatedRestarterAnnotations_ok rfl _ _)).2 fun kind name href => ?_
  rw [(references_mountsConfigMap.1 href).2]
  decide

/-- A name of 64 characters. -/
def longName : String :=
  String.ofList (List.replicate 64 'a')

theorem restarter_key_invalid_longName :
    ¬∀ sts ctx annotations, Valid sts → getUpdatedRestarterAnnotations sts ctx = .ok annotations →
      ∀ key ∈ annotations, isQualifiedName key = true := by
  intro h
  have hname : isDnsSubdomain longName = true := by decide +kernel
  have hkeys := h _ _ _ (valid_mountsConfigMap hname)
    (getUpdatedRestarterAnnotations_ok rfl (fun _ => none) fun _ => none)
  have href : References .configMap (mountsConfigMap "web" "prod" longName) longName :=
    references_mountsConfigMap.2 ⟨rfl, rfl⟩
  have hlen : longName.length ≤ 63 :=
    (isQualifiedName_annotationKey hname).1 (hkeys _ (annotationKey_mem_restarterMap.2 href))
  revert hlen
  decide +kernel

end CommonsOperator.StatefulSetController
