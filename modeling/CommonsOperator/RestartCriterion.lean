import CommonsOperator.RestarterAnnotations
import Mathlib.Data.List.Basic

/-!
# When a StatefulSet restarts

A StatefulSet is rolled when its restarter annotations change. `restart_criterion` says
when they do between two states of the ConfigMap and Secret stores : when the version of
some object that the pod template refers to and that no annotation excludes changes. The
direction from equal maps needs that a value determines the version it was written from
(`annotationValue_inj`), which holds as uids contain no `/`.
-/

namespace CommonsOperator.StatefulSetController

/-- No uid in the store contains the character that separates it in an annotation. -/
def SlashFree (store : Store PartialObjectMeta) : Prop :=
  ∀ ref object uid, store ref = some object → object.metadata.uid = some uid → '/' ∉ uid.toList

theorem slashFree_of_version {store : Store PartialObjectMeta} (h : SlashFree store)
    {ref : ObjectRef} {uid resourceVersion : String}
    (hv : version (store ref) = some (uid, resourceVersion)) : '/' ∉ uid.toList := by
  obtain ⟨object, ho, huid, -⟩ := version_eq_some_iff.1 hv
  exact h ref object uid ho huid

/-- The text before the first separator and the text after it. -/
theorem append_cons_inj_of_notMem_left {α : Type*} {a : α} :
    ∀ {l l' r r' : List α}, a ∉ l → a ∉ l' → l ++ a :: r = l' ++ a :: r' → l = l' ∧ r = r'
  | [], [], _, _, _, _, h => ⟨rfl, (List.cons.inj h).2⟩
  | [], b :: l', _, _, _, hl', h => (hl' ((List.cons.inj h).1 ▸ List.mem_cons_self)).elim
  | b :: l, [], _, _, hl, _, h => (hl ((List.cons.inj h).1 ▸ List.mem_cons_self)).elim
  | b :: l, b' :: l', _, _, hl, hl', h => by
    obtain ⟨rfl, ht⟩ := List.cons.inj h
    obtain ⟨rfl, hr⟩ := append_cons_inj_of_notMem_left (fun hm => hl (List.mem_cons_of_mem _ hm))
      (fun hm => hl' (List.mem_cons_of_mem _ hm)) ht
    exact ⟨rfl, hr⟩

/-- A value that is not ignored determines the version. -/
theorem annotationValue_inj {v v' : Option (String × String)}
    (hv : ∀ p, v = some p → '/' ∉ p.1.toList) (hv' : ∀ p, v' = some p → '/' ∉ p.1.toList)
    (h : annotationValue false v = annotationValue false v') : v = v' := by
  cases v with
  | none =>
    cases v' with
    | none => rfl
    | some p' => exact (annotationValue_ne p' h.symm).elim
  | some p =>
    cases v' with
    | none => exact (annotationValue_ne p h).elim
    | some p' =>
      have ht := congrArg String.toList h
      simp only [annotationValue, Bool.false_eq_true, if_false, String.toList_append,
        List.append_assoc] at ht
      obtain ⟨h1, h2⟩ := append_cons_inj_of_notMem_left (hv p rfl) (hv' p' rfl) ht
      rw [Prod.ext (String.toList_inj.1 h1) (String.toList_inj.1 h2)]

/-- The exact restart criterion. The annotations computed from two states of the stores are
equal if and only if every ConfigMap and every Secret that the pod template refers to and
the StatefulSet does not ignore has the same version in both, looked up in the namespace of
the StatefulSet. -/
theorem restart_criterion {sts : StatefulSet} {ns : String} (hns : sts.metadata.ns = some ns)
    {cms₁ secrets₁ cms₂ secrets₂ : Store PartialObjectMeta} (hc₁ : SlashFree cms₁)
    (hs₁ : SlashFree secrets₁) (hc₂ : SlashFree cms₂) (hs₂ : SlashFree secrets₂) :
    getUpdatedRestarterAnnotations sts ⟨.ok cms₁, .ok secrets₁⟩ =
        getUpdatedRestarterAnnotations sts ⟨.ok cms₂, .ok secrets₂⟩ ↔
      (∀ name, References .configMap sts name → ¬Ignores .configMap sts name →
        version (cms₁ ⟨name, some ns⟩) = version (cms₂ ⟨name, some ns⟩)) ∧
      (∀ name, References .secret sts name → ¬Ignores .secret sts name →
        version (secrets₁ ⟨name, some ns⟩) = version (secrets₂ ⟨name, some ns⟩)) := by
  have same : ∀ kind, restarterMap sts ns cms₁ secrets₁ = restarterMap sts ns cms₂ secrets₂ →
      SlashFree (kind.pick cms₁ secrets₁) → SlashFree (kind.pick cms₂ secrets₂) →
      SameVersions kind sts ns (kind.pick cms₁ secrets₁) (kind.pick cms₂ secrets₂) := by
    intro kind h hf hf' name hname hni
    have hv : recordedValue kind sts ns (kind.pick cms₁ secrets₁) name =
        recordedValue kind sts ns (kind.pick cms₂ secrets₂) name :=
      Option.some.inj (by
        rw [← restarterMap_of_references hname, ← restarterMap_of_references hname, h])
    rw [recordedValue, recordedValue, contains_ignored_eq_false hni] at hv
    exact annotationValue_inj (fun _ hp => slashFree_of_version hf hp)
      (fun _ hp => slashFree_of_version hf' hp) hv
  rw [getUpdatedRestarterAnnotations_ok hns, getUpdatedRestarterAnnotations_ok hns]
  constructor
  · intro h
    have h := Except.ok.inj h
    exact ⟨same .configMap h hc₁ hc₂, same .secret h hs₁ hs₂⟩
  · rintro ⟨hc, hs⟩
    rw [restarterMap_congr (SameInputs.refl sts) hc hs]

theorem slashFree_singleStore {ref : ObjectRef} {uid rv : String} (h : '/' ∉ uid.toList) :
    SlashFree (singleStore ref uid rv) := by
  intro r object uid' ho hu
  unfold singleStore at ho
  split at ho
  · obtain rfl := Option.some.inj ho
    exact Option.some.inj hu ▸ h
  · cases ho

theorem slashFree_empty : SlashFree fun _ => none :=
  fun _ _ _ h => nomatch h

/-- A new resource version of a mounted ConfigMap changes the annotations. -/
theorem restart_criterion_new_version :
    getUpdatedRestarterAnnotations (mountsConfigMap "web" "prod" "cfg")
        ⟨.ok (singleStore ⟨"cfg", some "prod"⟩ "u" "1"), .ok fun _ => none⟩ ≠
      getUpdatedRestarterAnnotations (mountsConfigMap "web" "prod" "cfg")
        ⟨.ok (singleStore ⟨"cfg", some "prod"⟩ "u" "2"), .ok fun _ => none⟩ := by
  intro h
  have hns : (mountsConfigMap "web" "prod" "cfg").metadata.ns = some "prod" := rfl
  have hv := ((restart_criterion hns (slashFree_singleStore (by decide))
    slashFree_empty (slashFree_singleStore (by decide)) slashFree_empty).1 h).1 "cfg"
    (references_mountsConfigMap.2 ⟨rfl, rfl⟩) not_ignores_mountsConfigMap
  revert hv
  decide

end CommonsOperator.StatefulSetController
