import CommonsOperator.Reflector
import CommonsOperator.RestarterAnnotations
import CommonsOperator.Transition

/-!
# Objects that are not watched

`start` watches only the ConfigMaps and Secrets that do not carry the label
`restarter.stackable.tech/ignore` with the value `true`. The API server applies the selector :
an object that comes to match is added for the watch, one that ceases to is deleted, and of one
that does not match nothing is told. So the store is of the objects that are not ignored, as
they were some items ago, and the annotations are computed from those.
-/

set_option linter.unusedSectionVars false

namespace CommonsOperator.StatefulSetController

open Transition

/-- A ConfigMap or Secret of the cluster. Its data is not fetched. -/
structure ConfigObject where
  labels : Option (BTreeMap String String)
  object : PartialObjectMeta

namespace ConfigObject

/-- `restarter.stackable.tech/ignore != true`. -/
def watched (config : ConfigObject) : Bool :=
  (config.labels.bind fun labels => labels["restarter.stackable.tech/ignore"]?) ≠ some "true"

/-- The reference to the object. -/
def ref (config : ConfigObject) : ObjectRef :=
  objectRef config.object

end ConfigObject

/-- The objects of one kind in the cluster, and the watch of them. -/
structure Cluster where
  objects : List ConfigObject
  watch : Watch ObjectRef PartialObjectMeta

namespace Cluster

/-- There are no objects yet. -/
def new : Cluster :=
  ⟨[], Watch.new⟩

/-- The objects that are watched. -/
def watched (cluster : Cluster) : List PartialObjectMeta :=
  (cluster.objects.filter ConfigObject.watched).map ConfigObject.object

/-- The object of that name. -/
def find? (cluster : Cluster) (ref : ObjectRef) : Option ConfigObject :=
  Watch.lookup ConfigObject.ref cluster.objects ref

/-- The other objects. -/
def others (cluster : Cluster) (ref : ObjectRef) : List ConfigObject :=
  cluster.objects.filter fun config => config.ref ≠ ref

inductive Label where
  /-- An object is created or changed. -/
  | put (config : ConfigObject)
  | delete (ref : ObjectRef)
  /-- The watch lists the objects again. -/
  | relist
  /-- An item of the watch is delivered. -/
  | deliver

/-- What the watch is told when an object was `old` and is `new`. -/
def event (old new : Option ConfigObject) : Option (WatchEvent PartialObjectMeta) :=
  match new.filter ConfigObject.watched, old.filter ConfigObject.watched with
  | some config, _ => some (.apply config.object)
  | none, some config => some (.delete config.object)
  | none, none => none

/-- The watch yields the item, if there is one. -/
def tell (watch : Watch ObjectRef PartialObjectMeta) :
    Option (WatchEvent PartialObjectMeta) → Watch ObjectRef PartialObjectMeta
  | some event => watch.emit event
  | none => watch

def step (cluster : Cluster) : Label → Option Cluster
  | .put config =>
    some ⟨cluster.others config.ref ++ [config],
      tell cluster.watch (event (cluster.find? config.ref) (some config))⟩
  | .delete ref =>
    some ⟨cluster.others ref, tell cluster.watch (event (cluster.find? ref) none)⟩
  | .relist =>
    some { cluster with watch := { cluster.watch with
      queue := cluster.watch.queue ++ (.init :: cluster.watched.map .initApply ++ [.initDone]) } }
  | .deliver => (cluster.watch.deliver objectRef).map fun (_, watch) => { cluster with watch }

/-! ## The store -/

/-- The store follows the objects that are watched. -/
structure Inv (cluster : Cluster) : Prop where
  nodup : (cluster.objects.map ConfigObject.ref).Nodup
  mirrors : cluster.watch.Mirrors objectRef cluster.watched

theorem inv_new : Inv new :=
  ⟨List.nodup_nil, .new⟩

/-- The object of that name, if it is watched. -/
theorem lookup_watched (cluster : Cluster) (hnodup : (cluster.objects.map ConfigObject.ref).Nodup)
    (ref : ObjectRef) :
    Watch.lookup objectRef cluster.watched ref =
      ((cluster.find? ref).filter ConfigObject.watched).map ConfigObject.object := by
  obtain ⟨objects, watch⟩ := cluster
  unfold watched find? Watch.lookup
  dsimp only at hnodup ⊢
  induction objects with
  | nil => rfl
  | cons config objects ih =>
    obtain ⟨hfresh, hnodup⟩ := List.nodup_cons.1 hnodup
    have ih := ih hnodup
    by_cases href : config.ref = ref
    · have hobject : objectRef config.object = ref := href
      have hnone : objects.find? (fun config => decide (config.ref = ref)) = none := by
        rw [List.find?_eq_none]
        intro config' hmem hkey
        exact hfresh (href ▸ of_decide_eq_true hkey ▸ List.mem_map_of_mem hmem)
      rw [hnone] at ih
      rw [List.find?_cons_of_pos (by simpa using href), Option.filter_some]
      cases hw : config.watched with
      | true =>
        rw [List.filter_cons_of_pos hw, List.map_cons,
          List.find?_cons_of_pos (by simpa using hobject)]
        rfl
      | false =>
        rw [List.filter_cons_of_neg (by simpa using hw), ih]
        rfl
    · have hobject : objectRef config.object ≠ ref := href
      rw [List.find?_cons_of_neg (by simpa using href), ← ih]
      cases hw : config.watched with
      | true =>
        rw [List.filter_cons_of_pos hw, List.map_cons,
          List.find?_cons_of_neg (by simpa using hobject)]
      | false => rw [List.filter_cons_of_neg (by simpa using hw)]

section

variable {cluster cluster' : Cluster} {ref : ObjectRef}

theorem watched_others (cluster : Cluster) (ref : ObjectRef) :
    ((cluster.others ref).filter ConfigObject.watched).map ConfigObject.object =
      cluster.watched.filter fun object => objectRef object ≠ ref := by
  unfold others watched
  rw [List.filter_map, List.filter_filter, List.filter_filter]
  congr 1
  refine List.filter_congr fun config _ => ?_
  exact Bool.and_comm _ _

theorem nodup_others (hnodup : (cluster.objects.map ConfigObject.ref).Nodup) (ref : ObjectRef) :
    ((cluster.others ref).map ConfigObject.ref).Nodup :=
  (List.filter_sublist.map _).nodup hnodup

/-- Without the object, the watched ones are the same if it was not watched. -/
theorem watched_others_of_not (h : Inv cluster)
    (hnot : (cluster.find? ref).filter ConfigObject.watched = none) :
    ((cluster.others ref).filter ConfigObject.watched).map ConfigObject.object =
      cluster.watched := by
  have hnone : Watch.lookup objectRef cluster.watched ref = none := by
    rw [lookup_watched cluster h.nodup, hnot]
    rfl
  rw [watched_others, List.filter_eq_self]
  intro object hmem
  have hne := List.find?_eq_none.1 hnone object hmem
  simpa using hne

theorem inv_put (h : Inv cluster) (config : ConfigObject)
    (hs : step cluster (.put config) = some cluster') : Inv cluster' := by
  obtain rfl := Option.some.inj hs
  refine ⟨?_, ?_⟩
  · rw [List.map_append, List.nodup_append]
    refine ⟨nodup_others h.nodup _, by simp, ?_⟩
    rintro _ hmem _ hlast rfl
    obtain ⟨config', hfilter, hkey⟩ := List.mem_map.1 hmem
    have hne := of_decide_eq_true (List.mem_filter.1 hfilter).2
    exact hne (hkey.trans (List.mem_singleton.1 hlast))
  · unfold watched
    rw [List.filter_append, List.map_append]
    cases hw : config.watched with
    | true =>
      have hput := h.mirrors.put config.object
      rw [← ConfigObject.ref, ← watched_others] at hput
      simpa [event, tell, Option.filter_some, hw] using hput
    | false =>
      cases hold : (cluster.find? config.ref).filter ConfigObject.watched with
      | none =>
        rw [watched_others_of_not h hold]
        simpa [event, tell, Option.filter_some, hw, hold] using h.mirrors
      | some old =>
        have hlookup : Watch.lookup objectRef cluster.watched config.ref = some old.object := by
          rw [lookup_watched cluster h.nodup, hold]
          rfl
        have hremove := h.mirrors.remove hlookup
        rw [← watched_others] at hremove
        simpa [event, tell, Option.filter_some, hw, hold] using hremove

theorem inv_delete (h : Inv cluster) (hs : step cluster (.delete ref) = some cluster') :
    Inv cluster' := by
  obtain rfl := Option.some.inj hs
  refine ⟨nodup_others h.nodup ref, ?_⟩
  unfold watched
  cases hold : (cluster.find? ref).filter ConfigObject.watched with
  | none =>
    rw [watched_others_of_not h hold]
    simpa [event, tell, hold] using h.mirrors
  | some old =>
    have hlookup : Watch.lookup objectRef cluster.watched ref = some old.object := by
      rw [lookup_watched cluster h.nodup, hold]
      rfl
    have hremove := h.mirrors.remove hlookup
    rw [← watched_others] at hremove
    simpa [event, tell, hold] using hremove

theorem inv_step {l : Label} (h : Inv cluster) (hs : step cluster l = some cluster') :
    Inv cluster' := by
  cases l with
  | put config => exact inv_put h config hs
  | delete ref => exact inv_delete h hs
  | relist =>
    obtain rfl := Option.some.inj hs
    exact ⟨h.nodup, h.mirrors.relist⟩
  | deliver =>
    obtain ⟨⟨event, watch⟩, hd, rfl⟩ := Option.map_eq_some_iff.1 hs
    exact ⟨h.nodup, h.mirrors.deliver hd⟩

end

/-- The object of that name, if it is watched. -/
def tracked (cluster : Cluster) (ref : ObjectRef) : Option PartialObjectMeta :=
  ((cluster.find? ref).filter ConfigObject.watched).map ConfigObject.object

/-- Once the watch has nothing more to tell, the store is of the objects that are watched. -/
theorem published_eq_tracked {cluster : Cluster} (h : Inv cluster)
    (hq : cluster.watch.queue = []) : cluster.watch.reflector.published = cluster.tracked := by
  have hdrained := h.mirrors.drained
  unfold Watch.drained at hdrained
  rw [hq] at hdrained
  funext ref
  exact (congrFun hdrained ref).trans (lookup_watched cluster h.nodup ref)

end Cluster

/-- The object of that name is recorded with its version. -/
def Records (sts : StatefulSet) (kind : Kind) (cluster : Cluster) (ref : ObjectRef)
    (uid resourceVersion : String) : Prop :=
  ¬Ignores kind sts ref.name ∧ ∃ config, cluster.find? ref = some config ∧
    config.watched = true ∧ config.object.metadata.uid = some uid ∧
    config.object.metadata.resourceVersion = some resourceVersion

/-- The annotations record the objects of the cluster that are neither ignored by their label nor
by the StatefulSet, and no others. -/
structure RecordsClusters (sts : StatefulSet) (ns : String) (cms secrets : Cluster)
    (annotations : BTreeMap String String) : Prop where
  recorded : ∀ kind name uid resourceVersion, References kind sts name →
    Records sts kind (kind.pick cms secrets) ⟨name, some ns⟩ uid resourceVersion →
    annotations[annotationKey kind name]? = some (uid ++ "/" ++ resourceVersion)
  notRecorded : ∀ kind name, References kind sts name →
    (∀ uid resourceVersion,
      ¬Records sts kind (kind.pick cms secrets) ⟨name, some ns⟩ uid resourceVersion) →
    annotations[annotationKey kind name]? = some "changes-ignored"
  noOther : ∀ key, (∀ kind name, References kind sts name → key ≠ annotationKey kind name) →
    annotations[key]? = none

theorem version_tracked {cluster : Cluster} {ref : ObjectRef} {uid resourceVersion : String} :
    version (cluster.tracked ref) = some (uid, resourceVersion) ↔
      ∃ config, cluster.find? ref = some config ∧ config.watched = true ∧
        config.object.metadata.uid = some uid ∧
        config.object.metadata.resourceVersion = some resourceVersion := by
  rw [version_eq_some_iff]
  simp [Cluster.tracked, Option.map_eq_some_iff, Option.filter_eq_some_iff, and_assoc]

theorem recordedValue_of_records {sts : StatefulSet} {kind : Kind} {cluster : Cluster}
    {name ns uid resourceVersion : String}
    (h : Records sts kind cluster ⟨name, some ns⟩ uid resourceVersion) :
    recordedValue kind sts ns cluster.tracked name = uid ++ "/" ++ resourceVersion := by
  rw [recordedValue, contains_ignored_eq_false h.1, version_tracked.2 h.2]
  rfl

theorem recordedValue_of_not_records {sts : StatefulSet} {kind : Kind} {cluster : Cluster}
    {name ns : String}
    (h : ∀ uid resourceVersion, ¬Records sts kind cluster ⟨name, some ns⟩ uid resourceVersion) :
    recordedValue kind sts ns cluster.tracked name = "changes-ignored" := by
  unfold recordedValue
  cases hv : version (cluster.tracked ⟨name, some ns⟩) with
  | none => rfl
  | some v =>
    have hignores : Ignores kind sts name := by
      by_contra hnot
      exact h v.1 v.2 ⟨hnot, version_tracked.1 hv⟩
    rw [contains_ignored.2 hignores]
    rfl

/-- Whatever became of the ConfigMaps and Secrets, once both watches have nothing more to tell,
the annotations record the objects of the cluster that are neither ignored by their label nor
by the StatefulSet, and no others. -/
theorem annotations_of_clusters {lsc lss : List Cluster.Label} {cms secrets : Cluster}
    (hcms : run Cluster.step Cluster.new lsc = some cms)
    (hsecrets : run Cluster.step Cluster.new lss = some secrets)
    (hcq : cms.watch.queue = []) (hsq : secrets.watch.queue = []) {sts : StatefulSet} {ns : String}
    (hns : sts.metadata.ns = some ns) :
    ∃ annotations, getUpdatedRestarterAnnotations sts
        ⟨.ok cms.watch.reflector.published, .ok secrets.watch.reflector.published⟩ =
          .ok annotations ∧
      RecordsClusters sts ns cms secrets annotations := by
  have hinv : ∀ ls cluster, run Cluster.step Cluster.new ls = some cluster → cluster.Inv :=
    fun ls cluster h => run_invariant (fun _ _ _ h hs => Cluster.inv_step h hs) Cluster.inv_new h
  rw [Cluster.published_eq_tracked (hinv lsc cms hcms) hcq,
    Cluster.published_eq_tracked (hinv lss secrets hsecrets) hsq,
    getUpdatedRestarterAnnotations_ok hns]
  have hpick : ∀ kind : Kind, kind.pick cms.tracked secrets.tracked =
      (kind.pick cms secrets).tracked := fun kind => by cases kind <;> rfl
  refine ⟨_, rfl, ⟨?_, ?_, ?_⟩⟩
  · intro kind name uid resourceVersion href hrecords
    rw [restarterMap_of_references href, hpick, recordedValue_of_records hrecords]
  · intro kind name href hnot
    rw [restarterMap_of_references href, hpick, recordedValue_of_not_records hnot]
  · intro key hkey
    exact restarterMap_of_not_references hkey ns _ _

/-- The ConfigMap `cfg` is changed twice, and ignored in between. -/
def ignoredOnce : List Cluster.Label :=
  let config resourceVersion labels : ConfigObject :=
    ⟨labels, ⟨⟨some "cfg", some "prod", some "u", some resourceVersion, none, none⟩⟩⟩
  [.put (config "1" none), .relist,
    .put (config "2" (some (BTreeMap.extend ∅ [("restarter.stackable.tech/ignore", "true")]))),
    .put (config "3" none), .deliver, .deliver, .deliver, .deliver, .deliver, .deliver]

theorem annotations_of_clusters_ignoredOnce :
    ∃ cms, run Cluster.step Cluster.new ignoredOnce = some cms ∧
      ∃ annotations, getUpdatedRestarterAnnotations (mountsConfigMap "web" "prod" "cfg")
          ⟨.ok cms.watch.reflector.published, .ok Cluster.new.watch.reflector.published⟩ =
            .ok annotations ∧
        RecordsClusters (mountsConfigMap "web" "prod" "cfg") "prod" cms Cluster.new annotations ∧
        annotations[annotationKey .configMap "cfg"]? = some "u/3" := by
  have hrun : ((run Cluster.step Cluster.new ignoredOnce).map fun cms =>
      cms.watch.queue.isEmpty && (cms.find? ⟨"cfg", some "prod"⟩).any fun config =>
        config.watched && config.object.metadata.uid == some "u" &&
          config.object.metadata.resourceVersion == some "3") = some true := by decide +kernel
  obtain ⟨cms, hcms, hq⟩ := Option.map_eq_some_iff.1 hrun
  simp only [Bool.and_eq_true, Option.any_eq_true, beq_iff_eq] at hq
  obtain ⟨hempty, config, hfind, ⟨hwatched, huid⟩, hversion⟩ := hq
  have hsecrets : run Cluster.step Cluster.new [] = some Cluster.new := rfl
  have hns : (mountsConfigMap "web" "prod" "cfg").metadata.ns = some "prod" := rfl
  obtain ⟨annotations, hok, hrecords⟩ :=
    annotations_of_clusters hcms hsecrets (List.isEmpty_iff.1 hempty) rfl hns
  refine ⟨cms, hcms, annotations, hok, hrecords, ?_⟩
  exact hrecords.recorded .configMap "cfg" "u" "3" (references_mountsConfigMap.2 ⟨rfl, rfl⟩)
    ⟨not_ignores_mountsConfigMap, config, hfind, hwatched, huid, hversion⟩

end CommonsOperator.StatefulSetController
