import CommonsOperator.RestarterMutateSts
import CommonsOperator.RestarterRollouts

/-!
# From the webhook to the controller

A StatefulSet that goes through the webhook is stored with the annotations of the handler's
patch. The controller hears of it by its watch, some time later and maybe several times, and
reconciles it from the same stores. `admitted_never_restarted` : as long as the versions of
what the StatefulSet tracks do not change and nobody else writes its annotations, no
reconcile restarts it, in whatever order the items of the watches and the reconciles come.
-/

set_option linter.unusedSectionVars false

namespace CommonsOperator.StatefulSetController

open Transition RestarterMutateSts

/-- Where the object is valid, it is the StatefulSet as it was admitted, as far as the
annotations go. -/
def IsAdmitted (ref : ObjectRef) (sts : StatefulSet) (object : StatefulSetGuard) : Prop :=
  ∀ sts', object = .ok sts' → guardRef object = ref → SameInputs sts' sts

/-- The object `j` was admitted, decoded `sts`, and is stored with its annotations. The
controller owns none of them yet, and no reconcile of it has read anything else. -/
structure Stored (ref : ObjectRef) (j : Json) (sts : StatefulSet) (ns : String) (s : System) :
    Prop where
  entries : ∀ key value, j.get? (annotationsPath ++ [key]) = some (.str value) →
    (s.live ref).entries[key]? = some value
  owners : ∀ key, fieldManager ∉ (s.live ref).owners key
  stses : s.stses.Forall (IsAdmitted ref sts)
  keyed : s.stses.reflector.Keyed guardRef
  running : ∀ phase, s.running ref = some phase → phase.Current s sts ns

/-- The StatefulSet has the annotations computed from the stores, and no reconcile of it has
read anything else. -/
structure Kept (ref : ObjectRef) (sts : StatefulSet) (ns : String) (s : System) : Prop where
  live : HasAnnotations (s.live ref) (restarterMap sts ns
    (s.config .configMap).reflector.published (s.config .secret).reflector.published)
  stses : s.stses.Forall (IsAdmitted ref sts)
  keyed : s.stses.reflector.Keyed guardRef
  running : ∀ phase, s.running ref = some phase → phase.Current s sts ns

/-- The step leaves alone what the StatefulSet tracks, what it tracks it by, and its
annotations. -/
structure LeavesAlone (ref : ObjectRef) (sts : StatefulSet) (ns : String) (s : System)
    (l : Label) : Prop where
  versions : ∀ s', step s l = some s' → ∀ kind, SameVersions kind sts ns
    (s.config kind).reflector.published (s'.config kind).reflector.published
  inputs : ∀ event object, l = .emitSts event → event.appliedObject = some object →
    IsAdmitted ref sts object
  patch : ∀ sts', l = .patch ref sts' → SameInputs sts' sts
  write : ∀ annotations sts', l ≠ .write ref annotations sts'

section

variable {ref ref' : ObjectRef} {sts : StatefulSet} {ns : String} {s s' : System} {l : Label}

/-- A step that is not of the StatefulSet's reconcile. -/
theorem Kept.of_sameReads (h : Kept ref sts ns s) (hreads : SameReads s s' ref sts ns)
    (hstses : s'.stses.Forall (IsAdmitted ref sts)) (hkeyed : s'.stses.reflector.Keyed guardRef) :
    Kept ref sts ns s' := by
  have hmap := restarterMap_congr (SameInputs.refl sts) (hreads.versions .configMap)
    (hreads.versions .secret)
  refine ⟨by rw [hreads.live, ← hmap]; exact h.live, hstses, hkeyed, fun phase hr => ?_⟩
  rw [hreads.running] at hr
  exact (Phase.current_congr (SameInputs.refl sts) hreads.versions phase).1 (h.running phase hr)

/-- The reconcile of the StatefulSet goes on, or ends. -/
theorem Kept.setRunning (h : Kept ref sts ns s) {next : Option Phase}
    (hnext : ∀ phase, next = some phase → phase.Current s sts ns) :
    Kept ref sts ns { s with running := Function.update s.running ref next } := by
  refine ⟨h.live, h.stses, h.keyed, fun phase hr => ?_⟩
  simp only [Function.update_self] at hr
  exact hnext phase hr

theorem sameReads_of_running (hconfig : s'.config = s.config)
    (hrunning : s'.running ref = s.running ref) (hlive : s'.live ref = s.live ref) :
    SameReads s s' ref sts ns := by
  refine ⟨fun kind => ?_, hrunning, hlive⟩
  rw [hconfig]
  exact fun _ _ _ => rfl

theorem kept_deliverSts (h : Kept ref sts ns s) (hs : step s .deliverSts = some s') :
    Kept ref sts ns s' := by
  obtain ⟨event, queue, hq, rfl⟩ := step_deliverSts hs
  refine h.of_sameReads (sameReads_of_running rfl rfl rfl) ⟨fun event' hmem => ?_, ?_⟩
    (h.keyed.observe event)
  · exact h.stses.queue event' (hq ▸ List.mem_cons_of_mem _ hmem)
  · exact h.stses.reflector.observe (h.stses.queue event (hq ▸ List.mem_cons_self))

theorem kept_start (h : Kept ref sts ns s) (hs : step s (.start ref') = some s') :
    Kept ref sts ns s' := by
  obtain ⟨-, -, rfl⟩ := step_start hs
  by_cases hr : ref = ref'
  · subst hr
    refine ⟨h.live, h.stses, h.keyed, fun phase hp => ?_⟩
    cases hc : s.cached ref with
    | none =>
      have hidle := congrFun (beginReconcile_of_cached hc s.running) ref
      exact h.running phase (hidle.symm.trans hp)
    | some sts' =>
      have hpublished := published_of_cached hc
      have hbegin := beginReconcile_self hpublished s.running
      obtain rfl := Option.some.inj (hbegin.symm.trans hp)
      have hkey := h.keyed.published ref _ hpublished
      exact h.stses.reflector.published ref _ hpublished sts' rfl hkey
  · exact h.of_sameReads (sameReads_of_running rfl (beginReconcile_of_ne hr _ _) rfl) h.stses
      h.keyed

theorem kept_readConfigMaps (h : Kept ref sts ns s) (hns : sts.metadata.ns = some ns)
    (hs : step s (.readConfigMaps ref') = some s') : Kept ref sts ns s' := by
  obtain ⟨sts₀, ns₀, hrun, hns₀, rfl⟩ := step_readConfigMaps hs
  by_cases hr : ref = ref'
  · subst hr
    refine h.setRunning fun phase hp => ?_
    obtain rfl := Option.some.inj hp
    have hin : SameInputs sts₀ sts := h.running _ hrun
    obtain rfl : ns₀ = ns := Option.some.inj (hns₀.symm.trans (hin.ns.trans hns))
    exact ⟨hin, extend_trackedAnnotations_congr hin (fun _ _ _ => rfl) ∅⟩
  · exact h.of_sameReads (sameReads_of_running rfl (Function.update_of_ne hr _ _) rfl) h.stses
      h.keyed

theorem kept_readSecrets (h : Kept ref sts ns s) (hns : sts.metadata.ns = some ns)
    (hs : step s (.readSecrets ref') = some s') : Kept ref sts ns s' := by
  obtain ⟨sts₀, annotations, ns₀, hrun, hns₀, rfl⟩ := step_readSecrets hs
  by_cases hr : ref = ref'
  · subst hr
    refine h.setRunning fun phase hp => ?_
    obtain rfl := Option.some.inj hp
    obtain ⟨hin, rfl⟩ := h.running _ hrun
    obtain rfl : ns₀ = ns := Option.some.inj (hns₀.symm.trans (hin.ns.trans hns))
    exact extend_trackedAnnotations_congr hin (fun _ _ _ => rfl) _
  · exact h.of_sameReads (sameReads_of_running rfl (Function.update_of_ne hr _ _) rfl) h.stses
      h.keyed

theorem kept_fail {error : Error} (h : Kept ref sts ns s)
    (hs : step s (.fail ref' error) = some s') :
    Kept ref sts ns s' := by
  obtain ⟨_, -, rfl⟩ := step_fail hs
  by_cases hr : ref = ref'
  · subst hr
    exact ⟨h.live, h.stses, h.keyed,
      fun phase hp => nomatch (Function.update_self _ _ _).symm.trans hp⟩
  · exact h.of_sameReads (sameReads_of_running rfl (Function.update_of_ne hr _ _) rfl) h.stses
      h.keyed

/-- The object of another reconcile, or of another write, changes. -/
theorem Kept.setLive_of_ne (h : Kept ref sts ns s) (hr : ref ≠ ref')
    {annotations : ManagedAnnotations} {sts' : StatefulSet} (href : guardRef (.ok sts') = ref')
    {running : ObjectRef → Option Phase} (hrunning : running ref = s.running ref) :
    Kept ref sts ns { s.setLive ref' annotations sts' with running } := by
  refine h.of_sameReads (sameReads_of_running rfl hrunning (Function.update_of_ne hr _ _))
    (h.stses.emit fun object ho => ?_) h.keyed
  obtain rfl := Option.some.inj ho
  intro _ _ hkey
  exact (hr (hkey.symm.trans href)).elim

theorem hasAnnotations_apply (live : ManagedAnnotations) (annotations : BTreeMap String String) :
    HasAnnotations (live.apply fieldManager annotations) annotations := by
  intro key
  cases hkey : annotations[key]? with
  | some value => exact Or.inl (by rw [ManagedMap.getElem?_apply, hkey, Option.some_or])
  | none => exact Or.inr ⟨rfl, fun hmem => ManagedMap.mem_owners_apply.1 hmem hkey⟩

theorem HasAnnotations.settled {live : ManagedAnnotations} {annotations : BTreeMap String String}
    (h : HasAnnotations live annotations) : Settled live annotations := by
  refine Std.ExtTreeMap.ext_getElem? fun key => ?_
  rcases h key with heq | ⟨hnone, hforeign⟩
  · rw [ManagedMap.getElem?_apply, heq]
    cases annotations[key]? <;> simp
  · exact (ManagedMap.getElem?_apply_of_notMem hnone hforeign).1

/-- The reconcile of the StatefulSet has computed the annotations it has. -/
theorem kept_patch (h : Kept ref sts ns s) {sts₀ : StatefulSet}
    (hpatch : ref = ref' → SameInputs sts₀ sts) (hs : step s (.patch ref' sts₀) = some s') :
    Kept ref sts ns s' ∧ (s'.live ref).entries = (s.live ref).entries := by
  obtain ⟨annotations, hrun, href, happlied⟩ := step_patch hs
  by_cases hr : ref = ref'
  · subst hr
    have hcurrent : annotations = restarterMap sts ns (s.config .configMap).reflector.published
        (s.config .secret).reflector.published := h.running _ hrun
    rcases happlied with ⟨-, rfl⟩ | rfl
    · exact ⟨h.setRunning (by simp), rfl⟩
    · refine ⟨⟨?_, h.stses.emit fun object ho => ?_, h.keyed, by simp⟩, ?_⟩
      · simp only [System.setLive, Function.update_self, ← hcurrent]
        exact hasAnnotations_apply _ _
      · obtain rfl := Option.some.inj ho
        rintro _ ⟨⟩ -
        exact hpatch rfl
      · simp only [System.setLive, Function.update_self, hcurrent]
        exact h.live.settled
  · rcases happlied with ⟨-, rfl⟩ | rfl
    · exact ⟨h.of_sameReads (sameReads_of_running rfl (Function.update_of_ne hr _ _) rfl) h.stses
        h.keyed, rfl⟩
    · refine ⟨h.setLive_of_ne hr href (Function.update_of_ne hr _ _), ?_⟩
      simp only [System.setLive, Function.update_of_ne hr]

/-- Every step that leaves the StatefulSet alone keeps its annotations. -/
theorem kept_step (hns : sts.metadata.ns = some ns) (h : Kept ref sts ns s)
    (hok : LeavesAlone ref sts ns s l) (hs : step s l = some s') :
    Kept ref sts ns s' ∧ restarts ref s l s' = 0 := by
  cases l with
  | emit kind event =>
    have hversions := hok.versions s' hs
    obtain rfl := Option.some.inj hs
    exact ⟨h.of_sameReads ⟨hversions, rfl, rfl⟩ h.stses h.keyed, restarts_of_entries rfl _⟩
  | emitSts event =>
    obtain rfl := Option.some.inj hs
    refine ⟨h.of_sameReads (sameReads_of_running rfl rfl rfl) (h.stses.emit fun object ho => ?_)
      h.keyed, restarts_of_entries rfl _⟩
    exact hok.inputs event object rfl ho
  | deliver kind =>
    have hversions := hok.versions s' hs
    obtain ⟨event, queue, hq, rfl⟩ := step_deliver hs
    exact ⟨h.of_sameReads ⟨hversions, rfl, rfl⟩ h.stses h.keyed, restarts_of_ne (by simp)⟩
  | deliverSts => exact ⟨kept_deliverSts h hs, restarts_of_ne (by simp)⟩
  | start ref' => exact ⟨kept_start h hs, restarts_of_ne (by simp)⟩
  | readConfigMaps ref' => exact ⟨kept_readConfigMaps h hns hs, restarts_of_ne (by simp)⟩
  | readSecrets ref' => exact ⟨kept_readSecrets h hns hs, restarts_of_ne (by simp)⟩
  | patch ref' sts' =>
    obtain ⟨hkept, hentries⟩ := kept_patch h (fun hr => hok.patch sts' (by rw [hr])) hs
    exact ⟨hkept, restarts_of_entries hentries _⟩
  | fail ref' error => exact ⟨kept_fail h hs, restarts_of_ne (by simp)⟩
  | write ref' annotations sts' =>
    obtain ⟨href, rfl⟩ := step_write hs
    have hr : ref ≠ ref' := by
      rintro rfl
      exact hok.write annotations sts' rfl
    exact ⟨h.setLive_of_ne hr href rfl, restarts_of_ne (by simp)⟩

end

/-- An object that is stored with the annotations of the handler's patch has those that the
controller computes. -/
theorem Stored.kept {decode : Json → Option StatefulSet} (hd : IsDecoder decode) {j j' : Json}
    {ref : ObjectRef} {sts : StatefulSet} {ns : String} {template : List (String × Json)}
    {s : System} {patch : List AddOperation} (hj : decode j = some sts)
    (ht : j.at? templatePath = some (.obj template)) (hns : sts.metadata.ns = some ns)
    (hpatched : addStsRestarterAnnotationsHandler s.ctx ⟨some sts⟩ = .ok (.patched patch))
    (happlied : applyPatch j patch = some j') (hs : Stored ref j' sts ns s) :
    Kept ref sts ns s := by
  refine ⟨fun key => ?_, hs.stses, hs.keyed, hs.running⟩
  have hget := getUpdatedRestarterAnnotations_ok hns (s.config .configMap).reflector.published
    (s.config .secret).reflector.published
  have hkey := get?_annotation_of_patched hd hj ht hpatched happlied hget key
  cases ha : (restarterMap sts ns (s.config .configMap).reflector.published
      (s.config .secret).reflector.published)[key]? with
  | none => exact Or.inr ⟨rfl, hs.owners key⟩
  | some value =>
    rw [ha] at hkey
    exact Or.inl (hs.entries key value hkey)

/-- A StatefulSet that is stored as the webhook has patched it is not restarted, in every run
that leaves alone what it tracks and its annotations. -/
theorem admitted_never_restarted {decode : Json → Option StatefulSet} (hd : IsDecoder decode)
    {j j' : Json} {ref : ObjectRef} {sts : StatefulSet} {ns : String}
    {template : List (String × Json)} {s : System} {patch : List AddOperation} {ls : List Label}
    (hj : decode j = some sts) (ht : j.at? templatePath = some (.obj template))
    (hns : sts.metadata.ns = some ns)
    (hpatched : addStsRestarterAnnotationsHandler s.ctx ⟨some sts⟩ = .ok (.patched patch))
    (happlied : applyPatch j patch = some j') (hs : Stored ref j' sts ns s)
    (hok : Along step (LeavesAlone ref sts ns) s ls) : total step (restarts ref) s ls = 0 := by
  have hfree : Along step (fun s l => ∀ t, step s l = some t → restarts ref s l t = 0) s ls :=
    along_of_invariant (fun s l t h hl ht => (kept_step hns h hl ht).1)
      (fun s l h hl t ht => (kept_step hns h hl ht).2)
      (Stored.kept hd hj ht hns hpatched happlied hs) hok
  exact total_eq_zero hfree

/-- The StatefulSet was created just now, and its watch will tell of it. -/
def webAdmitted : System :=
  { webReconciled with
    stses := ⟨[.apply (.ok web)], ⟨fun _ => none, fun _ => none, true⟩⟩
    live := fun _ => ManagedMap.empty.apply "kubectl" (restarterMap web "prod"
      (Function.update (fun _ => none) (objectRef (cfg "1")) (some (cfg "1"))) fun _ => none) }

theorem stored_web {j' : Json} {patch : List AddOperation}
    (hpatched : addStsRestarterAnnotationsHandler webAdmitted.ctx ⟨some web⟩ =
      .ok (.patched patch))
    (happlied : applyPatch mountsConfigMapJson patch = some j') :
    Stored webRef j' web "prod" webAdmitted := by
  refine ⟨fun key value hkey => ?_, fun key hmem => ?_, ⟨fun event hmem object ho => ?_,
      ⟨fun _ _ h => (nomatch h), fun _ _ h => (nomatch h)⟩⟩,
    ⟨fun _ _ h => (nomatch h), fun _ _ h => (nomatch h)⟩, fun _ h => (nomatch h)⟩
  · have hnone : mountsConfigMapJson.get? (annotationsPath ++ [key]) = none := rfl
    rw [get?_annotation_of_patched isDecoder_decodeStatefulSet rfl rfl hpatched happlied
      (getUpdatedRestarterAnnotations_ok rfl _ _), hnone, Option.or_none] at hkey
    obtain ⟨_, hannotation, hvalue⟩ := Option.map_eq_some_iff.1 hkey
    obtain rfl := Json.str.inj hvalue
    simp only [webAdmitted, ManagedMap.getElem?_apply]
    exact Option.or_eq_some_iff.2 (Or.inl hannotation)
  · rcases ManagedMap.mem_owners_of_apply hmem with he | hmem
    · exact absurd he (by decide)
    · exact List.not_mem_nil hmem
  · obtain rfl := List.mem_singleton.1 hmem
    obtain rfl := Option.some.inj ho
    rintro _ ⟨⟩ -
    exact SameInputs.refl web

/-- No item is delivered and nothing else is written. -/
theorem leavesAlone_of_not_delivered {s : System} {l : Label}
    (hl : ∀ kind, l ≠ .deliver kind) (hsts : l ≠ .deliverSts)
    (hinputs : ∀ event, l ≠ .emitSts event)
    (hpatch : ∀ sts', l = .patch webRef sts' → sts' = web)
    (hwrite : ∀ annotations sts', l ≠ .write webRef annotations sts') :
    LeavesAlone webRef web "prod" s l := by
  refine ⟨fun s' hs' kind => ?_, fun event object hl => (hinputs event hl).elim,
    fun sts' hl => hpatch sts' hl ▸ SameInputs.refl web, hwrite⟩
  rw [(sameStores_of_step hl hsts hs').config]
  exact fun _ _ _ => rfl

theorem leavesAlone_web : Along step (LeavesAlone webRef web "prod") webAdmitted
    (.deliverSts :: reconcileAll webRef web) := by
  refine ⟨⟨fun s' hs' kind => ?_, by simp, by simp, by simp⟩, fun s' _ => ?_⟩
  · obtain ⟨_, _, -, rfl⟩ := step_deliverSts hs'
    exact fun _ _ _ => rfl
  · refine along_of_forall fun l hmem s => ?_
    simp only [reconcileAll, List.mem_cons, List.not_mem_nil, or_false] at hmem
    rcases hmem with rfl | rfl | rfl | rfl <;>
      exact leavesAlone_of_not_delivered (by simp) (by simp) (by simp) (by simp) (by simp)

theorem admitted_never_restarted_web :
    (run step webAdmitted (.deliverSts :: reconcileAll webRef web)).isSome ∧
      total step (restarts webRef) webAdmitted (.deliverSts :: reconcileAll webRef web) = 0 := by
  obtain ⟨template, ht⟩ : ∃ template, mountsConfigMapJson.at? templatePath =
      some (.obj template) := ⟨_, rfl⟩
  have hdecode : decodeStatefulSet mountsConfigMapJson = some web := rfl
  have hget : getUpdatedRestarterAnnotations web webAdmitted.ctx = .ok _ :=
    getUpdatedRestarterAnnotations_ok rfl _ _
  have hpatched := handler_eq (Option.some_ne_none _) hget
  have happlied := applyPatch_handler (shape isDecoder_decodeStatefulSet hdecode ht) ht
    (restarterMap web "prod" (webAdmitted.config .configMap).reflector.published
      (webAdmitted.config .secret).reflector.published)
  exact ⟨by decide +kernel,
    admitted_never_restarted isDecoder_decodeStatefulSet hdecode ht rfl hpatched happlied
      (stored_web hpatched happlied) leavesAlone_web⟩

end CommonsOperator.StatefulSetController
