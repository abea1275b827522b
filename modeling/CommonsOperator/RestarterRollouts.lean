import CommonsOperator.NoLostChange

/-!
# How often the restarter restarts

An apply that changes the annotations of the pod template restarts the Pods. A reconcile that
has read something that has changed since may apply the old annotations, so that a change
made while it runs can cost two restarts, its own and the next one's; any other change costs
one at most, and so does a write of somebody else to the annotations. Nothing else costs
any : not an item of a watch that brings nothing new, a listing that is repeated, a reconcile
that fails, or the StatefulSet coming back from its own apply.

`restartsDue` is the potential : how many restarts the changes so far can still cause.
-/

set_option linter.unusedSectionVars false

namespace CommonsOperator.StatefulSetController

open Transition Classical

/-! ## Changes -/

/-- The StatefulSet in the store, when it is valid. -/
def System.cached (s : System) (ref : ObjectRef) : Option StatefulSet :=
  match s.stses.reflector.published ref with
  | some (.ok sts) => some sts
  | _ => none

theorem published_of_cached {s : System} {ref : ObjectRef} {sts : StatefulSet}
    (h : s.cached ref = some sts) : s.stses.reflector.published ref = some (.ok sts) := by
  unfold System.cached at h
  split at h
  · rename_i sts' hp
    rw [hp, Option.some.inj h]
  · cases h

/-- Nothing runs for an object that is not in the store, or not valid. -/
theorem beginReconcile_of_cached {s : System} {ref : ObjectRef} (h : s.cached ref = none)
    (running : ObjectRef → Option Phase) :
    beginReconcile s.stses.reflector.published ref running = running := by
  unfold System.cached at h
  unfold beginReconcile
  rcases hp : s.stses.reflector.published ref with _ | (invalid | sts)
  · rfl
  · rfl
  · simp [hp] at h

/-- The annotations computed from the stores. -/
def System.desired (s : System) (sts : StatefulSet) : BTreeMap String String :=
  restarterMap sts (sts.metadata.ns.getD "") (s.config .configMap).reflector.published
    (s.config .secret).reflector.published

/-- The reconciles of the object read the same in both states. -/
structure SameView (ref : ObjectRef) (s s' : System) : Prop where
  cached : Option.Rel SameInputs (s.cached ref) (s'.cached ref)
  versions : ∀ sts ∈ s.cached ref, ∀ kind, SameVersions kind sts (sts.metadata.ns.getD "")
    (s.config kind).reflector.published (s'.config kind).reflector.published

/-- The restarts of the object : an apply changes its annotations. -/
noncomputable def restarts (ref : ObjectRef) (s : System) (l : Label) (s' : System) : Nat :=
  if (∃ sts, l = .patch ref sts) ∧ (s'.live ref).entries ≠ (s.live ref).entries then 1 else 0

/-- The changes of what the reconciles of the object read, and the writes of others to its
annotations. A change while a reconcile runs counts twice. -/
noncomputable def changes (ref : ObjectRef) (s : System) (l : Label) (s' : System) : Nat :=
  if ∃ annotations sts, l = .write ref annotations sts then 1
  else if SameView ref s s' then 0
  else if s.running ref = none then 1 else 2

/-! ## The potential -/

/-- A reconcile of the object runs that has read something that has changed since. -/
def Outdated (s : System) (ref : ObjectRef) (sts : StatefulSet) : Prop :=
  ∃ phase, s.running ref = some phase ∧ ¬phase.Current s sts (sts.metadata.ns.getD "")

/-- An apply of the annotations changes none of those that there are. -/
def Settled (live : ManagedAnnotations) (annotations : BTreeMap String String) : Prop :=
  (live.apply fieldManager annotations).entries = live.entries

theorem settled_apply (live : ManagedAnnotations) (annotations : BTreeMap String String) :
    Settled (live.apply fieldManager annotations) annotations := by
  rw [Settled, ManagedMap.apply_apply]

/-- How many restarts the changes so far can still cause. -/
noncomputable def restartsDue (ref : ObjectRef) (s : System) : Nat :=
  match s.cached ref with
  | none => if s.running ref = none then 0 else 1
  | some sts =>
    if Outdated s ref sts then 2 else if Settled (s.live ref) (s.desired sts) then 0 else 1

theorem restartsDue_of_none {ref : ObjectRef} {s : System} (h : s.cached ref = none) :
    restartsDue ref s = if s.running ref = none then 0 else 1 := by
  simp [restartsDue, h]

theorem restartsDue_of_some {ref : ObjectRef} {s : System} {sts : StatefulSet}
    (h : s.cached ref = some sts) :
    restartsDue ref s =
      if Outdated s ref sts then 2 else if Settled (s.live ref) (s.desired sts) then 0 else 1 := by
  simp [restartsDue, h]

theorem restartsDue_le_two (ref : ObjectRef) (s : System) : restartsDue ref s ≤ 2 := by
  unfold restartsDue
  split
  · split <;> omega
  · split
    · omega
    · split <;> omega

theorem not_outdated_of_idle {ref : ObjectRef} {s : System} (h : s.running ref = none)
    (sts : StatefulSet) : ¬Outdated s ref sts := by
  rintro ⟨phase, hr, -⟩
  exact nomatch h.symm.trans hr

theorem restartsDue_le_one {ref : ObjectRef} {s : System} (h : s.running ref = none) :
    restartsDue ref s ≤ 1 := by
  cases hc : s.cached ref with
  | none => simp [restartsDue_of_none hc, h]
  | some sts =>
    rw [restartsDue_of_some hc, if_neg (not_outdated_of_idle h sts)]
    split <;> omega

/-! ## What keeps the potential -/

/-- Whether a reconcile is up to date depends on what it reads. -/
theorem Phase.current_congr {s s' : System} {sts sts' : StatefulSet} {ns : String}
    (hin : SameInputs sts sts')
    (hv : ∀ kind, SameVersions kind sts ns (s.config kind).reflector.published
      (s'.config kind).reflector.published) (phase : Phase) :
    phase.Current s sts ns ↔ phase.Current s' sts' ns := by
  unfold Phase.Current
  cases phase with
  | started sts₀ => exact ⟨fun h => h.trans hin, fun h => h.trans hin.symm⟩
  | readConfigMaps sts₀ annotations =>
    have hinputs : SameInputs sts₀ sts ↔ SameInputs sts₀ sts' :=
      ⟨fun h => h.trans hin, fun h => h.trans hin.symm⟩
    simp only [hinputs, extend_trackedAnnotations_congr hin (hv .configMap) ∅]
  | computed annotations =>
    simp only [restarterMap_congr hin (hv .configMap) (hv .secret)]

theorem SameView.restartsDue_eq {ref : ObjectRef} {s s' : System} (h : SameView ref s s')
    (hrunning : s'.running ref = s.running ref) (hlive : s'.live ref = s.live ref) :
    restartsDue ref s' = restartsDue ref s := by
  obtain ⟨hc, hv⟩ := h
  unfold restartsDue
  revert hc hv
  generalize s.cached ref = cached
  generalize s'.cached ref = cached'
  intro hc hv
  cases hc with
  | none => simp only [hrunning]
  | some hin =>
    rename_i sts sts'
    have hv := hv sts rfl
    have hns : sts'.metadata.ns.getD "" = sts.metadata.ns.getD "" := by rw [hin.ns]
    have hout : Outdated s' ref sts' ↔ Outdated s ref sts := by
      unfold Outdated
      simp only [hrunning, hns, Phase.current_congr hin hv]
    have hdesired : s'.desired sts' = s.desired sts := by
      unfold System.desired
      rw [hns, restarterMap_congr hin (hv .configMap) (hv .secret)]
    simp only [hout, hdesired, hlive]

/-- The step leaves alone what the stores have. -/
structure SameStores (s s' : System) : Prop where
  config : ∀ kind, (s'.config kind).reflector.published = (s.config kind).reflector.published
  stses : s'.stses.reflector.published = s.stses.reflector.published

namespace SameStores

variable {s s' : System} {ref : ObjectRef}

theorem cached (h : SameStores s s') (ref : ObjectRef) : s'.cached ref = s.cached ref := by
  unfold System.cached
  rw [h.stses]

theorem desired (h : SameStores s s') (sts : StatefulSet) : s'.desired sts = s.desired sts := by
  unfold System.desired
  rw [h.config, h.config]

theorem current (h : SameStores s s') (sts : StatefulSet) (ns : String) (phase : Phase) :
    phase.Current s' sts ns ↔ phase.Current s sts ns := by
  refine (Phase.current_congr (SameInputs.refl sts) (fun kind name _ _ => ?_) phase).symm
  rw [h.config]

/-- A reconcile goes on, or ends without an apply that changes the object. -/
theorem restartsDue_le (h : SameStores s s') (hlive : s'.live ref = s.live ref)
    (hidle : s.cached ref = none → s.running ref = none → s'.running ref = none)
    (hout : ∀ sts, s.cached ref = some sts → Outdated s' ref sts → Outdated s ref sts) :
    restartsDue ref s' ≤ restartsDue ref s := by
  cases hc : s.cached ref with
  | none =>
    rw [restartsDue_of_none hc, restartsDue_of_none ((h.cached ref).trans hc)]
    by_cases hr : s.running ref = none
    · simp [hr, hidle hc hr]
    · rw [if_neg hr]
      split <;> omega
  | some sts =>
    have hle := hout sts hc
    rw [restartsDue_of_some hc, restartsDue_of_some ((h.cached ref).trans hc), hlive,
      h.desired sts]
    by_cases ho : Outdated s ref sts
    · rw [if_pos ho]
      split
      · omega
      · split <;> omega
    · rw [if_neg ho]
      exact Nat.le_of_eq (if_neg (mt hle ho))

theorem outdated_of_running (h : SameStores s s') (hrunning : s'.running ref = s.running ref)
    {sts : StatefulSet} (ho : Outdated s' ref sts) : Outdated s ref sts := by
  obtain ⟨phase, hr, hn⟩ := ho
  exact ⟨phase, hrunning ▸ hr, mt (h.current _ _ _).2 hn⟩

/-- A step that is not of the object's reconcile. -/
theorem restartsDue_le_of_running (h : SameStores s s') (hlive : s'.live ref = s.live ref)
    (hrunning : s'.running ref = s.running ref) : restartsDue ref s' ≤ restartsDue ref s :=
  h.restartsDue_le hlive (fun _ hr => hrunning.trans hr) fun _ _ => h.outdated_of_running hrunning

/-- Somebody writes the annotations of the object. -/
theorem restartsDue_le_of_write (h : SameStores s s') (hrunning : s'.running ref = s.running ref) :
    restartsDue ref s' ≤ restartsDue ref s + 1 := by
  cases hc : s.cached ref with
  | none =>
    rw [restartsDue_of_none hc, restartsDue_of_none ((h.cached ref).trans hc), hrunning]
    omega
  | some sts =>
    have hle : Outdated s' ref sts → Outdated s ref sts := h.outdated_of_running hrunning
    rw [restartsDue_of_some hc, restartsDue_of_some ((h.cached ref).trans hc)]
    by_cases ho : Outdated s ref sts
    · rw [if_pos ho]
      split
      · omega
      · split <;> omega
    · rw [if_neg ho, if_neg (mt hle ho)]
      split <;> omega

/-- A reconcile goes from one phase to the next. -/
theorem restartsDue_le_of_phase (h : SameStores s s') (hlive : s'.live ref = s.live ref)
    {phase phase' : Phase} (hr : s.running ref = some phase) (hr' : s'.running ref = some phase')
    (hcurrent : ∀ sts, phase.Current s sts (sts.metadata.ns.getD "") →
      phase'.Current s sts (sts.metadata.ns.getD "")) :
    restartsDue ref s' ≤ restartsDue ref s := by
  refine h.restartsDue_le hlive (fun _ hn => nomatch hn.symm.trans hr) ?_
  rintro sts - ⟨phase'', hr'', hn⟩
  obtain rfl := Option.some.inj (hr'.symm.trans hr'')
  exact ⟨phase, hr, fun hcur => hn ((h.current _ _ _).2 (hcurrent sts hcur))⟩

end SameStores

/-! ## The steps -/

/-- Only an apply and a write change the annotations of the object. -/
theorem live_of_step {ref : ObjectRef} {s s' : System} {l : Label}
    (hpatch : ∀ sts, l ≠ .patch ref sts)
    (hwrite : ∀ annotations sts, l ≠ .write ref annotations sts) (h : step s l = some s') :
    s'.live ref = s.live ref := by
  cases l with
  | emit kind event =>
    obtain rfl := Option.some.inj h
    rfl
  | emitSts event =>
    obtain rfl := Option.some.inj h
    rfl
  | deliver kind =>
    obtain ⟨_, _, -, rfl⟩ := step_deliver h
    rfl
  | deliverSts =>
    obtain ⟨_, _, -, rfl⟩ := step_deliverSts h
    rfl
  | start ref' =>
    obtain ⟨-, -, rfl⟩ := step_start h
    rfl
  | readConfigMaps ref' =>
    obtain ⟨_, _, -, -, rfl⟩ := step_readConfigMaps h
    rfl
  | readSecrets ref' =>
    obtain ⟨_, _, _, -, -, rfl⟩ := step_readSecrets h
    rfl
  | patch ref' sts =>
    have hr : ref ≠ ref' := fun hr => hpatch sts (by rw [hr])
    obtain ⟨_, -, -, ⟨-, rfl⟩ | rfl⟩ := step_patch h
    · rfl
    · exact Function.update_of_ne hr _ _
  | fail ref' error =>
    obtain ⟨_, -, rfl⟩ := step_fail h
    rfl
  | write ref' annotations sts =>
    have hr : ref ≠ ref' := fun hr => hwrite annotations sts (by rw [hr])
    obtain ⟨-, rfl⟩ := step_write h
    exact Function.update_of_ne hr _ _

/-- A step that neither restarts the object nor is a write of somebody else to its annotations
leaves them as they are. -/
theorem entries_of_restarts {ref : ObjectRef} {s s' : System} {l : Label}
    (hwrite : ∀ annotations sts, l ≠ .write ref annotations sts) (h : step s l = some s')
    (hr : restarts ref s l s' = 0) : (s'.live ref).entries = (s.live ref).entries := by
  by_cases hpatch : ∃ sts, l = .patch ref sts
  · by_contra hne
    exact nomatch (if_pos ⟨hpatch, hne⟩).symm.trans hr
  · rw [live_of_step (fun sts hl => hpatch ⟨sts, hl⟩) hwrite h]

theorem restarts_of_ne {ref : ObjectRef} {s s' : System} {l : Label}
    (h : ∀ sts, l ≠ .patch ref sts) : restarts ref s l s' = 0 := by
  unfold restarts
  rw [if_neg]
  rintro ⟨⟨sts, hl⟩, -⟩
  exact h sts hl

theorem restarts_of_entries {ref : ObjectRef} {s s' : System}
    (h : (s'.live ref).entries = (s.live ref).entries) (l : Label) : restarts ref s l s' = 0 := by
  unfold restarts
  rw [if_neg]
  exact fun hr => hr.2 h

theorem pays_of_live {ref : ObjectRef} {s s' : System} {l : Label}
    (hlive : s'.live ref = s.live ref) (hle : restartsDue ref s' ≤ restartsDue ref s) :
    restarts ref s l s' + restartsDue ref s' ≤ restartsDue ref s := by
  rw [restarts_of_entries (by rw [hlive])]
  omega

/-- An item of a watch is delivered : the stores may change, and nothing else does. -/
theorem pays_of_delivered {ref : ObjectRef} {s s' : System} {l : Label}
    (hl : ∀ annotations sts, l ≠ .write ref annotations sts)
    (hrunning : s'.running ref = s.running ref) (hlive : s'.live ref = s.live ref) :
    restarts ref s l s' + restartsDue ref s' ≤ restartsDue ref s + changes ref s l s' := by
  have hw : ¬∃ annotations sts, l = .write ref annotations sts :=
    fun ⟨annotations, sts, h⟩ => hl annotations sts h
  rw [restarts_of_entries (by rw [hlive])]
  unfold changes
  rw [if_neg hw]
  by_cases hv : SameView ref s s'
  · rw [if_pos hv, hv.restartsDue_eq hrunning hlive]
    omega
  · rw [if_neg hv]
    by_cases hr : s.running ref = none
    · have hdue := restartsDue_le_one (hrunning.trans hr)
      rw [if_pos hr]
      omega
    · have hdue := restartsDue_le_two ref s'
      rw [if_neg hr]
      omega

theorem restartsDue_deliver {ref : ObjectRef} {s s' : System} {kind : Kind}
    (h : step s (.deliver kind) = some s') :
    restarts ref s (.deliver kind) s' + restartsDue ref s' ≤
      restartsDue ref s + changes ref s (.deliver kind) s' := by
  obtain ⟨event, queue, -, rfl⟩ := step_deliver h
  exact pays_of_delivered (fun _ _ hl => nomatch hl) rfl rfl

theorem restartsDue_deliverSts {ref : ObjectRef} {s s' : System}
    (h : step s .deliverSts = some s') :
    restarts ref s .deliverSts s' + restartsDue ref s' ≤
      restartsDue ref s + changes ref s .deliverSts s' := by
  obtain ⟨event, queue, -, rfl⟩ := step_deliverSts h
  exact pays_of_delivered (fun _ _ hl => nomatch hl) rfl rfl

theorem sameStores_emit (s : System) (kind : Kind) (event : WatchEvent PartialObjectMeta) :
    SameStores s { s with
      config := Function.update s.config kind ((s.config kind).emit event) } := by
  refine ⟨fun kind' => ?_, rfl⟩
  by_cases hk : kind' = kind
  · subst hk
    simp only [Function.update_self]
    rfl
  · simp only [Function.update_of_ne hk]

theorem restartsDue_start {ref ref' : ObjectRef} {s s' : System}
    (h : step s (.start ref') = some s') : restartsDue ref s' ≤ restartsDue ref s := by
  obtain ⟨-, -, rfl⟩ := step_start h
  by_cases hr : ref = ref'
  · subst hr
    refine SameStores.restartsDue_le ⟨fun _ => rfl, rfl⟩ rfl (fun hc hn => ?_) fun sts hc ho => ?_
    · exact (congrFun (beginReconcile_of_cached hc _) ref).trans hn
    · -- the reconcile has just read the object
      obtain ⟨phase, hp, hcur⟩ := ho
      have hbegin := beginReconcile_self (published_of_cached hc) s.running
      obtain rfl := Option.some.inj (hbegin.symm.trans hp)
      exact (hcur (SameInputs.refl sts)).elim
  · exact SameStores.restartsDue_le_of_running ⟨fun _ => rfl, rfl⟩ rfl
      (beginReconcile_of_ne hr _ _)

theorem restartsDue_readConfigMaps {ref ref' : ObjectRef} {s s' : System}
    (h : step s (.readConfigMaps ref') = some s') : restartsDue ref s' ≤ restartsDue ref s := by
  obtain ⟨sts₀, ns₀, hrun, hns₀, rfl⟩ := step_readConfigMaps h
  by_cases hr : ref = ref'
  · subst hr
    refine SameStores.restartsDue_le_of_phase ⟨fun _ => rfl, rfl⟩ rfl hrun
      (Function.update_self _ _ _) fun sts hin => ⟨hin, ?_⟩
    have hns : sts.metadata.ns.getD "" = ns₀ := by
      rw [← hin.ns, hns₀]
      rfl
    rw [hns]
    exact extend_trackedAnnotations_congr hin (fun _ _ _ => rfl) ∅
  · exact SameStores.restartsDue_le_of_running ⟨fun _ => rfl, rfl⟩ rfl
      (Function.update_of_ne hr _ _)

theorem restartsDue_readSecrets {ref ref' : ObjectRef} {s s' : System}
    (h : step s (.readSecrets ref') = some s') : restartsDue ref s' ≤ restartsDue ref s := by
  obtain ⟨sts₀, annotations, ns₀, hrun, hns₀, rfl⟩ := step_readSecrets h
  by_cases hr : ref = ref'
  · subst hr
    refine SameStores.restartsDue_le_of_phase ⟨fun _ => rfl, rfl⟩ rfl hrun
      (Function.update_self _ _ _) ?_
    rintro sts ⟨hin, rfl⟩
    have hns : sts.metadata.ns.getD "" = ns₀ := by
      rw [← hin.ns, hns₀]
      rfl
    rw [hns]
    exact extend_trackedAnnotations_congr hin (fun _ _ _ => rfl) _
  · exact SameStores.restartsDue_le_of_running ⟨fun _ => rfl, rfl⟩ rfl
      (Function.update_of_ne hr _ _)

theorem restartsDue_fail {ref ref' : ObjectRef} {s s' : System} {error : Error}
    (h : step s (.fail ref' error) = some s') : restartsDue ref s' ≤ restartsDue ref s := by
  obtain ⟨_, -, rfl⟩ := step_fail h
  by_cases hr : ref = ref'
  · subst hr
    exact SameStores.restartsDue_le ⟨fun _ => rfl, rfl⟩ rfl
      (fun _ _ => Function.update_self _ _ _)
      fun sts _ ho => (not_outdated_of_idle (Function.update_self _ _ _) sts ho).elim
  · exact SameStores.restartsDue_le_of_running ⟨fun _ => rfl, rfl⟩ rfl
      (Function.update_of_ne hr _ _)

theorem restartsDue_write {ref ref' : ObjectRef} {s s' : System}
    {annotations : ManagedAnnotations} {sts : StatefulSet}
    (h : step s (.write ref' annotations sts) = some s') :
    restarts ref s (.write ref' annotations sts) s' + restartsDue ref s' ≤
      restartsDue ref s + changes ref s (.write ref' annotations sts) s' := by
  obtain ⟨-, rfl⟩ := step_write h
  rw [restarts_of_ne (by simp)]
  have hstores : SameStores s (s.setLive ref' annotations sts) := ⟨fun _ => rfl, rfl⟩
  by_cases hr : ref = ref'
  · subst hr
    have hcredit : changes ref s (.write ref annotations sts) (s.setLive ref annotations sts) = 1 :=
      if_pos ⟨annotations, sts, rfl⟩
    have hdue : restartsDue ref (s.setLive ref annotations sts) ≤ restartsDue ref s + 1 :=
      hstores.restartsDue_le_of_write rfl
    omega
  · have hdue : restartsDue ref (s.setLive ref' annotations sts) ≤ restartsDue ref s :=
      hstores.restartsDue_le_of_running (Function.update_of_ne hr _ _) rfl
    omega

/-- The apply of a reconcile that runs. If it sends the annotations computed from the stores,
it makes the object up to date; otherwise the reconcile is outdated. -/
theorem restartsDue_applied {ref : ObjectRef} {s s' : System} {l : Label}
    {annotations : BTreeMap String String} (h : SameStores s s')
    (hr : s.running ref = some (.computed annotations)) (hr' : s'.running ref = none)
    (hlive : s'.live ref = (s.live ref).apply fieldManager annotations) :
    restarts ref s l s' + restartsDue ref s' ≤ restartsDue ref s := by
  have hone : restarts ref s l s' ≤ 1 := by
    unfold restarts
    split <;> omega
  cases hc : s.cached ref with
  | none =>
    have hdue : restartsDue ref s = 1 := by simp [restartsDue_of_none hc, hr]
    have hdue' : restartsDue ref s' = 0 := by
      simp [restartsDue_of_none ((h.cached ref).trans hc), hr']
    omega
  | some sts =>
    have hdue' := restartsDue_le_one hr'
    rw [restartsDue_of_some hc]
    by_cases hd : annotations = s.desired sts
    · have hsettled : restartsDue ref s' = 0 := by
        rw [restartsDue_of_some ((h.cached ref).trans hc), if_neg (not_outdated_of_idle hr' sts),
          h.desired sts, hlive, hd]
        exact if_pos (settled_apply _ _)
      by_cases hl : Settled (s.live ref) (s.desired sts)
      · have hentries : (s'.live ref).entries = (s.live ref).entries := by
          rw [hlive, hd]
          exact hl
        have hcost := restarts_of_entries hentries l
        omega
      · rw [if_neg hl]
        split <;> omega
    · have ho : Outdated s ref sts := ⟨_, hr, hd⟩
      rw [if_pos ho]
      omega

theorem restartsDue_patch {ref ref' : ObjectRef} {s s' : System} {sts₀ : StatefulSet}
    (h : step s (.patch ref' sts₀) = some s') :
    restarts ref s (.patch ref' sts₀) s' + restartsDue ref s' ≤ restartsDue ref s := by
  obtain ⟨annotations, hrun, -, ⟨hsame, rfl⟩ | rfl⟩ := step_patch h
  · by_cases hr : ref = ref'
    · subst hr
      exact restartsDue_applied ⟨fun _ => rfl, rfl⟩ hrun (Function.update_self _ _ _) hsame.symm
    · exact pays_of_live rfl (SameStores.restartsDue_le_of_running ⟨fun _ => rfl, rfl⟩ rfl
        (Function.update_of_ne hr _ _))
  · by_cases hr : ref = ref'
    · subst hr
      exact restartsDue_applied ⟨fun _ => rfl, rfl⟩ hrun (Function.update_self _ _ _)
        (Function.update_self _ _ _)
    · have hlive : Function.update s.live ref' ((s.live ref').apply fieldManager annotations) ref =
          s.live ref := Function.update_of_ne hr _ _
      exact pays_of_live hlive (SameStores.restartsDue_le_of_running ⟨fun _ => rfl, rfl⟩ hlive
        (Function.update_of_ne hr _ _))

/-- Every step pays for the restart it makes. -/
theorem restartsDue_step {s s' : System} {l : Label} (ref : ObjectRef) (h : step s l = some s') :
    restarts ref s l s' + restartsDue ref s' ≤ restartsDue ref s + changes ref s l s' := by
  have hpays : restarts ref s l s' + restartsDue ref s' ≤ restartsDue ref s →
      restarts ref s l s' + restartsDue ref s' ≤ restartsDue ref s + changes ref s l s' :=
    fun hle => Nat.le_trans hle (Nat.le_add_right _ _)
  cases l with
  | emit kind event =>
    obtain rfl := Option.some.inj h
    have hsame := sameStores_emit s kind event
    exact hpays (pays_of_live rfl (hsame.restartsDue_le_of_running rfl rfl))
  | emitSts event =>
    obtain rfl := Option.some.inj h
    exact hpays (pays_of_live rfl
      (SameStores.restartsDue_le_of_running ⟨fun _ => rfl, rfl⟩ rfl rfl))
  | deliver kind => exact restartsDue_deliver h
  | deliverSts => exact restartsDue_deliverSts h
  | start ref' =>
    exact hpays (pays_of_live (live_of_step (by simp) (by simp) h) (restartsDue_start h))
  | readConfigMaps ref' =>
    exact hpays (pays_of_live (live_of_step (by simp) (by simp) h) (restartsDue_readConfigMaps h))
  | readSecrets ref' =>
    exact hpays (pays_of_live (live_of_step (by simp) (by simp) h) (restartsDue_readSecrets h))
  | patch ref' sts => exact hpays (restartsDue_patch h)
  | fail ref' error =>
    exact hpays (pays_of_live (live_of_step (by simp) (by simp) h) (restartsDue_fail h))
  | write ref' annotations sts => exact restartsDue_write h

/-! ## Runs -/

/-- Between two states of the system, an object is restarted at most as often as the changes
since, and those before that are still due, allow. -/
theorem restarts_le_changes_add (ref : ObjectRef) (s : System) (ls : List Label) :
    total step (restarts ref) s ls ≤ restartsDue ref s + total step (changes ref) s ls :=
  total_le_of_potential (restartsDue ref)
    (fun s l t (h : step s l = some t) => restartsDue_step ref h) s ls

/-- Since the operator has started, an object has been restarted at most once for each change
of what its reconciles read and each write of somebody else to its annotations, and at most
twice for a change made while a reconcile of it was under way. -/
theorem restarts_le_changes (ref : ObjectRef) (live : ObjectRef → ManagedAnnotations)
    (ls : List Label) :
    total step (restarts ref) (System.new live) ls ≤
      total step (changes ref) (System.new live) ls := by
  have hdue : restartsDue ref (System.new live) = 0 := by
    simp [restartsDue, System.cached, System.new, Watch.new, Reflector.new]
  have hle := restarts_le_changes_add ref (System.new live) ls
  omega

/-- The object is up to date, and no reconcile of it is under way that could change that. -/
structure UpToDate (ref : ObjectRef) (sts : StatefulSet) (s : System) : Prop where
  cached : s.cached ref = some sts
  current : ¬Outdated s ref sts
  live : Settled (s.live ref) (s.desired sts)

theorem restartsDue_of_upToDate {ref : ObjectRef} {sts : StatefulSet} {s : System}
    (h : UpToDate ref sts s) : restartsDue ref s = 0 := by
  rw [restartsDue_of_some h.cached, if_neg h.current, if_pos h.live]

theorem upToDate_of_restartsDue {ref : ObjectRef} {sts : StatefulSet} {s : System}
    (hc : s.cached ref = some sts) (h : restartsDue ref s = 0) : UpToDate ref sts s := by
  rw [restartsDue_of_some hc] at h
  by_cases ho : Outdated s ref sts
  · rw [if_pos ho] at h
    omega
  · rw [if_neg ho] at h
    by_cases hl : Settled (s.live ref) (s.desired sts)
    · exact ⟨hc, ho, hl⟩
    · rw [if_neg hl] at h
      omega

/-- The step changes nothing that the reconciles of the object read, and is no write of
somebody else to its annotations. -/
structure Steady (ref : ObjectRef) (s : System) (l : Label) : Prop where
  write : ∀ annotations sts, l ≠ .write ref annotations sts
  view : ∀ s', step s l = some s' → SameView ref s s'

theorem changes_of_steady {ref : ObjectRef} {s s' : System} {l : Label} (h : Steady ref s l)
    (hs : step s l = some s') : changes ref s l s' = 0 := by
  unfold changes
  have hw : ¬∃ annotations sts, l = .write ref annotations sts :=
    fun ⟨annotations, sts, hl⟩ => h.write annotations sts hl
  rw [if_neg hw, if_pos (h.view s' hs)]

theorem upToDate_step {ref : ObjectRef} {s s' : System} {l : Label} (hok : Steady ref s l)
    (h : step s l = some s') (hs : ∃ sts, UpToDate ref sts s) :
    (∃ sts, UpToDate ref sts s') ∧ (s'.live ref).entries = (s.live ref).entries := by
  obtain ⟨sts, hs⟩ := hs
  have hpays := restartsDue_step ref h
  rw [restartsDue_of_upToDate hs, changes_of_steady hok h] at hpays
  have hdue : restartsDue ref s' = 0 := by omega
  have hcost : restarts ref s l s' = 0 := by omega
  have hcached := (hok.view s' h).cached
  rw [hs.cached] at hcached
  obtain ⟨sts', hc'⟩ : ∃ sts', s'.cached ref = some sts' := by
    revert hcached
    generalize s'.cached ref = cached'
    rintro ⟨⟩
    exact ⟨_, rfl⟩
  exact ⟨⟨sts', upToDate_of_restartsDue hc' hdue⟩, entries_of_restarts hok.write h hcost⟩

/-- An object that is up to date is not restarted until something it tracks changes, whatever
is delivered, listed again, reconciled or failed in between. It stays up to date, with the
annotations it has. -/
theorem no_restart_of_upToDate {s t : System} {ref : ObjectRef} {sts : StatefulSet}
    {ls : List Label} (hs : UpToDate ref sts s) (hsteady : Along step (Steady ref) s ls)
    (h : run step s ls = some t) :
    total step (restarts ref) s ls = 0 ∧ (∃ sts', UpToDate ref sts' t) ∧
      (t.live ref).entries = (s.live ref).entries := by
  constructor
  · have hle := restarts_le_changes_add ref s ls
    have hfree : total step (changes ref) s ls = 0 :=
      total_eq_zero
        (hsteady.mono fun s l hok t (ht : step s l = some t) => changes_of_steady hok ht)
    rw [restartsDue_of_upToDate hs, hfree] at hle
    omega
  · refine hsteady.run_invariant
      (P := fun u => (∃ sts, UpToDate ref sts u) ∧ (u.live ref).entries = (s.live ref).entries)
      (fun u l u' hu hok h => ?_) ⟨⟨sts, hs⟩, rfl⟩ h
    obtain ⟨hstep, hentries⟩ := upToDate_step hok h hu.1
    exact ⟨hstep, hentries.trans hu.2⟩

theorem SameStores.sameView {s s' : System} (h : SameStores s s') (ref : ObjectRef) :
    SameView ref s s' := by
  refine ⟨?_, fun sts _ kind name _ _ => by rw [h.config]⟩
  rw [h.cached]
  cases s.cached ref with
  | none => exact .none
  | some sts => exact .some (SameInputs.refl sts)

/-- Only the items of the watches change what is read. -/
theorem sameStores_of_step {s s' : System} {l : Label} (hconfig : ∀ kind, l ≠ .deliver kind)
    (hsts : l ≠ .deliverSts) (h : step s l = some s') : SameStores s s' := by
  cases l with
  | emit kind event =>
    obtain rfl := Option.some.inj h
    exact sameStores_emit s kind event
  | emitSts event =>
    obtain rfl := Option.some.inj h
    exact ⟨fun _ => rfl, rfl⟩
  | deliver kind => exact (hconfig kind rfl).elim
  | deliverSts => exact (hsts rfl).elim
  | start ref' =>
    obtain ⟨-, -, rfl⟩ := step_start h
    exact ⟨fun _ => rfl, rfl⟩
  | readConfigMaps ref' =>
    obtain ⟨sts₀, ns₀, -, -, rfl⟩ := step_readConfigMaps h
    exact ⟨fun _ => rfl, rfl⟩
  | readSecrets ref' =>
    obtain ⟨sts₀, annotations, ns₀, -, -, rfl⟩ := step_readSecrets h
    exact ⟨fun _ => rfl, rfl⟩
  | patch ref' sts =>
    obtain ⟨annotations, -, -, ⟨-, rfl⟩ | rfl⟩ := step_patch h
    · exact ⟨fun _ => rfl, rfl⟩
    · exact ⟨fun _ => rfl, rfl⟩
  | fail ref' error =>
    obtain ⟨_, -, rfl⟩ := step_fail h
    exact ⟨fun _ => rfl, rfl⟩
  | write ref' annotations sts =>
    obtain ⟨-, rfl⟩ := step_write h
    exact ⟨fun _ => rfl, rfl⟩

theorem steady_of_not_delivered {s : System} {l : Label} (ref : ObjectRef)
    (hwrite : ∀ ref' annotations sts, l ≠ .write ref' annotations sts)
    (hconfig : ∀ kind, l ≠ .deliver kind) (hsts : l ≠ .deliverSts) : Steady ref s l :=
  ⟨hwrite ref, fun _ h => (sameStores_of_step hconfig hsts h).sameView ref⟩

/-- An item of a watch that leaves the store as it is. -/
theorem steady_deliver {s : System} {kind : Kind} {event : WatchEvent PartialObjectMeta}
    {queue : List (WatchEvent PartialObjectMeta)} (ref : ObjectRef)
    (hq : (s.config kind).queue = event :: queue)
    (hp : ((s.config kind).reflector.observe objectRef event).published =
      (s.config kind).reflector.published) : Steady ref s (.deliver kind) := by
  refine ⟨by simp, fun s' h => SameStores.sameView ⟨fun kind' => ?_, ?_⟩ ref⟩
  · obtain ⟨event', queue', hq', rfl⟩ := step_deliver h
    obtain ⟨rfl, rfl⟩ := List.cons.inj (hq.symm.trans hq')
    by_cases hk : kind' = kind
    · subst hk
      simp only [Function.update_self]
      exact hp
    · simp only [Function.update_of_ne hk]
  · obtain ⟨_, _, _, rfl⟩ := step_deliver h
    rfl

/-- The StatefulSet has been reconciled, and has come back from its apply. -/
def webReconciled : System where
  config := Kind.pick
    ⟨[], ⟨Function.update (fun _ => none) (objectRef (cfg "1")) (some (cfg "1")), fun _ => none,
      true⟩⟩
    ⟨[], ⟨fun _ => none, fun _ => none, true⟩⟩
  opened _ := true
  stses := ⟨[], ⟨Function.update (fun _ => none) webRef (some (.ok web)), fun _ => none, true⟩⟩
  pending _ := false
  running _ := none
  live _ := ManagedMap.empty.apply fieldManager (restarterMap web "prod"
    (Function.update (fun _ => none) (objectRef (cfg "1")) (some (cfg "1"))) fun _ => none)

/-- The ConfigMaps are listed again, and the reconcile fails once before it comes to its
apply. -/
def nothingNew : List Label :=
  observeConfig .configMap [.init, .initApply (cfg "1"), .initDone] ++
    [.start webRef, .readConfigMaps webRef, .readSecrets webRef,
      .fail webRef (.patchFailed "timed out" webRef)] ++ reconcileAll webRef web

theorem upToDate_webReconciled : UpToDate webRef web webReconciled :=
  ⟨rfl, not_outdated_of_idle rfl _, settled_apply _ _⟩

theorem steady_nothingNew : Along step (Steady webRef) webReconciled nothingNew := by
  iterate 3
    refine ⟨steady_of_not_delivered webRef (by simp) (by simp) (by simp), ?_⟩
    rintro _ ⟨⟩
    refine ⟨steady_deliver webRef rfl rfl, ?_⟩
    rintro _ ⟨⟩
  iterate 8
    refine ⟨steady_of_not_delivered webRef (by simp) (by simp) (by simp), ?_⟩
    rintro _ ⟨⟩
  trivial

theorem no_restart_nothingNew :
    ∃ t, run step webReconciled nothingNew = some t ∧
      total step (restarts webRef) webReconciled nothingNew = 0 ∧
        (∃ sts', UpToDate webRef sts' t) ∧
          (t.live webRef).entries = (webReconciled.live webRef).entries := by
  obtain ⟨t, ht⟩ := Option.isSome_iff_exists.1
    (show (run step webReconciled nothingNew).isSome from by decide +kernel)
  exact ⟨t, ht, no_restart_of_upToDate upToDate_webReconciled steady_nothingNew ht⟩

end CommonsOperator.StatefulSetController
