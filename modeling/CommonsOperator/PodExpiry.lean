import CommonsOperator.PodReconcile

/-!
# When a Pod is evicted

What `reconcile` does about a Pod depends on its expiry annotations through their instants
only : the soonest of them decides (`expiry_decision`). A timestamp that cannot be parsed comes
before all others, so that it makes the reconcile fail even if another one is in the past.
-/

namespace CommonsOperator.PodController

/-! ## What is read off the annotations -/

/-- The value of an expiry annotation. -/
def ExpiresAt (annotations : Option (BTreeMap String String)) (value : String) : Prop :=
  ∃ kvs, ∃ key : String, annotations = some kvs ∧ kvs[key]? = some value ∧
    startsWith key expiresAtPrefix = true

/-- The instant that an expiry annotation stands for, or none if it cannot be parsed. -/
def Reading (parse : String → Except String DateTime)
    (annotations : Option (BTreeMap String String)) (reading : Option Int) : Prop :=
  ∃ value, ExpiresAt annotations value ∧
    reading = (parse value).toOption.map DateTime.instant

/-- All expiry annotations can be parsed, and `m` is the earliest of their instants. -/
structure Soonest (parse : String → Except String DateTime)
    (annotations : Option (BTreeMap String String)) (m : Int) : Prop where
  parsable : ¬Reading parse annotations none
  reading : Reading parse annotations (some m)
  least : ∀ m', Reading parse annotations (some m') → m ≤ m'

/-! ## What a reconcile comes to -/

/-- What a reconcile comes to : the action it returns, none if it fails with whatever error, and
the requests it has made. -/
structure Effect where
  action : Option Action
  requests : List EvictRequest

namespace Effect

def noAction : Effect :=
  ⟨some .awaitChange, []⟩

/-- It fails without a request. -/
def fails : Effect :=
  ⟨none, []⟩

def requeues (nanoseconds : Nat) : Effect :=
  ⟨some (.requeue nanoseconds), []⟩

/-- It makes the request, and fails if that is refused. -/
def evicts (answer : EvictRequest → Except String Unit) (request : EvictRequest) : Effect :=
  ⟨(answer request).toOption.map fun _ => .awaitChange, [request]⟩

theorem evicts_ne_requeues (answer : EvictRequest → Except String Unit) (request : EvictRequest)
    (nanoseconds : Nat) : evicts answer request ≠ requeues nanoseconds := by
  simp [evicts, requeues]

theorem requeues_inj {nanoseconds nanoseconds' : Nat} :
    requeues nanoseconds = requeues nanoseconds' ↔ nanoseconds = nanoseconds' := by
  simp [requeues]

end Effect

/-- The API server answers the requests, which are recorded. -/
def record (answer : EvictRequest → Except String Unit) (request : EvictRequest) :
    StateM (List EvictRequest) (Except String Unit) := do
  modify (· ++ [request])
  return answer request

/-- What `reconcile` comes to. -/
def effect (parse : String → Except String DateTime) (answer : EvictRequest → Except String Unit)
    (now : Int) (pod : PartialObjectMeta) : Effect :=
  let (result, requests) := (reconcile parse now (record answer) pod).exec []
  ⟨result.toOption, requests⟩

/-- What a decision comes to. -/
def Effect.ofDecision (answer : EvictRequest → Except String Unit) :
    Except Error Decision → Effect
  | .error _ => fails
  | .ok (.evict request) => evicts answer request
  | .ok (.finish .awaitChange) => noAction
  | .ok (.finish (.requeue nanoseconds)) => requeues nanoseconds

variable {parse : String → Except String DateTime} {answer : EvictRequest → Except String Unit}
  {now : Int}

theorem effect_eq_ofDecision (pod : PartialObjectMeta) :
    effect parse answer now pod = Effect.ofDecision answer (decision parse now pod) := by
  unfold effect
  rw [exec_reconcile]
  rcases decision parse now pod with error | (request | (_ | nanoseconds))
  · rfl
  · change Effect.mk _ [request] = ⟨_, [request]⟩
    congr 1
    simp only [record, StateT.run]
    change ((answer request).mapError _ |>.map _).toOption = _
    cases answer request <;> rfl
  · rfl
  · rfl

/-! ## The annotations -/

theorem mem_expiryAnnotations {annotations : Option (BTreeMap String String)}
    {entry : String × String} : entry ∈ expiryAnnotations annotations ↔ ∃ kvs,
      annotations = some kvs ∧ kvs[entry.1]? = some entry.2 ∧
        startsWith entry.1 expiresAtPrefix = true := by
  cases annotations with
  | none => simp [expiryAnnotations]
  | some kvs =>
    have hmem : entry ∈ kvs.toList ↔ kvs[entry.1]? = some entry.2 :=
      Std.ExtTreeMap.mem_toList_iff_getElem?_eq_some
    simp [expiryAnnotations, hmem]

/-- The instant a parsed annotation stands for. -/
def instantOf (result : Except Error DateTime) : Option Int :=
  result.toOption.map DateTime.instant

theorem instantOf_parseExpiry (entry : String × String) :
    instantOf (parseExpiry parse entry) = (parse entry.2).toOption.map DateTime.instant := by
  cases h : parse entry.2 <;> simp [instantOf, parseExpiry, h, Except.mapError, Except.toOption]

theorem reading_iff {annotations : Option (BTreeMap String String)} {reading : Option Int} :
    Reading parse annotations reading ↔
      ∃ result ∈ (expiryAnnotations annotations).map (parseExpiry parse),
        instantOf result = reading := by
  constructor
  · rintro ⟨value, ⟨kvs, key, ha, hget, hkey⟩, rfl⟩
    exact ⟨_, List.mem_map.2 ⟨(key, value), mem_expiryAnnotations.2 ⟨kvs, ha, hget, hkey⟩, rfl⟩,
      instantOf_parseExpiry _⟩
  · rintro ⟨result, hmem, rfl⟩
    obtain ⟨entry, hentry, rfl⟩ := List.mem_map.1 hmem
    obtain ⟨kvs, ha, hget, hkey⟩ := mem_expiryAnnotations.1 hentry
    exact ⟨entry.2, ⟨kvs, entry.1, ha, hget, hkey⟩, instantOf_parseExpiry entry⟩

/-! ## The soonest timestamp -/

/-- Nothing is less than what `minBy` finds, for a strict weak order. -/
theorem minBy_least {α : Type*} {lt : α → α → Bool} (hasymm : ∀ a b, lt a b = true → lt b a = false)
    (htotal : ∀ a b c, lt a c = true → lt a b = true ∨ lt b c = true) {as : List α} {least : α}
    (h : minBy lt as = some least) : ∀ a ∈ as, lt a least = false := by
  suffices ∀ (as : List α) a, ∀ b ∈ a :: as,
      lt b (as.foldl (fun least b => if lt b least then b else least) a) = false by
    cases as with
    | nil => cases h
    | cons a as => exact Option.some.inj h ▸ this as a
  have hirr : ∀ a, lt a a = false := by
    intro a
    cases ha : lt a a with
    | false => rfl
    | true => exact ha.symm.trans (hasymm a a ha)
  intro as
  induction as with
  | nil =>
    intro a b hb
    rw [List.mem_singleton.1 hb]
    exact hirr a
  | cons c as ih =>
    intro a
    rw [List.foldl_cons]
    set least := as.foldl (fun least b => if lt b least then b else least)
      (if lt c a then c else a)
    have hacc : lt (if lt c a then c else a) least = false := ih _ _ List.mem_cons_self
    have hboth : lt a least = false ∧ lt c least = false := by
      split at hacc
      · rename_i hca
        refine ⟨?_, hacc⟩
        -- `c` is less than `a` and not less than the least, so the least is less than `a`
        have hla : lt least a = true := (htotal c least a hca).resolve_left (by simp [hacc])
        exact hasymm _ _ hla
      · rename_i hca
        refine ⟨hacc, Bool.eq_false_iff.2 fun hc => ?_⟩
        rcases htotal c a least hc with h | h
        · exact hca h
        · exact absurd (hacc.symm.trans h) Bool.false_ne_true
    intro b hb
    rcases List.mem_cons.1 hb with rfl | hb
    · exact hboth.1
    · rcases List.mem_cons.1 hb with rfl | hb
      · exact hboth.2
      · exact ih _ b (List.mem_cons_of_mem _ hb)

theorem minBy_eq_none {α : Type*} {lt : α → α → Bool} {as : List α} :
    minBy lt as = none ↔ as = [] := by
  cases as <;> simp [minBy]

theorem expiryLt_asymm (a b : Except Error DateTime) (h : expiryLt a b = true) :
    expiryLt b a = false := by
  cases a <;> cases b <;> simp_all [expiryLt]
  omega

theorem expiryLt_total (a b c : Except Error DateTime) (h : expiryLt a c = true) :
    expiryLt a b = true ∨ expiryLt b c = true := by
  cases a <;> cases b <;> cases c <;> simp_all [expiryLt]
  omega

/-- Of the results the least is found, which is an error if there is one. -/
theorem podExpiresAt_cases (parse : String → Except String DateTime)
    (annotations : Option (BTreeMap String String)) :
    (∃ error, podExpiresAt parse annotations = .error error ∧ Reading parse annotations none) ∨
    (podExpiresAt parse annotations = .ok none ∧ ∀ reading, ¬Reading parse annotations reading) ∨
    ∃ expiresAt, podExpiresAt parse annotations = .ok (some expiresAt) ∧
      Soonest parse annotations expiresAt.instant := by
  cases hmin : minBy expiryLt ((expiryAnnotations annotations).map (parseExpiry parse)) with
  | none =>
    refine Or.inr (Or.inl ⟨by rw [podExpiresAt, hmin]; rfl, fun reading hreading => ?_⟩)
    obtain ⟨result, hmem, -⟩ := reading_iff.1 hreading
    rw [minBy_eq_none.1 hmin] at hmem
    cases hmem
  | some least =>
    have hmem := mem_of_minBy hmin
    have hleast := minBy_least expiryLt_asymm expiryLt_total hmin
    cases least with
    | error error =>
      exact Or.inl ⟨error, by rw [podExpiresAt, hmin]; rfl, reading_iff.2 ⟨_, hmem, rfl⟩⟩
    | ok expiresAt =>
      refine Or.inr (Or.inr ⟨expiresAt, by rw [podExpiresAt, hmin]; rfl, fun hnone => ?_,
        reading_iff.2 ⟨_, hmem, rfl⟩, fun m' hm' => ?_⟩)
      · obtain ⟨result, hresult, hnone⟩ := reading_iff.1 hnone
        cases result with
        | error error => cases hleast _ hresult
        | ok expiresAt' => cases hnone
      · obtain ⟨result, hresult, hm'⟩ := reading_iff.1 hm'
        cases result with
        | error error => cases hm'
        | ok expiresAt' =>
          have hle : expiresAt.instant ≤ expiresAt'.instant := by
            simpa [expiryLt] using hleast _ hresult
          exact Option.some.inj hm' ▸ hle

/-! ## The decision -/

section

variable {pod : PartialObjectMeta}

/-- A Pod that is being deleted is left alone. -/
theorem effect_of_deleting (h : pod.metadata.deletionTimestamp ≠ none) :
    effect parse answer now pod = .noAction := by
  obtain ⟨t, ht⟩ := Option.ne_none_iff_exists'.1 h
  rw [effect_eq_ofDecision]
  unfold decision
  simp [ht, Effect.ofDecision, pure, Except.pure]

theorem effect_of_unparsable (hdel : pod.metadata.deletionTimestamp = none)
    (h : Reading parse pod.metadata.annotations none) :
    effect parse answer now pod = .fails := by
  rcases podExpiresAt_cases parse pod.metadata.annotations with
    ⟨error, hexp, -⟩ | ⟨-, hempty⟩ | ⟨expiresAt, -, hsoonest⟩
  · rw [effect_eq_ofDecision]
    unfold decision
    simp [hdel, hexp, Effect.ofDecision, bind, Except.bind]
  · exact (hempty none h).elim
  · exact (hsoonest.parsable h).elim

theorem effect_of_empty (hdel : pod.metadata.deletionTimestamp = none)
    (h : ∀ reading, ¬Reading parse pod.metadata.annotations reading) :
    effect parse answer now pod = .noAction := by
  rcases podExpiresAt_cases parse pod.metadata.annotations with
    ⟨error, -, hnone⟩ | ⟨hexp, -⟩ | ⟨expiresAt, -, hsoonest⟩
  · exact (h none hnone).elim
  · rw [effect_eq_ofDecision]
    unfold decision
    simp [hdel, hexp, Effect.ofDecision, bind, Except.bind, pure, Except.pure]
  · exact (h _ hsoonest.reading).elim

/-- The soonest timestamp decides : it is in the past or still to be waited for. -/
theorem effect_of_soonest {name ns : String} (hname : pod.metadata.name = some name)
    (hns : pod.metadata.ns = some ns) (hdel : pod.metadata.deletionTimestamp = none) {m : Int}
    (h : Soonest parse pod.metadata.annotations m) :
    effect parse answer now pod =
      if m < now then .evicts answer ⟨ns, name, default⟩ else .requeues (m - now).toNat := by
  rcases podExpiresAt_cases parse pod.metadata.annotations with
    ⟨error, -, hnone⟩ | ⟨-, hempty⟩ | ⟨expiresAt, hexp, hsoonest⟩
  · exact (h.parsable hnone).elim
  · exact (hempty _ h.reading).elim
  · have hm : expiresAt.instant = m :=
      Int.le_antisymm (hsoonest.least m h.reading) (h.least _ hsoonest.reading)
    rw [effect_eq_ofDecision]
    unfold decision
    by_cases hlt : m < now
    · have hstd : toStd (expiresAt.instant - now) = none := toStd_eq_none.2 (by omega)
      simp [hdel, hexp, hstd, hname, hns, hlt, okOr, Effect.ofDecision, bind, Except.bind, pure,
        Except.pure]
    · have hstd : toStd (expiresAt.instant - now) = some (m - now).toNat := by
        rw [toStd, if_neg (by omega), hm]
      simp [hdel, hexp, hstd, hlt, Effect.ofDecision, bind, Except.bind, pure, Except.pure]

end

/-- A Pod is left alone, evicted or looked at again as its soonest expiry annotation says. -/
structure DecidesByExpiry (parse : String → Except String DateTime)
    (answer : EvictRequest → Except String Unit) (now : Int) (pod : PartialObjectMeta)
    (ns name : String) : Prop where
  /-- A Pod that is being deleted is left alone, whatever its annotations. -/
  deleting : pod.metadata.deletionTimestamp ≠ none →
    effect parse answer now pod = .noAction
  /-- A timestamp that cannot be parsed makes the reconcile fail. -/
  unparsable : pod.metadata.deletionTimestamp = none →
    Reading parse pod.metadata.annotations none → effect parse answer now pod = .fails
  evicts_iff : pod.metadata.deletionTimestamp = none → ∀ m,
    Soonest parse pod.metadata.annotations m →
      (effect parse answer now pod = .evicts answer ⟨ns, name, default⟩ ↔ m < now)
  requeues_iff : pod.metadata.deletionTimestamp = none → ∀ m,
    Soonest parse pod.metadata.annotations m → ∀ nanoseconds : Nat,
      (effect parse answer now pod = .requeues nanoseconds ↔
        now ≤ m ∧ (nanoseconds : Int) = m - now)
  /-- Without expiry annotations there is nothing to do. -/
  empty : pod.metadata.deletionTimestamp = none →
    (∀ reading, ¬Reading parse pod.metadata.annotations reading) →
      effect parse answer now pod = .noAction

theorem decidesByExpiry {pod : PartialObjectMeta} {name ns : String}
    (hname : pod.metadata.name = some name) (hns : pod.metadata.ns = some ns) :
    DecidesByExpiry parse answer now pod ns name where
  deleting := effect_of_deleting
  unparsable := effect_of_unparsable
  evicts_iff hdel m h := by
    rw [effect_of_soonest hname hns hdel h]
    split
    · rename_i hlt
      exact iff_of_true rfl hlt
    · rename_i hlt
      exact iff_of_false (Ne.symm (Effect.evicts_ne_requeues _ _ _)) hlt
  requeues_iff hdel m h nanoseconds := by
    rw [effect_of_soonest hname hns hdel h]
    split
    · rename_i hlt
      exact iff_of_false (Effect.evicts_ne_requeues _ _ _) fun h => Int.not_le_of_gt hlt h.1
    · rw [Effect.requeues_inj]
      omega
  empty := effect_of_empty

/-- Pods whose annotations have the same instants are treated alike. -/
theorem effect_congr {pod pod' : PartialObjectMeta} {name ns : String}
    (hname : pod.metadata.name = some name) (hns : pod.metadata.ns = some ns)
    (hname' : pod'.metadata.name = some name) (hns' : pod'.metadata.ns = some ns)
    (hdel : pod.metadata.deletionTimestamp = none ↔ pod'.metadata.deletionTimestamp = none)
    (hreading : ∀ reading, Reading parse pod.metadata.annotations reading ↔
      Reading parse pod'.metadata.annotations reading) :
    effect parse answer now pod = effect parse answer now pod' := by
  by_cases h : pod.metadata.deletionTimestamp = none
  · have h' := hdel.1 h
    rcases podExpiresAt_cases parse pod.metadata.annotations with
      ⟨error, -, hnone⟩ | ⟨-, hempty⟩ | ⟨expiresAt, -, hsoonest⟩
    · rw [effect_of_unparsable h hnone, effect_of_unparsable h' ((hreading none).1 hnone)]
    · rw [effect_of_empty h hempty,
        effect_of_empty h' fun reading hr => hempty reading ((hreading reading).2 hr)]
    · have hsoonest' : Soonest parse pod'.metadata.annotations expiresAt.instant :=
        ⟨fun hnone => hsoonest.parsable ((hreading none).2 hnone),
          (hreading _).1 hsoonest.reading,
          fun m' hm' => hsoonest.least m' ((hreading _).2 hm')⟩
      rw [effect_of_soonest hname hns h hsoonest, effect_of_soonest hname' hns' h' hsoonest']
  · rw [effect_of_deleting h, effect_of_deleting (mt hdel.2 h)]

/-- A Pod that is to be looked at again is then evicted, and not before. -/
theorem effect_of_requeues {pod : PartialObjectMeta} {name ns : String}
    (hname : pod.metadata.name = some name) (hns : pod.metadata.ns = some ns) {nanoseconds : Nat}
    (h : effect parse answer now pod = .requeues nanoseconds) (now' : Int) :
    effect parse answer now' pod =
      if now + nanoseconds < now' then .evicts answer ⟨ns, name, default⟩
      else .requeues (now + nanoseconds - now').toNat := by
  by_cases hdel : pod.metadata.deletionTimestamp = none
  · rcases podExpiresAt_cases parse pod.metadata.annotations with
      ⟨error, -, hnone⟩ | ⟨-, hempty⟩ | ⟨expiresAt, -, hsoonest⟩
    · rw [effect_of_unparsable hdel hnone] at h
      cases h
    · rw [effect_of_empty hdel hempty] at h
      cases h
    · obtain ⟨hle, hd⟩ := ((decidesByExpiry hname hns).requeues_iff hdel _ hsoonest _).1 h
      have hm : expiresAt.instant = now + nanoseconds := by omega
      rw [effect_of_soonest hname hns hdel hsoonest, hm]
  · rw [effect_of_deleting hdel] at h
    cases h

/-- The expiry decision. For a Pod with a name and a namespace at any instant, the soonest expiry
annotation decides; nothing else about the annotations matters; and a Pod that is requeued is
evicted at any instant after the requeue, and not before. -/
theorem expiry_decision (parse : String → Except String DateTime)
    (answer : EvictRequest → Except String Unit) (now : Int) {pod : PartialObjectMeta}
    {name ns : String} (hname : pod.metadata.name = some name)
    (hns : pod.metadata.ns = some ns) :
    DecidesByExpiry parse answer now pod ns name ∧
      (∀ pod', pod'.metadata.name = some name → pod'.metadata.ns = some ns →
        (pod.metadata.deletionTimestamp = none ↔ pod'.metadata.deletionTimestamp = none) →
        (∀ reading, Reading parse pod.metadata.annotations reading ↔
          Reading parse pod'.metadata.annotations reading) →
        effect parse answer now pod = effect parse answer now pod') ∧
      ∀ nanoseconds, effect parse answer now pod = .requeues nanoseconds → ∀ now',
        effect parse answer now' pod =
          if now + nanoseconds < now' then .evicts answer ⟨ns, name, default⟩
          else .requeues (now + nanoseconds - now').toNat :=
  ⟨decidesByExpiry hname hns, fun _ hname' hns' => effect_congr hname hns hname' hns',
    fun _ h => effect_of_requeues hname hns h⟩

/-- The same time of day at two offsets, parsed. -/
def parseOffsets (s : String) : Except String DateTime :=
  if s = "1970-01-01T03:00:00+00:00" then .ok ⟨seconds 10800, 0⟩
  else if s = "1970-01-01T03:00:00+02:00" then .ok ⟨seconds 3600, 7200⟩
  else .error "input contains invalid characters"

/-- A Pod with two expiry annotations. -/
def twoTags : PartialObjectMeta :=
  ⟨{ (default : ObjectMeta) with
    name := some "web-0", ns := some "prod"
    annotations := some (BTreeMap.extend ∅ [
      (expiresAtPrefix ++ "tls", "1970-01-01T03:00:00+00:00"),
      (expiresAtPrefix ++ "kerberos", "1970-01-01T03:00:00+02:00")]) }⟩

theorem soonest_twoTags : Soonest parseOffsets twoTags.metadata.annotations (seconds 3600) := by
  rcases podExpiresAt_cases parseOffsets twoTags.metadata.annotations with
    ⟨error, h, -⟩ | ⟨h, -⟩ | ⟨expiresAt, h, hsoonest⟩
  · cases h
  · cases h
  · cases h
    exact hsoonest

/-- Two hours after the epoch the Pod has expired by one of its annotations. -/
theorem expiry_decision_twoTags :
    effect parseOffsets (fun _ => .ok ()) (seconds 7200) twoTags =
      .evicts (fun _ => .ok ()) ⟨"prod", "web-0", default⟩ :=
  ((expiry_decision parseOffsets (fun _ => .ok ()) (seconds 7200) rfl rfl).1.evicts_iff rfl _
    soonest_twoTags).2 (by decide)

end CommonsOperator.PodController
