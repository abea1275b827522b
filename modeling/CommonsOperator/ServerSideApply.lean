import CommonsOperator.BTreeMap
import CommonsOperator.Json

/-!
# Server-side apply

What the API server does with an applied object, at two levels. `Json.merge` merges the
applied values into the live ones, key by key, and leaves alone what is not sent.
`ManagedMap` is a map together with the managers of its keys : an apply with force takes over
the keys it sends, and removes a key that the manager alone owned and no longer sends.
`getElem?_apply` is the map afterwards, at every key; `apply_apply` : applying the same keys
again changes nothing.

An object is such a map from the paths of its fields (`Json.leaves`), and
`ManagedObject.serve` is what becomes of it when the body of an apply comes in.
-/

set_option linter.unusedSectionVars false

/-! ## Merging values -/

namespace Json

mutual

/-- Merge an applied value into a live one : objects member by member, anything else is
replaced. -/
def merge : Json → Json → Json
  | obj fields, obj new => obj (mergeFields fields new)
  | _, applied => applied

/-- Merge members into an object. -/
def mergeFields : List (String × Json) → List (String × Json) → List (String × Json)
  | fields, [] => fields
  | fields, new :: rest => mergeFields (mergeField fields new) rest

/-- Merge one member into an object. -/
def mergeField : List (String × Json) → String × Json → List (String × Json)
  | fields, (k, applied) =>
    Assoc.set fields k
      (match Assoc.get? fields k with
      | some live => merge live applied
      | none => applied)

end

@[simp] theorem merge_obj (fields new : List (String × Json)) :
    (obj fields).merge (obj new) = obj (mergeFields fields new) := by
  rw [merge]

@[simp] theorem merge_str (live : Json) (s : String) : live.merge (str s) = str s := by
  cases live <;> rw [merge] <;> simp

@[simp] theorem mergeFields_nil (fields : List (String × Json)) :
    mergeFields fields [] = fields := by
  rw [mergeFields]

@[simp] theorem mergeFields_cons (fields : List (String × Json)) (new : String × Json)
    (rest : List (String × Json)) :
    mergeFields fields (new :: rest) = mergeFields (mergeField fields new) rest := by
  rw [mergeFields]

theorem get?_mergeField_self {fields : List (String × Json)} {k : String} {live : Json}
    (h : Assoc.get? fields k = some live) (applied : Json) :
    Assoc.get? (mergeField fields (k, applied)) k = some (live.merge applied) := by
  simp [mergeField, h]

theorem get?_mergeField_of_ne {k k' : String} (h : k ≠ k') (fields : List (String × Json))
    (applied : Json) : Assoc.get? (mergeField fields (k, applied)) k' = Assoc.get? fields k' := by
  rw [mergeField, Assoc.get?_set_of_ne h]

/-- Below the member that is merged. -/
theorem at?_mergeField {fields : List (String × Json)} {k : String} {live : Json}
    (h : Assoc.get? fields k = some live) (applied : Json) (path : List String) :
    (obj (mergeField fields (k, applied))).at? (k :: path) = (live.merge applied).at? path := by
  rw [at?, get?_mergeField_self h, Option.bind_some]

/-- Merging in what is there changes nothing. -/
theorem mergeFields_eq_self {fields : List (String × Json)} : ∀ {new : List (String × Json)},
    (∀ kv ∈ new, ∃ live, Assoc.get? fields kv.1 = some live ∧ live.merge kv.2 = live) →
      mergeFields fields new = fields
  | [], _ => mergeFields_nil fields
  | (k, applied) :: rest, h => by
    obtain ⟨live, hk, hm⟩ := h _ List.mem_cons_self
    have hself : mergeField fields (k, applied) = fields := by
      simp only at hk hm
      rw [mergeField, hk]
      simp only [hm, Assoc.set_of_get? hk]
    rw [mergeFields_cons, hself]
    exact mergeFields_eq_self fun kv hkv => h kv (List.mem_cons_of_mem _ hkv)

/-! ## Fields -/

mutual

/-- The fields of a value : what there is at paths of member names, down to what is not an
object. -/
def leaves : Json → List (List String × Json)
  | obj members => memberLeaves members
  | j => [([], j)]

def memberLeaves : List (String × Json) → List (List String × Json)
  | [] => []
  | (k, j) :: members =>
    (leaves j).map (fun field => (k :: field.1, field.2)) ++ memberLeaves members

end

@[simp] theorem leaves_obj (members : List (String × Json)) :
    (obj members).leaves = memberLeaves members := by
  rw [leaves]

@[simp] theorem leaves_str (s : String) : (str s).leaves = [([], str s)] := by
  rw [leaves]
  nofun

@[simp] theorem leaves_null : null.leaves = [([], null)] := by
  rw [leaves]
  nofun

@[simp] theorem memberLeaves_nil : memberLeaves [] = [] := by
  rw [memberLeaves]

@[simp] theorem memberLeaves_cons (k : String) (j : Json) (members : List (String × Json)) :
    memberLeaves ((k, j) :: members) =
      j.leaves.map (fun field => (k :: field.1, field.2)) ++ memberLeaves members := by
  rw [memberLeaves]

end Json

/-! ## Ownership -/

/-- A map with the managers that own its keys. -/
structure ManagedMap (K V M : Type*) [Ord K] [Std.TransOrd K] where
  entries : BTreeMap K V
  owners : K → List M
  /-- Only a key that is there has an owner. -/
  owners_of_absent : ∀ k, entries[k]? = none → owners k = []

namespace ManagedMap

variable {K V M : Type*} [Ord K] [Std.TransOrd K] [Std.LawfulEqOrd K] [DecidableEq V]
  [DecidableEq M]

theorem ext {m m' : ManagedMap K V M} (he : m.entries = m'.entries)
    (ho : ∀ k, m.owners k = m'.owners k) : m = m' := by
  obtain ⟨entries, owners, _⟩ := m
  obtain ⟨entries', owners', _⟩ := m'
  obtain rfl : entries = entries' := he
  obtain rfl : owners = owners' := funext ho
  rfl

/-- Maps are equal if their entries are, with their owners. -/
instance : DecidableEq (ManagedMap K V M) := fun m m' =>
  decidable_of_iff (m.entries = m'.entries ∧ ∀ k ∈ m.entries.keys, m.owners k = m'.owners k) (by
    constructor
    · rintro ⟨he, ho⟩
      refine ext he fun k => ?_
      by_cases hk : k ∈ m.entries
      · exact ho k (Std.ExtTreeMap.mem_keys.2 hk)
      · rw [m.owners_of_absent k (Std.ExtTreeMap.getElem?_eq_none hk),
          m'.owners_of_absent k (Std.ExtTreeMap.getElem?_eq_none (he ▸ hk))]
    · rintro rfl
      exact ⟨rfl, fun _ _ => rfl⟩)

/-- A map without entries. -/
def empty : ManagedMap K V M :=
  ⟨∅, fun _ => [], fun _ _ => rfl⟩

/-- Owned by the manager and nobody else. -/
def SoleOwner (m : ManagedMap K V M) (manager : M) (k : K) : Prop :=
  manager ∈ m.owners k ∧ ∀ other ∈ m.owners k, other = manager

instance (m : ManagedMap K V M) (manager : M) (k : K) : Decidable (m.SoleOwner manager k) :=
  inferInstanceAs (Decidable (_ ∧ _))

/-- The entries after an apply : the keys sent, and the others but for those the manager
alone owned. -/
def applyEntries (m : ManagedMap K V M) (manager : M) (sent : BTreeMap K V) : BTreeMap K V :=
  (m.entries.filter fun k _ => decide ¬m.SoleOwner manager k) ∪ sent

/-- The owners of a key after an apply. A manager that sends the value that is there joins
its owners, one that changes it becomes the only one. -/
def applyOwners (m : ManagedMap K V M) (manager : M) (sent : BTreeMap K V) (k : K) : List M :=
  match sent[k]? with
  | some v =>
    if m.entries[k]? = some v then
      if manager ∈ m.owners k then m.owners k else manager :: m.owners k
    else [manager]
  | none => (m.owners k).filter (· ≠ manager)

theorem getElem?_applyEntries (m : ManagedMap K V M) (manager : M) (sent : BTreeMap K V) (k : K) :
    (m.applyEntries manager sent)[k]? =
      sent[k]?.or (if m.SoleOwner manager k then none else m.entries[k]?) := by
  rw [applyEntries, Std.ExtTreeMap.getElem?_union, Std.ExtTreeMap.getElem?_filter']
  congr 1
  split <;> cases m.entries[k]? <;> simp_all

/-- A server-side apply with force. -/
def apply (m : ManagedMap K V M) (manager : M) (sent : BTreeMap K V) : ManagedMap K V M where
  entries := m.applyEntries manager sent
  owners := m.applyOwners manager sent
  owners_of_absent := by
    intro k hk
    rw [getElem?_applyEntries, Option.or_eq_none_iff] at hk
    rw [applyOwners, hk.1]
    by_cases hs : m.SoleOwner manager k
    · simpa using hs.2
    · rw [if_neg hs] at hk
      simp [m.owners_of_absent k hk.2]

theorem owners_apply (m : ManagedMap K V M) (manager : M) (sent : BTreeMap K V) (k : K) :
    (m.apply manager sent).owners k = m.applyOwners manager sent k :=
  rfl

/-- The map after an apply, at every key. -/
theorem getElem?_apply (m : ManagedMap K V M) (manager : M) (sent : BTreeMap K V) (k : K) :
    (m.apply manager sent).entries[k]? =
      sent[k]?.or (if m.SoleOwner manager k then none else m.entries[k]?) :=
  m.getElem?_applyEntries manager sent k

/-- After an apply the manager owns what it sent and nothing else. -/
theorem mem_owners_apply {m : ManagedMap K V M} {manager : M} {sent : BTreeMap K V} {k : K} :
    manager ∈ (m.apply manager sent).owners k ↔ sent[k]? ≠ none := by
  rw [owners_apply, applyOwners]
  cases sent[k]? with
  | none => simp
  | some v =>
    simp only
    split
    · split <;> simp_all
    · simp

/-- An apply makes nobody but its manager an owner. -/
theorem mem_owners_of_apply {m : ManagedMap K V M} {manager other : M} {sent : BTreeMap K V}
    {k : K} (h : other ∈ (m.apply manager sent).owners k) :
    other = manager ∨ other ∈ m.owners k := by
  rw [owners_apply, applyOwners] at h
  split at h
  · split at h
    · split at h
      · exact Or.inr h
      · exact List.mem_cons.1 h
    · exact Or.inl (List.mem_singleton.1 h)
  · exact Or.inr (List.mem_filter.1 h).1

/-- An apply leaves alone a key that it does not send and that its manager does not own. -/
theorem getElem?_apply_of_notMem {m : ManagedMap K V M} {manager : M} {sent : BTreeMap K V}
    {k : K} (hs : sent[k]? = none) (hm : manager ∉ m.owners k) :
    (m.apply manager sent).entries[k]? = m.entries[k]? ∧
      (m.apply manager sent).owners k = m.owners k := by
  refine ⟨?_, ?_⟩
  · rw [getElem?_apply, hs, if_neg fun h => hm h.1, Option.none_or]
  · rw [owners_apply, applyOwners, hs]
    exact List.filter_eq_self.2 fun other ho => by
      simpa using fun e : other = manager => hm (e ▸ ho)

/-- What an apply does to a key depends on what it sends for that key. -/
theorem apply_congr {sent sent' : BTreeMap K V} {k : K} (h : sent[k]? = sent'[k]?)
    (m : ManagedMap K V M) (manager : M) :
    (m.apply manager sent).entries[k]? = (m.apply manager sent').entries[k]? ∧
      (m.apply manager sent).owners k = (m.apply manager sent').owners k := by
  rw [getElem?_apply, getElem?_apply, owners_apply, owners_apply, applyOwners, applyOwners, h]
  exact ⟨rfl, rfl⟩

/-- The apply changes the key, or who owns it. -/
def ChangesAt (m : ManagedMap K V M) (manager : M) (sent : BTreeMap K V) (k : K) : Prop :=
  (m.apply manager sent).entries[k]? ≠ m.entries[k]? ∨
    (m.apply manager sent).owners k ≠ m.owners k

theorem ChangesAt.congr {m : ManagedMap K V M} {manager : M} {sent sent' : BTreeMap K V} {k : K}
    (h : m.ChangesAt manager sent k) (hk : sent[k]? = sent'[k]?) : m.ChangesAt manager sent' k := by
  obtain ⟨hentries, howners⟩ := apply_congr hk m manager
  unfold ChangesAt
  rw [← hentries, ← howners]
  exact h

theorem ChangesAt.apply_ne {m : ManagedMap K V M} {manager : M} {sent : BTreeMap K V} {k : K}
    (h : m.ChangesAt manager sent k) : m.apply manager sent ≠ m := by
  intro heq
  rcases h with h | h
  · exact h (by rw [heq])
  · exact h (by rw [heq])

/-- An apply that changes nothing has sent what is there, and the manager owns nothing else. -/
theorem of_apply_eq {m : ManagedMap K V M} {manager : M} {sent : BTreeMap K V}
    (h : m.apply manager sent = m) (k : K) :
    m.entries[k]? = sent[k]? ∨ sent[k]? = none ∧ manager ∉ m.owners k := by
  cases hs : sent[k]? with
  | some v =>
    refine Or.inl ?_
    rw [← h, getElem?_apply, hs, Option.some_or]
  | none =>
    refine Or.inr ⟨rfl, fun hmem => ?_⟩
    rw [← h] at hmem
    exact mem_owners_apply.1 hmem hs

/-- Applying the same keys again changes nothing. -/
theorem apply_apply (m : ManagedMap K V M) (manager : M) (sent : BTreeMap K V) :
    (m.apply manager sent).apply manager sent = m.apply manager sent := by
  have hentries : ∀ (k : K) (v : V), sent[k]? = some v →
      (m.apply manager sent).entries[k]? = some v := by
    intro k v h
    rw [getElem?_apply, h, Option.some_or]
  refine ext (Std.ExtTreeMap.ext_getElem? fun k => ?_) fun k => ?_
  · cases hs : sent[k]? with
    | none => exact (getElem?_apply_of_notMem hs fun h => mem_owners_apply.1 h hs).1
    | some v => rw [getElem?_apply, hs, Option.some_or, hentries k v hs]
  · cases hs : sent[k]? with
    | none => exact (getElem?_apply_of_notMem hs fun h => mem_owners_apply.1 h hs).2
    | some v =>
      have hm : manager ∈ (m.apply manager sent).owners k := mem_owners_apply.2 (by simp [hs])
      rw [owners_apply, applyOwners, hs]
      simp only [if_pos (hentries k v hs), if_pos hm]

/-- A manager sets a key. It becomes the only owner unless the value was there. -/
def write (m : ManagedMap K V M) (manager : M) (k : K) (v : V) : ManagedMap K V M where
  entries := m.entries.insert k v
  owners k' :=
    if compare k k' = .eq then
      if m.entries[k]? = some v then m.owners k' else [manager]
    else m.owners k'
  owners_of_absent := by
    intro k' hk'
    rw [Std.ExtTreeMap.getElem?_insert] at hk'
    split at hk'
    · cases hk'
    · rename_i h
      rw [if_neg h, m.owners_of_absent k' hk']

/-- A key is removed. -/
def remove (m : ManagedMap K V M) (k : K) : ManagedMap K V M where
  entries := m.entries.erase k
  owners k' := if compare k k' = .eq then [] else m.owners k'
  owners_of_absent := by
    intro k' hk'
    rw [Std.ExtTreeMap.getElem?_erase] at hk'
    split
    · rfl
    · rename_i h
      rw [if_neg h] at hk'
      exact m.owners_of_absent k' hk'

theorem write_of_ne {k k' : K} (h : k ≠ k') (m : ManagedMap K V M) (manager : M) (v : V) :
    (m.write manager k v).entries[k']? = m.entries[k']? ∧
      (m.write manager k v).owners k' = m.owners k' := by
  have hc : ¬compare k k' = .eq := fun e => h (Std.LawfulEqCmp.eq_of_compare e)
  exact ⟨by rw [write, Std.ExtTreeMap.getElem?_insert, if_neg hc], if_neg hc⟩

theorem remove_of_ne {k k' : K} (h : k ≠ k') (m : ManagedMap K V M) :
    (m.remove k).entries[k']? = m.entries[k']? ∧ (m.remove k).owners k' = m.owners k' := by
  have hc : ¬compare k k' = .eq := fun e => h (Std.LawfulEqCmp.eq_of_compare e)
  exact ⟨by rw [remove, Std.ExtTreeMap.getElem?_erase, if_neg hc], if_neg hc⟩

/-- Writing makes nobody but the writer an owner. -/
theorem mem_owners_write {m : ManagedMap K V M} {manager other : M} {k k' : K} {v : V}
    (h : other ∈ (m.write manager k v).owners k') : other = manager ∨ other ∈ m.owners k' := by
  simp only [write] at h
  split at h
  · split at h
    · exact Or.inr h
    · exact Or.inl (List.mem_singleton.1 h)
  · exact Or.inr h

theorem mem_owners_remove {m : ManagedMap K V M} {other : M} {k k' : K}
    (h : other ∈ (m.remove k).owners k') : other ∈ m.owners k' := by
  simp only [remove] at h
  split at h
  · cases h
  · exact h

/-! ### A manager with keys of its own -/

/-- The manager alone owns those of the keys `p` that there are, and it owns no other key. -/
structure Owns (p : K → Prop) (manager : M) (m : ManagedMap K V M) : Prop where
  own : ∀ k, p k → m.entries[k]? ≠ none → m.SoleOwner manager k
  foreign : ∀ k, ¬p k → manager ∉ m.owners k

namespace Owns

variable {p : K → Prop} {manager other : M} {m : ManagedMap K V M}

/-- An apply leaves of the own keys those that it sends. -/
theorem getElem?_apply (h : m.Owns p manager) {k : K} (hk : p k) (sent : BTreeMap K V) :
    (m.apply manager sent).entries[k]? = sent[k]? := by
  rw [ManagedMap.getElem?_apply]
  split
  · exact Option.or_none
  · rename_i hsole
    -- an own key that the manager does not own is not there
    have habsent : m.entries[k]? = none := by
      by_contra hentry
      exact hsole (h.own k hk hentry)
    rw [habsent, Option.or_none]

/-- An apply of own keys leaves the others alone. -/
theorem apply_of_foreign (h : m.Owns p manager) {sent : BTreeMap K V}
    (hsent : ∀ k v, sent[k]? = some v → p k) {k : K} (hk : ¬p k) :
    (m.apply manager sent).entries[k]? = m.entries[k]? ∧
      (m.apply manager sent).owners k = m.owners k :=
  getElem?_apply_of_notMem (Option.eq_none_iff_forall_ne_some.2 fun v hv => hk (hsent k v hv))
    (h.foreign k hk)

theorem apply (h : m.Owns p manager) {sent : BTreeMap K V}
    (hsent : ∀ k v, sent[k]? = some v → p k) : (m.apply manager sent).Owns p manager := by
  constructor
  · intro k hk hentry
    rw [h.getElem?_apply hk] at hentry
    refine ⟨mem_owners_apply.2 hentry, fun other ho => ?_⟩
    rcases mem_owners_of_apply ho with rfl | ho
    · rfl
    · refine (h.own k hk fun hn => ?_).2 other ho
      rw [m.owners_of_absent k hn] at ho
      cases ho
  · intro k hk
    rw [(h.apply_of_foreign hsent hk).2]
    exact h.foreign k hk

/-- Another manager writes a key that is not one of them. -/
theorem write (h : m.Owns p manager) (hother : other ≠ manager) {k : K} (hk : ¬p k) (v : V) :
    (m.write other k v).Owns p manager := by
  constructor
  · intro k' hk' hentry
    obtain ⟨he, ho⟩ := write_of_ne (fun e : k = k' => hk (e ▸ hk')) m other v
    simp only [he, SoleOwner, ho] at hentry ⊢
    exact h.own k' hk' hentry
  · intro k' hk' hmem
    rcases mem_owners_write hmem with he | hmem
    · exact hother he.symm
    · exact h.foreign k' hk' hmem

theorem remove (h : m.Owns p manager) {k : K} (hk : ¬p k) : (m.remove k).Owns p manager := by
  constructor
  · intro k' hk' hentry
    obtain ⟨he, ho⟩ := remove_of_ne (fun e : k = k' => hk (e ▸ hk')) m
    simp only [he, SoleOwner, ho] at hentry ⊢
    exact h.own k' hk' hentry
  · exact fun k' hk' hmem => h.foreign k' hk' (mem_owners_remove hmem)

end Owns

end ManagedMap

/-! ## The API server -/

/-- An object, as its fields and the managers of each. -/
abbrev ManagedObject (M : Type*) :=
  ManagedMap (List String) Json M

/-- An apply. -/
structure ApplyRequest (M : Type*) where
  manager : Option M
  force : Bool
  body : Json

namespace ApplyRequest

variable {M : Type*}

/-- The fields that say which object is meant. They have no managers. -/
def identifying : List (List String) :=
  [["apiVersion"], ["kind"], ["metadata", "name"], ["metadata", "namespace"], ["metadata", "uid"]]

/-- The fields that are applied. -/
def sent (request : ApplyRequest M) : BTreeMap (List String) Json :=
  BTreeMap.extend ∅ (request.body.leaves.filter fun field => field.1 ∉ identifying)

/-- The object is the one that is meant : what the body says of its identity is so. -/
def Identifies (request : ApplyRequest M) (object : ManagedObject M) : Prop :=
  ∀ field ∈ request.body.leaves, field.1 ∈ identifying → field.2 ≠ .null →
    object.entries[field.1]? = some field.2

instance (request : ApplyRequest M) (object : ManagedObject M) :
    Decidable (request.Identifies object) :=
  inferInstanceAs (Decidable (∀ field ∈ request.body.leaves, _))

/-- The apply would change a field that another manager owns. -/
def Conflicts [DecidableEq M] (request : ApplyRequest M) (manager : M) (object : ManagedObject M) :
    Prop :=
  ∃ field ∈ request.sent.toList, object.entries[field.1]? ≠ some field.2 ∧
    ∃ other ∈ object.owners field.1, other ≠ manager

instance [DecidableEq M] (request : ApplyRequest M) (manager : M) (object : ManagedObject M) :
    Decidable (request.Conflicts manager object) :=
  inferInstanceAs (Decidable (∃ field ∈ request.sent.toList, _ ∧ _))

end ApplyRequest

/-- What becomes of the object. -/
def ManagedObject.serve {M : Type*} [DecidableEq M] (object : ManagedObject M)
    (request : ApplyRequest M) : Except String (ManagedObject M) :=
  match request.manager with
  | none => .error "a field manager is required"
  | some manager =>
    if ¬request.Identifies object then .error "the object is another one"
    else if request.force = false ∧ request.Conflicts manager object then
      .error "a field belongs to another manager"
    else .ok (object.apply manager request.sent)

/-- An apply with force changes the object that it identifies. -/
theorem ManagedObject.serve_force {M : Type*} [DecidableEq M] {object object' : ManagedObject M}
    {manager : M} {body : Json} : object.serve ⟨some manager, true, body⟩ = .ok object' ↔
      (ApplyRequest.mk (some manager) true body).Identifies object ∧
        object' = object.apply manager (ApplyRequest.mk (some manager) true body).sent := by
  unfold serve
  dsimp only
  split
  · rename_i h
    simp [h]
  · rename_i h
    simp [not_not.1 h, eq_comm]
