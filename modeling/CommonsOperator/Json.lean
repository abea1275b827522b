import Mathlib.Tactic.Common

/-!
# JSON values

JSON values with objects as association lists : `Assoc.set` replaces the value of a key in
place, or appends the key, as an insertion-ordered map does. `Json.get?` reads a location,
a path of member names and array indices. `Json.at?` reads a path of member names only, and
`Json.put` replaces what is there; the lemmas say what `put` does to every location.
-/

/-! ## Association lists -/

namespace Assoc

variable {K V : Type*} [DecidableEq K]

/-- The value of a key. -/
def get? : List (K × V) → K → Option V
  | [], _ => none
  | (k', v) :: kvs, k => if k' = k then some v else get? kvs k

/-- Replace the value of a key, or append the key. -/
def set : List (K × V) → K → V → List (K × V)
  | [], k, v => [(k, v)]
  | (k', v') :: kvs, k, v => if k' = k then (k', v) :: kvs else (k', v') :: set kvs k v

@[simp] theorem get?_nil (k : K) : get? ([] : List (K × V)) k = none :=
  rfl

theorem get?_set (k k' : K) (v : V) :
    ∀ kvs : List (K × V), get? (set kvs k v) k' = if k = k' then some v else get? kvs k'
  | [] => rfl
  | (k₀, v₀) :: kvs => by
    unfold set
    split
    · rename_i h
      subst h
      simp only [get?]
      split <;> rfl
    · rename_i h
      simp only [get?, get?_set k k' v kvs]
      split
      · rename_i h'
        subst h'
        rw [if_neg fun e => h e.symm]
      · rfl

@[simp] theorem get?_set_self (kvs : List (K × V)) (k : K) (v : V) :
    get? (set kvs k v) k = some v := by
  rw [get?_set, if_pos rfl]

theorem get?_set_of_ne {k k' : K} (h : k ≠ k') (kvs : List (K × V)) (v : V) :
    get? (set kvs k v) k' = get? kvs k' := by
  rw [get?_set, if_neg h]

theorem set_set (k : K) (v v' : V) :
    ∀ kvs : List (K × V), set (set kvs k v) k v' = set kvs k v'
  | [] => by simp [set]
  | (k₀, v₀) :: kvs => by
    by_cases h : k₀ = k
    · simp [set, h]
    · simp [set, h, set_set k v v' kvs]

/-- Writing the value that is there changes nothing. -/
theorem set_of_get? {k : K} {v : V} :
    ∀ {kvs : List (K × V)}, get? kvs k = some v → set kvs k v = kvs
  | [], h => nomatch h
  | (k₀, v₀) :: kvs, h => by
    by_cases hk : k₀ = k
    · simp_all [get?, set]
    · simp only [get?, if_neg hk] at h
      simp [set, hk, set_of_get? h]

/-- A key that is not there is appended. -/
theorem set_of_notMem {k : K} (v : V) :
    ∀ {kvs : List (K × V)}, k ∉ kvs.map Prod.fst → set kvs k v = kvs ++ [(k, v)]
  | [], _ => rfl
  | (k₀, v₀) :: kvs, h => by
    rw [List.map_cons, List.mem_cons, not_or] at h
    simp [set, Ne.symm h.1, set_of_notMem v h.2]

theorem mem_of_get? {k : K} {v : V} :
    ∀ {kvs : List (K × V)}, get? kvs k = some v → (k, v) ∈ kvs
  | [], h => nomatch h
  | (k₀, v₀) :: kvs, h => by
    by_cases hk : k₀ = k
    · simp_all [get?]
    · simp only [get?, if_neg hk] at h
      exact List.mem_cons_of_mem _ (mem_of_get? h)

theorem get?_eq_none {k : K} : ∀ {kvs : List (K × V)}, k ∉ kvs.map Prod.fst → get? kvs k = none
  | [], _ => rfl
  | (k₀, v₀) :: kvs, h => by
    rw [List.map_cons, List.mem_cons, not_or] at h
    rw [get?, if_neg (Ne.symm h.1), get?_eq_none h.2]

/-- A key that is written is there once. -/
theorem nodup_set {k : K} (v : V) {kvs : List (K × V)} (h : (kvs.map Prod.fst).Nodup) :
    ((set kvs k v).map Prod.fst).Nodup := by
  suffices hkeys : (set kvs k v).map Prod.fst = kvs.map Prod.fst ∨
      k ∉ kvs.map Prod.fst ∧ (set kvs k v).map Prod.fst = kvs.map Prod.fst ++ [k] by
    rcases hkeys with hkeys | ⟨hk, hkeys⟩
    · rw [hkeys]
      exact h
    · rw [hkeys]
      exact List.nodup_append.2 ⟨h, by simp, by grind⟩
  clear h
  induction kvs with
  | nil => simp [set]
  | cons kv kvs ih =>
    obtain ⟨k₀, v₀⟩ := kv
    by_cases hk : k₀ = k
    · simp [set, hk]
    · simp only [set, if_neg hk, List.map_cons, List.mem_cons, not_or, List.cons_append,
        List.cons.injEq, true_and]
      rcases ih with ih | ⟨hmem, ih⟩
      · exact .inl ih
      · exact .inr ⟨⟨Ne.symm hk, hmem⟩, ih⟩

theorem get?_of_mem {k : K} {v : V} :
    ∀ {kvs : List (K × V)}, (kvs.map Prod.fst).Nodup → (k, v) ∈ kvs → get? kvs k = some v
  | (k₀, v₀) :: kvs, hnodup, h => by
    obtain ⟨hnot, hrest⟩ := List.nodup_cons.1 hnodup
    rcases List.mem_cons.1 h with heq | hmem
    · obtain ⟨rfl, rfl⟩ := Prod.mk.inj heq
      exact if_pos rfl
    · have hne : k₀ ≠ k := by
        rintro rfl
        exact hnot (List.mem_map.2 ⟨_, hmem, rfl⟩)
      rw [get?, if_neg hne, get?_of_mem hrest hmem]

/-- A dictionary is given by its keys in order and what is found for them. -/
theorem eq_map_of_keys {ks : List K} {f : K → V} (hnodup : ks.Nodup) :
    ∀ {kvs : List (K × V)}, kvs.map Prod.fst = ks → (∀ k ∈ ks, get? kvs k = some (f k)) →
      kvs = ks.map fun k => (k, f k) := by
  intro kvs hkeys hget
  subst hkeys
  rw [List.map_map]
  refine (List.map_id kvs).symm.trans (List.map_congr_left fun kv hmem => ?_)
  have hfound := hget kv.1 (List.mem_map_of_mem hmem)
  rw [get?_of_mem hnodup hmem] at hfound
  exact Prod.ext rfl (Option.some.inj hfound)

/-- Entries are left out. -/
theorem get?_filter {p : K × V → Bool} {k : K} :
    ∀ {kvs : List (K × V)}, (kvs.map Prod.fst).Nodup →
      get? (kvs.filter p) k = (get? kvs k).filter fun v => p (k, v)
  | [], _ => rfl
  | (k₀, v₀) :: kvs, h => by
    obtain ⟨hnot, hrest⟩ := List.nodup_cons.1 h
    have ih := get?_filter (p := p) (k := k) hrest
    by_cases hk : k₀ = k
    · subst hk
      cases hp : p (k₀, v₀) with
      | true => simp [get?, hp, Option.filter]
      | false =>
        have hnone : get? kvs k₀ = none := get?_eq_none hnot
        rw [List.filter_cons_of_neg (by simp [hp]), ih, hnone]
        simp [get?, hp, Option.filter]
    · rw [get?, if_neg hk, ← ih, List.filter_cons]
      split
      · rw [get?, if_neg hk]
      · rfl

end Assoc

/-! ## Values and locations -/

/-- A JSON value. -/
inductive Json where
  | null
  | bool (b : Bool)
  | num (n : Rat)
  | str (s : String)
  | arr (elems : List Json)
  | obj (fields : List (String × Json))

namespace Json

/-! ### Equality -/

mutual

/-- Values are equal if their parts are, in order. -/
def beq : Json → Json → Bool
  | null, null => true
  | bool b, bool b' => b == b'
  | num n, num n' => n == n'
  | str s, str s' => s == s'
  | arr elems, arr elems' => beqElems elems elems'
  | obj fields, obj fields' => beqFields fields fields'
  | _, _ => false

def beqElems : List Json → List Json → Bool
  | [], [] => true
  | j :: elems, j' :: elems' => beq j j' && beqElems elems elems'
  | _, _ => false

def beqFields : List (String × Json) → List (String × Json) → Bool
  | [], [] => true
  | (k, j) :: fields, (k', j') :: fields' => k == k' && beq j j' && beqFields fields fields'
  | _, _ => false

end

mutual

theorem beq_iff : ∀ j j' : Json, beq j j' = true ↔ j = j'
  | null, j' => by cases j' <;> simp [beq]
  | bool b, j' => by cases j' <;> simp [beq]
  | num n, j' => by cases j' <;> simp [beq]
  | str s, j' => by cases j' <;> simp [beq]
  | arr elems, j' => by cases j' <;> simp [beq, beqElems_iff elems]
  | obj fields, j' => by cases j' <;> simp [beq, beqFields_iff fields]

theorem beqElems_iff : ∀ elems elems' : List Json, beqElems elems elems' = true ↔ elems = elems'
  | [], elems' => by cases elems' <;> simp [beqElems]
  | j :: elems, elems' => by cases elems' <;> simp [beqElems, beq_iff j, beqElems_iff elems]

theorem beqFields_iff : ∀ fields fields' : List (String × Json),
    beqFields fields fields' = true ↔ fields = fields'
  | [], fields' => by cases fields' <;> simp [beqFields]
  | (k, j) :: fields, fields' => by
    rcases fields' with _ | ⟨⟨k', j'⟩, fields'⟩
    · simp [beqFields]
    · simp [beqFields, beq_iff j, beqFields_iff fields]

end

instance : DecidableEq Json :=
  fun j j' => decidable_of_iff _ (beq_iff j j')

/-! ### Locations -/

/-- An array index : digits without a leading zero. -/
def parseIndex (token : String) : Option Nat :=
  match token.toList with
  | [] => none
  | c :: cs =>
    if (c :: cs).all Char.isDigit ∧ (c ≠ '0' ∨ cs = []) then
      some ((c :: cs).foldl (fun n d => 10 * n + (d.toNat - '0'.toNat)) 0)
    else none

/-- The value at a location. -/
def get? : Json → List String → Option Json
  | j, [] => some j
  | obj fields, k :: path => (Assoc.get? fields k).bind fun child => child.get? path
  | arr elems, k :: path =>
    (parseIndex k).bind fun i => elems[i]?.bind fun child => child.get? path
  | _, _ :: _ => none

/-- The value at a path of member names. -/
def at? : Json → List String → Option Json
  | j, [] => some j
  | obj fields, k :: path => (Assoc.get? fields k).bind fun child => child.at? path
  | _, _ :: _ => none

/-- Replace the value at a path of member names that is there. -/
def put : Json → List String → Json → Json
  | _, [], v => v
  | obj fields, k :: path, v =>
    match Assoc.get? fields k with
    | some child => obj (Assoc.set fields k (child.put path v))
    | none => obj fields
  | j, _ :: _, _ => j

@[simp] theorem get?_nil (j : Json) : j.get? [] = some j := by
  cases j <;> rfl

@[simp] theorem at?_nil (j : Json) : j.at? [] = some j := by
  cases j <;> rfl

@[simp] theorem put_nil (j v : Json) : j.put [] v = v := by
  cases j <;> rfl

theorem get?_obj (fields : List (String × Json)) (k : String) (path : List String) :
    (obj fields).get? (k :: path) = (Assoc.get? fields k).bind fun child => child.get? path :=
  rfl

theorem at?_cons_eq_some {j t : Json} {k : String} {path : List String} :
    j.at? (k :: path) = some t ↔
      ∃ fields child, j = obj fields ∧ Assoc.get? fields k = some child ∧
        child.at? path = some t := by
  cases j <;> simp [at?, Option.bind_eq_some_iff]

theorem get?_append (path path' : List String) :
    ∀ j : Json, j.get? (path ++ path') = (j.get? path).bind fun t => t.get? path' := by
  induction path with
  | nil => simp
  | cons k path ih =>
    intro j
    cases j with
    | obj fields => simp [get?, ih, Option.bind_assoc]
    | arr elems => simp [get?, ih, Option.bind_assoc]
    | _ => rfl

theorem at?_append (path path' : List String) :
    ∀ j : Json, j.at? (path ++ path') = (j.at? path).bind fun t => t.at? path' := by
  induction path with
  | nil => simp
  | cons k path ih =>
    intro j
    cases j with
    | obj fields => simp [at?, ih, Option.bind_assoc]
    | _ => rfl

/-- A path of member names is a location. -/
theorem get?_of_at? {path : List String} :
    ∀ {j t : Json}, j.at? path = some t → j.get? path = some t := by
  induction path with
  | nil =>
    intro j t h
    simpa using h
  | cons k path ih =>
    intro j t h
    obtain ⟨fields, child, rfl, hk, hc⟩ := at?_cons_eq_some.1 h
    rw [get?_obj, hk]
    exact ih hc

/-- The members of an object; a value that is absent or not an object has none. -/
def members : Option Json → List (String × Json)
  | some (obj fields) => fields
  | _ => []

/-- Below a value that is absent, `null` or an object there are its members only. -/
theorem get?_members {j : Option Json}
    (h : ∀ t, j = some t → t = null ∨ ∃ fields, t = obj fields) (k : String)
    (path : List String) :
    (j.bind fun t => t.get? (k :: path)) =
      (Assoc.get? (members j) k).bind fun child => child.get? path := by
  cases j with
  | none => rfl
  | some t =>
    rcases h t rfl with rfl | ⟨fields, rfl⟩ <;> rfl

/-! ## Replacing a value -/

theorem put_append {path : List String} (path' : List String) (v : Json) :
    ∀ {j t : Json}, j.at? path = some t → j.put (path ++ path') v = j.put path (t.put path' v) := by
  induction path with
  | nil =>
    intro j t h
    obtain rfl : j = t := by simpa using h
    simp
  | cons k path ih =>
    intro j t h
    obtain ⟨fields, child, rfl, hk, hc⟩ := at?_cons_eq_some.1 h
    simp [put, hk, ih hc]

theorem at?_put {path : List String} (v : Json) :
    ∀ {j t : Json}, j.at? path = some t → (j.put path v).at? path = some v := by
  induction path with
  | nil => simp
  | cons k path ih =>
    intro j t h
    obtain ⟨fields, child, rfl, hk, hc⟩ := at?_cons_eq_some.1 h
    simp [put, hk, at?, ih hc]

theorem put_put {path : List String} (v v' : Json) :
    ∀ {j t : Json}, j.at? path = some t → (j.put path v).put path v' = j.put path v' := by
  induction path with
  | nil => simp
  | cons k path ih =>
    intro j t h
    obtain ⟨fields, child, rfl, hk, hc⟩ := at?_cons_eq_some.1 h
    simp [put, hk, ih hc, Assoc.set_set]

theorem put_of_at? {path : List String} :
    ∀ {j t : Json}, j.at? path = some t → j.put path t = j := by
  induction path with
  | nil =>
    intro j t h
    simpa using h.symm
  | cons k path ih =>
    intro j t h
    obtain ⟨fields, child, rfl, hk, hc⟩ := at?_cons_eq_some.1 h
    simp [put, hk, ih hc, Assoc.set_of_get? hk]

/-- `put` leaves alone every location that neither contains nor is inside the replaced
one. -/
theorem get?_put_of_not_prefix {path : List String} (v : Json) :
    ∀ {j t : Json} {loc : List String}, j.at? path = some t → ¬path <+: loc → ¬loc <+: path →
      (j.put path v).get? loc = j.get? loc := by
  induction path with
  | nil =>
    intro j t loc _ h
    exact (h List.nil_prefix).elim
  | cons k path ih =>
    intro j t loc h hp hl
    obtain ⟨fields, child, rfl, hk, hc⟩ := at?_cons_eq_some.1 h
    cases loc with
    | nil => exact (hl List.nil_prefix).elim
    | cons k' loc =>
      simp only [put, hk, get?_obj, Assoc.get?_set]
      split
      · rename_i hkk
        subst hkk
        rw [hk]
        exact ih hc (fun h => hp (List.cons_prefix_cons.2 ⟨rfl, h⟩))
          fun h => hl (List.cons_prefix_cons.2 ⟨rfl, h⟩)
      · rfl

end Json
