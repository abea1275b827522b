import Mathlib.Tactic.Common

/-!
# Ordered maps

Rust's `BTreeMap` as an extensional tree map : two maps are equal if they agree at every
key (`Std.ExtTreeMap.ext_getElem?`). `extend` inserts the pairs of an iterator in order, a
later value for a key over an earlier one.
-/

set_option linter.unusedSectionVars false

variable {K V : Type*} [Ord K]

/-- `std::collections::BTreeMap`. -/
abbrev BTreeMap (K V : Type*) [Ord K] :=
  Std.ExtTreeMap K V compare

namespace BTreeMap

variable [Std.TransOrd K] [Std.LawfulEqOrd K]

/-- `BTreeMap::extend`. -/
def extend (m : BTreeMap K V) (kvs : List (K × V)) : BTreeMap K V :=
  kvs.foldl (fun m kv => m.insert kv.1 kv.2) m

@[simp] theorem extend_nil (m : BTreeMap K V) : extend m [] = m :=
  rfl

theorem extend_cons (m : BTreeMap K V) (kv : K × V) (kvs : List (K × V)) :
    extend m (kv :: kvs) = extend (m.insert kv.1 kv.2) kvs :=
  rfl

/-- A key the iterator does not yield keeps its value. -/
theorem getElem?_extend_of_notMem {k : K} :
    ∀ {kvs : List (K × V)} (m : BTreeMap K V), (∀ kv ∈ kvs, kv.1 ≠ k) → (extend m kvs)[k]? = m[k]?
  | [], _, _ => rfl
  | kv :: kvs, m, h => by
    rw [extend_cons, getElem?_extend_of_notMem _ fun kv' h' => h kv' (List.mem_cons_of_mem _ h')]
    have hne : kv.1 ≠ k := h kv List.mem_cons_self
    rw [Std.ExtTreeMap.getElem?_insert, if_neg fun e => hne (Std.LawfulEqCmp.eq_of_compare e)]

/-- A key the iterator yields with one value gets that value. -/
theorem getElem?_extend_of_mem {k : K} {v : V} :
    ∀ {kvs : List (K × V)} (m : BTreeMap K V), (k, v) ∈ kvs →
      (∀ v', (k, v') ∈ kvs → v' = v) → (extend m kvs)[k]? = some v
  | [], _, h, _ => nomatch h
  | kv :: kvs, m, h, hv => by
    rw [extend_cons]
    by_cases hmem : ∃ v', (k, v') ∈ kvs
    · obtain ⟨v', h'⟩ := hmem
      obtain rfl := hv v' (List.mem_cons_of_mem _ h')
      exact getElem?_extend_of_mem _ h' fun v'' h'' => hv v'' (List.mem_cons_of_mem _ h'')
    · obtain rfl : (k, v) = kv := by
        rcases List.mem_cons.1 h with h | h
        · exact h
        · exact (hmem ⟨v, h⟩).elim
      rw [getElem?_extend_of_notMem]
      · exact Std.ExtTreeMap.getElem?_insert_self
      · intro kv hkv he
        exact hmem ⟨kv.2, he ▸ hkv⟩

end BTreeMap
