import Mathlib.Data.List.Induction
import Mathlib.Tactic.Common

/-!
# Runs of partial step functions

A system is a step function `step : S → L → Option S` : the label carries every choice
the environment makes, and `none` says that the label is not enabled. `run` executes a
list of labels. Facts about runs come in two shapes. `run_invariant` proves a property
of every state a run reaches from what one step preserves. `Along` is a property of
every step of a run, read at the state before it; it states both the assumptions a run
is to meet and what is claimed of its steps, and `Along.run_invariant` and
`along_of_invariant` connect the two.
-/

namespace Transition

variable {S L O : Type*} (step : S → L → Option S)

/-- Execute the labels in order. -/
def run : S → List L → Option S
  | s, [] => some s
  | s, l :: ls => (step s l).bind fun t => run t ls

variable {step}

@[simp] theorem run_nil (s : S) : run step s [] = some s :=
  rfl

theorem run_cons (s : S) (l : L) (ls : List L) :
    run step s (l :: ls) = (step s l).bind fun t => run step t ls :=
  rfl

theorem run_cons_eq_some {s t : S} {l : L} {ls : List L} :
    run step s (l :: ls) = some t ↔ ∃ u, step s l = some u ∧ run step u ls = some t :=
  Option.bind_eq_some_iff

theorem run_append (s : S) (ls ms : List L) :
    run step s (ls ++ ms) = (run step s ls).bind fun t => run step t ms := by
  induction ls generalizing s with
  | nil => rfl
  | cons l ls ih =>
    rw [List.cons_append, run_cons, run_cons, Option.bind_assoc]
    exact Option.bind_congr fun t _ => ih t

theorem run_append_eq_some {s t : S} {ls ms : List L} :
    run step s (ls ++ ms) = some t ↔ ∃ u, run step s ls = some u ∧ run step u ms = some t := by
  rw [run_append, Option.bind_eq_some_iff]

theorem run_concat_eq_some {s t : S} {ls : List L} {l : L} :
    run step s (ls ++ [l]) = some t ↔ ∃ u, run step s ls = some u ∧ step u l = some t := by
  simp [run_append_eq_some, run_cons_eq_some]

/-! ## Invariants -/

/-- What every step preserves holds in every state a run reaches. -/
theorem run_invariant {P : S → Prop} (hstep : ∀ s l t, P s → step s l = some t → P t) {s t : S}
    {ls : List L} (hs : P s) (h : run step s ls = some t) : P t := by
  induction ls generalizing s with
  | nil => exact Option.some.inj h ▸ hs
  | cons l ls ih =>
    obtain ⟨u, hu, h⟩ := run_cons_eq_some.1 h
    exact ih (hstep s l u hs hu) h

/-- An invariant that also reads the labels executed so far. -/
theorem run_invariant_history {P : List L → S → Prop}
    (hstep : ∀ hist s l t, P hist s → step s l = some t → P (hist ++ [l]) t) {s : S}
    (hs : P [] s) {t : S} {ls : List L} (h : run step s ls = some t) : P ls t := by
  induction ls using List.reverseRecOn generalizing t with
  | nil => exact Option.some.inj h ▸ hs
  | append_singleton ls l ih =>
    obtain ⟨u, hu, h⟩ := run_concat_eq_some.1 h
    exact hstep ls u l t (ih hu) h

/-! ## Two systems in lockstep -/

section

variable {α β γ δ : Type*} {R : α → β → Prop} {R' : γ → δ → Prop} {a : Option α} {b : Option β}

theorem rel_bind (h : Option.Rel R a b) {f : α → Option γ} {g : β → Option δ}
    (hfg : ∀ x y, R x y → Option.Rel R' (f x) (g y)) : Option.Rel R' (a.bind f) (b.bind g) := by
  cases h with
  | none => exact .none
  | some hxy => exact hfg _ _ hxy

theorem rel_map (h : Option.Rel R a b) {f : α → γ} {g : β → δ}
    (hfg : ∀ x y, R x y → R' (f x) (g y)) : Option.Rel R' (a.map f) (b.map g) := by
  cases h with
  | none => exact .none
  | some hxy => exact .some (hfg _ _ hxy)

end

/-- Two systems that take the same steps and stay related. -/
theorem run_rel {S' : Type*} {step' : S' → L → Option S'} {R : S → S' → Prop}
    (hstep : ∀ s s' l, R s s' → Option.Rel R (step s l) (step' s' l)) {s : S} {s' : S'}
    (h : R s s') (ls : List L) : Option.Rel R (run step s ls) (run step' s' ls) := by
  induction ls generalizing s s' with
  | nil => exact .some h
  | cons l ls ih =>
    rw [run_cons, run_cons]
    exact rel_bind (hstep s s' l h) fun _ _ h' => ih h'

/-! ## Properties of the steps of a run -/

/-- Every step of the run of `ls` from `s` satisfies `ok`, read at the state before it. -/
def Along (step : S → L → Option S) (ok : S → L → Prop) : S → List L → Prop
  | _, [] => True
  | s, l :: ls => ok s l ∧ ∀ t, step s l = some t → Along step ok t ls

variable {ok P' : S → L → Prop}

@[simp] theorem along_nil (s : S) : Along step ok s [] :=
  trivial

theorem along_cons {s : S} {l : L} {ls : List L} :
    Along step ok s (l :: ls) ↔ ok s l ∧ ∀ t, step s l = some t → Along step ok t ls :=
  Iff.rfl

theorem along_append {s : S} {ls ms : List L} :
    Along step ok s (ls ++ ms) ↔
      Along step ok s ls ∧ ∀ t, run step s ls = some t → Along step ok t ms := by
  induction ls generalizing s with
  | nil => simp
  | cons l ls ih =>
    simp only [List.cons_append, along_cons, ih, run_cons_eq_some]
    constructor
    · rintro ⟨hl, h⟩
      exact ⟨⟨hl, fun t ht => (h t ht).1⟩, fun t ⟨u, hu, hr⟩ => (h u hu).2 t hr⟩
    · rintro ⟨⟨hl, h⟩, h'⟩
      exact ⟨hl, fun t ht => ⟨h t ht, fun u hu => h' u ⟨t, ht, hu⟩⟩⟩

/-- The step at any position of a run that satisfies `ok` throughout. -/
theorem Along.at {s u : S} {ls ms : List L} {l : L} (h : Along step ok s (ls ++ l :: ms))
    (hu : run step s ls = some u) : ok u l :=
  ((along_append.1 h).2 u hu).1

/-- An invariant that the steps allowed by `ok` preserve. -/
theorem Along.run_invariant {P : S → Prop}
    (hstep : ∀ s l t, P s → ok s l → step s l = some t → P t) {s t : S} {ls : List L}
    (hok : Along step ok s ls) (hs : P s) (h : run step s ls = some t) : P t := by
  induction ls generalizing s with
  | nil => exact Option.some.inj h ▸ hs
  | cons l ls ih =>
    obtain ⟨u, hu, h⟩ := run_cons_eq_some.1 h
    exact ih (hok.2 u hu) (hstep s l u hs hok.1 hu) h

/-- If the invariant `P` makes every allowed step safe, a run of allowed steps is safe
throughout. -/
theorem along_of_invariant {P : S → Prop}
    (hstep : ∀ s l t, P s → ok s l → step s l = some t → P t)
    (hsafe : ∀ s l, P s → ok s l → P' s l) {s : S} {ls : List L} (hs : P s)
    (hok : Along step ok s ls) : Along step P' s ls := by
  induction ls generalizing s with
  | nil => trivial
  | cons l ls ih =>
    exact ⟨hsafe s l hs hok.1, fun t ht => ih (hstep s l t hs hok.1 ht) (hok.2 t ht)⟩

theorem Along.mono {ok' : S → L → Prop} (himp : ∀ s l, ok s l → ok' s l) {s : S} {ls : List L}
    (h : Along step ok s ls) : Along step ok' s ls :=
  along_of_invariant (P := fun _ => True) (fun _ _ _ _ _ _ => trivial)
    (fun s l _ hl => himp s l hl) trivial h

theorem Along.and {ok' : S → L → Prop} {s : S} {ls : List L} (h : Along step ok s ls)
    (h' : Along step ok' s ls) : Along step (fun s l => ok s l ∧ ok' s l) s ls := by
  induction ls generalizing s with
  | nil => trivial
  | cons l ls ih => exact ⟨⟨h.1, h'.1⟩, fun t ht => ih (h.2 t ht) (h'.2 t ht)⟩

/-- Labels that are safe in every state. -/
theorem along_of_forall {s : S} {ls : List L} (h : ∀ l ∈ ls, ∀ s, ok s l) : Along step ok s ls := by
  induction ls generalizing s with
  | nil => trivial
  | cons l ls ih =>
    exact ⟨h l List.mem_cons_self s, fun t _ => ih fun l' hl' => h l' (List.mem_cons_of_mem _ hl')⟩

/-! ## What the steps of a run return -/

/-- The observations `out` makes of the steps of a run, in order. -/
def observed (step : S → L → Option S) (out : S → L → Option O) : S → List L → List O
  | _, [] => []
  | s, l :: ls =>
    (out s l).toList ++ match step s l with
      | some t => observed step out t ls
      | none => []

theorem observed_append (out : S → L → Option O) {s t : S} {ls : List L} (ms : List L)
    (h : run step s ls = some t) :
    observed step out s (ls ++ ms) = observed step out s ls ++ observed step out t ms := by
  induction ls generalizing s with
  | nil => simp [observed, Option.some.inj h]
  | cons l ls ih =>
    obtain ⟨u, hu, h⟩ := run_cons_eq_some.1 h
    simp [observed, hu, ih h]

/-- Every observation was made by some step of the run. -/
theorem mem_observed {out : S → L → Option O} {o : O} {s : S} {ls : List L}
    (h : o ∈ observed step out s ls) :
    ∃ pre l post u, ls = pre ++ l :: post ∧ run step s pre = some u ∧ out u l = some o := by
  induction ls generalizing s with
  | nil => simp [observed] at h
  | cons l ls ih =>
    rcases List.mem_append.1 h with h | h
    · exact ⟨[], l, ls, s, rfl, rfl, by simpa using h⟩
    · cases hs : step s l with
      | none => simp [hs] at h
      | some t =>
        obtain ⟨pre, l', post, u, rfl, hu, ho⟩ := ih (s := t) (by simpa [hs] using h)
        exact ⟨l :: pre, l', post, u, rfl, run_cons_eq_some.2 ⟨t, hs, hu⟩, ho⟩

/-! ## Costs -/

/-- What the steps of a run cost together. A step's cost reads the states before and after
it. -/
def total (step : S → L → Option S) (cost : S → L → S → Nat) : S → List L → Nat
  | _, [] => 0
  | s, l :: ls =>
    match step s l with
    | some t => cost s l t + total step cost t ls
    | none => 0

variable {cost credit : S → L → S → Nat}

theorem total_cons_of_step {s t : S} {l : L} (h : step s l = some t) (ls : List L) :
    total step cost s (l :: ls) = cost s l t + total step cost t ls := by
  simp [total, h]

theorem total_cons_of_none {s : S} {l : L} (h : step s l = none) (ls : List L) :
    total step cost s (l :: ls) = 0 := by
  simp [total, h]

/-- If every step pays its cost out of the potential and the credit it brings, so does a
run. -/
theorem total_le_of_potential (potential : S → Nat)
    (hstep : ∀ s l t, step s l = some t →
      cost s l t + potential t ≤ potential s + credit s l t) (s : S) (ls : List L) :
    total step cost s ls ≤ potential s + total step credit s ls := by
  induction ls generalizing s with
  | nil => exact Nat.zero_le _
  | cons l ls ih =>
    cases h : step s l with
    | none =>
      rw [total_cons_of_none h]
      exact Nat.zero_le _
    | some t =>
      rw [total_cons_of_step h, total_cons_of_step h]
      have hl := hstep s l t h
      have hls := ih t
      omega

theorem total_add (s : S) (ls : List L) :
    total step (fun s l t => cost s l t + credit s l t) s ls =
      total step cost s ls + total step credit s ls := by
  induction ls generalizing s with
  | nil => rfl
  | cons l ls ih =>
    cases h : step s l with
    | none => simp only [total_cons_of_none h]
    | some t =>
      simp only [total_cons_of_step h, ih]
      omega

theorem total_mul (n : Nat) (s : S) (ls : List L) :
    total step (fun s l t => n * cost s l t) s ls = n * total step cost s ls := by
  induction ls generalizing s with
  | nil => rfl
  | cons l ls ih =>
    cases h : step s l with
    | none => simp only [total_cons_of_none h, Nat.mul_zero]
    | some t => simp only [total_cons_of_step h, ih, Nat.mul_add]

/-- A run none of whose steps costs anything. -/
theorem total_eq_zero {s : S} {ls : List L}
    (h : Along step (fun s l => ∀ t, step s l = some t → cost s l t = 0) s ls) :
    total step cost s ls = 0 := by
  induction ls generalizing s with
  | nil => rfl
  | cons l ls ih =>
    cases hs : step s l with
    | none => exact total_cons_of_none hs ls
    | some t => rw [total_cons_of_step hs, h.1 t hs, ih (h.2 t hs)]

end Transition
