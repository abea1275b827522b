import Mathlib.Tactic.Common

/-!
# Programs with a state and exceptions

`Program S E α` runs on a state `S`, which an exception leaves as it is when it is raised.
`wp x Q X s` says that `x`, run from `s`, returns with `Q` or raises with `X`. The `simp` set
takes a program apart statement by statement; `wp_mono` brings in what was proved about a
part, and `wp_foldlM` and `wp_forM` are the rules for loops, with an invariant about the
elements done so far.
-/

universe u

/-- Programs over the state `S` that may raise an `E`. -/
abbrev Program (S E α : Type u) :=
  ExceptT E (StateM S) α

namespace Program

variable {S E α β : Type u}

/-- Run the program. -/
def exec (x : Program S E α) (s : S) : Except E α × S :=
  x.run.run s

/-- The program returns with `Q`, or raises with `X`. -/
def wp (x : Program S E α) (Q : α → S → Prop) (X : E → S → Prop) (s : S) : Prop :=
  match x.exec s with
  | (.ok a, t) => Q a t
  | (.error e, t) => X e t

variable {Q : α → S → Prop} {X : E → S → Prop} {s : S}

/-- What is proved for both ways of ending holds of how the program ends. -/
theorem of_wp {x : Program S E α} {P : Except E α → S → Prop}
    (h : wp x (fun a t => P (.ok a) t) (fun e t => P (.error e) t) s) :
    P (x.exec s).1 (x.exec s).2 := by
  unfold wp at h
  rcases hx : x.exec s with ⟨_ | _, t⟩ <;> simpa [hx] using h

/-- A program that does not raise returns. -/
theorem exists_of_wp {x : Program S E α} (h : wp x Q (fun _ _ => False) s) :
    ∃ a t, x.exec s = (.ok a, t) ∧ Q a t := by
  unfold wp at h
  rcases hx : x.exec s with ⟨e | a, t⟩
  · simp [hx] at h
  · exact ⟨a, t, rfl, by simpa [hx] using h⟩

theorem wp_mono {x : Program S E α} {Q' : α → S → Prop} {X' : E → S → Prop} (h : wp x Q X s)
    (hQ : ∀ a t, Q a t → Q' a t) (hX : ∀ e t, X e t → X' e t) : wp x Q' X' s := by
  unfold wp at h ⊢
  split <;> simp_all

/-! ## Statements -/

@[simp] theorem wp_pure (a : α) : wp (pure a : Program S E α) Q X s ↔ Q a s :=
  Iff.rfl

@[simp] theorem wp_throw (e : E) : wp (throw e : Program S E α) Q X s ↔ X e s :=
  Iff.rfl

@[simp] theorem wp_get {Q : S → S → Prop} : wp (get : Program S E S) Q X s ↔ Q s s :=
  Iff.rfl

@[simp] theorem wp_modify (f : S → S) {Q : PUnit → S → Prop} :
    wp (modify f : Program S E PUnit) Q X s ↔ Q ⟨⟩ (f s) :=
  Iff.rfl

@[simp] theorem exec_pure (a : α) : (pure a : Program S E α).exec s = (.ok a, s) :=
  rfl

@[simp] theorem exec_throw (e : E) : (throw e : Program S E α).exec s = (.error e, s) :=
  rfl

@[simp] theorem exec_ofExcept (result : Except E α) :
    (MonadExcept.ofExcept result : Program S E α).exec s = (result, s) := by
  cases result <;> rfl

/-- A part that does not raise. -/
@[simp] theorem exec_liftM (x : StateM S α) :
    (liftM x : Program S E α).exec s = (.ok (x.run s).1, (x.run s).2) :=
  rfl

theorem exec_bind (x : Program S E α) (f : α → Program S E β) :
    (x >>= f).exec s = match x.exec s with
      | (.ok a, t) => (f a).exec t
      | (.error e, t) => (.error e, t) := by
  simp only [exec, ExceptT.run_bind, StateT.run_bind]
  rcases x.run.run s with ⟨_ | _, t⟩ <;> rfl

@[simp] theorem wp_bind (x : Program S E α) (f : α → Program S E β) {Q : β → S → Prop} :
    wp (x >>= f) Q X s ↔ wp x (fun a t => wp (f a) Q X t) X s := by
  unfold wp
  rw [exec_bind]
  rcases x.exec s with ⟨_ | _, t⟩ <;> rfl

theorem exec_tryCatch (x : Program S E α) (handler : E → Program S E α) :
    (tryCatch x handler).exec s = match x.exec s with
      | (.ok a, t) => (.ok a, t)
      | (.error e, t) => (handler e).exec t := by
  simp only [exec, tryCatch, tryCatchThe, MonadExceptOf.tryCatch, ExceptT.tryCatch, ExceptT.mk,
    ExceptT.run]
  change StateT.run (StateT.bind _ _) s = _
  simp only [StateT.bind, StateT.run]
  rcases x s with ⟨_ | _, t⟩ <;> rfl

@[simp] theorem wp_tryCatch (x : Program S E α) (handler : E → Program S E α) :
    wp (tryCatch x handler) Q X s ↔ wp x Q (fun e t => wp (handler e) Q X t) s := by
  unfold wp
  rw [exec_tryCatch]
  rcases x.exec s with ⟨_ | _, t⟩ <;> rfl

/-- `try: ... finally: ...` : what `cleanup` raises takes the place of what `x` raised. -/
def ensuring (x cleanup : Program S E PUnit) : Program S E PUnit := do
  tryCatch x fun e => do
    cleanup
    throw e
  cleanup

@[simp] theorem wp_ensuring (x cleanup : Program S E PUnit) {Q : PUnit → S → Prop} :
    wp (ensuring x cleanup) Q X s ↔
      wp x (fun _ t => wp cleanup Q X t) (fun e t => wp cleanup (fun _ => X e) X t) s := by
  simp [ensuring]

/-! ## Loops -/

/-- The rule for a loop with an accumulator : `I done b` holds when the elements `done` have
been gone through and the accumulator is `b`. -/
theorem wp_foldlM {γ : Type*} {f : β → γ → Program S E β} {I : List γ → β → S → Prop}
    {X : E → S → Prop} {l : List γ} {b : β}
    (hstep : ∀ done c rest, l = done ++ c :: rest → ∀ b t, I done b t →
      wp (f b c) (I (done ++ [c])) X t) (h : I [] b s) :
    wp (l.foldlM f b) (I l) X s := by
  suffices ∀ rest done b s, l = done ++ rest → I done b s → wp (rest.foldlM f b) (I l) X s from
    this l [] b s rfl h
  intro rest
  induction rest with
  | nil =>
    rintro done b s rfl h
    simpa using h
  | cons c rest ih =>
    intro done b s hl h
    rw [List.foldlM_cons, wp_bind]
    exact wp_mono (hstep done c rest hl b s h)
      (fun b' t h' => ih (done ++ [c]) b' t (by simpa using hl) h') fun _ _ h => h

/-- The rule for a loop. -/
theorem wp_forM {γ : Type*} {f : γ → Program S E PUnit} {I : List γ → S → Prop}
    {X : E → S → Prop} {l : List γ}
    (hstep : ∀ done c rest, l = done ++ c :: rest → ∀ t, I done t →
      wp (f c) (fun _ => I (done ++ [c])) X t) (h : I [] s) :
    wp (l.forM f) (fun _ => I l) X s := by
  suffices ∀ rest done s, l = done ++ rest → I done s →
      wp (rest.forM f) (fun _ => I l) X s from this l [] s rfl h
  intro rest
  induction rest with
  | nil =>
    rintro done s rfl h
    simpa using h
  | cons c rest ih =>
    intro done s hl h
    rw [List.forM, wp_bind]
    exact wp_mono (hstep done c rest hl s h)
      (fun _ t h' => ih (done ++ [c]) t (by simpa using hl) h') fun _ _ h => h

end Program
