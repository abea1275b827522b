import Mathlib.Logic.Function.Basic
import Mathlib.Tactic.Common

/-!
# Reflectors

The items of a watch and the store a reflector keeps from them. A listing is an `init`, the
objects found as `initApply`, and `initDone`; between listings objects are applied and
deleted one by one. The reflector collects a listing in a buffer and publishes it in place of
the old store when it is done, so a listing changes nothing that readers see until then.
-/

set_option linter.unusedSectionVars false

/-- An item of a watch. -/
inductive WatchEvent (O : Type*) where
  | init
  | initApply (object : O)
  | initDone
  | apply (object : O)
  | delete (object : O)

namespace WatchEvent

variable {O : Type*}

/-- The object an item touches, deleted ones included. -/
def touchedObject : WatchEvent O → Option O
  | initApply object => some object
  | apply object => some object
  | delete object => some object
  | _ => none

/-- The object an item applies. -/
def appliedObject : WatchEvent O → Option O
  | initApply object => some object
  | apply object => some object
  | _ => none

end WatchEvent

/-- What readers see, and the listing under way. -/
structure Reflector (R O : Type*) where
  published : R → Option O
  buffer : R → Option O
  /-- Some listing was published. -/
  ready : Bool

namespace Reflector

variable {R O : Type*} [DecidableEq R] (key : O → R)

/-- A reflector that has seen nothing. -/
def new : Reflector R O :=
  ⟨fun _ => none, fun _ => none, false⟩

/-- Follow an item. -/
def observe (reflector : Reflector R O) : WatchEvent O → Reflector R O
  | .init => { reflector with buffer := fun _ => none }
  | .initApply object =>
    { reflector with buffer := Function.update reflector.buffer (key object) (some object) }
  | .initDone => ⟨reflector.buffer, fun _ => none, true⟩
  | .apply object =>
    { reflector with published := Function.update reflector.published (key object) (some object) }
  | .delete object =>
    { reflector with published := Function.update reflector.published (key object) none }

variable {key}

theorem ready_observe {reflector : Reflector R O} {event : WatchEvent O}
    (h : reflector.ready = true) : (reflector.observe key event).ready = true := by
  cases event <;> first | rfl | exact h

/-- Only the end of a listing publishes without touching an object. -/
theorem published_observe_of_untouched {reflector : Reflector R O} {event : WatchEvent O}
    (h : event.touchedObject = none) (hd : event ≠ .initDone) :
    (reflector.observe key event).published = reflector.published := by
  cases event <;> first | rfl | exact (hd rfl).elim | cases h

/-- An item that applies nothing adds nothing to what is published, but at the end of a
listing. -/
theorem published_of_observe {reflector : Reflector R O} {event : WatchEvent O}
    (hd : event ≠ .initDone) {r : R} {object : O}
    (h : (reflector.observe key event).published r = some object) :
    (event = .apply object ∧ key object = r) ∨ reflector.published r = some object := by
  cases event with
  | initDone => exact (hd rfl).elim
  | apply object' =>
    simp only [observe] at h
    by_cases hr : r = key object'
    · subst hr
      rw [Function.update_self] at h
      obtain rfl := Option.some.inj h
      exact Or.inl ⟨rfl, rfl⟩
    · rw [Function.update_of_ne hr] at h
      exact Or.inr h
  | delete object' =>
    simp only [observe] at h
    by_cases hr : r = key object'
    · subst hr
      rw [Function.update_self] at h
      cases h
    · rw [Function.update_of_ne hr] at h
      exact Or.inr h
  | _ => exact Or.inr h

/-- Every object in the stores has `P`. -/
structure Forall (P : O → Prop) (reflector : Reflector R O) : Prop where
  published : ∀ r object, reflector.published r = some object → P object
  buffer : ∀ r object, reflector.buffer r = some object → P object

theorem forall_new {P : O → Prop} : Forall P (new : Reflector R O) :=
  ⟨fun _ _ h => (nomatch h), fun _ _ h => (nomatch h)⟩

theorem forall_update {P : O → Prop} {store : R → Option O} {r : R} {x : Option O}
    (h : ∀ r object, store r = some object → P object) (hx : ∀ object, x = some object → P object) :
    ∀ r' object, Function.update store r x r' = some object → P object := by
  intro r' object ho
  by_cases hr : r' = r
  · subst hr
    rw [Function.update_self] at ho
    exact hx object ho
  · rw [Function.update_of_ne hr] at ho
    exact h r' object ho

theorem Forall.observe {P : O → Prop} {reflector : Reflector R O} (h : Forall P reflector)
    {event : WatchEvent O} (he : ∀ object, event.appliedObject = some object → P object) :
    Forall P (reflector.observe key event) := by
  cases event with
  | init => exact ⟨h.published, fun _ _ h => nomatch h⟩
  | initApply object => exact ⟨h.published, forall_update h.buffer he⟩
  | initDone => exact ⟨h.buffer, fun _ _ h => nomatch h⟩
  | apply object => exact ⟨forall_update h.published he, h.buffer⟩
  | delete object => exact ⟨forall_update h.published fun _ h => (nomatch h), h.buffer⟩

/-- Every object in the stores is under its key. -/
structure Keyed (key : O → R) (reflector : Reflector R O) : Prop where
  published : ∀ r object, reflector.published r = some object → key object = r
  buffer : ∀ r object, reflector.buffer r = some object → key object = r

theorem keyed_new : Keyed key (new : Reflector R O) :=
  ⟨fun _ _ h => (nomatch h), fun _ _ h => (nomatch h)⟩

theorem keyed_update {store : R → Option O}
    (h : ∀ r object, store r = some object → key object = r) (object : O) :
    ∀ r object', Function.update store (key object) (some object) r = some object' →
      key object' = r := by
  intro r object' ho
  by_cases hr : r = key object
  · subst hr
    rw [Function.update_self] at ho
    rw [Option.some.inj ho]
  · rw [Function.update_of_ne hr] at ho
    exact h r object' ho

theorem Keyed.observe {reflector : Reflector R O} (h : Keyed key reflector)
    (event : WatchEvent O) : Keyed key (reflector.observe key event) := by
  cases event with
  | init => exact ⟨h.published, fun _ _ h => nomatch h⟩
  | initApply object => exact ⟨h.published, keyed_update h.buffer object⟩
  | initDone => exact ⟨h.buffer, fun _ _ h => nomatch h⟩
  | apply object => exact ⟨keyed_update h.published object, h.buffer⟩
  | delete object =>
    refine ⟨fun r object' ho => ?_, h.buffer⟩
    simp only [Reflector.observe] at ho
    by_cases hr : r = key object
    · subst hr
      rw [Function.update_self] at ho
      cases ho
    · rw [Function.update_of_ne hr] at ho
      exact h.published r object' ho

/-- The item keeps an object with `P` under `r` : every listing has one, and what is applied
there has `P` and is not deleted. -/
structure Keeps (key : O → R) (r : R) (P : O → Prop) (reflector : Reflector R O)
    (event : WatchEvent O) : Prop where
  listed : event = .initDone → ∃ object, reflector.buffer r = some object ∧ P object
  applied : ∀ object, event = .apply object → key object = r → P object
  deleted : ∀ object, event = .delete object → key object ≠ r

theorem keeps_observe {r : R} {P : O → Prop} {reflector : Reflector R O} {event : WatchEvent O}
    (hk : Keeps key r P reflector event)
    (h : reflector.ready = true → ∃ object, reflector.published r = some object ∧ P object)
    (hr : (reflector.observe key event).ready = true) :
    ∃ object, (reflector.observe key event).published r = some object ∧ P object := by
  cases event with
  | initDone => exact hk.listed rfl
  | apply object =>
    simp only [observe]
    by_cases he : r = key object
    · subst he
      exact ⟨object, Function.update_self _ _ _, hk.applied object rfl rfl⟩
    · rw [Function.update_of_ne he]
      exact h hr
  | delete object =>
    simp only [observe]
    rw [Function.update_of_ne fun he => hk.deleted object rfl he.symm]
    exact h hr
  | init => exact h hr
  | initApply object => exact h hr

end Reflector

/-! ## Watches -/

/-- A reflector with the items still to be delivered to it. -/
structure Watch (R O : Type*) where
  queue : List (WatchEvent O)
  reflector : Reflector R O

namespace Watch

variable {R O : Type*} [DecidableEq R]

/-- Nothing was emitted yet. -/
def new : Watch R O :=
  ⟨[], Reflector.new⟩

/-- The watch yields one more item. -/
def emit (watch : Watch R O) (event : WatchEvent O) : Watch R O :=
  { watch with queue := watch.queue ++ [event] }

/-- The next item is delivered. -/
def deliver (key : O → R) (watch : Watch R O) : Option (WatchEvent O × Watch R O) :=
  match watch.queue with
  | [] => none
  | event :: queue => some (event, ⟨queue, watch.reflector.observe key event⟩)

theorem deliver_eq_some {key : O → R} {watch watch' : Watch R O} {event : WatchEvent O} :
    watch.deliver key = some (event, watch') ↔ ∃ queue, watch.queue = event :: queue ∧
      watch' = ⟨queue, watch.reflector.observe key event⟩ := by
  unfold deliver
  cases watch.queue with
  | nil => simp
  | cons event' queue =>
    simp only [Option.some.injEq, Prod.mk.injEq, List.cons.injEq]
    constructor
    · rintro ⟨rfl, rfl⟩
      exact ⟨queue, ⟨rfl, rfl⟩, rfl⟩
    · rintro ⟨_, ⟨rfl, rfl⟩, rfl⟩
      exact ⟨rfl, rfl⟩

/-- Every object in the stores has `P`, and every object that will be. -/
structure Forall (P : O → Prop) (watch : Watch R O) : Prop where
  queue : ∀ event ∈ watch.queue, ∀ object, event.appliedObject = some object → P object
  reflector : watch.reflector.Forall P

theorem Forall.emit {P : O → Prop} {watch : Watch R O} (h : watch.Forall P) {event : WatchEvent O}
    (he : ∀ object, event.appliedObject = some object → P object) :
    (watch.emit event).Forall P := by
  refine ⟨fun event' hmem => ?_, h.reflector⟩
  rcases List.mem_append.1 hmem with hmem | hmem
  · exact h.queue event' hmem
  · obtain rfl := List.mem_singleton.1 hmem
    exact he

theorem Forall.deliver {P : O → Prop} {key : O → R} {watch watch' : Watch R O}
    {event : WatchEvent O} (h : watch.Forall P)
    (hd : watch.deliver key = some (event, watch')) : watch'.Forall P := by
  obtain ⟨queue, hq, rfl⟩ := deliver_eq_some.1 hd
  exact ⟨fun event' hmem => h.queue event' (hq ▸ List.mem_cons_of_mem _ hmem),
    h.reflector.observe (h.queue event (hq ▸ List.mem_cons_self))⟩

theorem Forall.mono {P P' : O → Prop} {watch : Watch R O} (h : watch.Forall P)
    (himp : ∀ object, P object → P' object) : watch.Forall P' :=
  ⟨fun event hmem object ho => himp object (h.queue event hmem object ho),
    ⟨fun r object ho => himp object (h.reflector.published r object ho),
      fun r object ho => himp object (h.reflector.buffer r object ho)⟩⟩

/-! ## A watch that loses nothing

A watch that has never been broken lists only what it has told of already. Then the end of a
listing changes nothing, and what is published is what was the case some items ago. -/

section

variable (key : O → R)

/-- The reflector once the items are delivered. -/
def replay (reflector : Reflector R O) (queue : List (WatchEvent O)) : Reflector R O :=
  queue.foldl (Reflector.observe key) reflector

/-- The reflector once every item emitted so far is delivered. -/
def drained (watch : Watch R O) : Reflector R O :=
  replay key watch.reflector watch.queue

/-- Every listing will find in the store what it lists. -/
def Unbroken (reflector : Reflector R O) : List (WatchEvent O) → Prop
  | [] => True
  | event :: queue =>
    (event = .initDone → reflector.buffer = reflector.published) ∧
      Unbroken (reflector.observe key event) queue

variable {key}

theorem replay_append (reflector : Reflector R O) (queue queue' : List (WatchEvent O)) :
    replay key reflector (queue ++ queue') = replay key (replay key reflector queue) queue' := by
  unfold replay
  rw [List.foldl_append]

theorem drained_emit (watch : Watch R O) (event : WatchEvent O) :
    (watch.emit event).drained key = (watch.drained key).observe key event := by
  unfold drained
  exact replay_append _ _ _

theorem drained_deliver {watch watch' : Watch R O} {event : WatchEvent O}
    (h : watch.deliver key = some (event, watch')) : watch'.drained key = watch.drained key := by
  obtain ⟨queue, hq, rfl⟩ := deliver_eq_some.1 h
  unfold drained
  rw [hq]
  rfl

theorem unbroken_append {reflector : Reflector R O} {queue queue' : List (WatchEvent O)} :
    Unbroken key reflector (queue ++ queue') ↔
      Unbroken key reflector queue ∧ Unbroken key (replay key reflector queue) queue' := by
  induction queue generalizing reflector with
  | nil => exact ⟨fun h => ⟨trivial, h⟩, fun h => h.2⟩
  | cons event queue ih =>
    simp only [List.cons_append, Unbroken, ih, and_assoc]
    exact Iff.rfl

/-- The objects listed, in the buffer. -/
theorem buffer_replay_initApply {reflector : Reflector R O} {objects : List O}
    (hnodup : (objects.map key).Nodup) (r : R) :
    (replay key reflector (objects.map .initApply)).buffer r =
      (objects.find? fun object => key object = r).or (reflector.buffer r) := by
  induction objects generalizing reflector with
  | nil => rfl
  | cons object objects ih =>
    obtain ⟨hfresh, hnodup⟩ := List.nodup_cons.1 hnodup
    have hrest := @ih (reflector.observe key (.initApply object)) hnodup
    have hcons : replay key reflector ((object :: objects).map .initApply) =
        replay key (reflector.observe key (.initApply object)) (objects.map .initApply) := rfl
    rw [hcons, hrest]
    simp only [Reflector.observe]
    by_cases hr : r = key object
    · subst hr
      have hnone : objects.find? (fun object' => key object' = key object) = none := by
        rw [List.find?_eq_none]
        intro object' hmem hkey
        exact hfresh (of_decide_eq_true hkey ▸ List.mem_map_of_mem hmem)
      rw [hnone, Function.update_self, List.find?_cons_of_pos (by simp)]
      rfl
    · rw [Function.update_of_ne hr, List.find?_cons_of_neg (by simpa using Ne.symm hr)]

theorem published_replay_initApply (reflector : Reflector R O) (objects : List O) :
    (replay key reflector (objects.map .initApply)).published = reflector.published := by
  induction objects generalizing reflector with
  | nil => rfl
  | cons object objects ih => exact ih (reflector.observe key (.initApply object))

theorem unbroken_initApply (reflector : Reflector R O) (objects : List O) :
    Unbroken key reflector (objects.map .initApply) := by
  induction objects generalizing reflector with
  | nil => trivial
  | cons object objects ih => exact ⟨(nomatch ·), ih _⟩

/-- A listing of what is published. -/
theorem unbroken_listing {reflector : Reflector R O} {objects : List O}
    (hnodup : (objects.map key).Nodup)
    (hlisted : reflector.published = fun r => objects.find? fun object => key object = r) :
    Unbroken key reflector (.init :: objects.map .initApply ++ [.initDone]) ∧
      (replay key reflector (.init :: objects.map .initApply ++ [.initDone])).published =
        reflector.published := by
  have hbuffer : (replay key (reflector.observe key .init) (objects.map .initApply)).buffer =
      reflector.published := by
    funext r
    rw [buffer_replay_initApply hnodup, hlisted]
    exact Option.or_none
  have hcons : replay key reflector (.init :: objects.map .initApply) =
      replay key (reflector.observe key .init) (objects.map .initApply) := rfl
  have hpublished : (replay key (reflector.observe key .init) (objects.map .initApply)).published =
      reflector.published := published_replay_initApply _ objects
  constructor
  · rw [unbroken_append]
    refine ⟨⟨(nomatch ·), unbroken_initApply _ _⟩, fun _ => ?_, trivial⟩
    rw [hcons, hbuffer, hpublished]
  · rw [replay_append, hcons]
    exact hbuffer

end

/-- The first object of that key. -/
def lookup (key : O → R) (objects : List O) (r : R) : Option O :=
  objects.find? fun object => key object = r

theorem key_of_lookup {key : O → R} {objects : List O} {r : R} {object : O}
    (h : lookup key objects r = some object) : key object = r := by
  have hfound := List.find?_some h
  exact of_decide_eq_true hfound

/-- The watch is of these objects, and has told of all that became of them. -/
structure Mirrors (key : O → R) (objects : List O) (watch : Watch R O) : Prop where
  nodup : (objects.map key).Nodup
  unbroken : Unbroken key watch.reflector watch.queue
  drained : (watch.drained key).published = lookup key objects
  keyed : watch.reflector.Keyed key

namespace Mirrors

variable {key : O → R} {objects objects' : List O} {watch watch' : Watch R O} {object : O} {r : R}

theorem new : Mirrors key [] (Watch.new : Watch R O) :=
  ⟨List.nodup_nil, trivial, rfl, Reflector.keyed_new⟩

/-- An object changes, and the watch says how. -/
theorem emit (h : Mirrors key objects watch) {event : WatchEvent O} (hd : event ≠ .initDone)
    (hnodup : (objects'.map key).Nodup)
    (hobserve : ((watch.drained key).observe key event).published = lookup key objects') :
    Mirrors key objects' (watch.emit event) := by
  refine ⟨hnodup, ?_, ?_, h.keyed⟩
  · have hlast : Unbroken key (watch.drained key) [event] := ⟨fun he => (hd he).elim, trivial⟩
    exact unbroken_append.2 ⟨h.unbroken, hlast⟩
  · rw [drained_emit]
    exact hobserve

/-- The object of its key is now this one, whether there was one or not. -/
theorem put (h : Mirrors key objects watch) (object : O) :
    Mirrors key (objects.filter (fun object' => key object' ≠ key object) ++ [object])
      (watch.emit (.apply object)) := by
  refine h.emit (by simp) ?_ ?_
  · rw [List.map_append, List.nodup_append]
    refine ⟨(List.filter_sublist.map key).nodup h.nodup, by simp, ?_⟩
    rintro _ hmem _ hlast rfl
    obtain ⟨object', hfilter, hkey⟩ := List.mem_map.1 hmem
    have hne := of_decide_eq_true (List.mem_filter.1 hfilter).2
    exact hne (hkey.trans (List.mem_singleton.1 hlast))
  · funext r
    simp only [Reflector.observe, h.drained]
    unfold lookup
    rw [List.find?_append, List.find?_filter]
    by_cases hr : r = key object
    · subst hr
      rw [Function.update_self, List.find?_cons_of_pos (by simp), List.find?_eq_none.2]
      · rfl
      · intro object' _
        simp
    · rw [Function.update_of_ne hr, List.find?_cons_of_neg (by simpa using Ne.symm hr),
        List.find?_nil, Option.or_none]
      congr 1
      funext object'
      by_cases hk : key object' = r
      · simp [hk, hr]
      · simp [hk]

theorem add (h : Mirrors key objects watch) (hfresh : lookup key objects (key object) = none) :
    Mirrors key (objects ++ [object]) (watch.emit (.apply object)) := by
  have hput := h.put object
  have hfilter : objects.filter (fun object' => key object' ≠ key object) = objects := by
    rw [List.filter_eq_self]
    intro object' hmem
    have hne := List.find?_eq_none.1 hfresh object' hmem
    simpa using hne
  rwa [hfilter] at hput

/-- The object becomes `f object`. -/
theorem set (h : Mirrors key objects watch) {f : O → O} (hf : ∀ object, key (f object) = key object)
    (hfound : lookup key objects r = some object) :
    Mirrors key (objects.map fun object' => if key object' = key object then f object' else object')
      (watch.emit (.apply (f object))) := by
  have hkey : ∀ object', key (if key object' = key object then f object' else object') =
      key object' := by
    intro object'
    split
    · exact hf object'
    · rfl
  refine h.emit (by simp) ?_ ?_
  · rw [List.map_map]
    have hcomp : (key ∘ fun object' => if key object' = key object then f object' else object') =
        key := funext hkey
    rw [hcomp]
    exact h.nodup
  · funext r'
    have hr := key_of_lookup hfound
    simp only [Reflector.observe, h.drained, hf]
    unfold lookup at hfound ⊢
    rw [List.find?_map]
    have hcomp : ((fun object => decide (key object = r')) ∘ fun object' =>
        if key object' = key object then f object' else object') =
          fun object => decide (key object = r') := by
      funext object'
      exact congrArg (fun k => decide (k = r')) (hkey object')
    rw [hcomp]
    by_cases hr' : r' = key object
    · subst hr'
      rw [Function.update_self, hr, hfound]
      simp [hr]
    · rw [Function.update_of_ne hr']
      cases hl : objects.find? fun object => decide (key object = r') with
      | none => rfl
      | some object' =>
        have hne : key object' ≠ key object := by
          rw [key_of_lookup hl]
          exact hr'
        simp [hne]

theorem remove (h : Mirrors key objects watch) (hfound : lookup key objects r = some object) :
    Mirrors key (objects.filter fun object' => key object' ≠ r) (watch.emit (.delete object)) := by
  refine h.emit (by simp) ?_ ?_
  · exact (List.filter_sublist.map key).nodup h.nodup
  · funext r'
    have hr := key_of_lookup hfound
    simp only [Reflector.observe, h.drained]
    unfold lookup
    rw [List.find?_filter]
    by_cases hr' : r' = key object
    · subst hr'
      rw [Function.update_self, hr]
      refine (List.find?_eq_none.2 fun object' _ => ?_).symm
      simp
    · rw [Function.update_of_ne hr']
      congr 1
      funext object'
      by_cases hk : key object' = r'
      · have hne : r' ≠ r := hr ▸ hr'
        simp [hk, hne]
      · simp [hk]

theorem relist (h : Mirrors key objects watch) :
    Mirrors key objects { watch with
      queue := watch.queue ++ (.init :: objects.map .initApply ++ [.initDone]) } := by
  obtain ⟨hunbroken, hpublished⟩ := unbroken_listing h.nodup h.drained
  refine ⟨h.nodup, unbroken_append.2 ⟨h.unbroken, hunbroken⟩, ?_, h.keyed⟩
  have hreplay : ({ watch with
      queue := watch.queue ++ (.init :: objects.map .initApply ++ [.initDone]) } :
        Watch R O).drained key =
      replay key (watch.drained key) (.init :: objects.map .initApply ++ [.initDone]) :=
    replay_append _ _ _
  rw [hreplay, hpublished, h.drained]

theorem deliver (h : Mirrors key objects watch) {event : WatchEvent O}
    (hd : watch.deliver key = some (event, watch')) : Mirrors key objects watch' := by
  have hdrained := drained_deliver hd
  obtain ⟨queue, hq, rfl⟩ := deliver_eq_some.1 hd
  have hunbroken := h.unbroken
  rw [hq] at hunbroken
  exact ⟨h.nodup, hunbroken.2, hdrained ▸ h.drained, h.keyed.observe event⟩

end Mirrors

end Watch
