import CommonsOperator.Json

/-!
# JSON pointers and the add operation of JSON Patch

A pointer is a text : every reference token is preceded by `/` and has `~` and `/` escaped
as `~0` and `~1`. `PointerBuf` holds the text with the proof that it can be read back, and
`tokens_fromTokens` reads the tokens back that a pointer was made from.

`Json.add` is the add operation of a patch and `applyPatch` applies a list of them, failing
as a whole. `add_append` reduces an operation below a path of member names to the value
there; `applyPatch_members` does so for a list that adds members to one object.
-/

/-! ## Pointers -/

/-- Every `~` is the start of an escape. -/
def isWellEscaped : List Char → Bool
  | [] => true
  | '~' :: '0' :: cs => isWellEscaped cs
  | '~' :: '1' :: cs => isWellEscaped cs
  | '~' :: _ => false
  | _ :: cs => isWellEscaped cs

/-- A JSON pointer. -/
structure PointerBuf where
  encoded : List Char
  head : encoded = [] ∨ encoded.head? = some '/'
  wellEscaped : isWellEscaped encoded

namespace PointerBuf

/-- Read a pointer. -/
def parse (text : String) : Option PointerBuf :=
  if h : (text.toList = [] ∨ text.toList.head? = some '/') ∧ isWellEscaped text.toList then
    some ⟨text.toList, h.1, h.2⟩
  else none

/-- Escape the characters of a token. -/
def escape : List Char → List Char
  | [] => []
  | c :: cs =>
    if c = '~' then '~' :: '0' :: escape cs
    else if c = '/' then '~' :: '1' :: escape cs
    else c :: escape cs

/-- Undo `escape`. -/
def unescape : List Char → List Char
  | [] => []
  | '~' :: '0' :: cs => '~' :: unescape cs
  | '~' :: '1' :: cs => '/' :: unescape cs
  | c :: cs => c :: unescape cs

/-- The text of a pointer to the tokens. -/
def encode : List String → List Char
  | [] => []
  | token :: tokens => '/' :: escape token.toList ++ encode tokens

/-- The tokens of a pointer. -/
def tokens (pointer : PointerBuf) : List String :=
  ((pointer.encoded.splitOn '/').drop 1).map fun segment => String.ofList (unescape segment)

theorem unescape_cons_of_ne {c : Char} (hc : c ≠ '~') (cs : List Char) :
    unescape (c :: cs) = c :: unescape cs := by
  rw [unescape.eq_4] <;> simp [hc]

theorem isWellEscaped_cons_of_ne {c : Char} (hc : c ≠ '~') (cs : List Char) :
    isWellEscaped (c :: cs) = isWellEscaped cs := by
  rw [isWellEscaped.eq_5] <;> simp [hc]

theorem unescape_escape : ∀ cs, unescape (escape cs) = cs
  | [] => rfl
  | c :: cs => by
    unfold escape
    split
    · rename_i h
      rw [h, unescape, unescape_escape cs]
    · rename_i h
      split
      · rename_i h'
        rw [h', unescape, unescape_escape cs]
      · rw [unescape_cons_of_ne h, unescape_escape cs]

theorem slash_notMem_escape : ∀ cs, '/' ∉ escape cs
  | [] => List.not_mem_nil
  | c :: cs => by
    have ih := slash_notMem_escape cs
    unfold escape
    split
    · simpa using ih
    · rename_i h
      split
      · simpa using ih
      · rename_i h'
        simpa [Ne.symm h'] using ih

theorem isWellEscaped_escape_append {rest : List Char} (hr : isWellEscaped rest) :
    ∀ cs, isWellEscaped (escape cs ++ rest)
  | [] => hr
  | c :: cs => by
    have ih := isWellEscaped_escape_append hr cs
    unfold escape
    split
    · simpa [isWellEscaped] using ih
    · rename_i h
      split
      · simpa [isWellEscaped] using ih
      · rw [List.cons_append, isWellEscaped_cons_of_ne h, ih]

theorem isWellEscaped_encode : ∀ tokens, isWellEscaped (encode tokens)
  | [] => rfl
  | token :: tokens => by
    rw [encode, List.cons_append, isWellEscaped_cons_of_ne (by decide)]
    exact isWellEscaped_escape_append (isWellEscaped_encode tokens) token.toList

/-- The pointer to the tokens, in order. -/
def fromTokens (tokens : List String) : PointerBuf where
  encoded := encode tokens
  head := by cases tokens <;> simp [encode]
  wellEscaped := isWellEscaped_encode tokens

theorem splitOn_encode : ∀ tokens : List String,
    (encode tokens).splitOn '/' = [] :: tokens.map fun token => escape token.toList
  | [] => rfl
  | token :: tokens => by
    have ih := splitOn_encode tokens
    have split_escape : (escape token.toList ++ encode tokens).splitOn '/' =
        escape token.toList :: tokens.map fun token => escape token.toList := by
      cases tokens with
      | nil => simpa [encode] using List.splitOn_eq_singleton (slash_notMem_escape token.toList)
      | cons token' tokens =>
        have hsep : encode (token' :: tokens) =
            '/' :: (escape token'.toList ++ encode tokens) := rfl
        rw [hsep, List.splitOn_append_cons_self_of_not_mem (slash_notMem_escape _)]
        rw [hsep, List.splitOn_cons_eq_if_modifyHead] at ih
        simpa using ih
    rw [encode, List.cons_append, List.splitOn_cons_eq_if_modifyHead, split_escape]
    simp

/-- The tokens a pointer was made from are read back. -/
@[simp] theorem tokens_fromTokens (tokens : List String) : (fromTokens tokens).tokens = tokens := by
  simp [PointerBuf.tokens, fromTokens, splitOn_encode, unescape_escape, Function.comp_def]

end PointerBuf

/-! ## Setting many members -/

namespace Assoc

variable {K V : Type*} [DecidableEq K]

/-- Set the members one after the other. -/
def setAll (kvs new : List (K × V)) : List (K × V) :=
  new.foldl (fun kvs kv => set kvs kv.1 kv.2) kvs

theorem setAll_cons (kvs : List (K × V)) (kv : K × V) (new : List (K × V)) :
    setAll kvs (kv :: new) = setAll (set kvs kv.1 kv.2) new :=
  rfl

theorem get?_setAll_of_notMem {k : K} : ∀ {new : List (K × V)} (kvs : List (K × V)),
    (∀ kv ∈ new, kv.1 ≠ k) → get? (setAll kvs new) k = get? kvs k
  | [], _, _ => rfl
  | kv :: new, kvs, h => by
    rw [setAll_cons, get?_setAll_of_notMem _ fun kv' h' => h kv' (List.mem_cons_of_mem _ h'),
      get?_set_of_ne (h kv List.mem_cons_self)]

/-- A key that is set to one value has that value. -/
theorem get?_setAll_of_mem {k : K} {v : V} : ∀ {new : List (K × V)} (kvs : List (K × V)),
    (k, v) ∈ new → (∀ v', (k, v') ∈ new → v' = v) → get? (setAll kvs new) k = some v
  | [], _, h, _ => nomatch h
  | kv :: new, kvs, h, hv => by
    rw [setAll_cons]
    by_cases hmem : ∃ v', (k, v') ∈ new
    · obtain ⟨v', h'⟩ := hmem
      obtain rfl := hv v' (List.mem_cons_of_mem _ h')
      exact get?_setAll_of_mem _ h' fun v'' h'' => hv v'' (List.mem_cons_of_mem _ h'')
    · obtain rfl : (k, v) = kv := by
        rcases List.mem_cons.1 h with h | h
        · exact h
        · exact (hmem ⟨v, h⟩).elim
      rw [get?_setAll_of_notMem, get?_set_self]
      intro kv hkv he
      exact hmem ⟨kv.2, he ▸ hkv⟩

theorem mem_set {kv : K × V} {k : K} {v : V} :
    ∀ {kvs : List (K × V)}, kv ∈ set kvs k v → kv.2 = v ∨ kv ∈ kvs
  | [], h => Or.inl (by rw [List.mem_singleton.1 h])
  | (k', v') :: kvs, h => by
    unfold set at h
    split at h
    · rcases List.mem_cons.1 h with rfl | h
      · exact Or.inl rfl
      · exact Or.inr (List.mem_cons_of_mem _ h)
    · rcases List.mem_cons.1 h with rfl | h
      · exact Or.inr List.mem_cons_self
      · exact (mem_set h).imp_right (List.mem_cons_of_mem _)

/-- What holds of the old values and of the new ones holds of all. -/
theorem forall_mem_setAll (P : V → Prop) : ∀ {new kvs : List (K × V)},
    (∀ kv ∈ kvs, P kv.2) → (∀ kv ∈ new, P kv.2) → ∀ kv ∈ setAll kvs new, P kv.2
  | [], _, h, _ => h
  | kv :: new, kvs, h, h' => by
    rw [setAll_cons]
    refine forall_mem_setAll P (fun kv' hkv' => ?_) fun kv' hkv' =>
      h' kv' (List.mem_cons_of_mem _ hkv')
    rcases mem_set hkv' with he | hmem
    · rw [he]
      exact h' kv List.mem_cons_self
    · exact h kv' hmem

/-- Setting the values that are there changes nothing. -/
theorem setAll_eq_self : ∀ {new kvs : List (K × V)},
    (∀ kv ∈ new, get? kvs kv.1 = some kv.2) → setAll kvs new = kvs
  | [], _, _ => rfl
  | kv :: new, kvs, h => by
    rw [setAll_cons, set_of_get? (h kv List.mem_cons_self)]
    exact setAll_eq_self fun kv' h' => h kv' (List.mem_cons_of_mem _ h')

end Assoc

/-! ## Patches -/

namespace Json

/-- The add operation : add a member to an object or replace it, insert an element into an
array, or replace the whole. What contains the target has to be there. -/
def add : Json → List String → Json → Option Json
  | _, [], v => some v
  | obj fields, [k], v => some (obj (Assoc.set fields k v))
  | arr elems, [k], v =>
    if k = "-" then some (arr (elems ++ [v]))
    else (parseIndex k).bind fun i =>
      if i ≤ elems.length then some (arr (elems.insertIdx i v)) else none
  | obj fields, k :: path, v =>
    (Assoc.get? fields k).bind fun child =>
      (child.add path v).map fun child' => obj (Assoc.set fields k child')
  | arr elems, k :: path, v =>
    (parseIndex k).bind fun i => elems[i]?.bind fun child =>
      (child.add path v).map fun child' => arr (elems.set i child')
  | _, _ :: _, _ => none

@[simp] theorem add_nil (j v : Json) : j.add [] v = some v := by
  unfold add
  rfl

@[simp] theorem add_member (fields : List (String × Json)) (k : String) (v : Json) :
    (obj fields).add [k] v = some (obj (Assoc.set fields k v)) :=
  rfl

theorem add_obj_cons {path : List String} (hp : path ≠ []) (fields : List (String × Json))
    (k : String) (v : Json) :
    (obj fields).add (k :: path) v = (Assoc.get? fields k).bind fun child =>
      (child.add path v).map fun child' => obj (Assoc.set fields k child') := by
  cases path with
  | nil => exact (hp rfl).elim
  | cons k' path => rfl

/-- An operation below a path of member names acts on the value there. -/
theorem add_append {path path' : List String} (hp : path' ≠ []) (v : Json) :
    ∀ {j t : Json}, j.at? path = some t →
      j.add (path ++ path') v = (t.add path' v).map (j.put path) := by
  induction path with
  | nil =>
    intro j t h
    obtain rfl : j = t := by simpa using h
    rw [List.nil_append]
    cases j.add path' v <;> simp
  | cons k path ih =>
    intro j t h
    obtain ⟨fields, child, rfl, hk, hc⟩ := at?_cons_eq_some.1 h
    rw [List.cons_append, add_obj_cons (List.append_ne_nil_of_right_ne_nil path hp), hk,
      Option.bind_some, ih hc, Option.map_map]
    simp [put, hk, Function.comp_def]

/-- The add operation on the member `k` of the object at `path`. -/
theorem add_member_at {j : Json} {path : List String} {fields : List (String × Json)}
    (h : j.at? path = some (obj fields)) (k : String) (v : Json) :
    j.add (path ++ [k]) v = some (j.put path (obj (Assoc.set fields k v))) := by
  rw [add_append (List.cons_ne_nil k []) v h, add_member, Option.map_some]

/-- What contains the target of an operation that succeeds is there. -/
theorem get?_of_add {k : String} {v : Json} {path : List String} :
    ∀ {j j' : Json}, j.add (path ++ [k]) v = some j' → (j.get? path).isSome := by
  induction path with
  | nil => simp
  | cons token path ih =>
    intro j j' h
    cases j with
    | obj fields =>
      rw [List.cons_append, add_obj_cons (List.concat_ne_nil k path)] at h
      obtain ⟨child, hchild, h⟩ := Option.bind_eq_some_iff.1 h
      obtain ⟨child', hadd, -⟩ := Option.map_eq_some_iff.1 h
      rw [get?_obj, hchild]
      exact ih hadd
    | arr elems =>
      have hadd : (arr elems).add (token :: (path ++ [k])) v =
          (parseIndex token).bind fun i => elems[i]?.bind fun child =>
            (child.add (path ++ [k]) v).map fun child' => arr (elems.set i child') := by
        cases path <;> rfl
      rw [List.cons_append, hadd] at h
      obtain ⟨i, hi, h⟩ := Option.bind_eq_some_iff.1 h
      obtain ⟨child, hchild, h⟩ := Option.bind_eq_some_iff.1 h
      obtain ⟨child', hadd, -⟩ := Option.map_eq_some_iff.1 h
      rw [get?, hi, Option.bind_some, hchild]
      exact ih hadd
    | _ =>
      rw [List.cons_append] at h
      cases path <;> cases h

/-- Below a path of member names it is an object. -/
theorem at?_of_add {k : String} {v : Json} {path : List String} :
    ∀ {j j' : Json}, (∀ token ∈ path ++ [k], parseIndex token = none ∧ token ≠ "-") →
      j.add (path ++ [k]) v = some j' → ∃ fields, j.at? path = some (obj fields) := by
  induction path with
  | nil =>
    intro j j' hnames h
    obtain ⟨hindex, hdash⟩ := hnames k List.mem_cons_self
    cases j with
    | obj fields => exact ⟨fields, rfl⟩
    | arr elems => simp [add, hindex, hdash] at h
    | _ => cases h
  | cons token path ih =>
    intro j j' hnames h
    obtain ⟨hindex, -⟩ := hnames token List.mem_cons_self
    cases j with
    | obj fields =>
      rw [List.cons_append, add_obj_cons (List.concat_ne_nil k path)] at h
      obtain ⟨child, hchild, h⟩ := Option.bind_eq_some_iff.1 h
      obtain ⟨child', hadd, -⟩ := Option.map_eq_some_iff.1 h
      obtain ⟨fields', hat⟩ := ih (fun token' ht => hnames token' (List.mem_cons_of_mem _ ht)) hadd
      exact ⟨fields', at?_cons_eq_some.2 ⟨fields, child, rfl, hchild, hat⟩⟩
    | arr elems =>
      rw [List.cons_append] at h
      cases path <;> simp [add, hindex] at h
    | _ =>
      rw [List.cons_append] at h
      cases path <;> cases h

end Json

/-- An add operation. -/
structure AddOperation where
  path : PointerBuf
  value : Json

/-- Apply the operations in order. -/
def applyPatch (j : Json) (patch : List AddOperation) : Option Json :=
  patch.foldlM (fun j op => j.add op.path.tokens op.value) j

@[simp] theorem applyPatch_nil (j : Json) : applyPatch j [] = some j :=
  rfl

theorem applyPatch_cons (j : Json) (op : AddOperation) (ops : List AddOperation) :
    applyPatch j (op :: ops) =
      (j.add op.path.tokens op.value).bind fun j' => applyPatch j' ops :=
  rfl

theorem applyPatch_append (j : Json) (ops ops' : List AddOperation) :
    applyPatch j (ops ++ ops') = (applyPatch j ops).bind fun j' => applyPatch j' ops' :=
  List.foldlM_append

/-- The parent of the path of each operation exists when the operation is applied. -/
def ParentsExist (j : Json) (patch : List AddOperation) : Prop :=
  ∀ done op rest, patch = done ++ op :: rest → ∃ j', applyPatch j done = some j' ∧
    (j'.get? op.path.tokens.dropLast).isSome

/-- The operations of a patch that applies find the parents of their paths. -/
theorem parentsExist_of_applyPatch {j j' : Json} {patch : List AddOperation}
    (h : applyPatch j patch = some j') : ParentsExist j patch := by
  rintro done op rest rfl
  rw [applyPatch_append] at h
  obtain ⟨j₁, hdone, h⟩ := Option.bind_eq_some_iff.1 h
  rw [applyPatch_cons] at h
  obtain ⟨j₂, hop, -⟩ := Option.bind_eq_some_iff.1 h
  refine ⟨j₁, hdone, ?_⟩
  rcases List.eq_nil_or_concat op.path.tokens with hnil | ⟨path, k, hconcat⟩
  · rw [hnil, List.dropLast_nil, Json.get?_nil]
    rfl
  · rw [hconcat, List.concat_eq_append] at hop
    rw [hconcat, List.concat_eq_append, List.dropLast_concat]
    exact Json.get?_of_add hop

/-- Operations that add members to one object. -/
theorem applyPatch_members {path : List String} (new : List (String × Json)) :
    ∀ {j : Json} {fields : List (String × Json)}, j.at? path = some (.obj fields) →
      applyPatch j (new.map fun kv => ⟨.fromTokens (path ++ [kv.1]), kv.2⟩) =
        some (j.put path (.obj (Assoc.setAll fields new))) := by
  induction new with
  | nil =>
    intro j fields h
    rw [Assoc.setAll, List.foldl_nil, Json.put_of_at? h]
    rfl
  | cons kv new ih =>
    intro j fields h
    rw [List.map_cons, applyPatch_cons, PointerBuf.tokens_fromTokens, Json.add_member_at h,
      Option.bind_some, ih (Json.at?_put _ h), Json.put_put _ _ h]
    rfl
