import Mathlib.Tactic.Common

/-!
# Names of the Kubernetes API

The syntax of DNS subdomains, which names of objects are, and of qualified names, which keys of
annotations are. Both are words : they begin and end with characters of one class and consist
of characters of a larger one. A DNS subdomain is a word of dots and of words of its labels
(`isWord_of_isDnsSubdomain`), so what follows the prefix of a qualified name may be one if it is
short enough (`isQualifiedName_append`).
-/

namespace CommonsOperator

/-! ## Words -/

/-- The text is not empty, begins and ends with an `edge`, and consists of `inner` characters. -/
def isWord (edge inner : Char → Bool) (l : List Char) : Bool :=
  l.head?.any edge && l.getLast?.any edge && l.all inner

section

variable {edge inner inner' : Char → Bool} {l l' : List Char}

theorem isWord_iff : isWord edge inner l = true ↔
    (∃ c, l.head? = some c ∧ edge c = true) ∧ (∃ c, l.getLast? = some c ∧ edge c = true) ∧
      ∀ c ∈ l, inner c = true := by
  simp [isWord, Option.any_eq_true, and_assoc]

theorem isWord.mono (h : isWord edge inner l = true)
    (hinner : ∀ c, inner c = true → inner' c = true) : isWord edge inner' l = true := by
  obtain ⟨hhead, hlast, hall⟩ := isWord_iff.1 h
  exact isWord_iff.2 ⟨hhead, hlast, fun c hc => hinner c (hall c hc)⟩

/-- Two words with a character between them are a word. -/
theorem isWord_append_cons (h : isWord edge inner l = true) (h' : isWord edge inner l' = true)
    {c : Char} (hc : inner c = true) : isWord edge inner (l ++ c :: l') = true := by
  obtain ⟨⟨a, ha, hedge⟩, -, hall⟩ := isWord_iff.1 h
  obtain ⟨-, ⟨b, hb, hedge'⟩, hall'⟩ := isWord_iff.1 h'
  refine isWord_iff.2 ⟨⟨a, ?_, hedge⟩, ⟨b, ?_, hedge'⟩, fun d hd => ?_⟩
  · rw [List.head?_append, ha]
    rfl
  · rw [List.getLast?_append, List.getLast?_cons, hb]
    rfl
  · rcases List.mem_append.1 hd with hd | hd
    · exact hall d hd
    · rcases List.mem_cons.1 hd with rfl | hd
      · exact hc
      · exact hall' d hd

/-- Words joined by a character are a word. -/
theorem isWord_intercalate {c : Char} (hc : inner c = true) :
    ∀ {words : List (List Char)}, words ≠ [] → (∀ word ∈ words, isWord edge inner word = true) →
      isWord edge inner ([c].intercalate words) = true
  | [], h, _ => (h rfl).elim
  | [word], _, hall => by simpa [List.intercalate] using hall word List.mem_cons_self
  | word :: word' :: words, _, hall => by
    have ih := isWord_intercalate hc (List.cons_ne_nil word' words) fun w hw =>
      hall w (List.mem_cons_of_mem _ hw)
    have happend : [c].intercalate (word :: word' :: words) =
        word ++ c :: [c].intercalate (word' :: words) := by
      simp [List.intercalate]
    rw [happend]
    exact isWord_append_cons (hall word List.mem_cons_self) ih hc

end

/-! ## DNS subdomains -/

/-- The characters that labels begin and end with. -/
def isLowerAlphanumeric (c : Char) : Bool :=
  c.isLower || c.isDigit

/-- A label of a DNS name. -/
def isDnsLabel (label : List Char) : Bool :=
  isWord isLowerAlphanumeric (fun c => isLowerAlphanumeric c || c == '-') label

/-- A DNS subdomain. -/
def isDnsSubdomain (name : String) : Bool :=
  name.length ≤ 253 && (name.toList.splitOn '.').all isDnsLabel

/-! ## Qualified names -/

/-- The characters of the name in a qualified name. -/
def isNameCharacter (c : Char) : Bool :=
  c.isAlphanum || c == '-' || c == '_' || c == '.'

/-- The name in a qualified name. -/
def isNamePart (name : List Char) : Bool :=
  isWord Char.isAlphanum isNameCharacter name && name.length ≤ 63

/-- A qualified name : a name, or a prefix, a slash and a name. -/
def isQualifiedName (key : String) : Bool :=
  match key.toList.splitOn '/' with
  | [name] => isNamePart name
  | [namePrefix, name] => isDnsSubdomain (String.ofList namePrefix) && isNamePart name
  | _ => false

theorem isAlphanum_of_isLowerAlphanumeric {c : Char} (h : isLowerAlphanumeric c = true) :
    c.isAlphanum = true := by
  simp only [isLowerAlphanumeric, Bool.or_eq_true] at h
  rcases h with h | h
  · have halpha : c.isAlpha = true := Bool.or_eq_true_iff.2 (Or.inr h)
    exact Bool.or_eq_true_iff.2 (Or.inl halpha)
  · exact Bool.or_eq_true_iff.2 (Or.inr h)

theorem isWord.isAlphanum {l : List Char} {inner : Char → Bool}
    (h : isWord isLowerAlphanumeric inner l = true) : isWord Char.isAlphanum inner l = true := by
  obtain ⟨⟨a, ha, hedge⟩, ⟨b, hb, hedge'⟩, hall⟩ := isWord_iff.1 h
  exact isWord_iff.2 ⟨⟨a, ha, isAlphanum_of_isLowerAlphanumeric hedge⟩,
    ⟨b, hb, isAlphanum_of_isLowerAlphanumeric hedge'⟩, hall⟩

/-- A DNS subdomain is a word of the characters of names. -/
theorem isWord_of_isDnsSubdomain {name : String} (h : isDnsSubdomain name = true) :
    isWord Char.isAlphanum isNameCharacter name.toList = true := by
  simp only [isDnsSubdomain, Bool.and_eq_true, List.all_eq_true] at h
  have hlabel : ∀ label ∈ name.toList.splitOn '.',
      isWord Char.isAlphanum isNameCharacter label = true := by
    intro label hmem
    refine isWord.mono (isWord.isAlphanum (h.2 label hmem)) fun c hc => ?_
    rcases Bool.or_eq_true_iff.1 hc with hc | hc
    · simp [isNameCharacter, isAlphanum_of_isLowerAlphanumeric hc]
    · simp [isNameCharacter, hc]
  rw [← @List.intercalate_splitOn _ name.toList _ _ '.']
  exact isWord_intercalate (by decide) (List.splitOn_ne_nil _ _) hlabel

theorem slash_notMem_of_isDnsSubdomain {name : String} (h : isDnsSubdomain name = true) :
    '/' ∉ name.toList := by
  intro hmem
  have := (isWord_iff.1 (isWord_of_isDnsSubdomain h)).2.2 _ hmem
  revert this
  decide

/-- Two DNS subdomains with a slash between them are a qualified name if and only if the second
is short enough. -/
theorem isQualifiedName_append {namePrefix name : String} (hp : isDnsSubdomain namePrefix = true)
    (hn : isDnsSubdomain name = true) :
    isQualifiedName (namePrefix ++ "/" ++ name) = true ↔ name.length ≤ 63 := by
  have hsplit : (namePrefix ++ "/" ++ name).toList.splitOn '/' =
      [namePrefix.toList, name.toList] := by
    have hcons : (namePrefix ++ "/" ++ name).toList = namePrefix.toList ++ '/' :: name.toList := by
      simp [String.toList_append]
    rw [hcons, List.splitOn_append_cons_self_of_not_mem (slash_notMem_of_isDnsSubdomain hp),
      List.splitOn_eq_singleton (slash_notMem_of_isDnsSubdomain hn)]
  rw [isQualifiedName, hsplit]
  simp [isNamePart, hp, isWord_of_isDnsSubdomain hn, String.length_toList]

end CommonsOperator
