import Mathlib.Data.List.DropRight
import Mathlib.Data.List.Infix
import Mathlib.Data.List.Nodup

/-!
# The release file of a test run

`release_file` of `run-tests` : go through the lines of `tests/release.yaml` and change the versions
of the operators given by `--operator`, then go through the result and leave out those given by
`--skip-operator`. A name is looked for anywhere in a line, so it is also found in the line of a
product whose name contains it, in a comment or in a version. The file is edited as it should be
(`EditsNamedProducts`) where names are found at their own products only, and the products that are
kept get no empty version (`release_file_edits`).
-/

set_option linter.unusedSectionVars false

namespace CommonsOperator.RunTests

abbrev Text := List Char

/-! ## The two passes -/

/-- An `--operator` argument, with a version that `re.sub` takes as it is. -/
structure OperatorArg where
  op : Text
  version : Text
  plain : '\\' ∉ version

/-- `re.sub(":.+$", ": <version>", line)`. -/
def subValue (version : Text) : Text → Text
  | [] => []
  | c :: rest =>
    let value := rest.takeWhile (· ≠ '\n')
    let ending := rest.dropWhile (· ≠ '\n')
    if c = ':' ∧ value ≠ [] ∧ (ending = [] ∨ ending = ['\n']) then
      ':' :: ' ' :: (version ++ ending)
    else c :: subValue version rest

/-- `line.rstrip("\n")`. -/
def rstrip (line : Text) : Text :=
  line.rdropWhile (· = '\n')

/-- The lines with the versions patched, and the operators found. -/
def patchLines (operators : List OperatorArg) : Text → List Text → List Text × List Text
  | _, [] => ([], [])
  | patchVersion, line :: lines =>
    if patchVersion ≠ [] then
      let rest := patchLines operators [] lines
      (rstrip (subValue patchVersion line) :: rest.1, rest.2)
    else
      match operators.find? fun arg => arg.op <:+: line with
      | some arg =>
        let rest := patchLines operators arg.version lines
        (rstrip line :: rest.1, arg.op :: rest.2)
      | none =>
        let rest := patchLines operators [] lines
        (rstrip line :: rest.1, rest.2)

/-- The lines without the products skipped, and the operators found. -/
def filterLines (skipOps : List Text) : Nat → List Text → List Text × List Text
  | _, [] => ([], [])
  | skip + 1, _ :: lines => filterLines skipOps skip lines
  | 0, line :: lines =>
    match skipOps.find? fun op => op <:+: line with
    | some op =>
      -- every product section has 1 line of additional config to skip
      let rest := filterLines skipOps 1 lines
      (rest.1, op :: rest.2)
    | none =>
      let rest := filterLines skipOps 0 lines
      (line :: rest.1, rest.2)

structure TestRunnerException

/-- What `release_file` writes for the lines of `tests/release.yaml`. -/
def releaseFile (operators : List OperatorArg) (skipOps : List Text) (lines : List Text) :
    Except TestRunnerException Text :=
  let patchedRelease := patchLines operators [] lines
  let opsNotPatched := (operators.map OperatorArg.op).filter (· ∉ patchedRelease.2)
  if opsNotPatched ≠ [] then
    .error ⟨⟩
  else
    let releaseContents := filterLines skipOps 0 patchedRelease.1
    let opsNotSkipped := skipOps.filter (· ∉ releaseContents.2)
    if opsNotSkipped ≠ [] then
      .error ⟨⟩
    else
      .ok (['\n'].intercalate releaseContents.1)

/-! ## Release files -/

/-- The section of a product. -/
structure Section where
  product : Text
  version : Text

/-- The section with the version of the argument, if there is one. -/
def Section.withVersion (sec : Section) : Option OperatorArg → Section
  | some arg => { sec with version := arg.version }
  | none => sec

/-- A file in the format of `tests/release.yaml`. -/
structure ReleaseFile where
  header : List Text
  sections : List Section
  productIndent : Nat
  versionIndent : Nat

namespace ReleaseFile

variable (r : ReleaseFile)

def products : List Text :=
  r.sections.map Section.product

def productLine (sec : Section) : Text :=
  List.replicate r.productIndent ' ' ++ sec.product ++ [':']

def versionLine (sec : Section) : Text :=
  List.replicate r.versionIndent ' ' ++ "operatorVersion: ".toList ++ sec.version

def lines : List Text :=
  r.header ++ r.sections.flatMap fun sec => [r.productLine sec, r.versionLine sec]

/-- There are header lines, and they, the products and the versions are each on one line. -/
structure WellFormed : Prop where
  nonempty : r.header ≠ []
  header : ∀ line ∈ r.header, '\n' ∉ line
  sections : ∀ sec ∈ r.sections, '\n' ∉ sec.product ∧ '\n' ∉ sec.version

/-- The file with the versions of the operators given. -/
def override (operators : List OperatorArg) : ReleaseFile :=
  { r with sections := r.sections.map fun sec =>
      sec.withVersion (operators.find? fun arg => arg.op = sec.product) }

/-- The file without the products given. -/
def skip (skipOps : List Text) : ReleaseFile :=
  { r with sections := r.sections.filter fun sec => sec.product ∉ skipOps }

end ReleaseFile

/-- The lines as they are read, with their line ends, of which the last one may be missing. -/
def withLineEnds (last : Text) : List Text → List Text
  | [] => []
  | line :: lines => (line ++ if lines = [] then last else ['\n']) :: withLineEnds last lines

/-- The file is edited as the arguments say. An exception is raised exactly for names that are not
products, and otherwise the given versions and no others are changed and the given products and no
others are left out. -/
def EditsNamedProducts (r : ReleaseFile) (last : Text) (operators : List OperatorArg)
    (skipOps : List Text) : Prop :=
  (releaseFile operators skipOps (withLineEnds last r.lines) = .error ⟨⟩ ↔
    ∃ name ∈ operators.map OperatorArg.op ++ skipOps, name ∉ r.products) ∧
  ∀ contents, releaseFile operators skipOps (withLineEnds last r.lines) = .ok contents →
    contents = ['\n'].intercalate ((r.override operators).skip skipOps).lines

/-- The names given are found in the lines of their own products only : not in the header, not in
the line of another product, and not in the version of a product where it is looked at. -/
structure FoundAtProducts (names : List Text) (r : ReleaseFile) (looked : Section → Prop)
    (ending : Text) : Prop where
  header : ∀ line ∈ r.header, ∀ name ∈ names, ¬name <:+: line ++ ending
  product : ∀ sec ∈ r.sections, names.find? (fun name => name <:+: r.productLine sec ++ ending) =
    if sec.product ∈ names then some sec.product else none
  version : ∀ sec ∈ r.sections, looked sec →
    ∀ name ∈ names, ¬name <:+: r.versionLine sec ++ ending

/-! ## Lines -/

/-- What a line that is read may end with. -/
def IsLineEnd (ending : Text) : Prop :=
  ending = [] ∨ ending = ['\n']

theorem IsLineEnd.isPrefix_newline {ending : Text} (h : IsLineEnd ending) : ending <+: ['\n'] := by
  rcases h with rfl | rfl
  · exact List.nil_prefix
  · exact List.prefix_rfl

/-- What a line ends with when others follow or do not. -/
theorem IsLineEnd.of_lines {last : Text} (h : IsLineEnd last) (lines : List Text) :
    IsLineEnd (if lines = [] then last else ['\n']) := by
  split
  · exact h
  · exact Or.inr rfl

theorem isInfix_line {name line ending : Text} (h : IsLineEnd ending)
    (hname : name <:+: line ++ ending) : name <:+: line ++ ['\n'] :=
  hname.trans ((List.prefix_append_right_inj line).2 h.isPrefix_newline).isInfix

theorem rstrip_eq_self {line : Text} (h : line.getLast? ≠ some '\n') : rstrip line = line := by
  rw [rstrip, List.rdropWhile_eq_self_iff]
  intro hne hlast
  exact h (by rw [List.getLast?_eq_some_getLast hne, of_decide_eq_true hlast])

/-- The line end goes. -/
theorem rstrip_append {ending : Text} (h : IsLineEnd ending) (line : Text) :
    rstrip (line ++ ending) = rstrip line := by
  rcases h with rfl | rfl
  · rw [List.append_nil]
  · rw [rstrip, List.rdropWhile_concat_pos _ _ _ (by simp)]
    rfl

theorem rstrip_line {line ending : Text} (h : IsLineEnd ending) (hline : '\n' ∉ line) :
    rstrip (line ++ ending) = line := by
  rw [rstrip_append h, rstrip_eq_self fun hlast => hline (List.mem_of_getLast? hlast)]

/-- Only the end of a line goes. -/
theorem rstrip_append_of_getLast? {before : Text} (h : before.getLast? ≠ some '\n')
    (rest : Text) : rstrip (before ++ rest) = before ++ rstrip rest := by
  induction rest using List.reverseRecOn with
  | nil => rw [List.append_nil, rstrip_eq_self h, rstrip, List.rdropWhile_nil, List.append_nil]
  | append_singleton rest c ih =>
    rw [← List.append_assoc, rstrip, rstrip]
    by_cases hc : c = '\n'
    · rw [List.rdropWhile_concat_pos _ _ _ (by simp [hc]),
        List.rdropWhile_concat_pos _ _ _ (by simp [hc])]
      exact ih
    · rw [List.rdropWhile_concat_neg _ _ _ (by simp [hc]),
        List.rdropWhile_concat_neg _ _ _ (by simp [hc]), List.append_assoc]

/-- Up to its first colon a line stays as it is. -/
theorem subValue_append {version before : Text} (h : ':' ∉ before) (rest : Text) :
    subValue version (before ++ rest) = before ++ subValue version rest := by
  induction before with
  | nil => rfl
  | cons c before ih =>
    rw [List.mem_cons, not_or] at h
    rw [List.cons_append, subValue, if_neg fun hcond => h.1 hcond.1.symm, ih h.2]
    rfl

theorem subValue_colon {version value ending : Text} (hvalue : '\n' ∉ value) (hne : value ≠ [])
    (h : IsLineEnd ending) :
    subValue version (':' :: (value ++ ending)) = ':' :: ' ' :: (version ++ ending) := by
  have hall : ∀ c ∈ value, decide (c ≠ '\n') = true :=
    fun c hc => decide_eq_true fun he => hvalue (he ▸ hc)
  have htake : (value ++ ending).takeWhile (· ≠ '\n') = value := by
    rw [List.takeWhile_append_of_pos hall]
    rcases h with rfl | rfl <;> simp
  have hdrop : (value ++ ending).dropWhile (· ≠ '\n') = ending := by
    rw [List.dropWhile_append_of_pos hall]
    rcases h with rfl | rfl <;> simp
  rw [subValue, htake, hdrop, if_pos ⟨rfl, hne, h⟩]

/-! ## Patching the versions -/

section

variable {operators : List OperatorArg} {r : ReleaseFile} {last : Text}

theorem ReleaseFile.newline_notMem_productLine {sec : Section} (h : '\n' ∉ sec.product) :
    '\n' ∉ r.productLine sec := by
  simp [productLine, List.mem_replicate, h]

theorem ReleaseFile.newline_notMem_versionLine {sec : Section} (h : '\n' ∉ sec.version) :
    '\n' ∉ r.versionLine sec := by
  simp [versionLine, List.mem_replicate, h]

/-- The lines of the sections. -/
def ReleaseFile.sectionLines (r : ReleaseFile) (sections : List Section) : List Text :=
  sections.flatMap fun sec => [r.productLine sec, r.versionLine sec]

@[simp] theorem Section.withVersion_product (sec : Section) (arg? : Option OperatorArg) :
    (sec.withVersion arg?).product = sec.product := by
  cases arg? <;> rfl

theorem ReleaseFile.sectionLines_cons (sec : Section) (sections : List Section) :
    r.sectionLines (sec :: sections) =
      r.productLine sec :: r.versionLine sec :: r.sectionLines sections :=
  rfl

/-- The section after an argument was found in its line. An empty version is not patched in. -/
def Section.patchedBy (sec : Section) : Option OperatorArg → Section
  | some arg => if arg.version = [] then sec else { sec with version := rstrip arg.version }
  | none => sec

@[simp] theorem Section.patchedBy_none (sec : Section) : sec.patchedBy none = sec :=
  rfl

theorem Section.patchedBy_some {arg : OperatorArg} (h : arg.version ≠ []) (sec : Section) :
    sec.patchedBy (some arg) = { sec with version := rstrip arg.version } :=
  if_neg h

theorem Section.patchedBy_of_empty {arg? : Option OperatorArg}
    (h : ∀ arg ∈ arg?, arg.version = []) (sec : Section) : sec.patchedBy arg? = sec := by
  cases arg? with
  | none => rfl
  | some arg => exact if_pos (h arg rfl)

@[simp] theorem Section.patchedBy_product (sec : Section) (arg? : Option OperatorArg) :
    (sec.patchedBy arg?).product = sec.product := by
  cases arg? with
  | none => rfl
  | some arg =>
    rw [Section.patchedBy]
    split <;> rfl

/-- The argument whose name is found in the line of the product. -/
def ReleaseFile.foundAt (r : ReleaseFile) (operators : List OperatorArg) (sec : Section) :
    Option OperatorArg :=
  operators.find? fun arg => arg.op <:+: r.productLine sec ++ ['\n']

/-- The names are not found in the header, and not in a version unless one is patched in. -/
structure OnlyAtProducts (operators : List OperatorArg) (r : ReleaseFile) : Prop where
  header : ∀ line ∈ r.header, ∀ name ∈ operators.map OperatorArg.op, ¬name <:+: line ++ ['\n']
  version : ∀ sec ∈ r.sections, (∀ arg ∈ r.foundAt operators sec, arg.version = []) →
    ∀ name ∈ operators.map OperatorArg.op, ¬name <:+: r.versionLine sec ++ ['\n']

/-- After a line in which an operator is found, its version is patched in. -/
theorem patchLines_some {line : Text} {arg : OperatorArg}
    (hfind : operators.find? (fun arg => arg.op <:+: line) = some arg) (lines : List Text) :
    patchLines operators [] (line :: lines) =
      (rstrip line :: (patchLines operators arg.version lines).1,
        arg.op :: (patchLines operators arg.version lines).2) := by
  rw [patchLines, if_neg (by simp), hfind]

theorem patchLines_version {version : Text} (h : version ≠ []) (line : Text) (lines : List Text) :
    patchLines operators version (line :: lines) =
      (rstrip (subValue version line) :: (patchLines operators [] lines).1,
        (patchLines operators [] lines).2) := by
  rw [patchLines, if_pos h]

theorem patchLines_of_find?_eq_none {line : Text}
    (hfind : operators.find? (fun arg => arg.op <:+: line) = none) (lines : List Text) :
    patchLines operators [] (line :: lines) = (rstrip line :: (patchLines operators [] lines).1,
      (patchLines operators [] lines).2) := by
  rw [patchLines, if_neg (by simp), hfind]

/-- A line in which no name is found stays as it is. -/
theorem patchLines_none {line ending : Text} (hline : '\n' ∉ line) (h : IsLineEnd ending)
    (hnone : ∀ name ∈ operators.map OperatorArg.op, ¬name <:+: line ++ ['\n']) (lines : List Text) :
    patchLines operators [] ((line ++ ending) :: lines) =
      (line :: (patchLines operators [] lines).1, (patchLines operators [] lines).2) := by
  have hfind : operators.find? (fun arg => arg.op <:+: line ++ ending) = none := by
    refine List.find?_eq_none.2 fun arg harg hfound => ?_
    exact hnone arg.op (List.mem_map.2 ⟨arg, harg, rfl⟩)
      (isInfix_line h (of_decide_eq_true hfound))
  rw [patchLines_of_find?_eq_none hfind, rstrip_line h hline]

/-- The header stays as it is. -/
theorem patchLines_header (hlast : IsLineEnd last) {header : List Text}
    (hheader : ∀ line ∈ header, '\n' ∉ line)
    (hnone : ∀ line ∈ header, ∀ name ∈ operators.map OperatorArg.op, ¬name <:+: line ++ ['\n'])
    (lines : List Text) :
    patchLines operators [] (withLineEnds last (header ++ lines)) =
      (header ++ (patchLines operators [] (withLineEnds last lines)).1,
        (patchLines operators [] (withLineEnds last lines)).2) := by
  induction header with
  | nil => rfl
  | cons line header ih =>
    have hend := hlast.of_lines (header ++ lines)
    rw [List.cons_append, withLineEnds, patchLines_none (hheader line List.mem_cons_self) hend
      (hnone line List.mem_cons_self),
      ih (fun line' h => hheader line' (List.mem_cons_of_mem _ h))
        fun line' h => hnone line' (List.mem_cons_of_mem _ h)]
    rfl

/-- The line of a version is replaced by that of another one. -/
theorem subValue_versionLine {version ending : Text} (sec : Section) (hsec : '\n' ∉ sec.version)
    (h : IsLineEnd ending) : subValue version (r.versionLine sec ++ ending) =
      r.versionLine { sec with version } ++ ending := by
  have hbefore : ':' ∉ List.replicate r.versionIndent ' ' ++ "operatorVersion".toList := by
    simp [List.mem_replicate]
  have hvalue : '\n' ∉ ' ' :: sec.version := by
    simpa using hsec
  have hline : ∀ version : Text, r.versionLine { sec with version } =
      (List.replicate r.versionIndent ' ' ++ "operatorVersion".toList) ++
        ':' :: ' ' :: version := by
    intro version
    simp [ReleaseFile.versionLine]
  have hself := hline sec.version
  change r.versionLine sec = _ at hself
  rw [hself, hline, List.append_assoc _ _ ending, List.append_assoc _ _ ending,
    subValue_append hbefore, List.cons_append, subValue_colon hvalue (List.cons_ne_nil _ _) h]
  rfl

/-- The version patched in loses the line ends it ends with. -/
theorem rstrip_versionLine (version : Text) (sec : Section) :
    rstrip (r.versionLine { sec with version }) =
      r.versionLine { sec with version := rstrip version } := by
  rw [ReleaseFile.versionLine, ReleaseFile.versionLine]
  refine rstrip_append_of_getLast? ?_ version
  rw [List.getLast?_append_of_ne_nil _ (by decide)]
  decide

theorem ReleaseFile.productLine_patchedBy (sec : Section) (arg? : Option OperatorArg) :
    r.productLine (sec.patchedBy arg?) = r.productLine sec := by
  rw [productLine, productLine, Section.patchedBy_product]

/-- The section of a product, with the version that is patched in. -/
theorem patchLines_section (hlast : IsLineEnd last) {sec : Section}
    (hplain : '\n' ∉ sec.product ∧ '\n' ∉ sec.version)
    (hversion : (∀ arg ∈ r.foundAt operators sec, arg.version = []) →
      ∀ name ∈ operators.map OperatorArg.op, ¬name <:+: r.versionLine sec ++ ['\n'])
    (lines : List Text) :
    patchLines operators [] (withLineEnds last (r.productLine sec :: r.versionLine sec :: lines)) =
      (r.productLine sec :: r.versionLine (sec.patchedBy (r.foundAt operators sec)) ::
        (patchLines operators [] (withLineEnds last lines)).1,
        ((r.foundAt operators sec).map OperatorArg.op).toList ++
          (patchLines operators [] (withLineEnds last lines)).2) := by
  have hend := hlast.of_lines lines
  have hproductLine : '\n' ∉ r.productLine sec := r.newline_notMem_productLine hplain.1
  have hversionLine : '\n' ∉ r.versionLine sec := r.newline_notMem_versionLine hplain.2
  rw [withLineEnds, if_neg (List.cons_ne_nil _ _), withLineEnds]
  cases hfind : r.foundAt operators sec with
  | none =>
    rw [patchLines_of_find?_eq_none hfind,
      patchLines_none hversionLine hend (hversion (by simp [hfind])),
      rstrip_line (Or.inr rfl) hproductLine]
    rfl
  | some arg =>
    rw [patchLines_some hfind, rstrip_line (Or.inr rfl) hproductLine]
    by_cases hempty : arg.version = []
    · rw [hempty, patchLines_none hversionLine hend (hversion (by simpa [hfind] using hempty)),
        Section.patchedBy_of_empty (by simpa using hempty)]
      rfl
    · rw [patchLines_version hempty, subValue_versionLine sec hplain.2 hend, rstrip_append hend,
        rstrip_versionLine, Section.patchedBy_some hempty]
      rfl

/-- The pass over the sections. -/
theorem patchLines_sections (hr : r.WellFormed) (hlast : IsLineEnd last)
    (hfound : OnlyAtProducts operators r) {sections : List Section} (hsub : sections ⊆ r.sections) :
    patchLines operators [] (withLineEnds last (r.sectionLines sections)) =
      (r.sectionLines (sections.map fun sec => sec.patchedBy (r.foundAt operators sec)),
        sections.filterMap fun sec => (r.foundAt operators sec).map OperatorArg.op) := by
  induction sections with
  | nil => rfl
  | cons sec sections ih =>
    have hsec := hsub List.mem_cons_self
    have ih := ih fun sec' h => hsub (List.mem_cons_of_mem _ h)
    rw [List.map_cons, r.sectionLines_cons, r.sectionLines_cons, r.productLine_patchedBy,
      patchLines_section hlast (hr.sections sec hsec) (hfound.version sec hsec), ih]
    cases hfind : r.foundAt operators sec with
    | some arg => rw [List.filterMap_cons_some (by rw [hfind]; rfl)]; rfl
    | none => rw [List.filterMap_cons_none (by rw [hfind]; rfl)]; rfl

/-- The pass that patches versions, where names are found in the lines of products only. -/
theorem patchLines_lines (hr : r.WellFormed) (hlast : IsLineEnd last)
    (hfound : OnlyAtProducts operators r) :
    patchLines operators [] (withLineEnds last r.lines) =
      (r.header ++ r.sectionLines
          (r.sections.map fun sec => sec.patchedBy (r.foundAt operators sec)),
        r.sections.filterMap fun sec => (r.foundAt operators sec).map OperatorArg.op) := by
  have hsections := patchLines_sections hr hlast hfound (List.Subset.refl _)
  have hlines : r.lines = r.header ++ r.sectionLines r.sections := rfl
  rw [hlines, patchLines_header hlast hr.header hfound.header, hsections]

/-- Where each name is found at its own product, the versions are those given for the products. -/
theorem FoundAtProducts.foundAt_eq (hdistinct : (operators.map OperatorArg.op).Nodup)
    {looked : Section → Prop}
    (hfound : FoundAtProducts (operators.map OperatorArg.op) r looked ['\n']) {sec : Section}
    (hsec : sec ∈ r.sections) :
    r.foundAt operators sec = operators.find? fun arg => arg.op = sec.product := by
  have hfind := hfound.product sec hsec
  rw [List.find?_map] at hfind
  change (r.foundAt operators sec).map OperatorArg.op = _ at hfind
  cases hat : r.foundAt operators sec with
  | none =>
    rw [hat, Option.map_none, eq_comm, ite_eq_right_iff] at hfind
    refine (List.find?_eq_none.2 fun arg harg he => ?_).symm
    cases hfind (List.mem_map.2 ⟨arg, harg, of_decide_eq_true he⟩)
  | some arg =>
    have hmem := List.mem_of_find?_eq_some hat
    have hop : arg.op = sec.product := by
      rw [hat, Option.map_some] at hfind
      split at hfind
      · exact Option.some.inj hfind
      · cases hfind
    cases hlookup : operators.find? fun arg => arg.op = sec.product with
    | none => exact absurd (List.find?_eq_none.1 hlookup arg hmem) (by simp [hop])
    | some arg' =>
      have hop' : arg'.op = sec.product := by simpa using List.find?_some hlookup
      rw [List.inj_on_of_nodup_map hdistinct hmem (List.mem_of_find?_eq_some hlookup)
        (hop.trans hop'.symm)]

/-- No version is given for the product, or an empty one. -/
def NotGiven (operators : List OperatorArg) (sec : Section) : Prop :=
  ∀ arg ∈ operators, arg.op = sec.product → arg.version = []

instance (operators : List OperatorArg) (sec : Section) : Decidable (NotGiven operators sec) :=
  inferInstanceAs (Decidable (∀ arg ∈ operators, _))

theorem FoundAtProducts.onlyAtProducts (hdistinct : (operators.map OperatorArg.op).Nodup)
    (hfound : FoundAtProducts (operators.map OperatorArg.op) r (NotGiven operators) ['\n']) :
    OnlyAtProducts operators r where
  header := hfound.header
  version sec hsec hempty := by
    refine hfound.version sec hsec fun arg harg hop => ?_
    rw [hfound.foundAt_eq hdistinct hsec] at hempty
    cases hlookup : operators.find? fun arg => arg.op = sec.product with
    | none => exact absurd (List.find?_eq_none.1 hlookup arg harg) (by simp [hop])
    | some arg' =>
      have hop' : arg'.op = sec.product := by simpa using List.find?_some hlookup
      rw [List.inj_on_of_nodup_map hdistinct harg (List.mem_of_find?_eq_some hlookup)
        (hop.trans hop'.symm)]
      exact hempty arg' hlookup

/-- The operators found are the products. -/
theorem FoundAtProducts.exists_foundAt_iff (hdistinct : (operators.map OperatorArg.op).Nodup)
    {looked : Section → Prop}
    (hfound : FoundAtProducts (operators.map OperatorArg.op) r looked ['\n']) {name : Text}
    (hname : name ∈ operators.map OperatorArg.op) :
    (∃ sec ∈ r.sections, (r.foundAt operators sec).map OperatorArg.op = some name) ↔
      name ∈ r.products := by
  simp only [ReleaseFile.products, List.mem_map]
  refine exists_congr fun sec => and_congr_right fun hsec => ?_
  rw [hfound.foundAt_eq hdistinct hsec, Option.map_eq_some_iff]
  constructor
  · rintro ⟨arg, hfind, rfl⟩
    simpa [eq_comm] using List.find?_some hfind
  · rintro rfl
    obtain ⟨arg, harg, hop⟩ := List.mem_map.1 hname
    cases hlookup : operators.find? fun arg => arg.op = sec.product with
    | none => exact absurd (List.find?_eq_none.1 hlookup arg harg) (by simp [hop])
    | some arg' => exact ⟨arg', rfl, by simpa using List.find?_some hlookup⟩

end

/-! ## Skipping products -/

section

variable {r : ReleaseFile} {skipOps : List Text}

/-- The name found in the line of the product. -/
def ReleaseFile.skippedAt (r : ReleaseFile) (skipOps : List Text) (sec : Section) : Option Text :=
  skipOps.find? fun op => op <:+: r.productLine sec

/-- The names are not found in the header, and not in a version unless its product is left out. -/
structure SkippedAtProducts (skipOps : List Text) (r : ReleaseFile) : Prop where
  header : ∀ line ∈ r.header, ∀ name ∈ skipOps, ¬name <:+: line
  version : ∀ sec ∈ r.sections, r.skippedAt skipOps sec = none →
    ∀ name ∈ skipOps, ¬name <:+: r.versionLine sec

/-- A line in which no name is found is kept. -/
theorem filterLines_none {line : Text} (hnone : ∀ name ∈ skipOps, ¬name <:+: line)
    (lines : List Text) :
    filterLines skipOps 0 (line :: lines) =
      (line :: (filterLines skipOps 0 lines).1, (filterLines skipOps 0 lines).2) := by
  have hfind : skipOps.find? (fun op => op <:+: line) = none :=
    List.find?_eq_none.2 fun name hname h => hnone name hname (of_decide_eq_true h)
  rw [filterLines, hfind]

theorem filterLines_header {header : List Text}
    (hnone : ∀ line ∈ header, ∀ name ∈ skipOps, ¬name <:+: line) (lines : List Text) :
    filterLines skipOps 0 (header ++ lines) =
      (header ++ (filterLines skipOps 0 lines).1, (filterLines skipOps 0 lines).2) := by
  induction header with
  | nil => rfl
  | cons line header ih =>
    rw [List.cons_append, filterLines_none (hnone line List.mem_cons_self),
      ih fun line' h => hnone line' (List.mem_cons_of_mem _ h)]
    rfl

/-- The pass over the sections. -/
theorem filterLines_sections (hfound : SkippedAtProducts skipOps r) {sections : List Section}
    (hsub : sections ⊆ r.sections) :
    filterLines skipOps 0 (r.sectionLines sections) =
      (r.sectionLines (sections.filter fun sec => (r.skippedAt skipOps sec).isNone),
        sections.filterMap (r.skippedAt skipOps)) := by
  induction sections with
  | nil => rfl
  | cons sec sections ih =>
    have ih := ih fun sec' h => hsub (List.mem_cons_of_mem _ h)
    rw [r.sectionLines_cons]
    cases hfind : r.skippedAt skipOps sec with
    | some op =>
      have hfind' : skipOps.find? (fun op => op <:+: r.productLine sec) = some op := hfind
      rw [filterLines, hfind', List.filter_cons_of_neg (by simp [hfind]),
        List.filterMap_cons_some hfind, filterLines, ih]
    | none =>
      have hproduct : ∀ name ∈ skipOps, ¬name <:+: r.productLine sec := by
        intro name hname h
        exact List.find?_eq_none.1 hfind name hname (decide_eq_true h)
      have hversion := hfound.version sec (hsub List.mem_cons_self) hfind
      rw [filterLines_none hproduct, filterLines_none hversion, ih,
        List.filter_cons_of_pos (by simp [hfind]), List.filterMap_cons_none hfind,
        r.sectionLines_cons]

/-- The pass that filters lines, where names are found in the lines of products only. -/
theorem filterLines_lines (hfound : SkippedAtProducts skipOps r) :
    filterLines skipOps 0 r.lines =
      (r.header ++ r.sectionLines
          (r.sections.filter fun sec => (r.skippedAt skipOps sec).isNone),
        r.sections.filterMap (r.skippedAt skipOps)) := by
  have hsections := filterLines_sections hfound (List.Subset.refl _)
  have hlines : r.lines = r.header ++ r.sectionLines r.sections := rfl
  rw [hlines, filterLines_header hfound.header, hsections]

end

/-! ## The file written -/

/-- The file with the versions patched. -/
def ReleaseFile.patched (r : ReleaseFile) (operators : List OperatorArg) : ReleaseFile :=
  { r with sections := r.sections.map fun sec => sec.patchedBy (r.foundAt operators sec) }

/-- The operators are all found in the lines of products. -/
def ReleaseFile.FindsOperators (r : ReleaseFile) (operators : List OperatorArg) : Prop :=
  ∀ op ∈ operators.map OperatorArg.op, ∃ sec ∈ r.sections,
    (r.foundAt operators sec).map OperatorArg.op = some op

instance (r : ReleaseFile) (operators : List OperatorArg) :
    Decidable (r.FindsOperators operators) :=
  inferInstanceAs (Decidable (∀ op ∈ operators.map OperatorArg.op, _))

/-- Both passes find names in the lines of products only. The second one is only made if the first
has found all operators. -/
structure NamesAtProducts (r : ReleaseFile) (operators : List OperatorArg) (skipOps : List Text) :
    Prop where
  patched : OnlyAtProducts operators r
  skipped : r.FindsOperators operators → SkippedAtProducts skipOps (r.patched operators)

/-- Each name that is first in the line of a product is as good as that product's own : the names
are all found exactly if they are all products, and then each product that is not left out has its
own version, and is not found under another name to skip. -/
structure FindsProducts (r : ReleaseFile) (operators : List OperatorArg) (skipOps : List Text) :
    Prop where
  found : (r.FindsOperators operators ∧
      ∀ op ∈ skipOps, ∃ sec ∈ r.sections, r.skippedAt skipOps sec = some op) ↔
    ∀ name ∈ operators.map OperatorArg.op ++ skipOps, name ∈ r.products
  sections : (∀ name ∈ operators.map OperatorArg.op ++ skipOps, name ∈ r.products) →
    ∀ sec ∈ r.sections, sec.product ∉ skipOps → r.skippedAt skipOps sec = none ∧
      sec.patchedBy (r.foundAt operators sec) =
        sec.withVersion (operators.find? fun arg => arg.op = sec.product)

section

variable {r : ReleaseFile} {last : Text} {operators : List OperatorArg} {skipOps : List Text}

theorem filter_notMem_eq_nil_iff {names found : List Text} :
    names.filter (· ∉ found) = [] ↔ ∀ name ∈ names, name ∈ found := by
  simp [List.filter_eq_nil_iff]

/-- The file is written if both passes have found their names. -/
theorem releaseFile_eq {lines : List Text} {patched contents : List Text × List Text}
    (hpatch : patchLines operators [] lines = patched)
    (hfilter : filterLines skipOps 0 patched.1 = contents) :
    releaseFile operators skipOps lines =
      if (∀ name ∈ operators.map OperatorArg.op, name ∈ patched.2) ∧
        ∀ name ∈ skipOps, name ∈ contents.2 then
        .ok (['\n'].intercalate contents.1)
      else .error ⟨⟩ := by
  rw [releaseFile]
  simp only [hpatch, hfilter, ne_eq, filter_notMem_eq_nil_iff]
  by_cases hops : ∀ name ∈ operators.map OperatorArg.op, name ∈ patched.2
  · rw [if_neg (not_not.2 hops)]
    by_cases hskip : ∀ name ∈ skipOps, name ∈ contents.2
    · rw [if_neg (not_not.2 hskip), if_pos ⟨hops, hskip⟩]
    · rw [if_pos hskip, if_neg fun h => hskip h.2]
  · rw [if_pos hops, if_neg fun h => hops h.1]

/-- Whether a product is skipped does not depend on the versions. -/
@[simp] theorem ReleaseFile.skippedAt_patched (sec : Section) (arg? : Option OperatorArg) :
    (r.patched operators).skippedAt skipOps (sec.patchedBy arg?) = r.skippedAt skipOps sec := by
  have hline := r.productLine_patchedBy sec arg?
  change (r.patched operators).productLine (sec.patchedBy arg?) = r.productLine sec at hline
  rw [skippedAt, skippedAt, hline]

/-- The sections that are written. -/
def ReleaseFile.written (r : ReleaseFile) (operators : List OperatorArg) (skipOps : List Text) :
    List Section :=
  (r.sections.filter fun sec => (r.skippedAt skipOps sec).isNone).map fun sec =>
    sec.patchedBy (r.foundAt operators sec)

/-- What the second pass makes of the patched file. -/
theorem SkippedAtProducts.filterLines_patched
    (h : SkippedAtProducts skipOps (r.patched operators)) :
    filterLines skipOps 0 (r.patched operators).lines =
      ({ r with sections := r.written operators skipOps }.lines,
        r.sections.filterMap (r.skippedAt skipOps)) := by
  have hfilter := filterLines_lines h
  have hwritten : ((r.patched operators).sections.filter fun sec =>
      ((r.patched operators).skippedAt skipOps sec).isNone) = r.written operators skipOps := by
    rw [ReleaseFile.written, ReleaseFile.patched, List.filter_map]
    refine congrArg _ (List.filter_congr fun sec _ => ?_)
    exact congrArg Option.isNone (r.skippedAt_patched sec _)
  have hskipped : (r.patched operators).sections.filterMap
      ((r.patched operators).skippedAt skipOps) = r.sections.filterMap (r.skippedAt skipOps) := by
    rw [ReleaseFile.patched, List.filterMap_map]
    exact List.filterMap_congr fun sec _ => r.skippedAt_patched sec _
  rw [hwritten, hskipped] at hfilter
  exact hfilter

/-- What the two passes write. -/
theorem NamesAtProducts.releaseFile_eq (h : NamesAtProducts r operators skipOps)
    (hr : r.WellFormed) (hlast : IsLineEnd last) :
    releaseFile operators skipOps (withLineEnds last r.lines) =
      if r.FindsOperators operators ∧
          ∀ op ∈ skipOps, ∃ sec ∈ r.sections, r.skippedAt skipOps sec = some op then
        .ok (['\n'].intercalate { r with sections := r.written operators skipOps }.lines)
      else .error ⟨⟩ := by
  have hpatch : patchLines operators [] (withLineEnds last r.lines) = ((r.patched operators).lines,
      r.sections.filterMap fun sec => (r.foundAt operators sec).map OperatorArg.op) :=
    patchLines_lines hr hlast h.patched
  by_cases hops : r.FindsOperators operators
  · have hfile := RunTests.releaseFile_eq hpatch (h.skipped hops).filterLines_patched
    simp only [List.mem_filterMap] at hfile
    exact hfile
  · have hfile := RunTests.releaseFile_eq hpatch (rfl : filterLines skipOps 0 _ = _)
    simp only [List.mem_filterMap] at hfile
    rw [if_neg fun hfound => hops hfound.1] at hfile ⊢
    exact hfile

/-- Of the same list, two selections with values are the same if one selects no more than the other,
which selects no more than it, and they have the same values. -/
theorem filter_map_eq_iff {α β : Type*} {l : List α} {p q : α → Bool} {f g : α → β}
    (hpq : ∀ a ∈ l, p a = true → q a = true) :
    (l.filter p).map f = (l.filter q).map g ↔ ∀ a ∈ l, q a = true → p a = true ∧ f a = g a := by
  constructor
  · intro heq
    have hsub : (l.filter p).Sublist (l.filter q) := by
      have hself : l.filter p = (l.filter q).filter p := by
        rw [List.filter_filter]
        refine List.filter_congr fun a ha => Bool.eq_iff_iff.2 ?_
        rw [Bool.and_eq_true, iff_self_and]
        exact hpq a ha
      rw [hself]
      exact List.filter_sublist
    have hfilter : l.filter p = l.filter q := by
      refine hsub.eq_of_length ?_
      have hlength := congrArg List.length heq
      rwa [List.length_map, List.length_map] at hlength
    rw [hfilter, List.map_inj_left] at heq
    intro a ha hq
    have hmem : a ∈ l.filter q := List.mem_filter.2 ⟨ha, hq⟩
    rw [← hfilter] at hmem
    exact ⟨(List.mem_filter.1 hmem).2, heq a (List.mem_filter.2 ⟨ha, hq⟩)⟩
  · intro h
    have hfilter : l.filter p = l.filter q :=
      List.filter_congr fun a ha => Bool.eq_iff_iff.2 ⟨hpq a ha, fun hq => (h a ha hq).1⟩
    rw [hfilter]
    refine List.map_congr_left fun a ha => ?_
    obtain ⟨hmem, hq⟩ := List.mem_filter.1 ha
    exact (h a hmem hq).2

/-- A product that is to be skipped is found. -/
theorem ReleaseFile.notMem_of_skippedAt {sec : Section} (h : r.skippedAt skipOps sec = none) :
    sec.product ∉ skipOps := by
  intro hmem
  refine List.find?_eq_none.1 h sec.product hmem (decide_eq_true ?_)
  exact (List.infix_append (List.replicate r.productIndent ' ') sec.product [':'])

/-- The sections that should be written. -/
theorem ReleaseFile.sections_override_skip :
    ((r.override operators).skip skipOps).sections =
      (r.sections.filter fun sec => sec.product ∉ skipOps).map fun sec =>
        sec.withVersion (operators.find? fun arg => arg.op = sec.product) := by
  rw [skip, override, List.filter_map]
  refine congrArg _ (List.filter_congr fun sec _ => ?_)
  simp

/-- The sections written are those that should be. -/
theorem ReleaseFile.written_eq_iff :
    r.written operators skipOps = ((r.override operators).skip skipOps).sections ↔
      ∀ sec ∈ r.sections, sec.product ∉ skipOps → r.skippedAt skipOps sec = none ∧
        sec.patchedBy (r.foundAt operators sec) =
          sec.withVersion (operators.find? fun arg => arg.op = sec.product) := by
  rw [sections_override_skip, written, filter_map_eq_iff fun sec _ hnone => ?_]
  · simp [Option.isNone_iff_eq_none]
  · exact decide_eq_true (notMem_of_skippedAt (Option.isNone_iff_eq_none.1 hnone))

/-- Some name is no product. -/
theorem exists_unknown_iff {names : List Text} :
    (∃ name ∈ names, name ∉ r.products) ↔ ¬∀ name ∈ names, name ∈ r.products := by
  simp only [not_forall, exists_prop]

/-- Where each name is as good as its product's own, the file is edited as it should be. -/
theorem NamesAtProducts.edits (h : NamesAtProducts r operators skipOps)
    (hfinds : FindsProducts r operators skipOps) (hr : r.WellFormed) (hlast : IsLineEnd last) :
    EditsNamedProducts r last operators skipOps := by
  rw [EditsNamedProducts, exists_unknown_iff, h.releaseFile_eq hr hlast]
  split
  · rename_i hfound
    have hnames := hfinds.found.1 hfound
    refine ⟨iff_of_false (by simp) (not_not.2 hnames), fun contents hcontents => ?_⟩
    have hwritten := ReleaseFile.written_eq_iff.2 (hfinds.sections hnames)
    rw [← Except.ok.inj hcontents, hwritten]
    rfl
  · rename_i hfound
    refine ⟨iff_of_true rfl fun hnames => hfound (hfinds.found.2 hnames), fun contents h => ?_⟩
    cases h

theorem ReleaseFile.WellFormed.lines {r : ReleaseFile} (hr : r.WellFormed) :
    ∀ line ∈ r.lines, '\n' ∉ line := by
  intro line hline
  rcases List.mem_append.1 hline with hline | hline
  · exact hr.header line hline
  · obtain ⟨sec, hsec, hline⟩ := List.mem_flatMap.1 hline
    obtain ⟨hproduct, hversion⟩ := hr.sections sec hsec
    rcases List.mem_pair.1 hline with rfl | rfl
    · exact r.newline_notMem_productLine hproduct
    · exact r.newline_notMem_versionLine hversion

theorem sectionLines_injective {r : ReleaseFile} {sections sections' : List Section}
    (h : r.sectionLines sections = r.sectionLines sections') : sections = sections' := by
  induction sections generalizing sections' with
  | nil =>
    cases sections' with
    | nil => rfl
    | cons sec' sections' => cases h
  | cons sec sections ih =>
    cases sections' with
    | nil => cases h
    | cons sec' sections' =>
      rw [r.sectionLines_cons, r.sectionLines_cons, List.cons.injEq, List.cons.injEq] at h
      obtain ⟨hproduct, hversion, hrest⟩ := h
      have hproduct' := List.append_cancel_left (List.append_cancel_right hproduct)
      have hversion' := List.append_cancel_left hversion
      obtain ⟨product, version⟩ := sec
      obtain ⟨product', version'⟩ := sec'
      obtain rfl : product = product' := hproduct'
      obtain rfl : version = version' := hversion'
      rw [ih hrest]

/-- The sections are known from the text of a file. -/
theorem ReleaseFile.WellFormed.sections_injective {sections sections' : List Section}
    (h : { r with sections }.WellFormed) (h' : { r with sections := sections' }.WellFormed)
    (heq : ['\n'].intercalate { r with sections }.lines =
      ['\n'].intercalate { r with sections := sections' }.lines) : sections = sections' := by
  have hne : ∀ sections, { r with sections : ReleaseFile }.lines ≠ [] :=
    fun _ => List.append_ne_nil_of_left_ne_nil h.nonempty _
  have hlines : { r with sections : ReleaseFile }.lines =
      { r with sections := sections' : ReleaseFile }.lines := by
    rw [← List.splitOn_intercalate '\n' h.lines (hne _), heq,
      List.splitOn_intercalate '\n' h'.lines (hne _)]
  exact sectionLines_injective (List.append_cancel_left hlines)

/-- The section has its version, or one of those given. -/
def Section.HasVersion (operators : List OperatorArg) (sec sec' : Section) : Prop :=
  sec'.product = sec.product ∧ ∀ c ∈ sec'.version, c ∈ sec.version ∨
    ∃ arg ∈ operators, c ∈ arg.version

theorem Section.hasVersion_withVersion {arg? : Option OperatorArg}
    (h : ∀ arg ∈ arg?, arg ∈ operators) (sec : Section) :
    sec.HasVersion operators (sec.withVersion arg?) := by
  refine ⟨sec.withVersion_product arg?, fun c hc => ?_⟩
  cases arg? with
  | none => exact Or.inl hc
  | some arg => exact Or.inr ⟨arg, h arg rfl, hc⟩

theorem Section.hasVersion_patchedBy {arg? : Option OperatorArg}
    (h : ∀ arg ∈ arg?, arg ∈ operators) (sec : Section) :
    sec.HasVersion operators (sec.patchedBy arg?) := by
  refine ⟨sec.patchedBy_product arg?, fun c hc => ?_⟩
  cases arg? with
  | none => exact Or.inl hc
  | some arg =>
    by_cases hempty : arg.version = []
    · rw [Section.patchedBy, if_pos hempty] at hc
      exact Or.inl hc
    · rw [Section.patchedBy_some hempty] at hc
      exact Or.inr ⟨arg, h arg rfl, (List.rdropWhile_prefix _ _).subset hc⟩

/-- Versions on one line can be given to any sections. -/
theorem ReleaseFile.WellFormed.map_sections (hr : r.WellFormed)
    (hplain : ∀ arg ∈ operators, '\n' ∉ arg.version) {sections : List Section}
    (hsub : sections ⊆ r.sections) {f : Section → Section}
    (hf : ∀ sec : Section, sec.HasVersion operators (f sec)) :
    { r with sections := sections.map f }.WellFormed := by
  refine ⟨hr.nonempty, hr.header, fun sec' hsec' => ?_⟩
  obtain ⟨sec, hsec, rfl⟩ := List.mem_map.1 hsec'
  obtain ⟨hproduct, hversion⟩ := hr.sections sec (hsub hsec)
  refine ⟨by rw [(hf sec).1]; exact hproduct, fun hmem => ?_⟩
  rcases (hf sec).2 _ hmem with h | ⟨arg, harg, h⟩
  · exact hversion h
  · exact hplain arg harg h

theorem ReleaseFile.WellFormed.override_skip (hr : r.WellFormed)
    (hplain : ∀ arg ∈ operators, '\n' ∉ arg.version) :
    { r with sections := ((r.override operators).skip skipOps).sections }.WellFormed := by
  rw [ReleaseFile.sections_override_skip]
  exact hr.map_sections hplain (List.filter_subset_self _) fun sec =>
    Section.hasVersion_withVersion (fun _ hfind => List.mem_of_find?_eq_some hfind) sec

/-- The file is edited as it should be exactly if each name is as good as its product's own. -/
theorem NamesAtProducts.edits_iff (h : NamesAtProducts r operators skipOps) (hr : r.WellFormed)
    (hlast : IsLineEnd last) (hplain : ∀ arg ∈ operators, '\n' ∉ arg.version) :
    EditsNamedProducts r last operators skipOps ↔ FindsProducts r operators skipOps := by
  refine ⟨fun hedits => ?_, fun hfinds => h.edits hfinds hr hlast⟩
  rw [EditsNamedProducts, exists_unknown_iff, h.releaseFile_eq hr hlast] at hedits
  split at hedits
  · rename_i hfound
    have hnames := not_not.1 (mt hedits.1.2 (by simp))
    refine ⟨iff_of_true hfound hnames, fun _ => ?_⟩
    have hcontents := hedits.2 _ rfl
    have hwritten : { r with sections := r.written operators skipOps }.WellFormed :=
      hr.map_sections hplain (List.filter_subset_self _) fun sec =>
        Section.hasVersion_patchedBy (fun _ hfind => List.mem_of_find?_eq_some hfind) sec
    exact ReleaseFile.written_eq_iff.1
      (hwritten.sections_injective (hr.override_skip hplain) hcontents)
  · rename_i hfound
    have hnames := hedits.1.1 rfl
    exact ⟨iff_of_false hfound hnames, fun hall => absurd hall hnames⟩

end

/-! ## Names found at their products -/

/-- Where the passes find the names at their products only, and the versions of the products that
are kept can be patched in. -/
structure FoundAlone (r : ReleaseFile) (operators : List OperatorArg) (skipOps : List Text) :
    Prop where
  patched : FoundAtProducts (operators.map OperatorArg.op) r (NotGiven operators) ['\n']
  /-- The second pass is only made if the operators are all products. -/
  skipped : (∀ op ∈ operators.map OperatorArg.op, op ∈ r.products) →
    FoundAtProducts skipOps (r.patched operators) (·.product ∉ skipOps) []
  /-- Neither is an empty version patched in, nor the line ends at the end of one. -/
  given : (∀ name ∈ operators.map OperatorArg.op ++ skipOps, name ∈ r.products) →
    ∀ sec ∈ r.sections, sec.product ∉ skipOps → ∀ arg ∈ operators, arg.op = sec.product →
      (arg.version = [] → sec.version = []) ∧ arg.version.getLast? ≠ some '\n'

section

variable {r : ReleaseFile} {last : Text} {operators : List OperatorArg} {skipOps : List Text}

theorem FoundAtProducts.skippedAt_eq {looked : Section → Prop}
    (hfound : FoundAtProducts skipOps r looked []) {sec : Section} (hsec : sec ∈ r.sections) :
    r.skippedAt skipOps sec = if sec.product ∈ skipOps then some sec.product else none := by
  have hfind := hfound.product sec hsec
  rwa [List.append_nil] at hfind

theorem FoundAtProducts.skippedAtProducts
    (hfound : FoundAtProducts skipOps r (·.product ∉ skipOps) []) :
    SkippedAtProducts skipOps r where
  header line hline name hname h :=
    hfound.header line hline name hname (by rwa [List.append_nil])
  version sec hsec hnone name hname h := by
    have hmem : sec.product ∉ skipOps := by
      rw [hfound.skippedAt_eq hsec, ite_eq_right_iff] at hnone
      exact fun hmem => Option.some_ne_none _ (hnone hmem)
    exact hfound.version sec hsec hmem name hname (by rwa [List.append_nil])

namespace FoundAlone

/-- The operators are all found if they are all products. -/
theorem findsOperators_iff (h : FoundAlone r operators skipOps)
    (hdistinct : (operators.map OperatorArg.op).Nodup) :
    r.FindsOperators operators ↔ ∀ op ∈ operators.map OperatorArg.op, op ∈ r.products :=
  forall₂_congr fun _ hname => h.patched.exists_foundAt_iff hdistinct hname

/-- Only the products to skip are skipped. -/
theorem skippedAt_eq (h : FoundAlone r operators skipOps)
    (hops : ∀ op ∈ operators.map OperatorArg.op, op ∈ r.products) {sec : Section}
    (hsec : sec ∈ r.sections) :
    r.skippedAt skipOps sec = if sec.product ∈ skipOps then some sec.product else none := by
  have hpatched : sec.patchedBy (r.foundAt operators sec) ∈ (r.patched operators).sections :=
    List.mem_map_of_mem hsec
  have hfind := (h.skipped hops).skippedAt_eq hpatched
  rwa [ReleaseFile.skippedAt_patched, Section.patchedBy_product] at hfind

theorem namesAtProducts (h : FoundAlone r operators skipOps)
    (hdistinct : (operators.map OperatorArg.op).Nodup) :
    NamesAtProducts r operators skipOps where
  patched := h.patched.onlyAtProducts hdistinct
  skipped hfinds := (h.skipped ((h.findsOperators_iff hdistinct).1 hfinds)).skippedAtProducts

/-- The names to skip that are found are the products. -/
theorem exists_skippedAt_iff (h : FoundAlone r operators skipOps)
    (hops : ∀ op ∈ operators.map OperatorArg.op, op ∈ r.products) {name : Text}
    (hname : name ∈ skipOps) :
    (∃ sec ∈ r.sections, r.skippedAt skipOps sec = some name) ↔ name ∈ r.products := by
  simp only [ReleaseFile.products, List.mem_map]
  refine exists_congr fun sec => and_congr_right fun hsec => ?_
  rw [h.skippedAt_eq hops hsec]
  constructor
  · intro hfind
    split at hfind
    · exact Option.some.inj hfind
    · cases hfind
  · rintro rfl
    rw [if_pos hname]

/-- A product that is kept gets the version given for it. -/
theorem patchedBy_eq (h : FoundAlone r operators skipOps)
    (hdistinct : (operators.map OperatorArg.op).Nodup)
    (hnames : ∀ name ∈ operators.map OperatorArg.op ++ skipOps, name ∈ r.products) {sec : Section}
    (hsec : sec ∈ r.sections) (hkept : sec.product ∉ skipOps) :
    sec.patchedBy (r.foundAt operators sec) =
      sec.withVersion (operators.find? fun arg => arg.op = sec.product) := by
  rw [h.patched.foundAt_eq hdistinct hsec]
  cases hfind : operators.find? fun arg => arg.op = sec.product with
  | none => rfl
  | some arg =>
    have hop : arg.op = sec.product := by simpa using List.find?_some hfind
    obtain ⟨hempty, hend⟩ :=
      h.given hnames sec hsec hkept arg (List.mem_of_find?_eq_some hfind) hop
    by_cases hversion : arg.version = []
    · rw [Section.patchedBy, if_pos hversion, Section.withVersion, hversion, ← hempty hversion]
    · rw [Section.patchedBy_some hversion, rstrip_eq_self hend, Section.withVersion]

theorem findsProducts (h : FoundAlone r operators skipOps)
    (hdistinct : (operators.map OperatorArg.op).Nodup) :
    FindsProducts r operators skipOps where
  found := by
    rw [List.forall_mem_append, h.findsOperators_iff hdistinct]
    refine and_congr_right fun hops => ?_
    exact forall₂_congr fun name hname => h.exists_skippedAt_iff hops hname
  sections hnames sec hsec hkept := by
    have hops := (List.forall_mem_append.1 hnames).1
    refine ⟨?_, h.patchedBy_eq hdistinct hnames hsec hkept⟩
    rw [h.skippedAt_eq hops hsec, if_neg hkept]

end FoundAlone

/-- Names found alone are as good as their products' own. -/
theorem FoundAlone.edits (h : FoundAlone r operators skipOps) (hr : r.WellFormed)
    (hlast : IsLineEnd last) (hdistinct : (operators.map OperatorArg.op).Nodup) :
    EditsNamedProducts r last operators skipOps :=
  (h.namesAtProducts hdistinct).edits (h.findsProducts hdistinct) hr hlast

end

/-! ## Names that are no products -/

section

variable {arg : OperatorArg} {op : Text}

/-- A single operator is found if some line contains its name. -/
theorem mem_patchLines_iff {lines : List Text} :
    arg.op ∈ (patchLines [arg] [] lines).2 ↔ ∃ line ∈ lines, arg.op <:+: line := by
  induction lines with
  | nil => simp [patchLines]
  | cons line lines ih =>
    by_cases hline : arg.op <:+: line
    · have hfind : [arg].find? (fun arg => arg.op <:+: line) = some arg := by simp [hline]
      rw [patchLines_some hfind]
      simp [hline]
    · have hfind : [arg].find? (fun arg => arg.op <:+: line) = none := by simp [hline]
      rw [patchLines_of_find?_eq_none hfind]
      simp [hline, ih]

theorem filterLines_nil (lines : List Text) : filterLines [] 0 lines = (lines, []) := by
  induction lines with
  | nil => rfl
  | cons line lines ih =>
    rw [filterLines_none (by simp), ih]

/-- A single name to skip is found if some line contains it. -/
theorem mem_filterLines_iff {lines : List Text} :
    op ∈ (filterLines [op] 0 lines).2 ↔ ∃ line ∈ lines, op <:+: line := by
  induction lines with
  | nil => simp [filterLines]
  | cons line lines ih =>
    by_cases hline : op <:+: line
    · have hfind : [op].find? (fun op => op <:+: line) = some op := by simp [hline]
      rw [filterLines, hfind]
      simp [hline]
    · rw [filterLines_none (by simpa using hline)]
      simp [hline, ih]

/-- With a name that is no product, the file is edited as it should be if an exception is raised. -/
theorem edits_unknown_iff {r : ReleaseFile} {last : Text} {operators : List OperatorArg}
    {skipOps : List Text}
    (hunknown : ∃ name ∈ operators.map OperatorArg.op ++ skipOps, name ∉ r.products) :
    EditsNamedProducts r last operators skipOps ↔
      releaseFile operators skipOps (withLineEnds last r.lines) = .error ⟨⟩ := by
  constructor
  · intro hedits
    exact hedits.1.2 hunknown
  · intro hraises
    refine ⟨iff_of_true hraises hunknown, fun contents hcontents => ?_⟩
    cases hraises.symm.trans hcontents

/-- A name that is no product is refused exactly if no line contains it. -/
theorem edits_unknownOperator_iff {r : ReleaseFile} {last : Text} (hop : arg.op ∉ r.products) :
    EditsNamedProducts r last [arg] [] ↔
      ∀ line ∈ withLineEnds last r.lines, ¬arg.op <:+: line := by
  have hunknown : ∃ name ∈ [arg].map OperatorArg.op ++ [], name ∉ r.products :=
    ⟨arg.op, by simp, hop⟩
  have hfile := @releaseFile_eq [arg] [] (withLineEnds last r.lines) _ _ rfl rfl
  rw [edits_unknown_iff hunknown, hfile, ite_eq_right_iff]
  simp [mem_patchLines_iff]

/-- Without versions to patch in, the lines stay as they are. -/
theorem patchLines_unpatched {operators : List OperatorArg}
    (h : ∀ arg ∈ operators, arg.version = []) (lines : List Text) :
    (patchLines operators [] lines).1 = lines.map rstrip := by
  induction lines with
  | nil => rfl
  | cons line lines ih =>
    cases hfind : operators.find? fun arg => arg.op <:+: line with
    | some arg =>
      rw [patchLines_some hfind, h arg (List.mem_of_find?_eq_some hfind), ih]
      rfl
    | none =>
      rw [patchLines_of_find?_eq_none hfind, ih]
      rfl

theorem map_rstrip_withLineEnds {last : Text} (hlast : IsLineEnd last) {lines : List Text}
    (h : ∀ line ∈ lines, '\n' ∉ line) : (withLineEnds last lines).map rstrip = lines := by
  induction lines with
  | nil => rfl
  | cons line lines ih =>
    have hend := hlast.of_lines lines
    rw [withLineEnds, List.map_cons, ih fun line' h' => h line' (List.mem_cons_of_mem _ h'),
      rstrip_line hend (h line List.mem_cons_self)]

/-- The same of a name to skip. -/
theorem edits_unknownSkipped_iff {r : ReleaseFile} {last : Text} (hr : r.WellFormed)
    (hlast : IsLineEnd last) (hop : op ∉ r.products) :
    EditsNamedProducts r last [] [op] ↔ ∀ line ∈ r.lines, ¬op <:+: line := by
  have hunknown : ∃ name ∈ [].map OperatorArg.op ++ [op], name ∉ r.products :=
    ⟨op, by simp, hop⟩
  have hfile := @releaseFile_eq [] [op] (withLineEnds last r.lines) _ _ rfl rfl
  rw [patchLines_unpatched (by simp), map_rstrip_withLineEnds hlast hr.lines] at hfile
  rw [edits_unknown_iff hunknown, hfile, ite_eq_right_iff]
  simp [mem_filterLines_iff]

/-! ## Empty versions -/

/-- An empty version is not patched in. -/
theorem not_edits_emptyVersion {r : ReleaseFile} {last : Text} (hr : r.WellFormed)
    (hlast : IsLineEnd last) (hempty : arg.version = []) {sec : Section} (hsec : sec ∈ r.sections)
    (hproduct : sec.product = arg.op) (hversion : sec.version ≠ []) :
    ¬EditsNamedProducts r last [arg] [] := by
  intro hedits
  have hfile := @releaseFile_eq [arg] [] (withLineEnds last r.lines) _ _ rfl rfl
  rw [patchLines_unpatched (by simpa using hempty), map_rstrip_withLineEnds hlast hr.lines,
    filterLines_nil] at hfile
  split at hfile
  · -- the file is written as it was read
    have hcontents := hedits.2 _ hfile
    have hplain : ∀ arg' ∈ [arg], '\n' ∉ arg'.version := by simp [hempty]
    have hsections := hr.sections_injective (hr.override_skip hplain) hcontents
    have hself : sec.withVersion none =
        sec.withVersion ([arg].find? fun arg => arg.op = sec.product) := by
      rw [ReleaseFile.sections_override_skip, List.filter_eq_self.2 (by simp)] at hsections
      nth_rewrite 1 [← List.map_id r.sections] at hsections
      exact List.map_inj_left.1 hsections sec hsec
    rw [List.find?_cons_of_pos (by simp [hproduct])] at hself
    exact hversion ((congrArg Section.version hself).trans hempty)
  · obtain ⟨name, hname, hunknown⟩ := hedits.1.1 hfile
    obtain rfl : name = arg.op := by simpa using hname
    exact hunknown (List.mem_map.2 ⟨sec, hsec, hproduct⟩)

end

/-- When the release file is edited as the arguments say. For any operators and products to skip,
it is if their names are found at their products only, in the lines that are looked at, and the
versions of the products that are kept can be patched in. Where names are found at products only,
but maybe at other ones, it is exactly if they are as good as the products' own, a name that is no
product, given alone, is refused exactly if no line contains it, and an empty version is not patched
in. -/
theorem release_file_edits {r : ReleaseFile} {last : Text} (hr : r.WellFormed)
    (hlast : IsLineEnd last) :
    (∀ operators skipOps, (operators.map OperatorArg.op).Nodup → FoundAlone r operators skipOps →
      EditsNamedProducts r last operators skipOps) ∧
    (∀ operators skipOps, NamesAtProducts r operators skipOps →
      (∀ arg ∈ operators, '\n' ∉ arg.version) →
      (EditsNamedProducts r last operators skipOps ↔ FindsProducts r operators skipOps)) ∧
    (∀ arg : OperatorArg, arg.op ∉ r.products → (EditsNamedProducts r last [arg] [] ↔
      ∀ line ∈ withLineEnds last r.lines, ¬arg.op <:+: line)) ∧
    (∀ op, op ∉ r.products → (EditsNamedProducts r last [] [op] ↔
      ∀ line ∈ r.lines, ¬op <:+: line)) ∧
    ∀ arg : OperatorArg, arg.version = [] →
      (∃ sec ∈ r.sections, sec.product = arg.op ∧ sec.version ≠ []) →
        ¬EditsNamedProducts r last [arg] [] := by
  refine ⟨fun operators skipOps hdistinct hfound => hfound.edits hr hlast hdistinct,
    fun operators skipOps hnames hplain => hnames.edits_iff hr hlast hplain,
    fun arg hop => edits_unknownOperator_iff hop,
    fun op hop => edits_unknownSkipped_iff hr hlast hop, fun arg hversion hsec => ?_⟩
  obtain ⟨sec, hsec, hproduct, hne⟩ := hsec
  exact not_edits_emptyVersion hr hlast hversion hsec hproduct hne

/-- `tests/release.yaml`. -/
def testsRelease : ReleaseFile where
  header := ["# Contains all operators required to run the test suite.".toList, "---".toList,
    "releases:".toList,
    "  # Do not change the name of the release as it's referenced from scripts/run-tests".toList,
    "  tests:".toList, "    releaseDate: 1970-01-01".toList,
    "    description: Integration test".toList, "    products:".toList]
  sections := [{ product := "commons".toList, version := "0.0.0-dev".toList }]
  productIndent := 6
  versionIndent := 8

theorem testsRelease_wellFormed : testsRelease.WellFormed :=
  ⟨by decide +kernel, by decide +kernel, by decide +kernel⟩

/-- An `--operator` argument for the version 24.7.0. -/
def operatorArg (op : String) : OperatorArg where
  op := op.toList
  version := "24.7.0".toList
  plain := by decide +kernel

/-- The repository's own file, with more products. -/
def severalProducts : ReleaseFile :=
  { testsRelease with sections := ["commons", "hdfs", "hive", "secret"].map fun product =>
      { product := product.toList, version := "0.0.0-dev".toList } }

theorem severalProducts_wellFormed : severalProducts.WellFormed :=
  ⟨by decide +kernel, by decide +kernel, by decide +kernel⟩

/-- Of several products, one is overridden, one is skipped and one is both. -/
theorem foundAlone_severalProducts :
    FoundAlone severalProducts [operatorArg "hdfs", operatorArg "hive"]
      ["secret".toList, "hive".toList] := by
  refine ⟨⟨?_, ?_, ?_⟩, fun _ => ⟨?_, ?_, ?_⟩, fun _ => ?_⟩
  all_goals decide +kernel

/-- The first pass refuses `nope`, and `test`, which it would find in a comment, is not looked
for. -/
theorem foundAlone_refused :
    FoundAlone testsRelease [operatorArg "nope"] ["test".toList] := by
  have hunknown : ¬∀ op ∈ [operatorArg "nope"].map OperatorArg.op, op ∈ testsRelease.products := by
    decide +kernel
  refine ⟨⟨?_, ?_, ?_⟩, fun hops => absurd hops hunknown, fun hnames =>
    absurd (List.forall_mem_append.1 hnames).1 hunknown⟩
  all_goals decide +kernel

theorem release_file_edits_several :
    EditsNamedProducts severalProducts ['\n'] [operatorArg "hdfs", operatorArg "hive"]
        ["secret".toList, "hive".toList] ∧
      EditsNamedProducts testsRelease ['\n'] [operatorArg "nope"] ["test".toList] :=
  ⟨(release_file_edits severalProducts_wellFormed (Or.inr rfl)).1 _ _ (by decide +kernel)
      foundAlone_severalProducts,
    (release_file_edits testsRelease_wellFormed (Or.inr rfl)).1 _ _ (by decide +kernel)
      foundAlone_refused⟩

/-- A name that is no product, but is found in a comment, is not refused. -/
theorem notProduct_releaseFile : ¬∀ (r : ReleaseFile) (last : Text) (operators : List OperatorArg)
    (skipOps : List Text), r.WellFormed → IsLineEnd last →
    (operators.map OperatorArg.op).Nodup → EditsNamedProducts r last operators skipOps := by
  intro h
  have hedits := h testsRelease ['\n'] [operatorArg "test"] [] testsRelease_wellFormed (Or.inr rfl)
    (List.nodup_singleton _)
  have hunknown : ∃ name ∈ [operatorArg "test"].map OperatorArg.op ++ [],
      name ∉ testsRelease.products := by
    decide +kernel
  have hraises := hedits.1.2 hunknown
  have hwritten : (releaseFile [operatorArg "test"] []
      (withLineEnds ['\n'] testsRelease.lines)).isOk = true := by
    decide +kernel
  rw [hraises] at hwritten
  cases hwritten

end CommonsOperator.RunTests
