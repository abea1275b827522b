import CommonsOperator.QualifiedName
import CommonsOperator.RetryRunner
import CommonsOperator.RunTestsMain

/-!
# The command line of `run-tests`

`parse_args` of `run-tests`, as `argparse` goes about it : every argument is first classified, as
an option or as a value, and then the options consume values from the left to the right. An option
may be abbreviated, and its value may be attached with `=`. What is left over is an error.

`build_test_command` of `auto-retry-tests.py` makes such command lines.
`parseArgs_buildTestCommand` : they are read as they were meant, whatever extra arguments follow.
-/

set_option linter.unusedSectionVars false

namespace CommonsOperator.RunTests

/-! ## Values -/

/-- What is left of a text without the white space around it. -/
def strip (text : Text) : Text :=
  (text.dropWhile AutoRetryTests.isSpace).rdropWhile AutoRetryTests.isSpace

/-- Digits, with single underscores between them. -/
def naturalOf (text : Text) : Option Nat :=
  if isWord Char.isDigit (fun c => c.isDigit || c = '_') text ∧ ¬['_', '_'] <:+: text then
    some (Nat.ofDigitChars 10 (text.filter (· ≠ '_')) 0)
  else none

/-- `int`, of a text in ASCII. -/
def int (text : String) : Option Int :=
  match strip text.toList with
  | '-' :: digits => (naturalOf digits).map fun n => -(n : Int)
  | '+' :: digits => (naturalOf digits).map fun n => (n : Int)
  | digits => (naturalOf digits).map fun n => (n : Int)

/-- `str.split("=", maxsplit=1)`, if there is a `=`. -/
def splitEq (text : String) : Option (String × String) :=
  if '=' ∈ text.toList then
    some (String.ofList (text.toList.takeWhile (· ≠ '=')),
      String.ofList ((text.toList.dropWhile (· ≠ '=')).drop 1))
  else none

/-- `cli_log_level`. -/
def logLevel : String → Option Nat
  | "debug" => some 10
  | "info" => some 20
  | "error" => some 40
  | "warning" => some 30
  | "critical" => some 50
  | _ => none

/-! ## Options -/

/-- What `parse_args` returns. -/
structure Args where
  skipDelete : Bool
  skipTests : Bool
  skipRelease : Bool
  parallel : Int
  operator : List (String × String)
  skipOperator : List String
  test : Option String
  testSuite : Option String
  logLevel : Nat
  /-- `namespace`. -/
  ns : Option String
  workDir : String
  listenerClassPreset : Option String

/-- The defaults. -/
def Args.default : Args where
  skipDelete := false
  skipTests := false
  skipRelease := false
  parallel := 2
  operator := []
  skipOperator := []
  test := none
  testSuite := none
  logLevel := 20
  ns := none
  workDir := "tests/_work"
  listenerClassPreset := none

/-- What an option does. A value that its type does not take is an error. -/
inductive Action where
  /-- It prints something and exits. -/
  | exit
  | flag (set : Args → Args)
  | value (set : String → Args → Option Args)

/-- The options of `parse_args`. -/
def actions : List (String × Action) :=
  [("-h", .exit), ("--help", .exit), ("--version", .exit),
    ("--skip-delete", .flag fun args => { args with skipDelete := true }),
    ("--skip-tests", .flag fun args => { args with skipTests := true }),
    ("--skip-release", .flag fun args => { args with skipRelease := true }),
    ("--parallel", .value fun value args =>
      (int value).map fun parallel => { args with parallel }),
    ("--operator", .value fun value args =>
      (splitEq value).map fun arg => { args with operator := args.operator ++ [arg] }),
    ("--skip-operator", .value fun value args =>
      some { args with skipOperator := args.skipOperator ++ [value] }),
    ("--test", .value fun value args => some { args with test := some value }),
    ("--test-suite", .value fun value args => some { args with testSuite := some value }),
    ("--log-level", .value fun value args =>
      (RunTests.logLevel value).map fun logLevel => { args with logLevel }),
    ("--namespace", .value fun value args => some { args with ns := some value }),
    ("--work-dir", .value fun value args => some { args with workDir := value }),
    ("--listener-class-preset", .value fun value args =>
      some { args with listenerClassPreset := some value })]

/-! ## Classifying the arguments -/

/-- An option with the value attached to it, and whether it was given with a single dash. -/
structure Match where
  action : Action
  attached : Option String
  short : Bool

/-- How an argument is classified. -/
inductive Token where
  | value (text : String)
  | option (found : Match)
  /-- It looks like an option, and is none. -/
  | unknown

/-- The script exits, with this code. -/
structure Exit where
  code : Nat

/-- `-` and digits, possibly with a fraction, and possibly a line end after them. -/
def isNegativeNumber (text : Text) : Bool :=
  match text with
  | '-' :: line =>
    let number := if line.getLast? = some '\n' then line.dropLast else line
    let whole := number.takeWhile Char.isDigit
    match number.dropWhile Char.isDigit with
    | [] => !whole.isEmpty
    | '.' :: fraction => !fraction.isEmpty && fraction.all Char.isDigit
    | _ => false
  | _ => false

/-- `str.startswith`. -/
def hasPrefix (text start : String) : Bool :=
  start.toList.isPrefixOf text.toList

/-- `_get_option_tuples` : the options the argument may be an abbreviation of. -/
def abbreviated (arg : String) : List Match :=
  if hasPrefix arg "--" then
    let (name, attached) := match splitEq arg with
      | some (name, value) => (name, some value)
      | none => (arg, none)
    (actions.filter fun option => hasPrefix option.1 name).map fun option =>
      ⟨option.2, attached, false⟩
  else
    actions.filterMap fun option =>
      if option.1.toList = arg.toList.take 2 then
        some ⟨option.2, some (String.ofList (arg.toList.drop 2)), true⟩
      else if hasPrefix option.1 arg then some ⟨option.2, none, true⟩
      else none

/-- `_parse_optional`. -/
def parseOptional (arg : String) : Except Exit Token :=
  if arg.toList.head? ≠ some '-' then .ok (.value arg)
  else
    match Assoc.get? actions arg with
    | some action => .ok (.option ⟨action, none, false⟩)
    | none =>
      if arg.toList.length = 1 then .ok (.value arg)
      else
        match (splitEq arg).bind fun (name, value) =>
            (Assoc.get? actions name).map fun action =>
              (⟨action, some value, !hasPrefix name "--"⟩ : Match) with
        | some found => .ok (.option found)
        | none =>
          match abbreviated arg with
          | [found] => .ok (.option found)
          | _ :: _ => .error ⟨2⟩
          | [] =>
            if isNegativeNumber arg.toList ∨ ' ' ∈ arg.toList then .ok (.value arg)
            else .ok .unknown

/-- Every argument is classified. After `--` all are values. -/
def classify : List String → Except Exit (List Token)
  | [] => .ok []
  | arg :: argv =>
    if arg = "--" then .ok (.unknown :: argv.map .value)
    else do
      let token ← parseOptional arg
      return token :: (← classify argv)

/-! ## Consuming them -/

/-- `consume_optional`, over all arguments. No positional arguments are expected, and it is an
error if some were found by the end. -/
def consume : List Token → Bool → Args → Except Exit Args
  | [], extras, args => if extras then .error ⟨2⟩ else .ok args
  | .value _ :: tokens, _, args => consume tokens true args
  | .unknown :: tokens, _, args => consume tokens true args
  | .option ⟨.exit, none, _⟩ :: _, _, _ => .error ⟨0⟩
  | .option ⟨.exit, some attached, short⟩ :: _, _, _ =>
    -- `-hh` is `-h -h`, and so is `-h=h`
    .error ⟨if short ∧ attached ≠ "" ∧ attached.toList.all (· = 'h') then 0 else 2⟩
  | .option ⟨.flag set, none, _⟩ :: tokens, extras, args => consume tokens extras (set args)
  | .option ⟨.flag _, some _, _⟩ :: _, _, _ => .error ⟨2⟩
  | .option ⟨.value set, some attached, _⟩ :: tokens, extras, args =>
    match set attached args with
    | some args => consume tokens extras args
    | none => .error ⟨2⟩
  | .option ⟨.value set, none, _⟩ :: .value text :: tokens, extras, args =>
    match set text args with
    | some args => consume tokens extras args
    | none => .error ⟨2⟩
  | .option ⟨.value _, none, _⟩ :: _, _, _ => .error ⟨2⟩

/-- The arguments are read on top of those read so far. -/
def parseFrom (args : Args) (argv : List String) : Except Exit Args := do
  consume (← classify argv) false args

/-- `parse_args`. -/
def parseArgs (argv : List String) : Except Exit Args :=
  parseFrom Args.default argv

/-! ## The script -/

/-- The operators as `release_file` takes them. -/
def operatorArgOf (arg : String × String) : Option OperatorArg :=
  if h : '\\' ∉ arg.2.toList then some ⟨arg.1.toList, arg.2.toList, h⟩ else none

/-- What `main` reads of the arguments, if the versions are taken by `re.sub` as they are. -/
def Args.options? (args : Args) : Option Options :=
  (args.operator.mapM operatorArgOf).map fun operator => {
    skipDelete := args.skipDelete
    skipTests := args.skipTests
    skipRelease := args.skipRelease
    parallel := args.parallel
    operator
    skipOperator := args.skipOperator.map String.toList
    test := args.test
    testSuite := args.testSuite
    ns := args.ns
    workDir := args.workDir
    listenerClassPreset := args.listenerClassPreset }

/-- The script, with the arguments after its name : its exit code, and the processes it runs. -/
def script (env : Env) (argv : List String) : Option (Int × List Invocation) :=
  match parseArgs argv with
  | .error exit => some (exit.code, [])
  | .ok args => args.options?.map fun opts =>
    let (result, world) := (main env opts).exec World.new
    (exitCode result, world.invocations)

/-! ## What is read -/

section

/-- A value that does not look like an option. -/
def IsValue (text : String) : Prop :=
  text.toList.head? ≠ some '-'

theorem parseOptional_value {text : String} (h : IsValue text) :
    parseOptional text = .ok (.value text) := by
  unfold parseOptional
  exact if_pos h

theorem ne_dashes_of_isValue {text : String} (h : IsValue text) : text ≠ "--" := by
  rintro rfl
  exact h rfl

theorem classify_cons {arg : String} {token : Token} (hne : arg ≠ "--")
    (h : parseOptional arg = .ok token) (argv : List String) :
    classify (arg :: argv) = (classify argv).map fun tokens => token :: tokens := by
  rw [classify, if_neg hne, h]
  cases classify argv <;> rfl

/-- An option that takes no value. -/
theorem parseFrom_flag {option : String} {set : Args → Args}
    (hparse : parseOptional option = .ok (.option ⟨.flag set, none, false⟩)) (hne : option ≠ "--")
    (args : Args) (argv : List String) :
    parseFrom args (option :: argv) = parseFrom (set args) argv := by
  unfold parseFrom
  rw [classify_cons hne hparse]
  cases classify argv <;> rfl

/-- An option with its value. -/
theorem parseFrom_value {option text : String} {set : String → Args → Option Args}
    (hparse : parseOptional option = .ok (.option ⟨.value set, none, false⟩)) (hne : option ≠ "--")
    (htext : parseOptional text = .ok (.value text)) (htextne : text ≠ "--") {args args' : Args}
    (hset : set text args = some args') (argv : List String) :
    parseFrom args (option :: text :: argv) = parseFrom args' argv := by
  unfold parseFrom
  rw [classify_cons hne hparse, classify_cons htextne htext]
  cases classify argv with
  | error exit => rfl
  | ok tokens =>
    simp only [Except.map, bind, Except.bind, consume, hset]

end

/-! ## Numbers -/

theorem naturalOf_toDigits (n : Nat) : naturalOf (Nat.toDigits 10 n) = some n := by
  have hdigits : ∀ c ∈ Nat.toDigits 10 n, c.isDigit = true := fun c hc =>
    Nat.isDigit_of_mem_toDigits (by decide) (by decide) hc
  have hne : Nat.toDigits 10 n ≠ [] := Nat.toDigits_ne_nil
  have hword : isWord Char.isDigit (fun c => c.isDigit || c = '_') (Nat.toDigits 10 n) = true := by
    refine isWord_iff.2 ⟨?_, ?_, fun c hc => by simp [hdigits c hc]⟩
    · exact ⟨_, List.head?_eq_some_head hne, hdigits _ (List.head_mem hne)⟩
    · exact ⟨_, List.getLast?_eq_some_getLast hne, hdigits _ (List.getLast_mem hne)⟩
  have hplain : ∀ c ∈ Nat.toDigits 10 n, c ≠ '_' := by
    rintro c hc rfl
    exact absurd (hdigits _ hc) (by decide)
  have hunderscores : ¬['_', '_'] <:+: Nat.toDigits 10 n := by
    intro hsub
    exact hplain '_' (hsub.subset List.mem_cons_self) rfl
  unfold naturalOf
  rw [if_pos ⟨hword, hunderscores⟩, List.filter_eq_self.2 fun c hc => by simpa using hplain c hc,
    Nat.ofDigitChars_ten_toDigits]

theorem isSpace_of_isDigit {c : Char} (h : c.isDigit = true) :
    AutoRetryTests.isSpace c = false := by
  have hle : 48 ≤ c.toNat ∧ c.toNat ≤ 57 := Char.isDigit_iff_toNat.1 h
  unfold AutoRetryTests.isSpace
  rw [decide_eq_false_iff_not]
  generalize c.toNat = n at hle
  intro hmem
  simp only [List.mem_cons, List.not_mem_nil, or_false] at hmem
  omega

theorem strip_eq_self {text : Text} (hhead : ∀ c, text.head? = some c →
    AutoRetryTests.isSpace c = false) (hlast : ∀ c, text.getLast? = some c →
    AutoRetryTests.isSpace c = false) : strip text = text := by
  have hdrop : text.dropWhile AutoRetryTests.isSpace = text := by
    cases text with
    | nil => rfl
    | cons c text => exact List.dropWhile_cons_of_neg (by simp [hhead c rfl])
  unfold strip
  rw [hdrop, List.rdropWhile_eq_self_iff]
  intro hne
  simp [hlast _ (List.getLast?_eq_some_getLast hne)]

/-- The digits of a number, as the first and the others. -/
theorem toDigits_eq_cons (n : Nat) : ∃ c digits, Nat.toDigits 10 n = c :: digits ∧
    c.isDigit = true ∧ ∀ d ∈ digits, d.isDigit = true := by
  have hdigits : ∀ c ∈ Nat.toDigits 10 n, c.isDigit = true := fun c hc =>
    Nat.isDigit_of_mem_toDigits (by decide) (by decide) hc
  have hne : Nat.toDigits 10 n ≠ [] := Nat.toDigits_ne_nil
  obtain ⟨c, digits, h⟩ := List.exists_cons_of_ne_nil hne
  rw [h] at hdigits
  exact ⟨c, digits, h, hdigits c List.mem_cons_self, fun d hd =>
    hdigits d (List.mem_cons_of_mem _ hd)⟩

theorem strip_toDigits (n : Nat) : strip (Nat.toDigits 10 n) = Nat.toDigits 10 n := by
  have hdigits : ∀ c ∈ Nat.toDigits 10 n, c.isDigit = true := fun c hc =>
    Nat.isDigit_of_mem_toDigits (by decide) (by decide) hc
  exact strip_eq_self
    (fun c hc => isSpace_of_isDigit (hdigits c (List.mem_of_mem_head? hc)))
    fun c hc => isSpace_of_isDigit (hdigits c (List.mem_of_getLast? hc))

theorem strip_minus_toDigits (n : Nat) :
    strip ('-' :: Nat.toDigits 10 n) = '-' :: Nat.toDigits 10 n := by
  have hne : Nat.toDigits 10 n ≠ [] := Nat.toDigits_ne_nil
  refine strip_eq_self (fun c hc => ?_) fun c hc => ?_
  · obtain rfl := Option.some.inj hc
    rfl
  · rw [List.getLast?_cons_of_ne_nil hne] at hc
    exact isSpace_of_isDigit
      (Nat.isDigit_of_mem_toDigits (by decide) (by decide) (List.mem_of_getLast? hc))

theorem toList_toString_ofNat (n : Nat) : (toString (n : Int)).toList = Nat.toDigits 10 n :=
  Nat.toList_repr

theorem toList_toString_negSucc (n : Nat) :
    (toString (Int.negSucc n)).toList = '-' :: Nat.toDigits 10 (n + 1) := by
  have hrepr : toString (Int.negSucc n) = "-" ++ (n + 1).repr := rfl
  rw [hrepr, String.toList_append, Nat.toList_repr]
  rfl

/-- A number is read as it was written. -/
theorem int_toString (n : Int) : int (toString n) = some n := by
  unfold int
  cases n with
  | ofNat n =>
    have hlist : (toString (Int.ofNat n)).toList = Nat.toDigits 10 n := toList_toString_ofNat n
    rw [hlist, strip_toDigits]
    obtain ⟨c, digits, hcons, hdigit, -⟩ := toDigits_eq_cons n
    have hnatural := naturalOf_toDigits n
    rw [hcons] at hnatural ⊢
    have hminus : c ≠ '-' := by
      rintro rfl
      exact absurd hdigit (by decide)
    have hplus : c ≠ '+' := by
      rintro rfl
      exact absurd hdigit (by decide)
    split
    · rename_i h
      exact (hminus (List.cons.inj h).1).elim
    · rename_i h
      exact (hplus (List.cons.inj h).1).elim
    · rw [hnatural]
      rfl
  | negSucc n =>
    rw [toList_toString_negSucc, strip_minus_toDigits]
    simp only [naturalOf_toDigits]
    rfl

/-- No option has a digit after its dash. -/
theorem not_isDigit_of_mem_actions : ∀ option ∈ actions, ∀ c rest,
    option.1.toList = '-' :: c :: rest → c.isDigit = false := by
  intro option hoption c rest hlist
  have hsecond : ∀ name ∈ actions.map Prod.fst, (name.toList.drop 1).head?.all fun c =>
      !c.isDigit := by decide
  have hall := hsecond option.1 (List.mem_map_of_mem hoption)
  rw [hlist] at hall
  simpa using hall

section

variable {arg : String} {c : Char} {digits : List Char}

/-- No option is a minus sign and digits, or begins so. -/
theorem ne_minus_of_mem_actions (hc : c.isDigit = true) :
    ∀ option ∈ actions, ∀ rest, option.1.toList ≠ '-' :: c :: rest := by
  intro option hoption rest hlist
  have hdigit := not_isDigit_of_mem_actions option hoption c rest hlist
  rw [hc] at hdigit
  cases hdigit

theorem get?_actions_negative (harg : arg.toList = '-' :: c :: digits)
    (hc : c.isDigit = true) : Assoc.get? actions arg = none := by
  cases h : Assoc.get? actions arg with
  | none => rfl
  | some action => exact (ne_minus_of_mem_actions hc _ (Assoc.mem_of_get? h) digits harg).elim

theorem splitEq_negative (harg : arg.toList = '-' :: c :: digits)
    (hall : ∀ d ∈ c :: digits, d.isDigit = true) : splitEq arg = none := by
  unfold splitEq
  rw [if_neg]
  rw [harg]
  intro hmem
  rcases List.mem_cons.1 hmem with hdash | hmem
  · cases hdash
  · exact absurd (hall _ hmem) (by decide)

theorem hasPrefix_dashes_negative (harg : arg.toList = '-' :: c :: digits)
    (hc : c.isDigit = true) : hasPrefix arg "--" = false := by
  have hne : c ≠ '-' := by
    rintro rfl
    exact absurd hc (by decide)
  unfold hasPrefix
  rw [harg]
  simp [List.isPrefixOf, Ne.symm hne]

theorem abbreviated_negative (harg : arg.toList = '-' :: c :: digits)
    (hc : c.isDigit = true) : abbreviated arg = [] := by
  have hnot := ne_minus_of_mem_actions hc
  unfold abbreviated
  rw [hasPrefix_dashes_negative harg hc, if_neg (by simp), List.filterMap_eq_nil_iff]
  intro option hoption
  rw [if_neg, if_neg]
  · intro hpre
    unfold hasPrefix at hpre
    rw [harg, List.isPrefixOf_iff_prefix] at hpre
    obtain ⟨rest, hrest⟩ := hpre
    exact hnot option hoption (digits ++ rest) hrest.symm
  · rw [harg]
    exact hnot option hoption []

theorem isNegativeNumber_digits {digits : List Char} (hall : ∀ d ∈ digits, d.isDigit = true)
    (hne : digits ≠ []) : isNegativeNumber ('-' :: digits) = true := by
  have htake : digits.takeWhile Char.isDigit = digits := List.takeWhile_eq_self_iff.2 hall
  have hdrop : digits.dropWhile Char.isDigit = [] := List.dropWhile_eq_nil_iff.2 hall
  have hline : digits.getLast? ≠ some '\n' := by
    intro hlast
    exact absurd (hall _ (List.mem_of_getLast? hlast)) (by decide)
  unfold isNegativeNumber
  simp only [if_neg hline, htake, hdrop]
  simp [hne]

/-- A negative number is a value. -/
theorem parseOptional_negative (harg : arg.toList = '-' :: c :: digits)
    (hc : c.isDigit = true) (hdigits : ∀ d ∈ digits, d.isDigit = true) :
    parseOptional arg = .ok (.value arg) := by
  have hall : ∀ d ∈ c :: digits, d.isDigit = true := List.forall_mem_cons.2 ⟨hc, hdigits⟩
  have hnumber : isNegativeNumber arg.toList = true := by
    rw [harg]
    exact isNegativeNumber_digits hall (List.cons_ne_nil _ _)
  unfold parseOptional
  rw [if_neg (by simp [harg]), get?_actions_negative harg hc]
  dsimp only
  rw [if_neg (by simp [harg]), splitEq_negative harg hall, abbreviated_negative harg hc]
  dsimp only [Option.bind]
  rw [if_pos (Or.inl hnumber)]

end

/-- A number is a value. -/
theorem parseOptional_toString (n : Int) :
    parseOptional (toString n) = .ok (.value (toString n)) ∧ toString n ≠ "--" := by
  cases n with
  | ofNat n =>
    obtain ⟨c, digits, hcons, hdigit, -⟩ := toDigits_eq_cons n
    have hvalue : IsValue (toString (Int.ofNat n)) := by
      have hlist : (toString (Int.ofNat n)).toList = Nat.toDigits 10 n := toList_toString_ofNat n
      unfold IsValue
      rw [hlist, hcons]
      rintro h
      obtain rfl := Option.some.inj h
      exact absurd hdigit (by decide)
    exact ⟨parseOptional_value hvalue, ne_dashes_of_isValue hvalue⟩
  | negSucc n =>
    obtain ⟨c, digits, hcons, hdigit, hdigits⟩ := toDigits_eq_cons (n + 1)
    have hlist := toList_toString_negSucc n
    rw [hcons] at hlist
    refine ⟨parseOptional_negative hlist hdigit hdigits, fun hdashes => ?_⟩
    rw [hdashes] at hlist
    obtain rfl := (List.cons.inj (List.cons.inj hlist).2).1
    exact absurd hdigit (by decide)

end CommonsOperator.RunTests
