import TabletopDice.CommandLine.Settings
import TabletopDice.Proofs.Decimal

/-!
# Arguments that ask for quiet rolls

The arguments that ask for a number of quiet rolls in some mode, with the
expression behind the separator so that it may start with a dash.  Whatever
the expression is, they are read as just that: the decimal text of a number is
never taken for a switch or for the separator, and it is read back as the
number.
-/

namespace TabletopDice

open Text

/-! ## Numbers as options -/

namespace Text

/-- The text of an integer: a run of digits, behind a minus or not. -/
structure IntegerText (text : String) (negative : Bool)
    (digits : List Char) : Prop where
  toList_eq : text.toList = minus negative ++ digits
  ne_nil : digits ≠ []
  isDigit : ∀ c ∈ digits, c.isDigit = true

theorem integerText_decimal (n : ℤ) :
    IntegerText (decimal n) (n < 0) (Nat.toDigits 10 n.natAbs) where
  toList_eq := toList_decimal n
  ne_nil := Nat.toDigits_ne_nil
  isDigit _ hc := isDigit_of_mem_toDigits hc

theorem digitValue?_of_isDigit {c : Char} (hc : c.isDigit = true) :
    digitValue? c = some (c.toNat - '0'.toNat) := by
  have hrange : 48 ≤ c.toNat ∧ c.toNat ≤ 57 := Char.isDigit_iff_toNat.mp hc
  have hzeros : zeros = 48 :: zeros.tail := rfl
  unfold digitValue?
  rw [hzeros, List.find?_cons_of_pos]
  · rfl
  · simp only [Bool.and_eq_true, decide_eq_true_eq]
    omega

theorem isAnyDigit_of_isDigit {c : Char} (hc : c.isDigit = true) :
    isAnyDigit c = true := by
  unfold isAnyDigit
  rw [digitValue?_of_isDigit hc]
  rfl

theorem groupedDigits?_of_isDigit {digits : List Char} (hne : digits ≠ [])
    (hdigits : ∀ c ∈ digits, c.isDigit = true) :
    groupedDigits? digits =
      some (digits.map fun c => c.toNat - '0'.toNat) := by
  induction digits with
  | nil => exact absurd rfl hne
  | cons c rest ih =>
      have hc := digitValue?_of_isDigit (hdigits c List.mem_cons_self)
      have hrest : ∀ d ∈ rest, d.isDigit = true :=
        fun d hd => hdigits d (List.mem_cons_of_mem c hd)
      cases rest with
      | nil => simp [groupedDigits?, hc]
      | cons d rest =>
          have hlater := ih (by simp) hrest
          have hd : d ≠ '_' :=
            ne_of_isDigit (hrest d List.mem_cons_self) rfl
          -- The second character is no underscore, so none is skipped.
          rw [groupedDigits?]
          · simp [hc, hlater]
          · simp
          · intro tail htail
            exact hd (List.cons.inj htail).1

theorem readGrouped?_of_isDigit {digits : List Char} (hne : digits ≠ [])
    (hdigits : ∀ c ∈ digits, c.isDigit = true)
    (hlimit : digits.length ≤ digitLimit) :
    readGrouped? digits = some (digitsValue digits) := by
  unfold readGrouped?
  rw [groupedDigits?_of_isDigit hne hdigits, Option.bind_eq_bind,
    Option.bind_some, List.length_map, if_pos hlimit, List.foldl_map]
  rfl

/-! ## Blanks around a number -/

theorem isPadding_of_isDigit {c : Char} (hc : c.isDigit = true) :
    isPadding c = false := by
  unfold isPadding
  rw [isBlank_of_isDigit hc, Bool.false_and]

theorem trim_of_forall {cs : List Char}
    (hcs : ∀ c ∈ cs, isPadding c = false) : trim cs = cs := by
  have hkeep : ∀ ds : List Char, (∀ d ∈ ds, isPadding d = false) →
      ds.dropWhile isPadding = ds := by
    intro ds hds
    rw [List.dropWhile_eq_self_iff]
    intro hpos
    rw [hds _ (List.getElem_mem hpos)]
    exact Bool.false_ne_true
  unfold trim
  rw [hkeep cs hcs, hkeep cs.reverse, List.reverse_reverse]
  intro d hd
  exact hcs d (List.mem_reverse.mp hd)

theorem isPadding_minus : isPadding '-' = false := rfl

theorem readSigned?_minus {digits : List Char} {n : ℕ}
    (hdigits : readGrouped? digits = some n) :
    readSigned? ('-' :: digits) = some (-(n : ℤ)) := by
  simp only [readSigned?, hdigits]
  rfl

theorem readSigned?_of_isDigit {c : Char} {rest : List Char} {n : ℕ}
    (hc : c.isDigit = true) (hdigits : readGrouped? (c :: rest) = some n) :
    readSigned? (c :: rest) = some (n : ℤ) := by
  have hminus : c ≠ '-' := ne_of_isDigit hc isDigit_minus
  have hplus : c ≠ '+' := ne_of_isDigit hc isDigit_plus
  unfold readSigned?
  split
  next heq => exact absurd (List.cons.inj heq).1 hminus
  next heq => exact absurd (List.cons.inj heq).1 hplus
  next =>
    rw [hdigits]
    rfl

section Integer

variable {text : String} {negative : Bool} {digits : List Char}

/-- The text of an integer of few enough digits is read as that integer. -/
theorem IntegerText.readInt?_eq (htext : IntegerText text negative digits)
    (hlimit : digits.length ≤ digitLimit) :
    readInt? text = some (if negative then -(digitsValue digits : ℤ)
      else digitsValue digits) := by
  have hread : readGrouped? digits = some (digitsValue digits) :=
    readGrouped?_of_isDigit htext.ne_nil htext.isDigit hlimit
  have hpadding : ∀ c ∈ digits, isPadding c = false :=
    fun c hc => isPadding_of_isDigit (htext.isDigit c hc)
  unfold readInt?
  rw [htext.toList_eq]
  cases negative with
  | true =>
      rw [minus_true, List.singleton_append,
        trim_of_forall (List.forall_mem_cons.mpr ⟨isPadding_minus, hpadding⟩)]
      exact readSigned?_minus hread
  | false =>
      obtain ⟨first, rest, rfl⟩ := List.exists_cons_of_ne_nil htext.ne_nil
      rw [minus_false, List.nil_append, trim_of_forall hpadding]
      exact readSigned?_of_isDigit (htext.isDigit first List.mem_cons_self)
        hread

/-- No integer is the separator. -/
theorem IntegerText.ne_separator (htext : IntegerText text negative digits) :
    text ≠ "--" := by
  rintro rfl
  have hlast := congrArg List.getLast? htext.toList_eq
  rw [List.getLast?_append_of_ne_nil _ htext.ne_nil] at hlast
  have hmem : '-' ∈ digits := List.mem_of_getLast? hlast.symm
  exact not_mem_of_isDigit htext.isDigit isDigit_minus hmem

end Integer

/-- A number that can be written is read back from its decimal text. -/
theorem readInt?_decimal {n : ℤ} (hn : isWritable n = true) :
    readInt? (decimal n) = some n := by
  rw [(integerText_decimal n).readInt?_eq (of_decide_eq_true hn)]
  have hvalue : digitsValue (Nat.toDigits 10 n.natAbs) = n.natAbs :=
    Nat.ofDigitChars_toDigits (by decide) (by decide)
  rw [hvalue]
  congr 1
  by_cases hnegative : n < 0
  · rw [decide_eq_true hnegative, if_pos rfl]
    omega
  · rw [decide_eq_false hnegative, if_neg Bool.false_ne_true]
    omega

end Text

namespace CommandLine

/-! ## Numbers among arguments -/

theorem Argument.isNumberAfterMinus_of_isDigit {digits : List Char}
    (hne : digits ≠ []) (hdigits : ∀ c ∈ digits, c.isDigit = true) :
    isNumberAfterMinus digits = true := by
  have hnewline : digits.getLast? ≠ some '\n' := by
    intro hlast
    exact ne_of_isDigit (hdigits _ (List.mem_of_getLast? hlast))
      (show '\n'.isDigit = false from rfl) rfl
  have hall : digits.dropWhile isAnyDigit = [] := by
    rw [List.dropWhile_eq_nil_iff]
    exact fun c hc => isAnyDigit_of_isDigit (hdigits c hc)
  unfold isNumberAfterMinus
  rw [if_neg hnewline]
  dsimp only
  rw [hall]
  simpa using hne

theorem Switch.isDigit_of_letter? {switch : Switch} {c : Char}
    (hletter : switch.letter? = some c) : c.isDigit = false := by
  unfold letter? at hletter
  split at hletter
  all_goals cases hletter
  all_goals rfl

theorem Switch.ofLetter?_of_isDigit {c : Char} (hc : c.isDigit = true) :
    ofLetter? c = none := by
  unfold ofLetter?
  rw [List.find?_eq_none]
  intro switch _
  simp only [decide_eq_true_eq]
  intro hletter
  have hletterDigit := isDigit_of_letter? hletter
  rw [hc] at hletterDigit
  cases hletterDigit

theorem Argument.read_of_head?_ne_minus {text : String}
    (htext : text.toList.head? ≠ some '-') : read text = .ok (.operand text) := by
  unfold read
  split
  next heq => exact absurd (by rw [heq]; rfl) htext
  next heq => exact absurd (by rw [heq]; rfl) htext
  next => rfl

/-- An integer is an operand, also with a minus in front of it. -/
theorem Argument.read_of_integerText {text : String} {negative : Bool}
    {digits : List Char} (htext : IntegerText text negative digits) :
    read text = .ok (.operand text) := by
  obtain ⟨first, rest, rfl⟩ := List.exists_cons_of_ne_nil htext.ne_nil
  have hfirst : first.isDigit = true := htext.isDigit first List.mem_cons_self
  have hminus : first ≠ '-' := ne_of_isDigit hfirst isDigit_minus
  cases negative with
  | false =>
      apply read_of_head?_ne_minus
      rw [htext.toList_eq]
      simpa using hminus
  | true =>
      have hnumber : isNumberAfterMinus (first :: rest) = true :=
        isNumberAfterMinus_of_isDigit htext.ne_nil htext.isDigit
      unfold read
      rw [htext.toList_eq, minus_true, List.singleton_append]
      split
      next heq => exact absurd (List.cons.inj (List.cons.inj heq).2).1 hminus
      next letter tail _ heq =>
        cases heq
        unfold readShort
        rw [Switch.ofLetter?_of_isDigit hfirst]
        dsimp only
        unfold withoutSwitch
        rw [hnumber]
        rfl
      next hnone => exact absurd rfl (hnone first rest)

theorem Argument.read_decimal (n : ℤ) :
    read (decimal n) = .ok (.operand (decimal n)) :=
  read_of_integerText (integerText_decimal n)

/-! ## The arguments and what they ask for -/

/-- The flag for a mode, where it takes one. -/
def flagsOfMode : Mode → List String
  | .plain => []
  | .advantage => ["--adv"]
  | .disadvantage => ["--dis"]

/-- The arguments that ask for a number of quiet rolls of an expression. -/
def quietArguments (text : String) (mode : Mode) (times : ℤ) : List String :=
  ["-q"] ++ flagsOfMode mode ++ ["-t", decimal times, "--", text]

def quietSettings (text : String) (mode : Mode) (times : ℤ) : Settings where
  expression := text
  times := .value times
  mode := mode
  quiet := true
  seed := none
  level := .value .warning

/-- What those arguments are before the separator. -/
def quietSwitches (mode : Mode) (times : ℤ) : List Argument :=
  [.named (.flag .quiet) false none] ++
    (match mode with
      | .plain => []
      | .advantage => [.named (.flag .advantage) true none]
      | .disadvantage => [.named (.flag .disadvantage) true none]) ++
    [.named (.setting .times) false none, .operand (decimal times)]

theorem Choices.takeAll_quietSwitches (mode : Mode) {times : ℤ}
    (htimes : Text.isWritable times = true) :
    takeAll (quietSwitches mode times) {} =
      .ok { times := .value times, mode := mode, quiet := true } := by
  have hassign (choices : Choices) : choices.assign .times (decimal times) =
      .ok { choices with times := .value times } := by
    unfold assign
    dsimp only
    rw [readInt?_decimal htimes]
  have hlast (choices : Choices) :
      takeAll [.named (.setting .times) false none, .operand (decimal times)]
          choices =
        .ok { choices with times := .value times, atExpression := false } := by
    simp only [takeAll, Spelling.read, raiseAll, bind, Except.bind, hassign]
  cases mode with
  | plain => exact hlast { quiet := true }
  | advantage => exact hlast { quiet := true, mode := .advantage }
  | disadvantage => exact hlast { quiet := true, mode := .disadvantage }

namespace Settings

theorem understand_quietArguments (mode : Mode) (times : ℤ) :
    understand (["-q"] ++ flagsOfMode mode ++ ["-t", decimal times]) =
      .ok (quietSwitches mode times) := by
  have hquiet : Argument.read "-q" =
      .ok (.named (.flag .quiet) false none) := by rfl
  have hadvantage : Argument.read "--adv" =
      .ok (.named (.flag .advantage) true none) := by rfl
  have hdisadvantage : Argument.read "--dis" =
      .ok (.named (.flag .disadvantage) true none) := by rfl
  have htimes : Argument.read "-t" =
      .ok (.named (.setting .times) false none) := by rfl
  have hnumber := Argument.read_decimal times
  have hread : List.Forall₂ (fun text switch => Argument.read text = .ok switch)
      (["-q"] ++ flagsOfMode mode ++ ["-t", decimal times])
      (quietSwitches mode times) := by
    cases mode with
    | plain => exact .cons hquiet (.cons htimes (.cons hnumber .nil))
    | advantage =>
        exact .cons hquiet
          (.cons hadvantage (.cons htimes (.cons hnumber .nil)))
    | disadvantage =>
        exact .cons hquiet
          (.cons hdisadvantage (.cons htimes (.cons hnumber .nil)))
  unfold understand
  rw [Traversal.mapM_eq_ok_iff.mpr hread]
  rfl

/-- Arguments in front that are not the separator come before it. -/
theorem splitSeparator_append {texts : List String} (htexts : "--" ∉ texts)
    (rest : List String) :
    splitSeparator (texts ++ rest) =
      (texts ++ (splitSeparator rest).1, (splitSeparator rest).2) := by
  have hpass : ∀ argument ∈ texts, (argument != "--") = true := by
    intro argument hmem
    rw [bne_iff_ne]
    exact ne_of_mem_of_not_mem hmem htexts
  unfold splitSeparator
  rw [List.dropWhile_append_of_pos hpass, List.takeWhile_append_of_pos hpass]
  cases rest.dropWhile (· != "--") with
  | nil => rfl
  | cons separator after => rfl

theorem read_quietArguments (text : String) (mode : Mode) {times : ℤ}
    (htimes : Text.isWritable times = true) :
    read (quietArguments text mode times) =
      .ok (quietSettings text mode times) := by
  have hsplit : splitSeparator (quietArguments text mode times) =
      (["-q"] ++ flagsOfMode mode ++ ["-t", decimal times], some [text]) := by
    have harguments : quietArguments text mode times =
        (["-q"] ++ flagsOfMode mode ++ ["-t", decimal times]) ++
          "--" :: [text] := by
      cases mode <;> rfl
    have hnumber := (integerText_decimal times).ne_separator.symm
    have hbefore : "--" ∉
        ["-q"] ++ flagsOfMode mode ++ ["-t", decimal times] := by
      cases mode <;> simp [flagsOfMode, hnumber]
    have hlast : splitSeparator ["--", text] = ([], some [text]) := rfl
    rw [harguments, splitSeparator_append hbefore, hlast, List.append_nil]
  unfold read
  rw [hsplit]
  change (understand _ >>= _) = _
  rw [understand_quietArguments]
  change (Choices.takeAll _ {} >>= _) = _
  rw [Choices.takeAll_quietSwitches mode htimes]
  rfl

end Settings

end CommandLine

end TabletopDice
