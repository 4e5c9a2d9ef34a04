import TabletopDice.CommandLine.Command
import TabletopDice.Record.Tool
import TabletopDice.Proofs.Grammar
import TabletopDice.Proofs.Throw

/-!
# Texts that are refused

A text that is no expression has a fault with a code, unless the first of its
pieces that spells no term is at fault for a run of too many digits.  In that
one case the command breaks off, and the tool fails with a message that names
no code.  Nothing is drawn for a text that is refused.
-/

namespace TabletopDice

open Text Rolling

variable {σ : Type}

/-! ## Codes -/

def Fault.codes : List String :=
  ["EMPTY_EXPRESSION", "NOTHING_TO_ROLL", "INVALID_FLAT_MODIFIER",
    "MALFORMED_TERM", "INVALID_COUNT", "INVALID_SIDES", "NON_POSITIVE_VALUE"]

theorem Fault.code_mem_codes (fault : Fault) : fault.code ∈ Fault.codes := by
  cases fault <;> simp [Fault.code, Fault.codes]

/-- Whether a message starts with one of the codes between brackets. -/
def NamesFault (message : String) : Prop :=
  ∃ code ∈ Fault.codes, ("[" ++ code ++ "]").toList <+: message.toList

theorem Fault.namesFault_message (fault : Fault) :
    NamesFault fault.message := by
  have hbracket : "] ".toList = "]".toList ++ [' '] := by decide
  refine ⟨fault.code, fault.code_mem_codes,
    ' ' :: (fault.explanation ++ " Example: '2d6 + 3' or 'd20 + 5'.").toList, ?_⟩
  unfold Fault.message
  simp only [String.toList_append, hbracket, List.append_assoc,
    List.cons_append, List.nil_append]

theorem not_namesFault_tooManyDigits (n : ℕ) :
    ¬ NamesFault (Failure.tooManyDigits n).message := by
  intro hnames
  obtain ⟨code, -, rest, hmessage⟩ := hnames
  have hcode : ("[" ++ code ++ "]").toList.head? = some '[' := by
    rw [String.toList_append, String.toList_append]
    rfl
  have hexceeds : (Failure.tooManyDigits n).message.toList.head? =
      some 'E' := by
    unfold Failure.message
    simp only [String.toList_append]
    rfl
  rw [← hmessage, List.head?_append, hcode] at hexceeds
  cases hexceeds

/-! ## Runs of too many digits -/

/-- The first piece of the text that spells no term is at fault for a run of
`n` digits, too many to convert. -/
def Expression.Overlong (text : String) (n : ℕ) : Prop :=
  ∃ before piece after, pieces text.toList = before ++ piece :: after ∧
    (∀ earlier ∈ before, ∃ term, Term.Spells earlier term) ∧
    Term.Overlong piece n

theorem Expression.read_eq_tooManyDigits_iff {text : String} {n : ℕ} :
    read text = .error (.tooManyDigits n) ↔ Overlong text n := by
  unfold read Overlong
  rw [readChars_eq_error_iff]
  simp [Term.read_eq_tooManyDigits_iff]

theorem Expression.read_ok_or_fault_iff {text : String} :
    ((∃ expr, read text = .ok expr) ∨
      ∃ fault, fault.code ∈ Fault.codes ∧ read text = .error (.fault fault)) ↔
      ∀ n, ¬ Overlong text n := by
  simp only [← read_eq_tooManyDigits_iff]
  rcases read text with ⟨fault | n⟩ | expr
  · simp [Fault.code_mem_codes]
  · simp
  · simp

/-! ## The command -/

/-- Rolling fails for the number of rolls, which may have too many digits to be
named, or for the mode, before anything is drawn, or for the source, and for
nothing in the expression. -/
theorem Expression.rollMany_error {source : Source σ} {expr : Expression}
    {times : ℤ} {mode : String} {feed after : Feed σ} {failure : Failure}
    (hfailed : expr.rollMany source times mode feed = .error failure after) :
    (∃ rejection, failure = .rejected rejection ∧ after = feed) ∨
      failure = .unwritable ∨ ∃ refusal, failure = .draw refusal := by
  by_cases htimes : times < 1
  · rw [rollMany_of_times_lt source expr htimes] at hfailed
    cases hfailed
    by_cases hwritable : Text.isWritable times = true
    · rw [Failure.ofTimes_of_isWritable hwritable]
      exact .inl ⟨.times times, rfl, rfl⟩
    · rw [Failure.ofTimes_of_not_isWritable hwritable]
      exact .inr (.inl rfl)
  · have hpos : 1 ≤ times := by omega
    cases hmode : Mode.ofName? mode with
    | none =>
        rw [rollMany_of_ofName?_none source expr hpos hmode] at hfailed
        cases hfailed
        exact .inl ⟨.mode mode, rfl, rfl⟩
    | some known =>
        rw [rollMany_of_ofName?_some source expr hpos hmode] at hfailed
        have hrolls := (expr.follows_throw source known).repeated times.toNat
        exact .inr (.inr (hrolls.exists_draw_of_error hfailed))

theorem Summary.ofTotals_error {totals : List ℤ} {failure : Failure}
    (hfailed : Summary.ofTotals totals = .error failure) :
    failure = .meanOutOfRange := by
  cases totals with
  | nil => cases hfailed
  | cons first rest =>
      rw [Summary.ofTotals_cons] at hfailed
      generalize Number.Binary64.ofQuotient? _ _ = mean at hfailed
      cases mean with
      | none => exact (Except.error.inj hfailed).symm
      | some mean => cases hfailed

namespace CommandLine

namespace Settings

variable {settings : Settings}

theorem readExpression_of_error {e : ReadError}
    (hread : Expression.read settings.expression = .error e) :
    settings.readExpression = .error e.failure := by
  unfold readExpression
  rw [hread]
  rfl

theorem readExpression_of_ok {expr : Expression}
    (hread : Expression.read settings.expression = .ok expr) :
    settings.readExpression = .ok expr := by
  unfold readExpression
  rw [hread]
  rfl

theorem roll_of_read_error {e : ReadError} (source : Source σ) (times : ℤ)
    (feed : Feed σ)
    (hread : Expression.read settings.expression = .error e) :
    settings.roll source times feed = .error e.failure feed := by
  unfold roll
  rw [readExpression_of_error hread, require_error_bind]

theorem roll_of_read_ok {expr : Expression} (source : Source σ) (times : ℤ)
    (hread : Expression.read settings.expression = .ok expr) :
    settings.roll source times =
      expr.rollMany source times settings.mode.name := by
  unfold roll
  rw [readExpression_of_ok hread, require_ok_bind]

theorem play_of_read_error {e : ReadError} (source : Source σ) (start : σ)
    (hread : Expression.read settings.expression = .error e) :
    settings.play source (.initial start) =
      (settings.report [] (.error e.failure), .initial start) := by
  unfold play
  cases settings.times with
  | blank =>
      rw [readExpression_of_error hread]
  | value times =>
      dsimp only
      rw [roll_of_read_error source times _ hread]
      rfl

theorem summaryLines_error {rolls : List Roll} {failure : Failure}
    (hfailed : summaryLines rolls = .error failure) :
    failure = .meanOutOfRange := by
  unfold summaryLines at hfailed
  split at hfailed
  next => cases hfailed
  next =>
    cases hsummary : Summary.ofTotals (rolls.map Roll.total) with
    | ok summary =>
        rw [hsummary] at hfailed
        cases hfailed
    | error cause =>
        rw [hsummary] at hfailed
        cases hfailed
        exact Summary.ofTotals_error hsummary

theorem ending_report_of_ok (resolutions : List Resolution)
    (rolls : List Roll) (n : ℕ) :
    (settings.report resolutions (.ok rolls)).ending ≠
      .broken (.tooManyDigits n) := by
  unfold report
  dsimp only
  split
  next =>
    cases hlines : summaryLines rolls with
    | ok lines => simp
    | error failure => simp [summaryLines_error hlines]
  next => simp

/-- Once the expression is read, nothing that can still fail is about the
length of a run of digits. -/
theorem ending_play_of_read_ok {expr : Expression} (source : Source σ)
    (start : σ) (n : ℕ)
    (hread : Expression.read settings.expression = .ok expr) :
    (settings.play source (.initial start)).1.ending ≠
      .broken (.tooManyDigits n) := by
  unfold play
  cases settings.times with
  | blank =>
      dsimp only
      rw [readExpression_of_ok hread]
      simp [reportBlank]
  | value times =>
      dsimp only
      rw [roll_of_read_ok source times hread]
      cases hrun : expr.rollMany source times settings.mode.name
          (.initial start) with
      | ok rolls feed => exact ending_report_of_ok _ rolls n
      | error failure feed =>
          rcases Expression.rollMany_error hrun with
            ⟨rejection, rfl, -⟩ | rfl | ⟨refusal, rfl⟩
          · simp [report]
          · simp [report]
          · simp [report]

theorem ending_play_eq_tooManyDigits_iff (source : Source σ) (start : σ)
    {n : ℕ} :
    (settings.play source (.initial start)).1.ending =
        .broken (.tooManyDigits n) ↔
      Expression.Overlong settings.expression n := by
  rw [← Expression.read_eq_tooManyDigits_iff]
  cases hread : Expression.read settings.expression with
  | error e =>
      rw [play_of_read_error source start hread]
      cases e with
      | fault fault => simp [ReadError.failure, report]
      | tooManyDigits m => simp [ReadError.failure, report]
  | ok expr => simp [ending_play_of_read_ok source start n hread]

end Settings

/-- A run with usable settings plays them, against the source at hand or
against a generator of its own. -/
theorem exists_play_eq_run (source : Source σ) (start : σ)
    {arguments : List String} {settings : Settings}
    (hsettings : Settings.read arguments = .ok settings)
    (hlevel : settings.level ≠ .blank) (hseed : settings.seed ≠ some .blank) :
    ∃ (τ : Type) (other : Source τ) (state : τ),
      (run source start arguments).1 =
        (settings.play other (.initial state)).1 := by
  unfold run
  rw [hsettings]
  dsimp only
  cases hl : settings.level with
  | blank => exact absurd hl hlevel
  | value level =>
      cases hs : settings.seed with
      | none => exact ⟨σ, source, start, rfl⟩
      | some entry =>
          cases entry with
          | blank => exact absurd hs hseed
          | value seed =>
              exact ⟨Twister, Source.twister, Twister.ofSeed seed, rfl⟩

theorem ending_run_eq_tooManyDigits_iff (source : Source σ) (start : σ)
    {arguments : List String} {n : ℕ} :
    (run source start arguments).1.ending = .broken (.tooManyDigits n) ↔
      ∃ settings, Settings.read arguments = .ok settings ∧
        settings.level ≠ .blank ∧ settings.seed ≠ some .blank ∧
        Expression.Overlong settings.expression n := by
  cases hsettings : Settings.read arguments with
  | error stop =>
      unfold run
      rw [hsettings]
      cases stop <;> simp [Stop.report]
  | ok settings =>
      by_cases hlevel : settings.level = .blank
      · unfold run
        rw [hsettings]
        dsimp only
        rw [hlevel]
        simp [hlevel]
      by_cases hseed : settings.seed = some .blank
      · unfold run
        rw [hsettings]
        dsimp only
        rw [hseed]
        cases settings.level <;> simp [hseed]
      obtain ⟨τ, other, state, hrun⟩ :=
        exists_play_eq_run source start hsettings hlevel hseed
      rw [hrun, Settings.ending_play_eq_tooManyDigits_iff]
      simp [hlevel, hseed]

theorem run_of_fault (source : Source σ) (start : σ)
    {arguments : List String} {settings : Settings} {fault : Fault}
    (hsettings : Settings.read arguments = .ok settings)
    (hlevel : settings.level ≠ .blank) (hseed : settings.seed ≠ some .blank)
    (hread : Expression.read settings.expression = .error (.fault fault)) :
    (run source start arguments).1.ending = .exit 1 ∧
      (run source start arguments).1.out = [] ∧
      (run source start arguments).1.err.getLast? =
        some ("error: " ++ fault.message) := by
  obtain ⟨τ, other, state, hrun⟩ :=
    exists_play_eq_run source start hsettings hlevel hseed
  rw [hrun, Settings.play_of_read_error other state hread]
  refine ⟨rfl, rfl, ?_⟩
  exact List.getLast?_concat

end CommandLine

/-! ## The tool -/

theorem Order.fulfil_of_read_error {source : Source σ} {stamp : Stamp}
    {order : Order} {feed : Feed σ} {e : ReadError}
    (hread : Expression.read order.expression = .error e) :
    order.fulfil source stamp feed = .error e.failure feed := by
  unfold Order.fulfil
  rw [hread]
  exact require_error_bind e.failure _ feed

theorem Order.serve_of_read_error (source : Source σ) (stamp : Stamp)
    {order : Order} (feed : Feed σ) {e : ReadError}
    (hread : Expression.read order.expression = .error e) :
    order.serve source stamp feed =
      .error (ToolFailure.ofFailure e.failure) feed := by
  unfold Order.serve EStateM.adaptExcept
  rw [Order.fulfil_of_read_error hread]

theorem ReadError.namesFault_iff (e : ReadError) :
    NamesFault (ToolFailure.ofFailure e.failure).message ↔
      ∀ n, e ≠ .tooManyDigits n := by
  cases e with
  | fault fault =>
      have hnames : NamesFault
          (ToolFailure.ofFailure (ReadError.fault fault).failure).message :=
        fault.namesFault_message
      exact iff_of_true hnames (by simp)
  | tooManyDigits n =>
      have hnames : ¬ NamesFault
          (ToolFailure.ofFailure (ReadError.tooManyDigits n).failure).message :=
        not_namesFault_tooManyDigits n
      exact iff_of_false hnames (by simp)

/-- A refused text has a fault with one of the seven codes, which the command
reports before it exits and the tool names in its message, exactly unless the
text is at fault for a run of too many digits.  The command breaks off for the
length of a run of digits in that case only, and the message of the tool then
names no code. -/
theorem refused_with_fault_iff_not_overlong (source : Source σ) :
    (∀ text, ((∃ expr, Expression.read text = .ok expr) ∨
        ∃ fault, fault.code ∈ Fault.codes ∧
          Expression.read text = .error (.fault fault)) ↔
      ∀ n, ¬ Expression.Overlong text n) ∧
    (∀ text n, Expression.read text = .error (.tooManyDigits n) ↔
      Expression.Overlong text n) ∧
    (∀ start arguments n,
      (CommandLine.run source start arguments).1.ending =
          .broken (.tooManyDigits n) ↔
        ∃ settings, CommandLine.Settings.read arguments = .ok settings ∧
          settings.level ≠ .blank ∧ settings.seed ≠ some .blank ∧
          Expression.Overlong settings.expression n) ∧
    (∀ start arguments settings fault,
      CommandLine.Settings.read arguments = .ok settings →
      settings.level ≠ .blank → settings.seed ≠ some .blank →
      Expression.read settings.expression = .error (.fault fault) →
        (CommandLine.run source start arguments).1.ending = .exit 1 ∧
        (CommandLine.run source start arguments).1.out = [] ∧
        (CommandLine.run source start arguments).1.err.getLast? =
          some ("error: " ++ fault.message)) ∧
    (∀ (stamp : Stamp) (order : Order) (feed : Feed σ) (e : ReadError),
      Expression.read order.expression = .error e →
        ∃ failure, order.serve source stamp feed = .error failure feed ∧
          (NamesFault failure.message ↔
            ∀ n, ¬ Expression.Overlong order.expression n)) := by
  refine ⟨fun _ => Expression.read_ok_or_fault_iff,
    fun _ _ => Expression.read_eq_tooManyDigits_iff,
    fun start _ _ => CommandLine.ending_run_eq_tooManyDigits_iff source start,
    fun start _ _ _ => CommandLine.run_of_fault source start, ?_⟩
  intro stamp order feed e hread
  refine ⟨_, order.serve_of_read_error source stamp feed hread, ?_⟩
  simp only [e.namesFault_iff, ← Expression.read_eq_tooManyDigits_iff, hread,
    ne_eq, Except.error.injEq]

/-! ## A run of digits alone -/

theorem Expression.overlong_of_digits {digits : List Char}
    (hdigits : Numeral.Overlong digits) :
    Overlong (String.ofList digits) digits.length := by
  have hpiece : IsPiece (minus false ++ digits) :=
    isPiece_minus_append hdigits.ne_nil (hdigits.not_mem isDigit_plus)
      (hdigits.not_mem isDigit_minus)
  rw [minus_false, List.nil_append] at hpiece
  have hpieces : pieces (String.ofList digits).toList = [digits] := by
    rw [String.toList_ofList, pieces_eq_cut, squeeze_of_isDigit hdigits.isDigit,
      hpiece.cut_eq]
  exact ⟨[], digits, [], hpieces, by simp, .modifier false hdigits⟩

theorem overlong_replicate : Numeral.Overlong (List.replicate 4301 '1') := by
  constructor
  · intro c hc
    rw [List.eq_of_mem_replicate hc]
    rfl
  · rw [List.length_replicate]
    decide

/-- Digits alone, one more than can be converted, have no fault with a code:
the command breaks off, and the tool fails with a message that names none. -/
theorem digits_past_limit_have_no_fault :
    ¬ ((∃ expr, Expression.read (String.ofList (List.replicate 4301 '1')) =
          .ok expr) ∨
        ∃ fault, Expression.read (String.ofList (List.replicate 4301 '1')) =
          .error (.fault fault)) ∧
      (CommandLine.run Source.script []
        ["--", String.ofList (List.replicate 4301 '1')]).1.ending =
          .broken (.tooManyDigits 4301) ∧
      ∀ (stamp : Stamp) (feed : Feed (List ℤ)), ∃ failure,
        Order.serve Source.script stamp
            ⟨String.ofList (List.replicate 4301 '1'), "none", 1⟩ feed =
          .error failure feed ∧ ¬ NamesFault failure.message := by
  have hlong := Expression.overlong_of_digits overlong_replicate
  rw [List.length_replicate] at hlong
  generalize String.ofList (List.replicate 4301 '1') = text at hlong
  have hread := Expression.read_eq_tooManyDigits_iff.mpr hlong
  refine ⟨?_, ?_, ?_⟩
  · rw [hread]
    simp
  · exact (CommandLine.ending_run_eq_tooManyDigits_iff _ _).mpr
      ⟨{ expression := text, times := .value 1, mode := .plain, quiet := false,
         seed := none, level := .value .warning },
        rfl, by simp, by simp, hlong⟩
  · intro stamp feed
    exact ⟨_, Order.serve_of_read_error _ stamp feed hread,
      not_namesFault_tooManyDigits 4301⟩

end TabletopDice
