import TabletopDice.Proofs.Log
import TabletopDice.Proofs.PieceAtFault
import TabletopDice.Proofs.PlainOutput

/-!
# Lines that no expression forges

What a run has to say of a rejected expression is made from the expression, but
no expression can add a line to it.  The piece that a fault quotes is cut out of
the text without its blanks, and every character that ends a line is a blank.
The log quotes the expression as it was given, and there every such character
is escaped, because none is printable.
-/

namespace TabletopDice

open Text Rolling

variable {σ : Type}

namespace Text

/-! ## Line breaks -/

/-- The characters that end a line: the newline, the controls behind it as far
as the carriage return, three information separators, the next line, and the
separators of lines and of paragraphs. -/
def lineBreaks : List Char :=
  ['\n', '\x0b', '\x0c', '\r', '\x1c', '\x1d', '\x1e', '\x85', '\u2028',
    '\u2029']

/-- The lines of the rest of a text, the first of them begun already.  A
carriage return and a newline right behind it end one line, and behind the last
line break there is no further line unless it has a character. -/
def linesFrom (begun : List Char) : List Char → List (List Char)
  | [] => if begun.isEmpty then [] else [begun]
  | c :: rest =>
    if c ∉ lineBreaks then linesFrom (begun ++ [c]) rest
    else if c = '\r' ∧ rest.head? = some '\n' then linesFrom begun rest
    else begun :: linesFrom [] rest

def splitLines (text : String) : List String :=
  (linesFrom [] text.toList).map String.ofList

/-- No line break is in the text. -/
def Unbroken (text : String) : Prop :=
  ∀ c ∈ text.toList, c ∉ lineBreaks

instance (text : String) : Decidable (Unbroken text) :=
  List.decidableBAll (fun c => c ∉ lineBreaks) text.toList

@[simp] theorem unbroken_append {s t : String} :
    Unbroken (s ++ t) ↔ Unbroken s ∧ Unbroken t := by
  simp [Unbroken, String.toList_append, or_imp, forall_and]

theorem linesFrom_unbroken_append (begun rest : List Char) {line : List Char}
    (hline : ∀ c ∈ line, c ∉ lineBreaks) :
    linesFrom begun (line ++ '\n' :: rest) =
      (begun ++ line) :: linesFrom [] rest := by
  induction line generalizing begun with
  | nil =>
      have hbreak : ¬ '\n' ∉ lineBreaks := by decide
      rw [List.nil_append, List.append_nil, linesFrom, if_neg hbreak,
        if_neg (by simp)]
  | cons c line ih =>
      have hlater : ∀ later ∈ line, later ∉ lineBreaks :=
        fun later hmem => hline later (List.mem_cons_of_mem c hmem)
      rw [List.cons_append, linesFrom, if_pos (hline c List.mem_cons_self),
        ih _ hlater, List.append_assoc, List.singleton_append]

/-- Lines without a line break are printed as just these lines. -/
theorem splitLines_printed {lines : List String}
    (hlines : ∀ line ∈ lines, Unbroken line) :
    splitLines (CommandLine.printed lines) = lines := by
  unfold splitLines
  rw [CommandLine.toList_printed]
  induction lines with
  | nil => rfl
  | cons line lines ih =>
      have hlater : ∀ later ∈ lines, Unbroken later :=
        fun later hmem => hlines later (List.mem_cons_of_mem line hmem)
      rw [List.flatMap_cons, List.append_assoc, List.singleton_append,
        linesFrom_unbroken_append [] _ (hlines line List.mem_cons_self),
        List.map_cons, ih hlater, List.nil_append, String.ofList_toList]

/-! ## Texts without a line break -/

theorem isBlank_of_mem_lineBreaks {c : Char} (hc : c ∈ lineBreaks) :
    isBlank c = true := by
  have hall : lineBreaks.all isBlank = true := by decide
  exact List.all_eq_true.mp hall c hc

theorem not_isPrintable_of_mem_lineBreaks {c : Char} (hc : c ∈ lineBreaks) :
    isPrintable c = false := by
  have hall : lineBreaks.all (fun c => !isPrintable c) = true := by
    decide +kernel
  simpa using List.all_eq_true.mp hall c hc

theorem unbroken_of_not_isBlank {text : String}
    (hblank : ∀ c ∈ text.toList, isBlank c = false) : Unbroken text := by
  intro c hc hbreak
  have hno := hblank c hc
  rw [isBlank_of_mem_lineBreaks hbreak] at hno
  cases hno

@[simp] theorem unbroken_decimal (n : ℤ) : Unbroken (decimal n) := by
  apply unbroken_of_not_isBlank
  intro c hc
  rw [toList_decimal] at hc
  rcases List.mem_append.mp hc with hsign | hdigit
  · cases hnegative : decide (n < 0) with
    | false =>
        rw [hnegative] at hsign
        cases hsign
    | true =>
        rw [hnegative] at hsign
        rw [List.mem_singleton.mp hsign]
        decide
  · exact isBlank_of_isDigit (isDigit_of_mem_toDigits hdigit)

theorem not_mem_lineBreaks_of_mem_hex {width n : ℕ} {c : Char}
    (hc : c ∈ hex width n) : c ∉ lineBreaks := by
  have hdigit : ∀ k < 16, k.digitChar ∉ lineBreaks := by decide
  induction width generalizing n with
  | zero => cases hc
  | succ width ih =>
      rcases List.mem_append.mp hc with hhigh | hlow
      · exact ih hhigh
      · rw [List.mem_singleton.mp hlow]
        exact hdigit (n % 16) (Nat.mod_lt n (by decide))

theorem not_mem_lineBreaks_of_mem_escaped {x : Char} (letter : Char)
    (width n : ℕ) (hletter : letter ∉ lineBreaks)
    (hx : x ∈ '\\' :: letter :: hex width n) : x ∉ lineBreaks := by
  rcases List.mem_cons.mp hx with rfl | hlater
  · decide
  rcases List.mem_cons.mp hlater with rfl | hdigit
  · exact hletter
  · exact not_mem_lineBreaks_of_mem_hex hdigit

/-- What is written for one character of a quoted text is on one line: the
character as it is only if it is printable, and else letters and digits. -/
theorem not_mem_lineBreaks_of_mem_escape {quote c x : Char}
    (hquote : quote ∉ lineBreaks) (hx : x ∈ escape quote c) :
    x ∉ lineBreaks := by
  unfold escape at hx
  -- All written forms but one are a backslash, a character and some digits.
  split_ifs at hx with hplain hnewline hreturn htab hprintable hbyte hshort
  · have hc : c ∉ lineBreaks := by
      rcases Bool.or_eq_true_iff.mp hplain with hc | hc
      · rwa [of_decide_eq_true hc]
      · rw [of_decide_eq_true hc]
        decide
    exact not_mem_lineBreaks_of_mem_escaped c 0 0 hc hx
  · exact not_mem_lineBreaks_of_mem_escaped 'n' 0 0 (by decide) hx
  · exact not_mem_lineBreaks_of_mem_escaped 'r' 0 0 (by decide) hx
  · exact not_mem_lineBreaks_of_mem_escaped 't' 0 0 (by decide) hx
  · obtain rfl := List.mem_singleton.mp hx
    intro hbreak
    rw [not_isPrintable_of_mem_lineBreaks hbreak] at hprintable
    cases hprintable
  · exact not_mem_lineBreaks_of_mem_escaped 'x' 2 c.toNat (by decide) hx
  · exact not_mem_lineBreaks_of_mem_escaped 'u' 4 c.toNat (by decide) hx
  · exact not_mem_lineBreaks_of_mem_escaped 'U' 8 c.toNat (by decide) hx

theorem quoteFor_not_mem_lineBreaks (cs : List Char) :
    quoteFor cs ∉ lineBreaks := by
  unfold quoteFor
  split <;> decide

@[simp] theorem unbroken_quoted (text : String) : Unbroken (quoted text) := by
  have hquote := quoteFor_not_mem_lineBreaks text.toList
  unfold quoted quotedChars
  intro c hc
  simp only [String.toList_ofList, List.mem_append, List.mem_cons,
    List.mem_flatMap, List.not_mem_nil, or_false] at hc
  rcases hc with (rfl | ⟨given, -, hescaped⟩) | rfl
  · exact hquote
  · exact not_mem_lineBreaks_of_mem_escape hquote hescaped
  · exact hquote

end Text

/-! ## Faults -/

/-- The piece that a fault quotes, if it is the fault of one. -/
def Fault.piece? : Fault → Option String
  | .empty | .nothingToRoll => none
  | .modifier piece | .term piece | .count piece | .sides piece
  | .nonPositive piece => some piece

theorem Fault.unbroken_message {fault : Fault}
    (hpiece : ∀ piece ∈ fault.piece?, Unbroken piece) :
    Unbroken fault.message := by
  have hcodes : ∀ code ∈ codes, Unbroken code := by decide
  have hcode := hcodes fault.code fault.code_mem_codes
  have hexplanation : Unbroken fault.explanation := by
    unfold explanation
    cases fault with
    | empty => decide
    | nothingToRoll => decide
    | _ piece =>
        simp only [unbroken_append, hpiece piece rfl]
        decide
  unfold message
  simp only [unbroken_append, hcode, hexplanation]
  decide

theorem Term.Refused.piece?_eq {piece : List Char} {fault : Fault}
    (hrefused : Term.Refused piece (.fault fault)) :
    fault.piece? = some (String.ofList piece) := by
  cases hrefused <;> rfl

namespace Expression

theorem Layout.isInfix_text {layout : Layout} {piece : List Char}
    (hpiece : piece ∈ layout.pieces) : piece <:+: layout.text := by
  obtain ⟨part, hpart, rfl⟩ := List.mem_map.mp hpiece
  obtain ⟨before, after, hparts⟩ := List.append_of_mem hpart
  refine ⟨text ⟨layout.leading, before⟩, text ⟨part.2, after⟩, ?_⟩
  unfold text
  rw [hparts, List.flatMap_append, List.flatMap_cons]
  simp only [List.append_assoc]

/-- The piece that a fault quotes is a part of the text without its blanks. -/
theorem quotes_of_read_eq_fault {text : String} {fault : Fault}
    (hread : read text = .error (.fault fault)) :
    ∀ piece ∈ fault.piece?, fault.Quotes piece.toList ∧
      piece.toList <:+: squeeze text.toList := by
  intro piece hpiece
  rcases readChars_eq_error_iff.mp hread with
    ⟨-, hempty⟩ | ⟨-, -, hnothing⟩ | ⟨before, cut, after, hcut, -, hterm⟩
  · cases hempty
    cases hpiece
  · cases hnothing
    cases hpiece
  · have hrefused := Term.refused_of_read_eq hterm
    rw [hrefused.piece?_eq] at hpiece
    obtain rfl := Option.some.inj hpiece
    rw [String.toList_ofList]
    refine ⟨hrefused.quotes, ?_⟩
    have hmem : cut ∈ (Layout.ofChars (squeeze text.toList)).pieces := by
      rw [← cut_eq_pieces_ofChars, ← pieces_eq_cut, hcut]
      exact List.mem_append_right before List.mem_cons_self
    have hinfix := Layout.isInfix_text hmem
    rwa [Layout.text_ofChars] at hinfix

theorem not_isBlank_of_isInfix {piece text : List Char}
    (hpiece : piece <:+: squeeze text) : ∀ c ∈ piece, isBlank c = false :=
  fun _ hc => (mem_squeeze.mp (hpiece.subset hc)).2

theorem unbroken_of_read_eq_fault {text : String} {fault : Fault}
    (hread : read text = .error (.fault fault)) : Unbroken fault.message := by
  apply Fault.unbroken_message
  intro piece hpiece
  have hinfix := (quotes_of_read_eq_fault hread piece hpiece).2
  exact unbroken_of_not_isBlank (not_isBlank_of_isInfix hinfix)

end Expression

namespace CommandLine

/-! ## Runs that are rejected -/

/-- What a run is rejected for: its expression, or its number of rolls. -/
inductive Settings.Rejected (settings : Settings) : Rejection → Prop
  | expression {fault : Fault}
      (hread : Expression.read settings.expression = .error (.fault fault)) :
      Settings.Rejected settings (.expression fault)
  | times {expr : Expression} {times : ℤ}
      (hread : Expression.read settings.expression = .ok expr)
      (htimes : settings.times = .value times) (hnone : times < 1) :
      Settings.Rejected settings (.times times)

namespace Settings

variable {settings : Settings}

theorem Rejected.unbroken_message {rejection : Rejection}
    (hrejected : settings.Rejected rejection) : Unbroken rejection.message := by
  cases hrejected with
  | @expression fault hread =>
      have hmessage : (Rejection.expression fault).message = fault.message :=
        rfl
      rw [hmessage]
      exact Expression.unbroken_of_read_eq_fault hread
  | @times expr times hread htimes hnone =>
      have hmessage : (Rejection.times times).message =
          "[INVALID_TIMES] Number of rolls must be at least 1, got " ++
            decimal times ++ "." := rfl
      rw [hmessage, unbroken_append, unbroken_append]
      exact ⟨⟨by decide, unbroken_decimal times⟩, by decide⟩

theorem ending_report_ok_ne_one (settings : Settings)
    (resolutions : List Resolution) (rolls : List Roll) :
    (settings.report resolutions (.ok rolls)).ending ≠ .exit 1 := by
  rcases settings.report_of_rolls resolutions rolls with
    ⟨lines, -, hreport⟩ | hreport | ⟨-, out, hreport⟩ <;>
  · rw [hreport]
    simp

/-- Playing exits with one only for a rejection, and before the first draw. -/
theorem rejected_of_ending_play {source : Source σ} {start : σ}
    (hending :
      (settings.play source (.initial start)).1.ending = .exit 1) :
    ∃ rejection, settings.Rejected rejection ∧
      (settings.play source (.initial start)).1 =
        settings.report [] (.error (.rejected rejection)) := by
  cases hread : Expression.read settings.expression with
  | error e =>
      rw [play_of_read_error source start hread] at hending ⊢
      cases e with
      | fault fault => exact ⟨.expression fault, .expression hread, rfl⟩
      | tooManyDigits digits => cases hending
  | ok expr =>
      cases htimes : settings.times with
      | blank =>
          rw [settings.play_of_blank_of_ok htimes
            (readExpression_of_ok hread)] at hending
          cases hending
      | value times =>
          by_cases hnone : times < 1
          · have hrolls : settings.roll source times (.initial start) =
                .error (.ofTimes times) (.initial start) := by
              rw [roll_of_read_ok source times hread]
              exact expr.rollMany_of_times_lt source hnone _ _
            rw [play_of_roll_error htimes hrolls] at hending ⊢
            by_cases hwritable : Text.isWritable times = true
            · rw [Failure.ofTimes_of_isWritable hwritable]
              exact ⟨.times times, .times hread htimes hnone, rfl⟩
            · rw [Failure.ofTimes_of_not_isWritable hwritable] at hending
              cases hending
          · cases hrolls :
                settings.roll source times (.initial start) with
            | ok rolls after =>
                rw [play_of_roll_ok htimes hrolls] at hending
                exact absurd hending
                  (settings.ending_report_ok_ne_one _ rolls)
            | error failure after =>
                rw [play_of_roll_error htimes hrolls] at hending
                rw [roll_of_read_ok source times hread,
                  Expression.rollMany_of_ofName?_some source expr (by omega)
                    settings.mode.ofName?_name] at hrolls
                have hthrows :=
                  (expr.follows_throw source settings.mode).repeated times.toNat
                obtain ⟨refusal, rfl⟩ := hthrows.exists_draw_of_error hrolls
                cases hending

end Settings

theorem rejected_of_ending_run {source : Source σ} {start : σ}
    {arguments : List String} {settings : Settings}
    (hread : Settings.read arguments = .ok settings)
    (hending : (run source start arguments).1.ending = .exit 1) :
    ∃ rejection, settings.Rejected rejection ∧
      (run source start arguments).1 =
        settings.report [] (.error (.rejected rejection)) := by
  cases hlevel : settings.level with
  | blank =>
      unfold run at hending
      rw [hread] at hending
      dsimp only at hending
      rw [hlevel] at hending
      cases hending
  | value level =>
      rw [run_of_level_eq_value source start hread hlevel] at hending ⊢
      cases hseed : settings.seed with
      | none =>
          rw [hseed] at hending
          exact Settings.rejected_of_ending_play hending
      | some entry =>
          rw [hseed] at hending
          cases entry with
          | blank => cases hending
          | value seed => exact Settings.rejected_of_ending_play hending

/-- What is said of a rejection: the message, and in front of it, at the most
talkative level, the log lines for the text as it is read and for the text as it
was given. -/
def Settings.errorLines (settings : Settings) (rejection : Rejection) :
    List String :=
  if settings.level = .value .debug then
    (if squeeze settings.expression.toList ≠ [] then
      [normalizedLine settings.expression] else []) ++
    [rejectedLine settings.expression, "error: " ++ rejection.message]
  else ["error: " ++ rejection.message]

theorem Settings.err_report_rejected (settings : Settings)
    (rejection : Rejection) :
    (settings.report [] (.error (.rejected rejection))).err =
      settings.errorLines rejection := by
  unfold report errorLines logged rollingLog
  dsimp only
  rw [normalizedLog_eq, rejectedLog_eq, List.map_nil, List.append_nil]
  split
  next => rw [List.append_assoc]; rfl
  next => rfl

theorem unbroken_normalizedLine (text : String) :
    Unbroken (normalizedLine text) := by
  unfold normalizedLine
  simp only [unbroken_append, unbroken_quoted, and_true]
  decide

theorem unbroken_rejectedLine (text : String) :
    Unbroken (rejectedLine text) := by
  unfold rejectedLine
  simp only [unbroken_append, unbroken_quoted, and_true]
  decide

theorem Settings.Rejected.unbroken_of_mem_errorLines {settings : Settings}
    {rejection : Rejection} (hrejected : settings.Rejected rejection) :
    ∀ line ∈ settings.errorLines rejection, Unbroken line := by
  have herror : Unbroken ("error: " ++ rejection.message) :=
    unbroken_append.mpr ⟨by decide, hrejected.unbroken_message⟩
  intro line hline
  unfold errorLines at hline
  split_ifs at hline
  · rcases List.mem_cons.mp hline with rfl | hlater
    · exact unbroken_normalizedLine _
    · rcases List.mem_pair.mp hlater with rfl | rfl
      · exact unbroken_rejectedLine _
      · exact herror
  · rcases List.mem_pair.mp hline with rfl | rfl
    · exact unbroken_rejectedLine _
    · exact herror
  · obtain rfl := List.mem_singleton.mp hline
    exact herror

/-- No expression forges a line.  The message about a text that is refused is on
one line, and the piece that it quotes is a part of the text without its blanks.
A run that exits with one prints one line with the message, and in front of it,
at the most talkative level, a log line for the text as it is read, unless it is
blank, and one for the text as it was given.  What is printed splits into just
these lines. -/
theorem expression_forges_no_line (source : Source σ) (start : σ) :
    (∀ text fault, Expression.read text = .error (.fault fault) →
      Unbroken fault.message ∧
        ∀ piece ∈ fault.piece?, fault.Quotes piece.toList ∧
          piece.toList <:+: squeeze text.toList ∧
          ∀ c ∈ piece.toList, isBlank c = false) ∧
    ∀ arguments settings, Settings.read arguments = .ok settings →
      (run source start arguments).1.ending = .exit 1 →
        ∃ rejection, settings.Rejected rejection ∧
          let printed := printed (run source start arguments).1.err
          let error := "error: " ++ rejection.message
          splitLines printed = settings.errorLines rejection ∧
          (settings.level ≠ .value .debug → printed = error ++ "\n") ∧
          (settings.level = .value .debug → printed =
            (if squeeze settings.expression.toList ≠ [] then
              normalizedLine settings.expression ++ "\n" else "") ++
            rejectedLine settings.expression ++ "\n" ++ error ++ "\n") := by
  refine ⟨?_, ?_⟩
  · intro text fault hread
    refine ⟨Expression.unbroken_of_read_eq_fault hread, ?_⟩
    intro piece hpiece
    obtain ⟨hquotes, hinfix⟩ :=
      Expression.quotes_of_read_eq_fault hread piece hpiece
    exact ⟨hquotes, hinfix, Expression.not_isBlank_of_isInfix hinfix⟩
  · intro arguments settings hread hending
    obtain ⟨rejection, hrejected, hreport⟩ :=
      rejected_of_ending_run hread hending
    have herr : (run source start arguments).1.err =
        settings.errorLines rejection := by
      rw [hreport, settings.err_report_rejected rejection]
    refine ⟨rejection, hrejected, ?_, ?_, ?_⟩
    · rw [herr]
      exact splitLines_printed hrejected.unbroken_of_mem_errorLines
    · intro hlevel
      rw [herr, Settings.errorLines, if_neg hlevel]
      simp [printed, String.join]
    · intro hlevel
      rw [herr, Settings.errorLines, if_pos hlevel]
      split <;> simp [printed, String.join, String.append_assoc]

theorem expression_forges_no_line_two_lines :
    let source := Source.linear 3 7
    let arguments := ["--log-level", "DEBUG", "d6\nerror: no"]
    let settings : Settings :=
      ⟨"d6\nerror: no", .value 1, .plain, false, none, .value .debug⟩
    Settings.read arguments = .ok settings ∧
      (run source 0 arguments).1.ending = .exit 1 ∧
      Expression.read "d6\nerror: no" =
        .error (.fault (.sides "d6error:no")) ∧
      Unbroken (Fault.sides "d6error:no").message ∧
      ∃ rejection, settings.Rejected rejection ∧
        splitLines (printed (run source 0 arguments).1.err) =
          ["[DEBUG] [rpg_dice_sim.parser] - normalized 'd6\\nerror: no' -> 'd6error:no'",
            "[DEBUG] [rpg_dice_sim.cli] - rejected 'd6\\nerror: no'",
            "error: " ++ rejection.message] := by
  intro source arguments settings
  have hread : Settings.read arguments = .ok settings := by rfl
  have hending : (run source 0 arguments).1.ending = .exit 1 := by rfl
  have htext : Expression.read "d6\nerror: no" =
      .error (.fault (.sides "d6error:no")) := by rfl
  have hnormalized : normalizedLine settings.expression =
      "[DEBUG] [rpg_dice_sim.parser] - normalized 'd6\\nerror: no' -> 'd6error:no'" := by
    decide +kernel +zetaReduce
  have hrejectedLine : rejectedLine settings.expression =
      "[DEBUG] [rpg_dice_sim.cli] - rejected 'd6\\nerror: no'" := by
    decide +kernel +zetaReduce
  obtain ⟨hmessage, hruns⟩ := expression_forges_no_line source 0
  obtain ⟨rejection, hrejected, hlines, -⟩ :=
    hruns arguments settings hread hending
  refine ⟨hread, hending, htext, (hmessage _ _ htext).1, rejection,
    hrejected, ?_⟩
  rw [hlines, Settings.errorLines, if_pos rfl, if_pos (by decide),
    hnormalized, hrejectedLine]
  rfl

end CommandLine

end TabletopDice
