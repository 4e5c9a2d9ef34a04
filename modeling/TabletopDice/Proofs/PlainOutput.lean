import TabletopDice.Proofs.Fulfilment
import TabletopDice.Proofs.Legible
import TabletopDice.Proofs.Output

/-!
# What the plain output tells

Without the flag for quiet rolls a run shows every roll in full, with a heading
in front of it and its total at its end.  No line holds a newline, so the text
on the output channel tells the lines.  The total ends the lines of a roll, and
behind it there is a blank line only if a heading follows or the summary, which
do not look alike.  So two runs with the same text have made the same rolls.
-/

namespace TabletopDice

open Text

namespace Text

/-! ## Lines -/

def IsLine (text : String) : Prop :=
  '\n' ∉ text.toList

instance (text : String) : Decidable (IsLine text) :=
  inferInstanceAs (Decidable ('\n' ∉ text.toList))

@[simp] theorem isLine_append {s t : String} :
    IsLine (s ++ t) ↔ IsLine s ∧ IsLine t := by
  simp [IsLine, String.toList_append]

theorem isLine_of_isDigit {text : String}
    (hdigits : ∀ c ∈ text.toList, c.isDigit = true) : IsLine text :=
  not_mem_of_isDigit hdigits rfl

@[simp] theorem isLine_decimal (n : ℤ) : IsLine (decimal n) := by
  unfold IsLine
  rw [toList_decimal, List.mem_append, not_or]
  refine ⟨?_, not_mem_of_isDigit (fun c => isDigit_of_mem_toDigits) rfl⟩
  cases decide (n < 0) <;> decide

@[simp] theorem isLine_bracketed (values : List ℤ) :
    IsLine (bracketed values) := by
  intro hmem
  rw [← List.append_nil (bracketed values).toList,
    toList_bracketed_append] at hmem
  simp only [List.mem_cons, List.mem_append] at hmem
  rcases hmem with hopen | hvalues | hclose
  · cases hopen
  · rcases CommandLine.Settings.mem_intercalate hvalues with
      hseparator | ⟨group, hgroup, hmem⟩
    · simp at hseparator
    · obtain ⟨n, -, rfl⟩ := List.mem_map.mp hgroup
      exact isLine_decimal n hmem
  · simp at hclose

@[simp] theorem isLine_detail (detail : Detail) : IsLine detail.line := by
  have hmark : IsLine (if 0 ≤ detail.term.sign then "+" else "-") := by
    split <;> decide
  unfold Detail.line DiceTerm.label
  simp only [isLine_append, hmark, isLine_decimal, isLine_bracketed, true_and,
    and_true]
  decide

@[simp] theorem isLine_twoPlaces (x : Number.Binary64) :
    IsLine x.twoPlaces := by
  have hsign : IsLine (if x.negative then "-" else "") := by
    split <;> decide
  have hpadded : IsLine (paddedDecimal 2 (x.hundredths % 100)) :=
    isLine_of_isDigit (isDigits_iff.mp (isDigits_paddedDecimal _ _)).2
  unfold Number.Binary64.twoPlaces
  dsimp only
  split
  next =>
      simp only [isLine_append, hsign, hpadded, isLine_decimal, true_and,
        and_true]
      decide
  next =>
      split
      next => exact isLine_append.mpr ⟨hsign, by decide⟩
      next => decide

theorem legible_line :
    Legible (fun line : String => line.toList ++ ['\n']) IsLine
      (fun _ => True) := by
  intro line line' s t hline hline' _ _ heq
  have htake : ∀ cs rest : List Char, '\n' ∉ cs →
      (cs ++ ['\n'] ++ rest).takeWhile (· ≠ '\n') = cs := by
    intro cs rest hcs
    rw [List.append_assoc, List.takeWhile_append_of_pos]
    · simp
    · intro c hc
      simpa using ne_of_mem_of_not_mem hc hcs
  have hchars : line.toList = line'.toList := by
    rw [← htake _ s hline, heq, htake _ t hline']
  dsimp only at heq
  rw [hchars] at heq
  exact ⟨String.toList_inj.mp hchars, List.append_cancel_left heq⟩

end Text

/-! ## Rolls that are shown in full -/

namespace Part

def line : Part → String
  | .dice detail => detail.line
  | .mods value => "mods: " ++ decimal value

/-- The next line is not the total. -/
def StartsLines (lines : List String) : Prop :=
  ∃ line ∈ lines.head?, line.toList.head? ≠ some 't'

theorem line_dice_ne_line_mods (detail : Detail) (value : ℤ) :
    (Part.dice detail).line ≠ (Part.mods value).line := by
  intro heq
  have hline : detail.line = "mods: " ++ decimal value := heq
  have hhead := detail.head?_line_append_ne [] (c := 'm') (by decide)
  rw [List.append_nil, hline, String.toList_append] at hhead
  exact hhead rfl

theorem line_inj {part other : Part} (hpart : part.IsSigned)
    (hother : other.IsSigned) (heq : part.line = other.line) :
    part = other := by
  cases part with
  | dice detail =>
      cases other with
      | dice detail' =>
          have hline : detail.line.toList ++ [] = detail'.line.toList ++ [] :=
            congrArg (·.toList ++ []) heq
          rw [(Detail.legible_line detail detail' [] [] hpart hother
            endsNumber_nil endsNumber_nil hline).1]
      | mods value' => exact absurd heq (line_dice_ne_line_mods detail value')
  | mods value =>
      cases other with
      | dice detail' =>
          exact absurd heq.symm (line_dice_ne_line_mods detail' value)
      | mods value' =>
          have hchars := congrArg String.toList heq
          unfold line at hchars
          rw [String.toList_append, String.toList_append] at hchars
          rw [decimal_inj (List.append_cancel_left hchars)]

theorem startsLines_line (part : Part) (lines : List String) :
    StartsLines ([part.line] ++ lines) := by
  refine ⟨part.line, rfl, ?_⟩
  cases part with
  | dice detail =>
      have hhead := detail.head?_line_append_ne [] (c := 't') (by decide)
      rwa [List.append_nil] at hhead
  | mods value =>
      unfold line
      rw [String.toList_append]
      simp

theorem legible_line :
    Legible (fun part : Part => [part.line]) IsSigned (fun _ => True) := by
  intro part other s t hpart hother _ _ heq
  obtain ⟨hline, hrest⟩ := List.cons.inj heq
  exact ⟨line_inj hpart hother hline, hrest⟩

end Part

namespace Roll

def heading (index : ℤ) : String :=
  "--- roll " ++ decimal index ++ " ---"

theorem heading_inj {index other : ℤ} (heq : heading index = heading other) :
    index = other := by
  have hchars := congrArg String.toList heq
  unfold heading at hchars
  simp only [String.toList_append, List.append_assoc] at hchars
  have hrest := List.append_cancel_left hchars
  exact (decimal_append_cons_inj (c := ' ') rfl hrest).1

theorem lines_append (roll : Roll) (index : ℤ) (lines : List String) :
    roll.lines index false ++ lines =
      heading index :: (roll.parts.flatMap (fun part => [part.line]) ++
        ("total: " ++ decimal roll.total) :: lines) := by
  have hparts : roll.parts.flatMap (fun part => [part.line]) =
      roll.details.map Detail.line ++
        if roll.flatTotal = 0 then []
          else ["mods: " ++ decimal roll.flatTotal] := by
    unfold parts
    rw [List.flatMap_append, List.flatMap_map]
    split <;> simp [Part.line, ← List.map_eq_flatMap]
  rw [hparts]
  simp [Roll.lines, heading]

theorem not_startsLines_total (total : ℤ) (lines : List String) :
    ¬ Part.StartsLines (("total: " ++ decimal total) :: lines) := by
  rintro ⟨line, hline, hhead⟩
  cases hline
  rw [String.toList_append] at hhead
  exact hhead rfl

/-- The heading tells the number of a roll, and the total where it ends. -/
theorem legible_lines :
    Legible (fun item : Roll × ℕ => item.1.lines item.2 false)
      (fun item => ∀ detail ∈ item.1.details, detail.IsSigned)
      (fun _ => True) := by
  rintro ⟨roll, index⟩ ⟨other, index'⟩ s t hroll hother _ _ heq
  dsimp only at heq
  rw [lines_append, lines_append, List.cons.injEq] at heq
  have hindex : index = index' := by exact_mod_cast heading_inj heq.1
  have hlist := Part.legible_line.flatMap Part.StartsLines
    fun part lines _ => part.startsLines_line lines
  obtain ⟨hparts, hclose⟩ := hlist roll.parts other.parts _ _
    (isSigned_of_mem_parts hroll) (isSigned_of_mem_parts hother)
    (not_startsLines_total _ _) (not_startsLines_total _ _) heq.2
  obtain ⟨htotal, hrest⟩ := List.cons.inj hclose
  have hchars := congrArg String.toList htotal
  rw [String.toList_append, String.toList_append] at hchars
  have hdecimal := decimal_inj (List.append_cancel_left hchars)
  exact ⟨Prod.ext (eq_of_parts_eq hparts hdecimal) hindex, hrest⟩

theorem isLine_of_mem_lines {roll : Roll} {index : ℤ} {line : String}
    (hline : line ∈ roll.lines index false) : IsLine line := by
  rw [← List.append_nil (roll.lines index false), lines_append] at hline
  simp only [List.mem_cons, List.mem_append, List.mem_flatMap,
    List.not_mem_nil, or_false] at hline
  rcases hline with rfl | ⟨part, -, rfl⟩ | rfl
  · unfold heading
    simp only [isLine_append, isLine_decimal, and_true]
    decide
  · cases part with
    | dice detail => exact isLine_detail detail
    | mods value => exact isLine_append.mpr ⟨by decide, isLine_decimal value⟩
  · exact isLine_append.mpr ⟨by decide, isLine_decimal roll.total⟩

end Roll

theorem Summary.isLine_of_mem_lines {summary : Summary} {line : String}
    (hline : line ∈ summary.lines) : IsLine line := by
  unfold Summary.lines at hline
  simp only [List.mem_cons, List.not_mem_nil, or_false] at hline
  rcases hline with rfl | rfl | rfl | rfl | rfl
  · decide
  · exact isLine_append.mpr ⟨by decide, isLine_decimal _⟩
  · exact isLine_append.mpr ⟨by decide, isLine_decimal _⟩
  · exact isLine_append.mpr ⟨by decide, isLine_decimal _⟩
  · exact isLine_append.mpr ⟨by decide, isLine_twoPlaces _⟩

/-! ## The output of a run -/

namespace CommandLine

theorem toList_printed (lines : List String) :
    (printed lines).toList =
      lines.flatMap fun line => line.toList ++ ['\n'] := by
  unfold printed
  simp [String.toList_join, List.flatMap_map, String.toList_append]

theorem printed_inj {lines lines' : List String}
    (hlines : ∀ line ∈ lines, IsLine line)
    (hlines' : ∀ line ∈ lines', IsLine line)
    (hprinted : printed lines = printed lines') : lines = lines' := by
  have hchars : (printed lines).toList ++ [] = (printed lines').toList ++ [] :=
    congrArg (·.toList ++ []) hprinted
  rw [toList_printed, toList_printed] at hchars
  have hlist := Text.legible_line.flatMap (fun cs => cs ≠ []) (by simp)
  exact (hlist lines lines' [] [] hlines hlines' (by simp) (by simp) hchars).1

namespace Settings

variable {settings settings' : Settings}

theorem rollLines_of_not_quiet (hquiet : settings.quiet = false)
    (rolls : List Roll) :
    settings.rollLines rolls =
      [""].intercalate ((rolls.zipIdx 1).map
        fun item : Roll × ℕ => item.1.lines item.2 false) := by
  unfold rollLines separated groups
  rw [hquiet]
  rfl

/-- A heading begins with a dash; no line of a summary does. -/
def StartsRoll (lines : List String) : Prop :=
  ∃ line ∈ lines.head?, line.toList.head? = some '-'

theorem summaryLines_cases {rolls : List Roll} {lines : List String}
    (hlines : summaryLines rolls = .ok lines) :
    lines = [] ∨ ∃ summary : Summary, lines = "" :: summary.lines := by
  unfold summaryLines at hlines
  split at hlines
  next => exact .inl (Except.ok.inj hlines).symm
  next =>
      cases hfound : Summary.ofTotals (rolls.map Roll.total) with
      | error failure =>
          rw [hfound] at hlines
          cases hlines
      | ok found =>
          rw [hfound] at hlines
          cases found with
          | none => exact .inl (Except.ok.inj hlines).symm
          | some summary => exact .inr ⟨summary, (Except.ok.inj hlines).symm⟩

theorem closes_summaryLines {rolls : List Roll} {lines : List String}
    (hlines : summaryLines rolls = .ok lines) :
    Closes [""] StartsRoll (fun _ => True) lines := by
  rcases summaryLines_cases hlines with rfl | ⟨summary, rfl⟩
  · refine ⟨trivial, ?_, ?_⟩
    · rintro ⟨line, hline, -⟩
      cases hline
    · intro rest hrest
      cases hrest
  · refine ⟨trivial, ?_, ?_⟩
    · rintro ⟨line, hline, hhead⟩
      cases hline
      cases hhead
    · rintro rest hrest ⟨line, hline, hhead⟩
      obtain rfl := (List.cons.inj hrest).2
      cases hline
      cases hhead

theorem startsRoll_lines_append (roll : Roll) (index : ℤ)
    (lines : List String) :
    StartsRoll (roll.lines index false ++ lines) := by
  rw [Roll.lines_append]
  refine ⟨Roll.heading index, rfl, ?_⟩
  unfold Roll.heading
  simp [String.toList_append]

theorem rolls_eq_of_lines_eq (hquiet : settings.quiet = false)
    (hquiet' : settings'.quiet = false) {rolls rolls' : List Roll}
    {lines lines' : List String}
    (hrolls : ∀ roll ∈ rolls, ∀ detail ∈ roll.details, detail.IsSigned)
    (hrolls' : ∀ roll ∈ rolls', ∀ detail ∈ roll.details, detail.IsSigned)
    (hlines : summaryLines rolls = .ok lines)
    (hlines' : summaryLines rolls' = .ok lines')
    (heq : settings.rollLines rolls ++ lines =
      settings'.rollLines rolls' ++ lines') : rolls = rolls' := by
  rw [rollLines_of_not_quiet hquiet, rollLines_of_not_quiet hquiet'] at heq
  have hlist := Roll.legible_lines.intercalate [""] StartsRoll
    (fun item lines _ => startsRoll_lines_append item.1 item.2 lines)
    (fun _ => trivial)
  obtain ⟨hitems, -⟩ := hlist (rolls.zipIdx 1) (rolls'.zipIdx 1) lines lines'
    (fun item hitem => hrolls item.1 (List.fst_mem_of_mem_zipIdx hitem))
    (fun item hitem => hrolls' item.1 (List.fst_mem_of_mem_zipIdx hitem))
    (closes_summaryLines hlines) (closes_summaryLines hlines') heq
  calc
    rolls = (rolls.zipIdx 1).map Prod.fst := (List.zipIdx_map_fst 1 rolls).symm
    _ = (rolls'.zipIdx 1).map Prod.fst := by rw [hitems]
    _ = rolls' := List.zipIdx_map_fst 1 rolls'

theorem isLine_of_mem_output (hquiet : settings.quiet = false)
    {rolls : List Roll} {lines : List String}
    (hlines : summaryLines rolls = .ok lines) :
    ∀ line ∈ settings.rollLines rolls ++ lines, IsLine line := by
  intro line hline
  rcases List.mem_append.mp hline with hroll | hsummary
  · rw [rollLines_of_not_quiet hquiet] at hroll
    rcases mem_intercalate hroll with hblank | ⟨group, hgroup, hmem⟩
    · obtain rfl := List.mem_singleton.mp hblank
      decide
    · obtain ⟨item, -, rfl⟩ := List.mem_map.mp hgroup
      exact Roll.isLine_of_mem_lines hmem
  · rcases summaryLines_cases hlines with rfl | ⟨summary, rfl⟩
    · cases hsummary
    · rcases List.mem_cons.mp hsummary with rfl | hmem
      · decide
      · exact Summary.isLine_of_mem_lines hmem

theorem Makes.isSigned {supply : Supply} {times : ℤ} {rolls : List Roll}
    (hmakes : settings.Makes supply times rolls) :
    ∀ roll ∈ rolls, ∀ detail ∈ roll.details, detail.IsSigned := by
  intro roll hroll
  obtain ⟨after, hmade⟩ := hmakes.made
  unfold Settings.roll at hmade
  obtain ⟨expr, middle, hexpr, hmany⟩ := Rolling.bind_eq_ok_iff.mp hmade
  obtain ⟨hread, rfl⟩ := Rolling.require_eq_ok_iff.mp hexpr
  have hwellFormed : expr.WellFormed :=
    Expression.wellFormed_of_readChars_eq_ok
      (Traversal.mapError_eq_ok_iff.mp hread)
  exact (hwellFormed.accounts_of_mem_rolls hmany hroll).isSigned hwellFormed

end Settings

variable {σ τ : Type}

/-- A run that reads its arguments and exits with zero has made its rolls and
shown them. -/
theorem exists_rolls_of_exit_zero {source : Source σ} {start : σ}
    {arguments : List String} {settings : Settings}
    (hread : Settings.read arguments = .ok settings)
    (hexit : (run source start arguments).1.ending = .exit 0) :
    ∃ times rolls lines,
      settings.Makes (settings.supply source start) times rolls ∧
        Settings.summaryLines rolls = .ok lines ∧
        (run source start arguments).1.out =
          settings.rollLines rolls ++ lines := by
  have hends := ends_run source start arguments
  generalize run source start arguments = ran at hends hexit
  cases hends with
  | help hhelp =>
      rw [hread] at hhelp
      cases hhelp
  | misused hmisused => cases hexit
  | rejected => cases hexit
  | blank => cases hexit
  | unrolled => cases hexit
  | unwritable => cases hexit
  | meanless => cases hexit
  | @finished settings' times rolls lines log feed hread' hmakes hlines =>
      rw [hread] at hread'
      cases hread'
      exact ⟨times, rolls, lines, hmakes, hlines, rfl⟩

/-- Two runs that show their rolls in full and exit with zero have made the
same rolls if they print the same text. -/
theorem plain_output_determines_rolls (source : Source σ) (source' : Source τ)
    (start : σ) (start' : τ) {arguments arguments' : List String}
    {settings settings' : Settings}
    (hread : Settings.read arguments = .ok settings)
    (hread' : Settings.read arguments' = .ok settings')
    (hquiet : settings.quiet = false) (hquiet' : settings'.quiet = false)
    (hexit : (run source start arguments).1.ending = .exit 0)
    (hexit' : (run source' start' arguments').1.ending = .exit 0)
    (hout : printed (run source start arguments).1.out =
      printed (run source' start' arguments').1.out) :
    ∃ times rolls,
      settings.Makes (settings.supply source start) times rolls ∧
        settings'.Makes (settings'.supply source' start') times rolls := by
  obtain ⟨times, rolls, lines, hmakes, hlines, hshown⟩ :=
    exists_rolls_of_exit_zero hread hexit
  obtain ⟨times', rolls', lines', hmakes', hlines', hshown'⟩ :=
    exists_rolls_of_exit_zero hread' hexit'
  rw [hshown, hshown'] at hout
  have hsame := printed_inj (Settings.isLine_of_mem_output hquiet hlines)
    (Settings.isLine_of_mem_output hquiet' hlines') hout
  obtain rfl := Settings.rolls_eq_of_lines_eq hquiet hquiet' hmakes.isSigned
    hmakes'.isSigned hlines hlines' hsame
  have htimes : times = times' :=
    hmakes.length_eq.symm.trans hmakes'.length_eq
  subst htimes
  exact ⟨times, rolls, hmakes, hmakes'⟩

theorem plain_output_determines_rolls_two_rolls :
    ∃ settings settings',
      Settings.read ["-t", "2", "d6 + 1"] = .ok settings ∧
        Settings.read ["--adv", "--times=2", " 1d6+1 "] = .ok settings' ∧
        settings.quiet = false ∧ settings'.quiet = false ∧
        (run Source.script [3, 5] ["-t", "2", "d6 + 1"]).1.ending = .exit 0 ∧
        (run (Source.linear 2 2) 0 ["--adv", "--times=2", " 1d6+1 "]).1.ending =
          .exit 0 ∧
        printed (run Source.script [3, 5] ["-t", "2", "d6 + 1"]).1.out =
          printed
            (run (Source.linear 2 2) 0 ["--adv", "--times=2", " 1d6+1 "]).1.out ∧
        ∃ times rolls,
          settings.Makes (settings.supply Source.script [3, 5]) times rolls ∧
            settings'.Makes (settings'.supply (Source.linear 2 2) 0) times
              rolls := by
  have hread : Settings.read ["-t", "2", "d6 + 1"] =
      .ok ⟨"d6 + 1", .value 2, .plain, false, none, .value .warning⟩ := by
    decide +kernel
  have hread' : Settings.read ["--adv", "--times=2", " 1d6+1 "] =
      .ok ⟨" 1d6+1 ", .value 2, .advantage, false, none, .value .warning⟩ := by
    decide +kernel
  have hexit :
      (run Source.script [3, 5] ["-t", "2", "d6 + 1"]).1.ending = .exit 0 := by
    decide +kernel
  have hexit' :
      (run (Source.linear 2 2) 0 ["--adv", "--times=2", " 1d6+1 "]).1.ending =
        .exit 0 := by
    decide +kernel
  have hout :
      printed (run Source.script [3, 5] ["-t", "2", "d6 + 1"]).1.out =
        printed
          (run (Source.linear 2 2) 0 ["--adv", "--times=2", " 1d6+1 "]).1.out := by
    decide +kernel
  exact ⟨_, _, hread, hread', rfl, rfl, hexit, hexit', hout,
    plain_output_determines_rolls Source.script (Source.linear 2 2) [3, 5] 0
      hread hread' rfl rfl hexit hexit' hout⟩

end CommandLine

end TabletopDice
