import TabletopDice.Proofs.Canonical
import TabletopDice.Proofs.Redundancy

/-!
# Terms as they are shown

A term is shown with its sign and its count in full.  Terms that are shown one
behind the other, with nothing between them, are read as just these terms: the
sign of each one parts it from the one before.  So there are two ways to write
dice that are read alike, this one and the canonical text.
-/

namespace TabletopDice

open Text

/-! ## One term -/

namespace DiceTerm

/-- The piece that a shown term leaves: a plus in front belongs to no piece. -/
def shownPiece (term : DiceTerm) : List Char :=
  minus (term.sign < 0) ++
    ((decimal term.count).toList ++ 'd' :: (decimal term.sides).toList)

theorem toList_label (term : DiceTerm) :
    term.label.toList =
      (if term.sign < 0 then [] else ['+']) ++ term.shownPiece := by
  unfold label shownPiece
  by_cases hnegative : term.sign < 0
  · simp [hnegative, not_le.mpr hnegative]
  · simp [hnegative, not_lt.mp hnegative]

theorem WellFormed.spells_shownPiece {term : DiceTerm}
    (hterm : term.WellFormed) :
    Term.Spells term.shownPiece (.dice term) :=
  hterm.spells_of_spellsCount (.inr hterm.spells_count)

theorem WellFormed.pieces_label {term : DiceTerm} (hterm : term.WellFormed) :
    Expression.pieces term.label.toList = [term.shownPiece] := by
  have hspells := hterm.spells_shownPiece
  have hpiece : Expression.pieces term.shownPiece = [term.shownPiece] := by
    rw [Expression.pieces_eq_cut, hspells.squeeze_eq, hspells.isPiece.cut_eq]
  rw [toList_label]
  by_cases hnegative : term.sign < 0
  · rw [if_pos hnegative, List.nil_append, hpiece]
  · rw [if_neg hnegative, List.singleton_append, ← List.nil_append ('+' :: _),
      Expression.pieces_append_plus, hpiece]
    rfl

end DiceTerm

/-! ## One term behind the other -/

/-- The terms as they are shown, with nothing between them. -/
def joinedLabels (dice : List DiceTerm) : String :=
  String.join (dice.map DiceTerm.label)

theorem toList_joinedLabels_cons (term : DiceTerm) (rest : List DiceTerm) :
    (joinedLabels (term :: rest)).toList =
      term.label.toList ++ (joinedLabels rest).toList := by
  unfold joinedLabels
  rw [List.map_cons, String.join_cons, String.toList_append]

/-- Nothing is cut off or joined where shown terms follow a text: they start
with a sign. -/
theorem isIdlePlace_joinedLabels (before : List Char) (dice : List DiceTerm) :
    Expression.IsIdlePlace before (joinedLabels dice).toList := by
  cases dice with
  | nil => exact .inr (.inl rfl)
  | cons term rest =>
      rw [toList_joinedLabels_cons, DiceTerm.toList_label]
      by_cases hnegative : term.sign < 0
      · exact .inr (.inr (.inl (by simp [DiceTerm.shownPiece, hnegative])))
      · exact .inr (.inr (.inr (.inl (by simp [hnegative]))))

theorem pieces_joinedLabels {dice : List DiceTerm}
    (hdice : ∀ term ∈ dice, term.WellFormed) :
    Expression.pieces (joinedLabels dice).toList =
      dice.map DiceTerm.shownPiece := by
  induction dice with
  | nil => rfl
  | cons term rest ih =>
      have hterm := hdice term List.mem_cons_self
      have hrest : ∀ later ∈ rest, later.WellFormed :=
        fun later hlater => hdice later (List.mem_cons_of_mem term hlater)
      rw [toList_joinedLabels_cons,
        (isIdlePlace_joinedLabels term.label.toList rest).pieces_append,
        hterm.pieces_label, ih hrest]
      rfl

namespace Expression

theorem wellFormed_of_dice {dice : List DiceTerm} (hne : dice ≠ [])
    (hdice : ∀ term ∈ dice, term.WellFormed) :
    WellFormed ⟨dice, []⟩ where
  dice := hdice
  modifiers := by simp
  nonempty := .inl hne

/-- Dice that are shown one behind the other are read as an expression of just
these dice, in order and without modifiers.  The canonical text of that
expression is read alike. -/
theorem read_joined_labels {dice : List DiceTerm} (hne : dice ≠ [])
    (hdice : ∀ term ∈ dice, term.WellFormed) :
    read (joinedLabels dice) = .ok ⟨dice, []⟩ ∧
      read (canonical ⟨dice, []⟩) = read (joinedLabels dice) := by
  have hread : read (joinedLabels dice) = .ok ⟨dice, []⟩ := by
    apply readChars_eq_ok_iff.mpr
    rw [pieces_joinedLabels hdice]
    refine ⟨dice.map .dice, by simpa using hne, ?_, ?_⟩
    · rw [List.forall₂_map_left_iff, List.forall₂_map_right_iff,
        List.forall₂_same]
      exact fun term hterm => (hdice term hterm).spells_shownPiece
    · simpa [terms] using (ofTerms_terms ⟨dice, []⟩).symm
  have hcanonical := (wellFormed_of_dice hne hdice).read_canonical_eq
  exact ⟨hread, hcanonical.trans hread.symm⟩

theorem read_joined_labels_at_bounds :
    let dice : List DiceTerm :=
      [⟨1, 20, 1⟩, ⟨4294967295, 4294967295, -1⟩, ⟨1, 1, -1⟩, ⟨10, 6, 1⟩]
    dice ≠ [] ∧ (∀ term ∈ dice, term.WellFormed) ∧
      joinedLabels dice = "+1d20-4294967295d4294967295-1d1+10d6" ∧
      canonical ⟨dice, []⟩ = "d20 - 4294967295d4294967295 - d1 + 10d6" ∧
      read "+1d20-4294967295d4294967295-1d1+10d6" = .ok ⟨dice, []⟩ ∧
      read "d20 - 4294967295d4294967295 - d1 + 10d6" = .ok ⟨dice, []⟩ := by
  intro dice
  have hne : dice ≠ [] := by decide
  have hdice : ∀ term ∈ dice, term.WellFormed := by
    simp only [dice, List.forall_mem_cons]
    refine ⟨?_, ?_, ?_, ?_, by simp⟩
    · exact ⟨.inl rfl, by decide, by decide⟩
    · exact ⟨.inr rfl, by decide, by decide⟩
    · exact ⟨.inr rfl, by decide, by decide⟩
    · exact ⟨.inl rfl, by decide, by decide⟩
  have hlabels : joinedLabels dice =
      "+1d20-4294967295d4294967295-1d1+10d6" := by decide +kernel +zetaReduce
  have hcanonical : canonical ⟨dice, []⟩ =
      "d20 - 4294967295d4294967295 - d1 + 10d6" := by decide +kernel +zetaReduce
  obtain ⟨hread, hagain⟩ := read_joined_labels hne hdice
  rw [hcanonical, hread] at hagain
  rw [hlabels] at hread
  exact ⟨hne, hdice, hlabels, hcanonical, hread, hagain⟩

end Expression

end TabletopDice
