import TabletopDice.Proofs.Layout
import TabletopDice.Proofs.Term

/-!
# The grammar of expressions

A text spells a list of terms if it has a layout whose pieces spell them one
by one.  The reader accepts a text exactly when its characters without the
blanks spell something, and the layout and the terms are then unique.
-/

namespace TabletopDice

open Text Traversal

/-! ## Pieces that spell a term -/

theorem isPiece_minus_append {negative : Bool} {core : List Char}
    (hne : core ≠ []) (hplus : '+' ∉ core) (hminus : '-' ∉ core) :
    Expression.IsPiece (minus negative ++ core) := by
  cases negative with
  | true =>
      refine ⟨by simp, ?_, hminus⟩
      simpa using hplus
  | false =>
      refine ⟨hne, hplus, ?_⟩
      intro hmem
      exact hminus (List.mem_of_mem_tail hmem)

theorem Term.Spells.isPiece {piece : List Char} {term : Term}
    (hpiece : Term.Spells piece term) : Expression.IsPiece piece := by
  cases hpiece with
  | modifier negative hdigits hvalue hrange =>
      exact isPiece_minus_append hdigits.ne_nil
        (hdigits.not_mem isDigit_plus) (hdigits.not_mem isDigit_minus)
  | @dice negative count sides c s hcount hsides hcountRange hsidesRange =>
      have hfree : ∀ a : Char, a.isDigit = false → a ≠ 'd' →
          a ∉ count ++ 'd' :: sides := by
        intro a ha hne
        simp only [List.mem_append, List.mem_cons, not_or]
        exact ⟨hcount.not_mem ha, hne, hsides.not_mem ha⟩
      exact isPiece_minus_append (by simp)
        (hfree '+' isDigit_plus (by decide))
        (hfree '-' isDigit_minus (by decide))

theorem Term.Spells.unique {piece : List Char} {term other : Term}
    (hterm : Term.Spells piece term) (hother : Term.Spells piece other) :
    term = other := by
  have hread := Term.read_eq_ok_iff.mpr hterm
  rw [Term.read_eq_ok_iff.mpr hother] at hread
  exact (Except.ok.inj hread).symm

theorem spelled_unique {pieces : List (List Char)} {terms others : List Term}
    (hterms : List.Forall₂ Term.Spells pieces terms)
    (hothers : List.Forall₂ Term.Spells pieces others) : terms = others := by
  induction hterms generalizing others with
  | nil =>
      cases hothers
      rfl
  | cons hterm hrest ih =>
      cases hothers with
      | cons hother hmore =>
          rw [hterm.unique hother, ih hmore]

namespace Expression

/-! ## Layouts that spell terms -/

/-- The pieces of the layout, at least one, spell the terms in order, and two
of them have a plus between them unless the second one has its own minus. -/
structure Layout.Spells (layout : Layout) (terms : List Term) : Prop where
  ne_nil : layout.parts ≠ []
  separated : layout.Separated
  spelled : List.Forall₂ Term.Spells layout.pieces terms

theorem Layout.Spells.wellFormed {layout : Layout} {terms : List Term}
    (hlayout : layout.Spells terms) : layout.WellFormed := by
  refine ⟨?_, hlayout.separated⟩
  intro part hpart
  have hpiece : part.1 ∈ layout.pieces := List.mem_map_of_mem hpart
  obtain ⟨term, hterm⟩ := exists_rel_of_mem_right hlayout.spelled.flip hpiece
  have hspells : Term.Spells part.1 term := hterm
  exact hspells.isPiece

/-! ## What the reader accepts -/

theorem readChars_eq_ok_iff {cs : List Char} {expr : Expression} :
    readChars cs = .ok expr ↔
      ∃ terms, pieces cs ≠ [] ∧ List.Forall₂ Term.Spells (pieces cs) terms ∧
        expr = ofTerms terms := by
  have hmapM (terms : List Term) : (pieces cs).mapM Term.read = .ok terms ↔
      List.Forall₂ Term.Spells (pieces cs) terms := by
    rw [mapM_eq_ok_iff]
    simp only [Term.read_eq_ok_iff]
  unfold readChars
  constructor
  · intro hread
    split at hread
    next => cases hread
    next =>
      cases hterms : (pieces cs).mapM Term.read with
      | error e =>
          rw [hterms] at hread
          cases hread
      | ok terms =>
          rw [hterms] at hread
          have hspelled := (hmapM terms).mp hterms
          cases terms with
          | nil => cases hread
          | cons term rest =>
              refine ⟨term :: rest, ?_, hspelled, (Except.ok.inj hread).symm⟩
              intro hnil
              rw [hnil] at hspelled
              cases hspelled
  · intro hterms
    obtain ⟨terms, hne, hspelled, rfl⟩ := hterms
    have hfull : squeeze cs ≠ [] := by
      intro hempty
      apply hne
      rw [pieces_eq_cut, hempty, cut_nil]
    rw [if_neg (by simpa using hfull), (hmapM terms).mpr hspelled]
    cases terms with
    | nil => exact absurd (List.forall₂_nil_right_iff.mp hspelled) hne
    | cons term rest => rfl

/-- A text is refused because nothing is written in it, or for its first piece
that spells no term. -/
theorem readChars_eq_error_iff {cs : List Char} {e : ReadError} :
    readChars cs = .error e ↔
      (squeeze cs = [] ∧ e = .fault .empty) ∨
      (squeeze cs ≠ [] ∧ pieces cs = [] ∧ e = .fault .nothingToRoll) ∨
      ∃ before piece after, pieces cs = before ++ piece :: after ∧
        (∀ earlier ∈ before, ∃ term, Term.Spells earlier term) ∧
        Term.read piece = .error e := by
  have hmapM : (pieces cs).mapM Term.read = .error e ↔
      ∃ before piece after, pieces cs = before ++ piece :: after ∧
        (∀ earlier ∈ before, ∃ term, Term.Spells earlier term) ∧
        Term.read piece = .error e := by
    rw [mapM_eq_error_iff]
    simp only [Term.read_eq_ok_iff]
  rw [← hmapM]
  unfold readChars
  by_cases hblank : squeeze cs = []
  · have hnone : pieces cs = [] := by
      rw [pieces_eq_cut, hblank, cut_nil]
    rw [hnone, List.mapM_nil]
    simp [hblank, pure, Except.pure, eq_comm]
  · rw [if_neg (by simpa using hblank)]
    cases hterms : (pieces cs).mapM Term.read with
    | error found =>
        have hsome : pieces cs ≠ [] := by
          intro hnone
          rw [hnone, List.mapM_nil] at hterms
          cases hterms
        simp [hblank, hsome]
    | ok terms =>
        have hspelled := mapM_eq_ok_iff.mp hterms
        cases terms with
        | nil =>
            have hnone : pieces cs = [] :=
              List.forall₂_nil_right_iff.mp hspelled
            simp [hblank, hnone, eq_comm]
        | cons term rest =>
            have hsome : pieces cs ≠ [] := by
              intro hnone
              rw [hnone] at hspelled
              cases hspelled
            simp [hblank, hsome]

theorem readChars_eq_ok_of_layout {cs : List Char} {layout : Layout}
    {terms : List Term} (htext : layout.text = squeeze cs)
    (hlayout : layout.Spells terms) : readChars cs = .ok (ofTerms terms) := by
  have hpieces : pieces cs = layout.pieces := by
    rw [pieces_eq_cut, ← htext, hlayout.wellFormed.cut_text]
  apply readChars_eq_ok_iff.mpr
  rw [hpieces]
  refine ⟨terms, ?_, hlayout.spelled, rfl⟩
  simpa [Layout.pieces] using hlayout.ne_nil

theorem exists_layout_of_readChars_eq_ok {cs : List Char} {expr : Expression}
    (hread : readChars cs = .ok expr) :
    ∃ layout terms,
      Layout.text layout = squeeze cs ∧ layout.Spells terms := by
  obtain ⟨terms, hne, hspelled, -⟩ := readChars_eq_ok_iff.mp hread
  rw [pieces_eq_cut, cut_eq_pieces_ofChars] at hne hspelled
  refine ⟨Layout.ofChars (squeeze cs), terms, Layout.text_ofChars _, ?_, ?_, ?_⟩
  · simpa [Layout.pieces] using hne
  · exact (Layout.wellFormed_ofChars _).separated
  · exact hspelled

/-- A text is read exactly if its characters without the blanks have a layout
that spells terms.  Such a layout is unique, and so are its terms; the dice
among them and the modifiers among them, each in order, are what is read. -/
theorem readOptional_iff_exists_unique_layout (text : Option String) :
    ((∃ expr, readOptional text = .ok expr) ↔
      ∃ layout terms, Layout.text layout = squeeze (text.getD "").toList ∧
        layout.Spells terms) ∧
    ∀ layout terms, Layout.text layout = squeeze (text.getD "").toList →
      layout.Spells terms →
        (∀ other otherTerms,
          Layout.text other = squeeze (text.getD "").toList →
            other.Spells otherTerms → other = layout ∧ otherTerms = terms) ∧
        readOptional text =
          .ok ⟨terms.filterMap Term.dice?, terms.filterMap Term.modifier?⟩ := by
  refine ⟨⟨?_, ?_⟩, ?_⟩
  · intro hread
    obtain ⟨expr, hread⟩ := hread
    exact exists_layout_of_readChars_eq_ok hread
  · intro hspells
    obtain ⟨layout, terms, htext, hlayout⟩ := hspells
    exact ⟨ofTerms terms, readChars_eq_ok_of_layout htext hlayout⟩
  · intro layout terms htext hlayout
    refine ⟨?_, readChars_eq_ok_of_layout htext hlayout⟩
    intro other otherTerms hotherText hother
    have heq : other = layout :=
      hother.wellFormed.eq_of_text_eq hlayout.wellFormed
        (hotherText.trans htext.symm)
    subst heq
    exact ⟨rfl, spelled_unique hother.spelled hlayout.spelled⟩

theorem readOptional_mixed_signs :
    readOptional (some " +-2d6 + + 007-d4 -0+") =
      .ok ⟨[⟨2, 6, -1⟩, ⟨1, 4, -1⟩], [⟨7, 1⟩, ⟨0, 1⟩]⟩ := by
  have htwo : Numeral.Spells ['2'] 2 :=
    Numeral.read_eq_value_iff.mp rfl
  have hsix : Numeral.Spells ['6'] 6 :=
    Numeral.read_eq_value_iff.mp rfl
  have hseven : Numeral.Spells ['0', '0', '7'] 7 :=
    Numeral.read_eq_value_iff.mp rfl
  have hfour : Numeral.Spells ['4'] 4 :=
    Numeral.read_eq_value_iff.mp rfl
  have hzero : Numeral.Spells ['0'] 0 :=
    Numeral.read_eq_value_iff.mp rfl
  have hlayout : Layout.Spells
      ⟨1, [("-2d6".toList, 2), ("007".toList, 0), ("-d4".toList, 0),
        ("-0".toList, 1)]⟩
      [.dice ⟨2, 6, -1⟩, .modifier ⟨7, 1⟩, .dice ⟨1, 4, -1⟩,
        .modifier ⟨0, 1⟩] := by
    refine ⟨by simp, by simp [Layout.Separated], ?_⟩
    refine .cons ?_ (.cons ?_ (.cons ?_ (.cons ?_ .nil)))
    · exact .dice true (.inr htwo) hsix (by decide) (by decide)
    · exact .modifier false hseven rfl (by decide)
    · exact .dice true (.inl ⟨rfl, rfl⟩) hfour (by decide) (by decide)
    · exact .modifier true hzero rfl (by decide)
  exact ((readOptional_iff_exists_unique_layout _).2 _ _ (by decide)
    hlayout).2

end Expression

end TabletopDice
