import TabletopDice.Proofs.Join

/-!
# What the cut keeps

Cutting a text into pieces loses nothing but its pluses, and puts every minus
at the front of a piece of its own.  Nothing else is a reason to cut: two
characters that stand next to each other, blanks aside, fall into one piece
unless one of them is a plus or the second is a minus.
-/

namespace TabletopDice.Expression

open Text

/-! ## Pieces put together again -/

theorem IsPiece.filter_ne_plus {piece : List Char} (hpiece : IsPiece piece) :
    piece.filter (· ≠ '+') = piece := by
  apply List.filter_eq_self.mpr
  intro c hc
  rw [decide_eq_true_eq]
  exact ne_of_mem_of_not_mem hc hpiece.plus

/-- A piece has a minus exactly if it starts with one, and then no other. -/
theorem IsPiece.count_minus {piece : List Char} (hpiece : IsPiece piece) :
    piece.count '-' = if piece.head? = some '-' then 1 else 0 := by
  cases piece with
  | nil => exact absurd rfl hpiece.ne_nil
  | cons c rest =>
      have hrest : rest.count '-' = 0 :=
        List.count_eq_zero.mpr hpiece.minus
      rw [List.count_cons, hrest]
      by_cases hc : c = '-' <;> simp [hc]

namespace Layout

variable {layout : Layout}

theorem WellFormed.flatten_pieces (hlayout : layout.WellFormed) :
    layout.pieces.flatten = layout.text.filter (· ≠ '+') := by
  obtain ⟨leading, parts⟩ := layout
  induction parts generalizing leading with
  | nil => simp [pieces]
  | cons part rest ih =>
      obtain ⟨piece, pluses⟩ := part
      obtain ⟨hpiece, -, hrest⟩ := wellFormed_cons_iff.mp hlayout
      have hlater := ih pluses hrest
      rw [text_cons, List.filter_append, List.filter_append,
        hpiece.filter_ne_plus, ← hlater]
      simp [pieces]

theorem WellFormed.countP_pieces (hlayout : layout.WellFormed) :
    layout.pieces.countP (·.head? = some '-') = layout.text.count '-' := by
  obtain ⟨leading, parts⟩ := layout
  induction parts generalizing leading with
  | nil => simp [pieces, List.count_replicate]
  | cons part rest ih =>
      obtain ⟨piece, pluses⟩ := part
      obtain ⟨hpiece, -, hrest⟩ := wellFormed_cons_iff.mp hlayout
      have hlater := ih pluses hrest
      have hpieces : pieces ⟨leading, (piece, pluses) :: rest⟩ =
          piece :: pieces ⟨pluses, rest⟩ := rfl
      rw [hpieces, List.countP_cons, hlater, text_cons, List.count_append,
        List.count_append, List.count_replicate, hpiece.count_minus]
      by_cases hhead : piece.head? = some '-' <;> simp [hhead, Nat.add_comm]

end Layout

/-! ## Neighbours -/

/-- The characters `a` and `b`, which follow `before` in the text without its
pluses, stand next to each other in one of the pieces. -/
def Together (pieces : List (List Char)) (before : List Char) (a b : Char) :
    Prop :=
  ∃ earlier front back later,
    pieces = earlier ++ (front ++ a :: b :: back) :: later ∧
      earlier.flatten ++ front = before.filter (· ≠ '+')

namespace Layout

theorem pieces_prepend_cases (c : Char) (layout : Layout) :
    (c = '+' ∧ (prepend c layout).pieces = layout.pieces) ∨
    (c ≠ '+' ∧ (prepend c layout).pieces = [c] :: layout.pieces) ∨
    (c ≠ '+' ∧ ∃ piece rest, layout.pieces = piece :: rest ∧
      (prepend c layout).pieces = (c :: piece) :: rest) := by
  by_cases hc : c = '+'
  · subst c
    refine .inl ⟨rfl, ?_⟩
    rw [prepend_plus]
    rfl
  · rcases layout.detached_or_joinable with
      hdetached | ⟨piece, pluses, rest, rfl, hhead⟩
    · exact .inr (.inl ⟨hc, congrArg pieces (prepend_of_detached hc hdetached)⟩)
    · refine .inr (.inr ⟨hc, piece, rest.map Prod.fst, rfl, ?_⟩)
      exact congrArg pieces (prepend_of_head_ne hc hhead)

/-- A character in front of the text parts nothing that was together: it joins
the first piece, or it is a piece of its own, or it belongs to none. -/
theorem together_prepend {layout : Layout} {before : List Char} {a b : Char}
    (htogether : Together layout.pieces before a b) (c : Char) :
    Together (prepend c layout).pieces (c :: before) a b := by
  obtain ⟨earlier, front, back, later, hpieces, hbefore⟩ := htogether
  rcases pieces_prepend_cases c layout with
    ⟨hc, hsame⟩ | ⟨hc, hapart⟩ | ⟨hc, piece, rest, hfirst, hjoined⟩
  · refine ⟨earlier, front, back, later, hsame.trans hpieces, ?_⟩
    simp [hc, hbefore]
  · refine ⟨[c] :: earlier, front, back, later, ?_, ?_⟩
    · rw [hapart, hpieces, List.cons_append]
    · simp [hc, hbefore]
  · rw [hpieces] at hfirst
    cases earlier with
    | nil =>
        obtain ⟨rfl, rfl⟩ := List.cons.inj hfirst
        refine ⟨[], c :: front, back, later, hjoined, ?_⟩
        rw [List.filter_cons_of_pos (by simpa using hc), ← hbefore]
        rfl
    | cons first earlier =>
        obtain ⟨rfl, rfl⟩ := List.cons.inj hfirst
        refine ⟨(c :: first) :: earlier, front, back, later, hjoined, ?_⟩
        rw [List.filter_cons_of_pos (by simpa using hc), ← hbefore]
        rfl

theorem together_ofChars {a b : Char} (ha : a ≠ '+') (hb : b ≠ '+')
    (hminus : b ≠ '-') (before after : List Char) :
    Together (ofChars (before ++ a :: b :: after)).pieces before a b := by
  induction before with
  | nil =>
      obtain ⟨tail, pluses, rest, hlayout⟩ := exists_ofChars_cons hb after
      have hjoined : ofChars (a :: b :: after) =
          ⟨0, (a :: b :: tail, pluses) :: rest⟩ := by
        change prepend a (ofChars (b :: after)) = _
        rw [hlayout, prepend_of_head_ne ha (by simpa using hminus)]
      rw [List.nil_append, hjoined]
      exact ⟨[], [], tail, rest.map Prod.fst, rfl, rfl⟩
  | cons c before ih => exact together_prepend ih c

end Layout

theorem isPiece_of_mem_pieces {cs piece : List Char}
    (hpiece : piece ∈ pieces cs) : IsPiece piece := by
  rw [pieces_eq_cut, cut_eq_pieces_ofChars] at hpiece
  obtain ⟨part, hpart, rfl⟩ := List.mem_map.mp hpiece
  exact (Layout.wellFormed_ofChars (squeeze cs)).isPiece part hpart

theorem flatten_pieces (cs : List Char) :
    (pieces cs).flatten = (squeeze cs).filter (· ≠ '+') := by
  have hflatten := (Layout.wellFormed_ofChars (squeeze cs)).flatten_pieces
  rwa [Layout.text_ofChars, ← cut_eq_pieces_ofChars, ← pieces_eq_cut]
    at hflatten

theorem countP_pieces (cs : List Char) :
    (pieces cs).countP (·.head? = some '-') = (squeeze cs).count '-' := by
  have hcount := (Layout.wellFormed_ofChars (squeeze cs)).countP_pieces
  rwa [Layout.text_ofChars, ← cut_eq_pieces_ofChars, ← pieces_eq_cut]
    at hcount

theorem not_isBlank_of_mem_pieces {cs piece : List Char}
    (hpiece : piece ∈ pieces cs) : ∀ c ∈ piece, isBlank c = false := by
  intro c hc
  have hflat : c ∈ (pieces cs).flatten :=
    List.mem_flatten_of_mem hpiece hc
  rw [flatten_pieces] at hflat
  exact (mem_squeeze.mp (List.mem_of_mem_filter hflat)).2

/-- What follows the sign of a piece has no minus in it. -/
theorem IsPiece.not_mem_splitMinus {piece : List Char}
    (hpiece : IsPiece piece) : '-' ∉ (splitMinus piece).2 := by
  unfold splitMinus
  split
  next rest => exact hpiece.minus
  next hnone =>
    intro hmem
    obtain ⟨first, rest, rfl⟩ := List.exists_cons_of_ne_nil hpiece.ne_nil
    rcases List.mem_cons.mp hmem with hfirst | hrest
    · exact hnone rest (by rw [hfirst])
    · exact hpiece.minus hrest

/-- Two neighbours, neither of them a plus, are together unless the second one
is a minus, which is the first character of its piece. -/
theorem together_pieces_iff {cs before after : List Char} {a b : Char}
    (hsqueezed : squeeze cs = before ++ a :: b :: after) (ha : a ≠ '+')
    (hb : b ≠ '+') : Together (pieces cs) before a b ↔ b ≠ '-' := by
  constructor
  · intro htogether hminus
    obtain ⟨earlier, front, back, later, hpieces, -⟩ := htogether
    have hmem : front ++ a :: b :: back ∈ pieces cs := by
      rw [hpieces]
      exact List.mem_append_right earlier List.mem_cons_self
    apply (isPiece_of_mem_pieces hmem).minus
    cases front <;> simp [hminus]
  · intro hminus
    rw [pieces_eq_cut, cut_eq_pieces_ofChars, hsqueezed]
    exact Layout.together_ofChars ha hb hminus before after

theorem pieces_toList (text : String) :
    pieces text.toList =
      ((normalize text).toList.splitOn '+').filter
        fun piece => !piece.isEmpty := by
  unfold normalize pieces
  rw [String.toList_ofList]

/-- The pieces of a text are what is left between the pluses of its normal form.
They have neither a blank nor a plus in them, and a minus at most in front, so
that none of them ends with a line and none has a second minus behind its sign.
Put together they are the text without blanks and pluses, and as many of them
start with a minus as there are in the text.  Two neighbours of the text without
its blanks, neither of them a plus, fall into one piece, at the same place,
exactly if the second is no minus. -/
theorem cut_keeps_text_and_isolates_signs (text : String) :
    let squeezed := squeeze text.toList
    let parts := pieces text.toList
    parts = ((normalize text).toList.splitOn '+').filter
      (fun piece => !piece.isEmpty) ∧
    (∀ piece ∈ parts, piece ≠ [] ∧ (∀ c ∈ piece, isBlank c = false) ∧
      '+' ∉ piece ∧ '-' ∉ piece.tail ∧ piece.getLast? ≠ some '\n' ∧
      '-' ∉ (splitMinus piece).2) ∧
    parts.flatten = squeezed.filter (· ≠ '+') ∧
    parts.countP (·.head? = some '-') = squeezed.count '-' ∧
    ∀ before a b after, squeezed = before ++ a :: b :: after →
      a ≠ '+' → b ≠ '+' → (Together parts before a b ↔ b ≠ '-') := by
  refine ⟨pieces_toList text, ?_, flatten_pieces text.toList,
    countP_pieces text.toList, ?_⟩
  · intro piece hmem
    have hpiece := isPiece_of_mem_pieces hmem
    have hblank := not_isBlank_of_mem_pieces hmem
    refine ⟨hpiece.ne_nil, hblank, hpiece.plus, hpiece.minus, ?_,
      hpiece.not_mem_splitMinus⟩
    intro hlast
    have hnewline := hblank '\n' (List.mem_of_getLast? hlast)
    cases hnewline
  · intro before a b after hsqueezed ha hb
    exact together_pieces_iff hsqueezed ha hb

/-- The blanks within a number and at the end of a line do not part what stands
around them, and two minuses are two pieces. -/
theorem cut_keeps_text_and_isolates_signs_two_minuses :
    let text := " 1 0d\n6+-2--x"
    "-x".toList ∈ pieces text.toList ∧ '-' ∉ "-x".toList.tail ∧
      squeeze text.toList = "10".toList ++ 'd' :: '6' :: "+-2--x".toList ∧
      'd' ≠ '+' ∧ '6' ≠ '+' ∧
      Together (pieces text.toList) "10".toList 'd' '6' ∧
      squeeze text.toList = "10d6+-2".toList ++ '-' :: '-' :: "x".toList ∧
      ¬ Together (pieces text.toList) "10d6+-2".toList '-' '-' := by
  intro text
  obtain ⟨-, hpieces, -, -, htogether⟩ := cut_keeps_text_and_isolates_signs text
  have hmem : "-x".toList ∈ pieces text.toList := by decide +kernel +zetaReduce
  have hnumber : squeeze text.toList =
      "10".toList ++ 'd' :: '6' :: "+-2--x".toList := by decide +zetaReduce
  have hminuses : squeeze text.toList =
      "10d6+-2".toList ++ '-' :: '-' :: "x".toList := by decide +zetaReduce
  have hjoined := htogether _ _ _ _ hnumber (by decide) (by decide)
  have hparted := htogether _ _ _ _ hminuses (by decide) (by decide)
  refine ⟨hmem, (hpieces _ hmem).2.2.2.1, hnumber, by decide, by decide,
    hjoined.mpr (by decide), hminuses, ?_⟩
  exact fun htwo => hparted.mp htwo rfl

end TabletopDice.Expression
