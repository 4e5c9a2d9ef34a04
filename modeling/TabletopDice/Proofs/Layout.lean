import TabletopDice.Expression.Piece
import Mathlib.Tactic

/-!
# The layout of an expression

The pieces of a text are computed by writing a plus before every minus and
splitting at the pluses.  Here the same cut is described on the text as it
stands: a layout names the pluses in front, and each piece with the pluses
behind it.  Every text has exactly one well-formed layout, and the pieces of
that layout are the pieces that the split leaves.
-/

namespace TabletopDice.Expression

open Text

/-! ## Cutting a text without blanks -/

def cut (cs : List Char) : List (List Char) :=
  ((separateSigns cs).splitOn '+').filter fun piece => !piece.isEmpty

theorem pieces_eq_cut (cs : List Char) : pieces cs = cut (squeeze cs) := rfl

@[simp] theorem cut_nil : cut [] = [] := rfl

theorem separateSigns_cons_minus (cs : List Char) :
    separateSigns ('-' :: cs) = '+' :: '-' :: separateSigns cs := rfl

theorem separateSigns_of_not_mem {cs : List Char} (hminus : '-' ∉ cs) :
    separateSigns cs = cs := by
  unfold separateSigns
  induction cs with
  | nil => rfl
  | cons c cs ih =>
      have hc : c ≠ '-' := fun heq => hminus (by simp [heq])
      have hrest : '-' ∉ cs := fun hmem => hminus (by simp [hmem])
      rw [List.flatMap_cons, if_neg hc, ih hrest, List.singleton_append]

theorem cut_append_plus (s t : List Char) :
    cut (s ++ '+' :: t) = cut s ++ cut t := by
  have hplus : separateSigns ('+' :: t) = '+' :: separateSigns t := rfl
  unfold cut
  rw [separateSigns_append, hplus, List.splitOn_append_cons_self,
    List.filter_append]

@[simp] theorem cut_plus_cons (t : List Char) : cut ('+' :: t) = cut t := by
  simpa using cut_append_plus [] t

theorem cut_append_minus (s t : List Char) :
    cut (s ++ '-' :: t) = cut s ++ cut ('-' :: t) := by
  unfold cut
  rw [separateSigns_append, separateSigns_cons_minus,
    List.splitOn_append_cons_self, List.filter_append]
  simp [List.splitOn_cons_eq_if_modifyHead]

@[simp] theorem cut_replicate_plus_append (n : ℕ) (t : List Char) :
    cut (List.replicate n '+' ++ t) = cut t := by
  induction n with
  | zero => rfl
  | succ n ih => simpa [List.replicate_succ] using ih

/-- A text that no sign cuts: a plus does not occur, and a minus at most as
the first character. -/
structure IsPiece (cs : List Char) : Prop where
  ne_nil : cs ≠ []
  plus : '+' ∉ cs
  minus : '-' ∉ cs.tail

theorem IsPiece.cut_eq {piece : List Char} (hpiece : IsPiece piece) :
    cut piece = [piece] := by
  obtain ⟨hne, hplus, hminus⟩ := hpiece
  cases piece with
  | nil => exact absurd rfl hne
  | cons c rest =>
      have hrest : separateSigns rest = rest :=
        separateSigns_of_not_mem hminus
      unfold cut
      by_cases hc : c = '-'
      · subst c
        rw [separateSigns_cons_minus, hrest,
          List.splitOn_cons_eq_if_modifyHead,
          List.splitOn_eq_singleton hplus]
        simp
      · have hself : separateSigns (c :: rest) = c :: rest := by
          apply separateSigns_of_not_mem
          simp only [List.mem_cons, not_or]
          exact ⟨fun heq => hc heq.symm, hminus⟩
        rw [hself, List.splitOn_eq_singleton hplus]
        simp

/-! ## Layouts -/

/-- The pluses in front of a text, and each piece with the pluses behind it. -/
structure Layout where
  leading : ℕ
  parts : List (List Char × ℕ)

namespace Layout

def pieces (layout : Layout) : List (List Char) :=
  layout.parts.map Prod.fst

def text (layout : Layout) : List Char :=
  List.replicate layout.leading '+' ++
    layout.parts.flatMap fun part => part.1 ++ List.replicate part.2 '+'

/-- Two pieces in a row have a plus between them, unless the second one
starts with a minus. -/
def Separated (layout : Layout) : Prop :=
  layout.parts.IsChain fun part next =>
    1 ≤ part.2 ∨ next.1.head? = some '-'

structure WellFormed (layout : Layout) : Prop where
  isPiece : ∀ part ∈ layout.parts, IsPiece part.1
  separated : layout.Separated

/-- The layout starts in a way that keeps it apart from a piece before it. -/
def Detached (layout : Layout) : Prop :=
  ∀ part ∈ layout.parts.head?,
    1 ≤ layout.leading ∨ part.1.head? = some '-'

@[simp] theorem text_nil (leading : ℕ) :
    (⟨leading, []⟩ : Layout).text = List.replicate leading '+' := by
  simp [text]

theorem text_cons (leading pluses : ℕ) (piece : List Char)
    (rest : List (List Char × ℕ)) :
    (⟨leading, (piece, pluses) :: rest⟩ : Layout).text =
      List.replicate leading '+' ++ (piece ++ text ⟨pluses, rest⟩) := by
  simp [text]

theorem wellFormed_nil (leading : ℕ) :
    (⟨leading, []⟩ : Layout).WellFormed :=
  ⟨by simp, List.IsChain.nil⟩

theorem wellFormed_cons_iff {leading pluses : ℕ} {piece : List Char}
    {rest : List (List Char × ℕ)} :
    (⟨leading, (piece, pluses) :: rest⟩ : Layout).WellFormed ↔
      IsPiece piece ∧ Detached ⟨pluses, rest⟩ ∧
        WellFormed ⟨pluses, rest⟩ := by
  constructor
  · rintro ⟨hpieces, hseparated⟩
    have hchain := List.isChain_cons.mp hseparated
    refine ⟨hpieces (piece, pluses) (by simp), hchain.1, ?_, hchain.2⟩
    intro part hpart
    exact hpieces part (List.mem_cons_of_mem _ hpart)
  · rintro ⟨hpiece, hdetached, hrest⟩
    refine ⟨?_, List.isChain_cons.mpr ⟨hdetached, hrest.separated⟩⟩
    intro part hpart
    rcases List.mem_cons.mp hpart with rfl | hmem
    · exact hpiece
    · exact hrest.isPiece part hmem

/-- The split leaves the pieces of every well-formed layout. -/
theorem WellFormed.cut_text {layout : Layout} (hlayout : layout.WellFormed) :
    cut layout.text = layout.pieces := by
  obtain ⟨leading, parts⟩ := layout
  induction parts generalizing leading with
  | nil =>
      have hpluses := cut_replicate_plus_append leading []
      simpa [pieces] using hpluses
  | cons part rest ih =>
      obtain ⟨piece, pluses⟩ := part
      obtain ⟨hpiece, hdetached, hrest⟩ := wellFormed_cons_iff.mp hlayout
      have hjoint : cut (piece ++ text ⟨pluses, rest⟩) =
          cut piece ++ cut (text ⟨pluses, rest⟩) := by
        cases pluses with
        | succ pluses =>
            have htext : text ⟨pluses + 1, rest⟩ =
                '+' :: text ⟨pluses, rest⟩ := by
              simp [text, List.replicate_succ]
            rw [htext, cut_append_plus, cut_plus_cons]
        | zero =>
            cases rest with
            | nil => simp
            | cons next rest =>
                have hminus : next.1.head? = some '-' := by
                  simpa [Detached] using hdetached
                obtain ⟨tail, htail⟩ := List.head?_eq_some_iff.mp hminus
                have htext : text ⟨0, next :: rest⟩ =
                    '-' :: (tail ++ text ⟨next.2, rest⟩) := by
                  rw [text_cons, htail]
                  simp
                rw [htext, cut_append_minus]
      rw [text_cons, cut_replicate_plus_append, hjoint, hpiece.cut_eq,
        ih pluses hrest]
      rfl

/-! ## The layout of a text -/

/-- Puts one character in front: a plus is counted, and any other character
joins the first piece unless it is kept apart from it. -/
def prepend (c : Char) : Layout → Layout
  | ⟨leading, parts⟩ =>
    if c = '+' then ⟨leading + 1, parts⟩
    else
      match leading, parts with
      | 0, (piece, pluses) :: rest =>
        if piece.head? = some '-' then ⟨0, ([c], 0) :: (piece, pluses) :: rest⟩
        else ⟨0, (c :: piece, pluses) :: rest⟩
      | leading, parts => ⟨0, ([c], leading) :: parts⟩

def ofChars (cs : List Char) : Layout :=
  cs.foldr prepend ⟨0, []⟩

@[simp] theorem prepend_plus (layout : Layout) :
    prepend '+' layout = ⟨layout.leading + 1, layout.parts⟩ := by
  simp [prepend]

theorem prepend_of_detached {c : Char} {layout : Layout} (hc : c ≠ '+')
    (hdetached : layout.Detached) :
    prepend c layout = ⟨0, ([c], layout.leading) :: layout.parts⟩ := by
  obtain ⟨leading, parts⟩ := layout
  cases leading with
  | succ leading => simp [prepend, hc]
  | zero =>
      cases parts with
      | nil => simp [prepend, hc]
      | cons part rest =>
          have hminus : part.1.head? = some '-' := by
            simpa [Detached] using hdetached
          simp [prepend, hc, hminus]

theorem prepend_of_head_ne {c : Char} {piece : List Char} {pluses : ℕ}
    {rest : List (List Char × ℕ)} (hc : c ≠ '+')
    (hhead : piece.head? ≠ some '-') :
    prepend c ⟨0, (piece, pluses) :: rest⟩ = ⟨0, (c :: piece, pluses) :: rest⟩ := by
  simp [prepend, hc, hhead]

theorem detached_or_joinable (layout : Layout) :
    layout.Detached ∨
      ∃ piece pluses rest, layout = ⟨0, (piece, pluses) :: rest⟩ ∧
        piece.head? ≠ some '-' := by
  obtain ⟨leading, parts⟩ := layout
  cases leading with
  | succ leading => exact .inl fun _ _ => .inl (by simp)
  | zero =>
      cases parts with
      | nil => exact .inl (by simp [Detached])
      | cons part rest =>
          by_cases hminus : part.1.head? = some '-'
          · exact .inl (by simp [Detached, hminus])
          · exact .inr ⟨part.1, part.2, rest, rfl, hminus⟩

theorem text_prepend (c : Char) (layout : Layout) :
    (prepend c layout).text = c :: layout.text := by
  by_cases hc : c = '+'
  · subst c
    simp [text, List.replicate_succ]
  · rcases layout.detached_or_joinable with
      hdetached | ⟨piece, pluses, rest, rfl, hhead⟩
    · rw [prepend_of_detached hc hdetached]
      simp [text]
    · rw [prepend_of_head_ne hc hhead]
      simp [text]

theorem wellFormed_prepend {layout : Layout}
    (hlayout : layout.WellFormed) (c : Char) : (prepend c layout).WellFormed := by
  by_cases hc : c = '+'
  · subst c
    rw [prepend_plus]
    exact ⟨hlayout.isPiece, hlayout.separated⟩
  · rcases layout.detached_or_joinable with
      hdetached | ⟨piece, pluses, rest, rfl, hhead⟩
    · rw [prepend_of_detached hc hdetached]
      have hpiece : IsPiece [c] := ⟨by simp, by simpa using Ne.symm hc, by simp⟩
      exact wellFormed_cons_iff.mpr ⟨hpiece, hdetached, hlayout⟩
    · rw [prepend_of_head_ne hc hhead]
      obtain ⟨hpiece, hapart, hrest⟩ := wellFormed_cons_iff.mp hlayout
      have hminus : '-' ∉ piece := by
        intro hmem
        cases piece with
        | nil => simp at hmem
        | cons first tail =>
            rcases List.mem_cons.mp hmem with hfirst | htail
            · exact hhead (by simp [hfirst.symm])
            · exact hpiece.minus htail
      have hjoined : IsPiece (c :: piece) := by
        refine ⟨by simp, ?_, hminus⟩
        simp only [List.mem_cons, not_or]
        exact ⟨Ne.symm hc, hpiece.plus⟩
      exact wellFormed_cons_iff.mpr ⟨hjoined, hapart, hrest⟩

@[simp] theorem text_ofChars (cs : List Char) : (ofChars cs).text = cs := by
  induction cs with
  | nil => rfl
  | cons c cs ih =>
      calc
        (ofChars (c :: cs)).text = (prepend c (ofChars cs)).text := rfl
        _ = c :: (ofChars cs).text := text_prepend c (ofChars cs)
        _ = c :: cs := by rw [ih]

theorem wellFormed_ofChars (cs : List Char) : (ofChars cs).WellFormed := by
  induction cs with
  | nil => exact wellFormed_nil 0
  | cons c cs ih => exact wellFormed_prepend ih c

theorem foldr_prepend_replicate_plus (n : ℕ) (layout : Layout) :
    (List.replicate n '+').foldr prepend layout =
      ⟨layout.leading + n, layout.parts⟩ := by
  induction n with
  | zero => rfl
  | succ n ih =>
      rw [List.replicate_succ, List.foldr_cons, ih, prepend_plus]
      rfl

theorem foldr_prepend_piece {piece : List Char} {layout : Layout}
    (hpiece : IsPiece piece) (hdetached : layout.Detached) :
    piece.foldr prepend layout =
      ⟨0, (piece, layout.leading) :: layout.parts⟩ := by
  induction piece with
  | nil => exact absurd rfl hpiece.ne_nil
  | cons c tail ih =>
      have hc : c ≠ '+' := fun heq => hpiece.plus (by simp [heq])
      have hminus : '-' ∉ tail := hpiece.minus
      by_cases hnil : tail = []
      · subst tail
        exact prepend_of_detached hc hdetached
      · have htail : IsPiece tail :=
          ⟨hnil, fun hmem => hpiece.plus (List.mem_cons_of_mem c hmem),
            fun hmem => hminus (List.mem_of_mem_tail hmem)⟩
        have hhead : tail.head? ≠ some '-' :=
          fun heq => hminus (List.mem_of_mem_head? heq)
        rw [List.foldr_cons, ih htail, prepend_of_head_ne hc hhead]

/-- A well-formed layout is the layout of its own text. -/
theorem WellFormed.ofChars_text {layout : Layout}
    (hlayout : layout.WellFormed) : ofChars layout.text = layout := by
  obtain ⟨leading, parts⟩ := layout
  induction parts generalizing leading with
  | nil =>
      rw [text_nil, ofChars, foldr_prepend_replicate_plus]
      simp
  | cons part rest ih =>
      obtain ⟨piece, pluses⟩ := part
      obtain ⟨hpiece, hdetached, hrest⟩ := wellFormed_cons_iff.mp hlayout
      have hafter : (text ⟨pluses, rest⟩).foldr prepend ⟨0, []⟩ =
          ⟨pluses, rest⟩ := ih pluses hrest
      rw [text_cons, ofChars, List.foldr_append, List.foldr_append, hafter,
        foldr_prepend_piece hpiece hdetached, foldr_prepend_replicate_plus]
      simp

/-- A text has no more than one well-formed layout. -/
theorem WellFormed.eq_of_text_eq {layout other : Layout}
    (hlayout : layout.WellFormed) (hother : other.WellFormed)
    (htext : layout.text = other.text) : layout = other := by
  rw [← hlayout.ofChars_text, htext, hother.ofChars_text]

end Layout

theorem cut_eq_pieces_ofChars (cs : List Char) :
    cut cs = (Layout.ofChars cs).pieces := by
  have hcut := (Layout.wellFormed_ofChars cs).cut_text
  rwa [Layout.text_ofChars] at hcut

end TabletopDice.Expression
