import TabletopDice.Expression.Canonical
import TabletopDice.Proofs.Grammar

/-!
# Reading the canonical text

The reader produces well-formed expressions only, and the canonical text of a
well-formed expression is read as that very expression.  The pieces of a
canonical text are its items, each behind its own minus or none: the spaces
are blanks, and a plus belongs to no piece.
-/

namespace TabletopDice

open Text Traversal

/-! ## Well-formed expressions -/

def IsSign (sign : ℤ) : Prop :=
  sign = 1 ∨ sign = -1

structure DiceTerm.WellFormed (term : DiceTerm) : Prop where
  sign : IsSign term.sign
  count : 1 ≤ term.count ∧ term.count ≤ 2 ^ 32 - 1
  sides : 1 ≤ term.sides ∧ term.sides ≤ 2 ^ 32 - 1

/-- The magnitude of a 32-bit integer with its sign, which is a plus for
zero. -/
def Modifier.WellFormed (modifier : Modifier) : Prop :=
  (modifier.sign = 1 ∧ 0 ≤ modifier.value ∧ modifier.value ≤ 2 ^ 31 - 1) ∨
    (modifier.sign = -1 ∧ 1 ≤ modifier.value ∧ modifier.value ≤ 2 ^ 31)

structure Expression.WellFormed (expr : Expression) : Prop where
  dice : ∀ term ∈ expr.dice, term.WellFormed
  modifiers : ∀ modifier ∈ expr.modifiers, modifier.WellFormed
  nonempty : expr.dice ≠ [] ∨ expr.modifiers ≠ []

theorem Term.Spells.wellFormed_dice {piece : List Char} {term : DiceTerm}
    (hpiece : Term.Spells piece (.dice term)) : term.WellFormed := by
  cases hpiece with
  | @dice negative count sides c s hcount hsides hcountRange hsidesRange =>
      constructor
      · cases negative <;> simp [IsSign]
      · dsimp only
        omega
      · dsimp only
        omega

theorem Term.Spells.wellFormed_modifier {piece : List Char}
    {modifier : Modifier} (hpiece : Term.Spells piece (.modifier modifier)) :
    modifier.WellFormed := by
  cases hpiece with
  | @modifier negative digits n value hdigits hvalue hrange =>
      clear hvalue
      by_cases hneg : value < 0
      · have habs : |value| = -value := abs_of_neg hneg
        refine .inr ⟨if_pos hneg, ?_⟩
        dsimp only
        omega
      · have habs : |value| = value := abs_of_nonneg (by omega)
        refine .inl ⟨if_neg hneg, ?_⟩
        dsimp only
        omega

theorem Expression.wellFormed_of_readChars_eq_ok {cs : List Char}
    {expr : Expression} (hread : readChars cs = .ok expr) :
    expr.WellFormed := by
  obtain ⟨terms, hne, hspelled, rfl⟩ := readChars_eq_ok_iff.mp hread
  constructor
  · intro term hmem
    obtain ⟨source, hsource, hterm⟩ := List.mem_filterMap.mp hmem
    cases source with
    | modifier modifier => cases hterm
    | dice dice =>
        obtain rfl : dice = term := Option.some.inj hterm
        obtain ⟨piece, hpiece⟩ := exists_rel_of_mem_right hspelled hsource
        exact hpiece.wellFormed_dice
  · intro modifier hmem
    obtain ⟨source, hsource, hmodifier⟩ := List.mem_filterMap.mp hmem
    cases source with
    | dice dice => cases hmodifier
    | modifier found =>
        obtain rfl : found = modifier := Option.some.inj hmodifier
        obtain ⟨piece, hpiece⟩ := exists_rel_of_mem_right hspelled hsource
        exact hpiece.wellFormed_modifier
  · cases terms with
    | nil => exact absurd (List.forall₂_nil_right_iff.mp hspelled) hne
    | cons term rest =>
        cases term with
        | dice dice => exact .inl (by simp [ofTerms, Term.dice?])
        | modifier modifier =>
            exact .inr (by simp [ofTerms, Term.modifier?])

/-! ## The pieces of a canonical text -/

namespace SignedText

def piece (item : SignedText) : List Char :=
  minus (item.1 < 0) ++ item.2.toList

theorem squeeze_leading (item : SignedText) :
    squeeze item.leading.toList = squeeze item.piece := by
  unfold leading piece
  by_cases hneg : item.1 < 0
  · have hsign : squeeze "- ".toList = squeeze ['-'] := by decide
    simp only [hneg, if_true, decide_true, minus_true, String.toList_append,
      squeeze_append, hsign]
  · simp [hneg]

theorem squeeze_following (item : SignedText) :
    squeeze item.following.toList =
      (if item.1 < 0 then [] else ['+']) ++ squeeze item.piece := by
  unfold following piece
  by_cases hneg : item.1 < 0
  · have hsign : squeeze " - ".toList = squeeze ['-'] := by decide
    simp only [hneg, if_true, decide_true, minus_true, String.toList_append,
      squeeze_append, hsign, List.nil_append]
  · have hsign : squeeze " + ".toList = ['+'] := by decide
    simp only [hneg, if_false, decide_false, minus_false, String.toList_append,
      squeeze_append, hsign, List.nil_append]

theorem squeeze_joined_cons (first : SignedText) (rest : List SignedText) :
    squeeze (joined (first :: rest)).toList =
      squeeze first.piece ++ rest.flatMap fun item =>
        (if item.1 < 0 then [] else ['+']) ++ squeeze item.piece := by
  have hrest : squeeze (String.join (rest.map following)).toList =
      rest.flatMap fun item =>
        (if item.1 < 0 then [] else ['+']) ++ squeeze item.piece := by
    induction rest with
    | nil => rfl
    | cons item rest ih =>
        rw [List.map_cons, String.join_cons, String.toList_append,
          squeeze_append, squeeze_following, ih, List.flatMap_cons]
  rw [joined, String.toList_append, squeeze_append, squeeze_leading, hrest]

theorem cut_pieces {piece : List Char} {rest : List SignedText}
    (hpiece : Expression.IsPiece piece)
    (hrest : ∀ item ∈ rest, Expression.IsPiece item.piece) :
    Expression.cut (piece ++ rest.flatMap fun item =>
        (if item.1 < 0 then [] else ['+']) ++ item.piece) =
      piece :: rest.map SignedText.piece := by
  induction rest generalizing piece with
  | nil => simpa using hpiece.cut_eq
  | cons item rest ih =>
      have hitem : Expression.IsPiece item.piece :=
        hrest item List.mem_cons_self
      have hlater : ∀ next ∈ rest, Expression.IsPiece next.piece :=
        fun next hnext => hrest next (List.mem_cons_of_mem item hnext)
      have hcut := ih hitem hlater
      rw [List.flatMap_cons, List.map_cons]
      by_cases hneg : item.1 < 0
      · have hminus : item.piece = '-' :: item.2.toList := by
          simp [SignedText.piece, hneg]
        rw [if_pos hneg, List.nil_append]
        rw [hminus] at hcut ⊢
        rw [List.cons_append] at hcut ⊢
        rw [Expression.cut_append_minus, hpiece.cut_eq, hcut]
        rfl
      · rw [if_neg hneg, List.singleton_append, List.cons_append,
          Expression.cut_append_plus, hpiece.cut_eq, hcut]
        rfl

/-- A text joined from items is cut into their pieces, if these have no
blanks in them and no sign can cut them. -/
theorem pieces_joined {items : List SignedText}
    (hitems : ∀ item ∈ items,
      Expression.IsPiece item.piece ∧ squeeze item.piece = item.piece) :
    Expression.pieces (joined items).toList = items.map piece := by
  cases items with
  | nil => rfl
  | cons first rest =>
      obtain ⟨hfirst, hsqueeze⟩ := hitems first List.mem_cons_self
      have hrest : ∀ item ∈ rest, Expression.IsPiece item.piece :=
        fun item hitem => (hitems item (List.mem_cons_of_mem first hitem)).1
      have hblank : (rest.flatMap fun item =>
            (if item.1 < 0 then [] else ['+']) ++ squeeze item.piece) =
          rest.flatMap fun item =>
            (if item.1 < 0 then [] else ['+']) ++ item.piece := by
        apply List.flatMap_congr
        intro item hitem
        rw [(hitems item (List.mem_cons_of_mem first hitem)).2]
      rw [Expression.pieces_eq_cut, squeeze_joined_cons, hsqueeze, hblank,
        cut_pieces hfirst hrest, List.map_cons]

end SignedText

/-! ## Items spell their terms -/

theorem Term.Spells.squeeze_eq {piece : List Char} {term : Term}
    (hpiece : Term.Spells piece term) : squeeze piece = piece := by
  have hminus (negative : Bool) :
      squeeze (minus negative) = minus negative := by
    cases negative <;> decide
  cases hpiece with
  | modifier negative hdigits hvalue hrange =>
      rw [squeeze_append, hminus, squeeze_of_isDigit hdigits.isDigit]
  | @dice negative count sides c s hcount hsides hcountRange hsidesRange =>
      have hd : squeeze ('d' :: sides) = 'd' :: squeeze sides := rfl
      rw [squeeze_append, squeeze_append, hminus, hd,
        squeeze_of_isDigit hcount.isDigit, squeeze_of_isDigit hsides.isDigit]

/-- However the count is written, behind the sign and in front of the sides it
spells the term. -/
theorem DiceTerm.WellFormed.spells_of_spellsCount {term : DiceTerm}
    (hterm : term.WellFormed) {digits : List Char}
    (hdigits : SpellsCount digits term.count.toNat) :
    Term.Spells
      (minus (term.sign < 0) ++ (digits ++ 'd' :: (decimal term.sides).toList))
      (.dice term) := by
  obtain ⟨count, sides, sign⟩ := term
  obtain ⟨hsign, hcount, hsides⟩ := hterm
  dsimp only at hsign hcount hsides hdigits ⊢
  lift count to ℕ using by omega with c
  lift sides to ℕ using by omega with s
  have hrun : Numeral.Spells (Nat.toDigits 10 s) s :=
    Numeral.spells_toDigits (by omega)
  have hspells := Term.Spells.dice (decide (sign < 0)) hdigits hrun
    (by omega) (by omega)
  have hkept : (if decide (sign < 0) then (-1 : ℤ) else 1) = sign := by
    rcases hsign with rfl | rfl <;> rfl
  rw [hkept, ← toList_decimal_natCast] at hspells
  exact hspells

theorem DiceTerm.WellFormed.spells_count {term : DiceTerm}
    (hterm : term.WellFormed) :
    Numeral.Spells (decimal term.count).toList term.count.toNat := by
  have hcount := hterm.count
  have hnat : (term.count.toNat : ℤ) = term.count := by omega
  rw [← hnat, toList_decimal_natCast, Int.toNat_natCast]
  exact Numeral.spells_toDigits (by omega)

theorem DiceTerm.WellFormed.spells_item {term : DiceTerm}
    (hterm : term.WellFormed) :
    Term.Spells term.item.piece (.dice term) := by
  by_cases hone : term.count = 1
  · have hspells := hterm.spells_of_spellsCount (.inl ⟨rfl, by rw [hone]; rfl⟩)
    simpa [SignedText.piece, DiceTerm.item, hone] using hspells
  · have hspells := hterm.spells_of_spellsCount (.inr hterm.spells_count)
    simpa [SignedText.piece, DiceTerm.item, hone] using hspells

theorem Modifier.WellFormed.spells_item {modifier : Modifier}
    (hmodifier : modifier.WellFormed) :
    Term.Spells modifier.item.piece (.modifier modifier) := by
  obtain ⟨value, sign⟩ := modifier
  unfold Modifier.WellFormed at hmodifier
  dsimp only at hmodifier
  lift value to ℕ using by omega with n
  have htext : (Modifier.item ⟨n, sign⟩).2.toList = Nat.toDigits 10 n := by
    simp [Modifier.item]
  have hrun : Numeral.Spells (Nat.toDigits 10 n) n :=
    Numeral.spells_toDigits (by omega)
  have hspells := Term.Spells.modifier (decide (sign < 0)) hrun rfl (by
    rcases hmodifier with ⟨rfl, hrange⟩ | ⟨rfl, hrange⟩
    · simp
      omega
    · simp
      omega)
  have hkept : (⟨|if decide (sign < 0) then -(n : ℤ) else n|,
      if (if decide (sign < 0) then -(n : ℤ) else n) < 0 then -1 else 1⟩ :
        Modifier) = ⟨n, sign⟩ := by
    rcases hmodifier with ⟨rfl, hrange⟩ | ⟨rfl, hrange⟩
    · simp
    · simp
      omega
  rw [hkept, ← htext] at hspells
  exact hspells

namespace Expression

/-- The terms of an expression in the order of its canonical text. -/
def terms (expr : Expression) : List Term :=
  expr.dice.map .dice ++ expr.modifiers.map .modifier

@[simp] theorem ofTerms_terms (expr : Expression) :
    ofTerms expr.terms = expr := by
  have hdice : expr.terms.filterMap Term.dice? = expr.dice := by
    simp [terms, List.filterMap_append, List.filterMap_map,
      Function.comp_def, Term.dice?]
  have hmodifiers : expr.terms.filterMap Term.modifier? = expr.modifiers := by
    simp [terms, List.filterMap_append, List.filterMap_map,
      Function.comp_def, Term.modifier?]
  unfold ofTerms
  rw [hdice, hmodifiers]

theorem WellFormed.spells_items {expr : Expression}
    (hexpr : expr.WellFormed) :
    List.Forall₂ Term.Spells (expr.items.map SignedText.piece)
      expr.terms := by
  unfold items terms
  rw [List.map_append, List.map_map, List.map_map]
  apply List.rel_append
  · rw [List.forall₂_map_left_iff, List.forall₂_map_right_iff,
      List.forall₂_same]
    intro term hterm
    exact (hexpr.dice term hterm).spells_item
  · rw [List.forall₂_map_left_iff, List.forall₂_map_right_iff,
      List.forall₂_same]
    intro modifier hmodifier
    exact (hexpr.modifiers modifier hmodifier).spells_item

theorem WellFormed.pieces_canonical {expr : Expression}
    (hexpr : expr.WellFormed) :
    pieces expr.canonical.toList = expr.items.map SignedText.piece := by
  apply SignedText.pieces_joined
  intro item hitem
  rcases List.mem_append.mp hitem with hmem | hmem
  · obtain ⟨term, hterm, rfl⟩ := List.mem_map.mp hmem
    have hspells := (hexpr.dice term hterm).spells_item
    exact ⟨hspells.isPiece, hspells.squeeze_eq⟩
  · obtain ⟨modifier, hmodifier, rfl⟩ := List.mem_map.mp hmem
    have hspells := (hexpr.modifiers modifier hmodifier).spells_item
    exact ⟨hspells.isPiece, hspells.squeeze_eq⟩

/-- The canonical text of a well-formed expression is read as that
expression. -/
theorem WellFormed.read_canonical_eq {expr : Expression}
    (hexpr : expr.WellFormed) : read expr.canonical = .ok expr := by
  apply readChars_eq_ok_iff.mpr
  rw [hexpr.pieces_canonical]
  refine ⟨expr.terms, ?_, hexpr.spells_items, (ofTerms_terms expr).symm⟩
  rcases hexpr.nonempty with hdice | hmodifiers
  · simp [items, hdice]
  · simp [items, hmodifiers]

/-- What is read is well formed, and every well-formed expression is read
back from its canonical text.  So the canonical text tells the expressions
that are read apart, and reading it again changes nothing. -/
theorem read_canonical_round_trip :
    (∀ text expr, read text = .ok expr → expr.WellFormed) ∧
      (∀ expr : Expression, expr.WellFormed →
        read expr.canonical = .ok expr) ∧
      (∀ text other expr otherExpr, read text = .ok expr →
        read other = .ok otherExpr →
          expr.canonical = otherExpr.canonical → expr = otherExpr) ∧
      ∀ text expr, read text = .ok expr →
        ∃ again, read expr.canonical = .ok again ∧
          again.canonical = expr.canonical := by
  have hwell : ∀ text expr, read text = .ok expr → expr.WellFormed :=
    fun _ _ hread => wellFormed_of_readChars_eq_ok hread
  refine ⟨hwell, fun _ hexpr => hexpr.read_canonical_eq, ?_, ?_⟩
  · intro text other expr otherExpr hread hother hcanonical
    have hback := (hwell text expr hread).read_canonical_eq
    rw [hcanonical, (hwell other otherExpr hother).read_canonical_eq] at hback
    exact (Except.ok.inj hback).symm
  · intro text expr hread
    exact ⟨expr, (hwell text expr hread).read_canonical_eq, rfl⟩

theorem read_canonical_at_bounds :
    read (canonical
        ⟨[⟨1, 20, -1⟩, ⟨4294967295, 4294967295, 1⟩],
          [⟨0, 1⟩, ⟨2147483648, -1⟩]⟩) =
      .ok ⟨[⟨1, 20, -1⟩, ⟨4294967295, 4294967295, 1⟩],
        [⟨0, 1⟩, ⟨2147483648, -1⟩]⟩ := by
  apply read_canonical_round_trip.2.1
  refine ⟨?_, ?_, by simp⟩
  · intro term hterm
    rcases List.mem_pair.mp hterm with rfl | rfl
    · exact ⟨.inr rfl, by decide, by decide⟩
    · exact ⟨.inl rfl, by decide, by decide⟩
  · intro modifier hmodifier
    rcases List.mem_pair.mp hmodifier with rfl | rfl
    · exact .inl (by decide)
    · exact .inr (by decide)

end Expression

end TabletopDice
