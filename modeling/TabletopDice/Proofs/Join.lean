import TabletopDice.Proofs.PieceAtFault

/-!
# Joining texts

A plus between two texts keeps their pieces apart, so that the whole is read
as the first text and then the second.  A text in which nothing is written has
no pieces, and joining it to another changes nothing.  A minus between two
texts does the same, unless the second one starts with its first piece: then
that piece takes the minus for its own, and spells its term subtracted.
-/

namespace TabletopDice

open Text Traversal

/-- The dice and the modifiers of one expression, and then those of another. -/
instance : Append Expression where
  append expr other :=
    ⟨expr.dice ++ other.dice, expr.modifiers ++ other.modifiers⟩

/-- The text is refused because nothing is written in it. -/
def ReadError.IsVoid (e : ReadError) : Prop :=
  e = .fault .empty ∨ e = .fault .nothingToRoll

theorem Term.Refused.not_isVoid {piece : List Char} {e : ReadError}
    (hpiece : Term.Refused piece e) : ¬ e.IsVoid := by
  cases hpiece <;> simp [ReadError.IsVoid]

namespace Expression

/-! ## Reading by pieces -/

theorem readChars_of_pieces_ne_nil {cs : List Char} (hne : pieces cs ≠ []) :
    readChars cs = ofTerms <$> (pieces cs).mapM Term.read := by
  have hsome : squeeze cs ≠ [] := by
    intro hblank
    rw [pieces_eq_cut, hblank, cut_nil] at hne
    exact hne rfl
  unfold readChars
  rw [if_neg (by simpa using hsome)]
  cases hterms : (pieces cs).mapM Term.read with
  | error e => rfl
  | ok terms =>
      cases terms with
      | nil =>
          have hspelled := mapM_eq_ok_iff.mp hterms
          exact absurd (List.forall₂_nil_right_iff.mp hspelled) hne
      | cons term rest => rfl

theorem readChars_congr {cs ds : List Char} (hpieces : pieces cs = pieces ds)
    (hne : pieces ds ≠ []) : readChars cs = readChars ds := by
  rw [readChars_of_pieces_ne_nil hne,
    readChars_of_pieces_ne_nil (hpieces ▸ hne), hpieces]

theorem readChars_of_only_pluses {cs : List Char} (hpieces : pieces cs = [])
    (hsome : squeeze cs ≠ []) :
    readChars cs = .error (.fault .nothingToRoll) :=
  readChars_eq_error_iff.mpr (.inr (.inl ⟨hsome, hpieces, rfl⟩))

/-- A text has no pieces exactly if it is refused for that. -/
theorem pieces_eq_nil_iff_isVoid {cs : List Char} :
    pieces cs = [] ↔ ∃ e, readChars cs = .error e ∧ e.IsVoid := by
  constructor
  · intro hnone
    by_cases hblank : squeeze cs = []
    · exact ⟨.fault .empty,
        readChars_eq_error_iff.mpr (.inl ⟨hblank, rfl⟩), .inl rfl⟩
    · exact ⟨.fault .nothingToRoll, readChars_of_only_pluses hnone hblank,
        .inr rfl⟩
  · rintro ⟨e, hread, hvoid⟩
    rcases readChars_eq_error_iff.mp hread with
      ⟨hblank, -⟩ | ⟨-, hnone, -⟩ | ⟨before, piece, after, -, -, hpiece⟩
    · rw [pieces_eq_cut, hblank, cut_nil]
    · exact hnone
    · exact absurd hvoid (Term.refused_of_read_eq hpiece).not_isVoid

theorem pieces_ne_nil_of_not_isVoid {cs : List Char} {e : ReadError}
    (hread : readChars cs = .error e) (he : ¬ e.IsVoid) : pieces cs ≠ [] := by
  intro hnone
  obtain ⟨other, hother, hvoid⟩ := pieces_eq_nil_iff_isVoid.mp hnone
  rw [hread] at hother
  cases hother
  exact he hvoid

theorem pieces_ne_nil_of_ok {cs : List Char} {expr : Expression}
    (hread : readChars cs = .ok expr) : pieces cs ≠ [] := by
  obtain ⟨-, hne, -⟩ := readChars_eq_ok_iff.mp hread
  exact hne

/-! ## A plus between two texts -/

section Plus

variable {s t : List Char}

theorem readChars_append_plus (hs : pieces s ≠ []) (ht : pieces t ≠ []) :
    readChars (s ++ '+' :: t) = do
      let expr ← readChars s
      let other ← readChars t
      return expr ++ other := by
  have hpieces := pieces_append_plus s t
  have hne : pieces (s ++ '+' :: t) ≠ [] := by simp [hpieces, hs]
  rw [readChars_of_pieces_ne_nil hne, readChars_of_pieces_ne_nil hs,
    readChars_of_pieces_ne_nil ht, hpieces, List.mapM_append]
  cases (pieces s).mapM Term.read with
  | error e => rfl
  | ok terms =>
      cases (pieces t).mapM Term.read with
      | error e => rfl
      | ok others => exact congrArg Except.ok (ofTerms_append terms others)

theorem readChars_append_plus_of_void (hs : pieces s = [])
    (ht : pieces t ≠ []) : readChars (s ++ '+' :: t) = readChars t := by
  apply readChars_congr _ ht
  rw [pieces_append_plus, hs, List.nil_append]

theorem readChars_append_plus_void (hs : pieces s ≠ [])
    (ht : pieces t = []) : readChars (s ++ '+' :: t) = readChars s := by
  apply readChars_congr _ hs
  rw [pieces_append_plus, ht, List.append_nil]

theorem readChars_append_plus_of_both_void (hs : pieces s = [])
    (ht : pieces t = []) :
    readChars (s ++ '+' :: t) = .error (.fault .nothingToRoll) := by
  apply readChars_of_only_pluses
  · rw [pieces_append_plus, hs, ht, List.append_nil]
  · have hplus : '+' ∈ squeeze (s ++ '+' :: t) :=
      mem_squeeze.mpr ⟨by simp, rfl⟩
    exact List.ne_nil_of_mem hplus

/-- What is wrong with the first text is wrong with the whole. -/
theorem readChars_append_plus_of_error {e : ReadError}
    (hs : readChars s = .error e) (he : ¬ e.IsVoid) :
    readChars (s ++ '+' :: t) = .error e := by
  have hne := pieces_ne_nil_of_not_isVoid hs he
  by_cases ht : pieces t = []
  · rw [readChars_append_plus_void hne ht, hs]
  · rw [readChars_append_plus hne ht, hs]
    rfl

/-- What is wrong with the second text is wrong with the whole, unless
something is wrong with the first. -/
theorem readChars_append_plus_error {e : ReadError}
    (hs : (∃ expr, readChars s = .ok expr) ∨
      ∃ v, readChars s = .error v ∧ v.IsVoid)
    (ht : readChars t = .error e) (he : ¬ e.IsVoid) :
    readChars (s ++ '+' :: t) = .error e := by
  have hne := pieces_ne_nil_of_not_isVoid ht he
  rcases hs with ⟨expr, hs⟩ | hvoid
  · rw [readChars_append_plus (pieces_ne_nil_of_ok hs) hne, hs, ht]
    rfl
  · rw [readChars_append_plus_of_void (pieces_eq_nil_iff_isVoid.mpr hvoid) hne,
      ht]

end Plus

/-! ## A minus between two texts -/

/-- The first character that is no blank is a digit or the letter `d`. -/
def StartsUnsigned (cs : List Char) : Prop :=
  ∃ c ∈ (squeeze cs).head?, c.isDigit = true ∨ c = 'd'

end Expression

/-- The term with a minus in front of it, which a zero does not take. -/
def Term.subtracted : Term → Term
  | .dice t => .dice { t with sign := -1 }
  | .modifier m => .modifier (if m.value = 0 then m else { m with sign := -1 })

theorem Term.Spells.subtracted {piece : List Char} {term : Term}
    (hpiece : Term.Spells piece term) (hhead : piece.head? ≠ some '-') :
    Term.Spells ('-' :: piece) term.subtracted := by
  cases hpiece with
  | @modifier negative digits n value hdigits hvalue hrange =>
      cases negative with
      | true => simp at hhead
      | false =>
          obtain rfl : value = n := by simpa using hvalue
          have hspells := Term.Spells.modifier true hdigits rfl
            (by rw [if_pos rfl]; omega)
          have hkept : (⟨|(if true then -(n : ℤ) else n)|,
              if (if true then -(n : ℤ) else n) < 0 then -1 else 1⟩ :
                Modifier) =
              if |(n : ℤ)| = 0 then ⟨|(n : ℤ)|, if (n : ℤ) < 0 then -1 else 1⟩
              else ⟨|(n : ℤ)|, -1⟩ := by
            rcases Nat.eq_zero_or_pos n with hzero | hpos
            · simp [hzero]
            · simp [hpos, hpos.ne']
          rw [hkept] at hspells
          exact hspells
  | @dice negative count sides c s hcount hsides hcountRange hsidesRange =>
      cases negative with
      | true => simp at hhead
      | false => exact .dice true hcount hsides hcountRange hsidesRange

namespace Expression

theorem StartsUnsigned.exists_squeeze_eq {cs : List Char}
    (hcs : StartsUnsigned cs) :
    ∃ c rest, squeeze cs = c :: rest ∧ c ≠ '+' ∧ c ≠ '-' := by
  obtain ⟨c, hhead, hc⟩ := hcs
  obtain ⟨rest, hsqueeze⟩ := List.head?_eq_some_iff.mp hhead
  refine ⟨c, rest, hsqueeze, ?_⟩
  rcases hc with hdigit | rfl
  · exact ⟨ne_of_isDigit hdigit isDigit_plus, ne_of_isDigit hdigit isDigit_minus⟩
  · decide

/-- A text that starts with a character of its first piece has no pluses in
front, and that piece starts with it. -/
theorem Layout.exists_ofChars_cons {c : Char} (hc : c ≠ '+')
    (cs : List Char) :
    ∃ tail pluses rest,
      ofChars (c :: cs) = ⟨0, (c :: tail, pluses) :: rest⟩ := by
  rcases (ofChars cs).detached_or_joinable with
    hdetached | ⟨piece, pluses, rest, hlayout, hhead⟩
  · exact ⟨[], _, _, prepend_of_detached hc hdetached⟩
  · refine ⟨piece, pluses, rest, ?_⟩
    change prepend c (ofChars cs) = _
    rw [hlayout, prepend_of_head_ne hc hhead]

/-- A minus in front of such a text becomes the first character of its first
piece. -/
theorem StartsUnsigned.exists_layout {cs : List Char}
    (hcs : StartsUnsigned cs) :
    ∃ piece pluses rest,
      Layout.ofChars (squeeze cs) = ⟨0, (piece, pluses) :: rest⟩ ∧
      piece.head? ≠ some '-' ∧
      cut ('-' :: squeeze cs) = ('-' :: piece) :: rest.map Prod.fst := by
  obtain ⟨c, later, hsqueeze, hplus, hminus⟩ := hcs.exists_squeeze_eq
  obtain ⟨tail, pluses, rest, hlayout⟩ :=
    Layout.exists_ofChars_cons hplus later
  have hhead : (c :: tail).head? ≠ some '-' := by simpa using hminus
  rw [hsqueeze]
  refine ⟨c :: tail, pluses, rest, hlayout, hhead, ?_⟩
  rw [cut_eq_pieces_ofChars]
  change (Layout.prepend '-' (Layout.ofChars (c :: later))).pieces = _
  rw [hlayout, Layout.prepend_of_head_ne (by decide) hhead]
  rfl

theorem pieces_append_minus (s t : List Char) :
    pieces (s ++ '-' :: t) = pieces s ++ cut ('-' :: squeeze t) := by
  have hminus : squeeze ('-' :: t) = '-' :: squeeze t := rfl
  rw [pieces_eq_cut, squeeze_append, hminus, cut_append_minus]
  rfl

/-- A minus before a text that starts with its first piece subtracts the term
that the piece spells. -/
theorem readChars_append_minus {s t : List Char} {expr other : Expression}
    (hs : readChars s = .ok expr) (ht : readChars t = .ok other)
    (hstart : StartsUnsigned t) :
    ∃ layout first rest, Layout.text layout = squeeze t ∧
      layout.Spells (first :: rest) ∧ other = ofTerms (first :: rest) ∧
      readChars (s ++ '-' :: t) =
        .ok (expr ++ ofTerms (first.subtracted :: rest)) := by
  obtain ⟨earlier, -, hearlier, rfl⟩ := readChars_eq_ok_iff.mp hs
  obtain ⟨terms, -, hterms, rfl⟩ := readChars_eq_ok_iff.mp ht
  obtain ⟨piece, pluses, parts, hlayout, hhead, hcut⟩ := hstart.exists_layout
  have hwell := Layout.wellFormed_ofChars (squeeze t)
  rw [pieces_eq_cut, cut_eq_pieces_ofChars, hlayout] at hterms
  rw [hlayout] at hwell
  obtain ⟨first, rest, hfirst, hrest, rfl⟩ :=
    List.forall₂_cons_left_iff.mp hterms
  refine ⟨⟨0, (piece, pluses) :: parts⟩, first, rest, ?_,
    ⟨by simp, hwell.separated, hterms⟩, rfl, ?_⟩
  · rw [← hlayout, Layout.text_ofChars]
  · have hspelled : List.Forall₂ Term.Spells (pieces (s ++ '-' :: t))
        (earlier ++ first.subtracted :: rest) := by
      rw [pieces_append_minus, hcut]
      exact List.rel_append hearlier (.cons (hfirst.subtracted hhead) hrest)
    refine readChars_eq_ok_iff.mpr ⟨_, ?_, hspelled, ?_⟩
    · rw [pieces_append_minus, hcut]
      simp
    · exact (ofTerms_append earlier _).symm

/-! ## Joined texts -/

/-- Two texts with a plus between them are read as the one and then the other.
What is wrong with the first text is wrong with the whole, and else what is
wrong with the second; a text in which nothing is written makes no difference,
but two of them hold nothing to roll.  With a minus in place of the plus, and
the second text starting with a term and no sign, that term is subtracted. -/
theorem joined_texts_read_in_turn (a b : String) :
    (∀ expr other, read a = .ok expr → read b = .ok other →
      read (a ++ "+" ++ b) = .ok (expr ++ other)) ∧
    (∀ e, read a = .error e → ¬ e.IsVoid →
      read (a ++ "+" ++ b) = .error e) ∧
    (∀ e, ((∃ expr, read a = .ok expr) ∨ ∃ v, read a = .error v ∧ v.IsVoid) →
      read b = .error e → ¬ e.IsVoid → read (a ++ "+" ++ b) = .error e) ∧
    (∀ v w, read a = .error v → v.IsVoid → read b = .error w → w.IsVoid →
      read (a ++ "+" ++ b) = .error (.fault .nothingToRoll)) ∧
    (∀ expr v, read a = .ok expr → read b = .error v → v.IsVoid →
      read (a ++ "+" ++ b) = .ok expr) ∧
    (∀ v other, read a = .error v → v.IsVoid → read b = .ok other →
      read (a ++ "+" ++ b) = .ok other) ∧
    ∀ expr other, read a = .ok expr → read b = .ok other →
      StartsUnsigned b.toList →
        ∃ layout first rest, Layout.text layout = squeeze b.toList ∧
          layout.Spells (first :: rest) ∧ other = ofTerms (first :: rest) ∧
          read (a ++ "-" ++ b) =
            .ok (expr ++ ofTerms (first.subtracted :: rest)) := by
  have hplus : (a ++ "+" ++ b).toList = a.toList ++ '+' :: b.toList := by simp
  have hminus : (a ++ "-" ++ b).toList = a.toList ++ '-' :: b.toList := by simp
  unfold read
  rw [hplus, hminus]
  refine ⟨?_, fun e => readChars_append_plus_of_error,
    fun e => readChars_append_plus_error, ?_, ?_, ?_,
    fun expr other => readChars_append_minus⟩
  · intro expr other ha hb
    rw [readChars_append_plus (pieces_ne_nil_of_ok ha) (pieces_ne_nil_of_ok hb),
      ha, hb]
    rfl
  · intro v w ha hv hb hw
    exact readChars_append_plus_of_both_void
      (pieces_eq_nil_iff_isVoid.mpr ⟨v, ha, hv⟩)
      (pieces_eq_nil_iff_isVoid.mpr ⟨w, hb, hw⟩)
  · intro expr v ha hb hv
    rw [readChars_append_plus_void (pieces_ne_nil_of_ok ha)
      (pieces_eq_nil_iff_isVoid.mpr ⟨v, hb, hv⟩), ha]
  · intro v other ha hv hb
    rw [readChars_append_plus_of_void
      (pieces_eq_nil_iff_isVoid.mpr ⟨v, ha, hv⟩) (pieces_ne_nil_of_ok hb), hb]

theorem joined_texts_read_in_turn_blank_first :
    read ("+ +" ++ "+" ++ "2d6 - x") = .error (.fault (.modifier "-x")) ∧
      read ("2d6 +" ++ "-" ++ " 1 0d8 + 07") =
        .ok ⟨[⟨2, 6, 1⟩, ⟨10, 8, -1⟩], [⟨7, 1⟩]⟩ := by
  constructor
  · apply (joined_texts_read_in_turn "+ +" "2d6 - x").2.2.1
    · exact .inr ⟨.fault .nothingToRoll, rfl, .inr rfl⟩
    · rfl
    · simp [ReadError.IsVoid]
  · obtain ⟨layout, first, rest, htext, hspells, -, hread⟩ :=
      (joined_texts_read_in_turn "2d6 +" " 1 0d8 + 07").2.2.2.2.2.2
        ⟨[⟨2, 6, 1⟩], []⟩ ⟨[⟨10, 8, 1⟩], [⟨7, 1⟩]⟩ rfl rfl
        ⟨'1', rfl, .inl rfl⟩
    have hten : Numeral.Spells ['1', '0'] 10 := Numeral.read_eq_value_iff.mp rfl
    have height : Numeral.Spells ['8'] 8 := Numeral.read_eq_value_iff.mp rfl
    have hseven : Numeral.Spells ['0', '7'] 7 :=
      Numeral.read_eq_value_iff.mp rfl
    have hknown : Layout.Spells ⟨0, [("10d8".toList, 1), ("07".toList, 0)]⟩
        [.dice ⟨10, 8, 1⟩, .modifier ⟨7, 1⟩] := by
      refine ⟨by simp, by simp [Layout.Separated], .cons ?_ (.cons ?_ .nil)⟩
      · exact .dice false (.inr hten) height (by decide) (by decide)
      · exact .modifier false hseven rfl (by decide)
    have hsame := hspells.wellFormed.eq_of_text_eq hknown.wellFormed htext
    rw [hsame] at hspells
    cases spelled_unique hspells.spelled hknown.spelled
    exact hread

end Expression

end TabletopDice
