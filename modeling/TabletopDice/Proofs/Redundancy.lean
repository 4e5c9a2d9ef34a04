import TabletopDice.Proofs.Join

/-!
# Blanks and pluses that say nothing

Blanks may stand anywhere in a text, and a plus may stand at its ends, before a
minus and beside another plus, without the text being read in another way.  So
may all of the pluses that separate the signs, which means that a text is read
like its normal form.  Only a text of blanks is different: it is empty, and
with a plus in it there is something that rolls nothing.
-/

namespace TabletopDice.Expression

open Text

/-! ## Texts with the same pieces -/

/-- Texts in which anything is written are read by their pieces. -/
theorem readChars_eq_of_pieces_eq {s t : List Char} (hs : squeeze s ≠ [])
    (ht : squeeze t ≠ []) (hpieces : pieces t = pieces s) :
    readChars t = readChars s := by
  by_cases hnone : pieces s = []
  · rw [readChars_of_only_pluses (hpieces.trans hnone) ht,
      readChars_of_only_pluses hnone hs]
  · exact readChars_congr hpieces hnone

/-! ## The normal form -/

theorem separateSigns_cons_of_ne {c : Char} (hc : c ≠ '-') (cs : List Char) :
    separateSigns (c :: cs) = c :: separateSigns cs := by
  unfold separateSigns
  rw [List.flatMap_cons, if_neg hc, List.singleton_append]

theorem squeeze_separateSigns (cs : List Char) :
    squeeze (separateSigns cs) = separateSigns (squeeze cs) := by
  induction cs with
  | nil => rfl
  | cons c cs ih =>
      by_cases hc : c = '-'
      · subst c
        exact congrArg (fun rest => '+' :: '-' :: rest) ih
      · rw [separateSigns_cons_of_ne hc]
        by_cases hblank : isBlank c = true
        · simp only [squeeze, List.filter_cons, hblank] at ih ⊢
          exact ih
        · simp only [squeeze, List.filter_cons, hblank] at ih ⊢
          exact (congrArg (c :: ·) ih).trans
            (separateSigns_cons_of_ne hc _).symm

/-- A plus before every minus leaves the pieces as they are, whatever is
written before. -/
theorem cut_append_separateSigns (s t : List Char) :
    cut (s ++ separateSigns t) = cut (s ++ t) := by
  induction t generalizing s with
  | nil => rfl
  | cons c t ih =>
      by_cases hc : c = '-'
      · subst c
        have hrest : cut ('-' :: separateSigns t) = cut ('-' :: t) := ih ['-']
        rw [separateSigns_cons_minus, cut_append_plus, hrest, cut_append_minus]
      · rw [separateSigns_cons_of_ne hc, List.append_cons, ih,
          ← List.append_cons]

theorem squeeze_normalizedChars (cs : List Char) :
    squeeze (normalizedChars cs) = normalizedChars cs := by
  unfold normalizedChars
  rw [squeeze_separateSigns, squeeze_squeeze]

theorem pieces_normalizedChars (cs : List Char) :
    pieces (normalizedChars cs) = pieces cs := by
  rw [pieces_eq_cut, pieces_eq_cut, squeeze_normalizedChars]
  exact cut_append_separateSigns [] (squeeze cs)

theorem length_separateSigns (cs : List Char) :
    (separateSigns cs).length = cs.length + cs.count '-' := by
  induction cs with
  | nil => rfl
  | cons c cs ih =>
      by_cases hc : c = '-'
      · subst c
        rw [separateSigns_cons_minus, List.count_cons_self]
        simp only [List.length_cons, ih]
        omega
      · rw [separateSigns_cons_of_ne hc, List.count_cons_of_ne hc]
        simp only [List.length_cons, ih]
        omega

theorem normalizedChars_eq_nil_iff {cs : List Char} :
    normalizedChars cs = [] ↔ squeeze cs = [] := by
  constructor
  · intro hnone
    have hlength := length_separateSigns (squeeze cs)
    change (normalizedChars cs).length = _ at hlength
    rw [hnone, List.length_nil] at hlength
    exact List.eq_nil_of_length_eq_zero (by omega)
  · intro hnone
    unfold normalizedChars
    rw [hnone, separateSigns_nil]

theorem readChars_normalizedChars (cs : List Char) :
    readChars (normalizedChars cs) = readChars cs := by
  by_cases hblank : squeeze cs = []
  · have hempty (ds : List Char) (hds : squeeze ds = []) :
        readChars ds = .error (.fault .empty) :=
      readChars_eq_error_iff.mpr (.inl ⟨hds, rfl⟩)
    rw [hempty cs hblank, hempty]
    rw [squeeze_normalizedChars, normalizedChars_eq_nil_iff, hblank]
  · apply readChars_eq_of_pieces_eq hblank _ (pieces_normalizedChars cs)
    rw [squeeze_normalizedChars]
    exact fun hnone => hblank (normalizedChars_eq_nil_iff.mp hnone)

theorem count_minus_separateSigns (cs : List Char) :
    (separateSigns cs).count '-' = cs.count '-' := by
  induction cs with
  | nil => rfl
  | cons c cs ih =>
      by_cases hc : c = '-'
      · subst c
        rw [separateSigns_cons_minus, List.count_cons_of_ne (by decide),
          List.count_cons_self, List.count_cons_self, ih]
      · rw [separateSigns_cons_of_ne hc, List.count_cons_of_ne hc,
          List.count_cons_of_ne hc, ih]

/-- Every minus takes one more plus each time that a text is normalized. -/
theorem normalizedChars_normalizedChars_iff {cs : List Char} :
    normalizedChars (normalizedChars cs) = normalizedChars cs ↔ '-' ∉ cs := by
  have htwice : normalizedChars (normalizedChars cs) =
      separateSigns (normalizedChars cs) :=
    congrArg separateSigns (squeeze_normalizedChars cs)
  have hcount : (normalizedChars cs).count '-' = (squeeze cs).count '-' :=
    count_minus_separateSigns (squeeze cs)
  have hminus : '-' ∈ squeeze cs ↔ '-' ∈ cs := by
    rw [mem_squeeze]
    exact and_iff_left rfl
  rw [htwice, ← hminus, ← List.count_eq_zero, ← hcount]
  constructor
  · intro hsame
    have hlength := congrArg List.length hsame
    rw [length_separateSigns] at hlength
    omega
  · intro hnone
    exact separateSigns_of_not_mem (List.count_eq_zero.mp hnone)

/-! ## Texts laid out in another way -/

/-- Between these two texts a plus says nothing. -/
def IsIdlePlace (before after : List Char) : Prop :=
  before = [] ∨ after = [] ∨ after.head? = some '-' ∨
    after.head? = some '+' ∨ before.getLast? = some '+'

/-- One change of layout: a blank is put in or taken out anywhere, or a plus
is put where it says nothing. -/
inductive Relaid : List Char → List Char → Prop
  | putBlank (before after : List Char) {c : Char} (hc : isBlank c = true) :
      Relaid (before ++ after) (before ++ c :: after)
  | takeBlank (before after : List Char) {c : Char} (hc : isBlank c = true) :
      Relaid (before ++ c :: after) (before ++ after)
  | putPlus {before after : List Char} (hplace : IsIdlePlace before after) :
      Relaid (before ++ after) (before ++ '+' :: after)

theorem squeeze_append_blank_cons (before after : List Char) {c : Char}
    (hc : isBlank c = true) :
    squeeze (before ++ c :: after) = squeeze (before ++ after) := by
  have hnone : squeeze (c :: after) = squeeze after := by
    simp [squeeze, hc]
  rw [squeeze_append, hnone, squeeze_append]

/-- No piece reaches over a place at which a plus says nothing. -/
theorem IsIdlePlace.pieces_append {before after : List Char}
    (hplace : IsIdlePlace before after) :
    pieces (before ++ after) = pieces before ++ pieces after := by
  rcases hplace with rfl | rfl | hminus | hplus | hplus
  · rfl
  · rw [List.append_nil]
    exact (List.append_nil (pieces before)).symm
  · obtain ⟨rest, rfl⟩ := List.head?_eq_some_iff.mp hminus
    exact pieces_append_minus before rest
  · obtain ⟨rest, rfl⟩ := List.head?_eq_some_iff.mp hplus
    rw [pieces_append_plus, ← List.nil_append ('+' :: rest),
      pieces_append_plus]
    rfl
  · obtain ⟨earlier, rfl⟩ := List.getLast?_eq_some_iff.mp hplus
    have hmoved : earlier ++ ['+'] ++ after = earlier ++ '+' :: after := by
      simp
    rw [hmoved, pieces_append_plus, pieces_append_plus]
    exact congrArg (· ++ pieces after) (List.append_nil (pieces earlier)).symm

/-- A change of layout keeps the pieces, and what is written stays written. -/
theorem Relaid.pieces_eq {s t : List Char} (hstep : Relaid s t)
    (hs : squeeze s ≠ []) : squeeze t ≠ [] ∧ pieces t = pieces s := by
  cases hstep with
  | putBlank before after hc =>
      have hsame := squeeze_append_blank_cons before after hc
      rw [pieces_eq_cut, pieces_eq_cut, hsame]
      exact ⟨hs, rfl⟩
  | takeBlank before after hc =>
      have hsame := squeeze_append_blank_cons before after hc
      rw [hsame] at hs
      rw [pieces_eq_cut, pieces_eq_cut, hsame]
      exact ⟨hs, rfl⟩
  | @putPlus before after hplace =>
      refine ⟨?_, ?_⟩
      · have hplus : '+' ∈ squeeze (before ++ '+' :: after) :=
          mem_squeeze.mpr ⟨by simp, rfl⟩
        exact List.ne_nil_of_mem hplus
      · rw [pieces_append_plus, hplace.pieces_append]

/-- So do any number of changes. -/
theorem pieces_eq_of_relaid {s t : List Char}
    (hsteps : Relation.ReflTransGen Relaid s t) (hs : squeeze s ≠ []) :
    squeeze t ≠ [] ∧ pieces t = pieces s := by
  induction hsteps with
  | refl => exact ⟨hs, rfl⟩
  | tail hearlier hstep ih =>
      obtain ⟨hmiddle, hpieces⟩ := ih
      obtain ⟨hlast, hsame⟩ := hstep.pieces_eq hmiddle
      exact ⟨hlast, hsame.trans hpieces⟩

/-- A text is read like its normal form, although that has a normal form of
its own as soon as there is a minus in it.  A text in which anything is
written is read alike in whatever layout: with blanks put in or taken out, and
with pluses put in where they say nothing. -/
theorem read_of_relaid_text :
    (∀ text, read (normalize text) = read text) ∧
    (∀ text, normalize (normalize text) = normalize text ↔
      '-' ∉ text.toList) ∧
    ∀ text other : String, squeeze text.toList ≠ [] →
      Relation.ReflTransGen Relaid text.toList other.toList →
        read other = read text := by
  refine ⟨?_, ?_, ?_⟩
  · intro text
    unfold read normalize
    rw [String.toList_ofList]
    exact readChars_normalizedChars text.toList
  · intro text
    unfold normalize
    rw [String.toList_ofList, String.ofList_inj]
    exact normalizedChars_normalizedChars_iff
  · intro text other htext hsteps
    obtain ⟨hother, hpieces⟩ := pieces_eq_of_relaid hsteps htext
    exact readChars_eq_of_pieces_eq htext hother hpieces

theorem read_of_relaid_text_split_number :
    squeeze "10d6-x".toList ≠ [] ∧
      Relation.ReflTransGen Relaid "10d6-x".toList "+1 0d6+-x".toList ∧
      read "+1 0d6+-x" = read "10d6-x" := by
  have hwritten : squeeze "10d6-x".toList ≠ [] := by decide
  have hsplit : Relaid "10d6-x".toList "1 0d6-x".toList :=
    .putBlank ['1'] "0d6-x".toList rfl
  have hleading : Relaid "1 0d6-x".toList "+1 0d6-x".toList :=
    .putPlus (.inl rfl)
  have hminus : Relaid "+1 0d6-x".toList "+1 0d6+-x".toList :=
    @Relaid.putPlus "+1 0d6".toList ['-', 'x'] (.inr (.inr (.inl rfl)))
  have hsteps : Relation.ReflTransGen Relaid "10d6-x".toList
      "+1 0d6+-x".toList :=
    ((Relation.ReflTransGen.single hsplit).tail hleading).tail hminus
  exact ⟨hwritten, hsteps,
    read_of_relaid_text.2.2 "10d6-x" "+1 0d6+-x" hwritten hsteps⟩

end TabletopDice.Expression
