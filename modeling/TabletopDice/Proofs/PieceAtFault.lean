import TabletopDice.Proofs.Grammar

/-!
# The piece at fault

A text in which more than signs is written is refused for one of its pieces
only, the leftmost that spells no term, and what is said of that piece depends
on nothing else in the text.  What is said is listed here without the reader:
first by the letters `d` in the piece, and then by its runs of digits.  Every
fault quotes the piece as it is written.
-/

namespace TabletopDice

open Text Traversal

/-! ## What is said of a piece -/

/-- A text that gives no number of 32 bits: it is no run of digits, or one
that is short enough to convert but whose number is too large. -/
def IsNoCount (digits : List Char) : Prop :=
  isDigits digits = false ∨ ∃ n, Numeral.Spells digits n ∧ 2 ^ 32 - 1 < n

/-- A piece that spells no term, and what is said of it. -/
inductive Term.Refused : List Char → ReadError → Prop
  | overlong {piece : List Char} {n : ℕ} (hrun : Term.Overlong piece n) :
      Term.Refused piece (.tooManyDigits n)
  | outOfRange (negative : Bool) {digits : List Char} {n : ℕ} {value : ℤ}
      (hdigits : Numeral.Spells digits n)
      (hvalue : value = if negative then -(n : ℤ) else n)
      (hrange : value < -2 ^ 31 ∨ 2 ^ 31 - 1 < value) :
      Term.Refused (minus negative ++ digits)
        (.fault (.modifier (String.ofList (minus negative ++ digits))))
  | noModifier {core : List Char} (hd : 'd' ∉ core)
      (hdigits : isDigits core = false) :
      Term.Refused ('-' :: core)
        (.fault (.modifier (String.ofList ('-' :: core))))
  | noTerm {piece : List Char} (hd : 'd' ∉ piece)
      (hminus : piece.head? ≠ some '-') (hdigits : isDigits piece = false) :
      Term.Refused piece (.fault (.term (String.ofList piece)))
  | severalDice {piece : List Char} (hd : 2 ≤ piece.count 'd') :
      Term.Refused piece (.fault (.term (String.ofList piece)))
  | count (negative : Bool) {count sides : List Char}
      (hcore : IsCore negative count) (hd : 'd' ∉ count ++ sides)
      (hne : count ≠ []) (hcount : IsNoCount count) :
      Term.Refused (minus negative ++ (count ++ 'd' :: sides))
        (.fault (.count
          (String.ofList (minus negative ++ (count ++ 'd' :: sides)))))
  | sides (negative : Bool) {count sides : List Char} {c : ℕ}
      (hcount : SpellsCount count c) (hrange : c ≤ 2 ^ 32 - 1)
      (hd : 'd' ∉ sides) (hsides : IsNoCount sides) :
      Term.Refused (minus negative ++ (count ++ 'd' :: sides))
        (.fault (.sides
          (String.ofList (minus negative ++ (count ++ 'd' :: sides)))))
  | nonPositive (negative : Bool) {count sides : List Char} {c s : ℕ}
      (hcount : SpellsCount count c) (hcountRange : c ≤ 2 ^ 32 - 1)
      (hsides : Numeral.Spells sides s) (hsidesRange : s ≤ 2 ^ 32 - 1)
      (hzero : c = 0 ∨ s = 0) :
      Term.Refused (minus negative ++ (count ++ 'd' :: sides))
        (.fault (.nonPositive
          (String.ofList (minus negative ++ (count ++ 'd' :: sides)))))

/-! ## Numbers that are refused -/

theorem readCount_eq_fault_iff {fault other : Fault} {digits : List Char} :
    readCount fault digits = .error (.fault other) ↔
      IsNoCount digits ∧ other = fault := by
  have hlarge (n : ℕ) : 2 ^ 32 - 1 < n ↔ maxCount < n := Iff.rfl
  unfold IsNoCount
  simp only [← Numeral.read_eq_malformed_iff, ← Numeral.read_eq_value_iff,
    hlarge]
  unfold readCount
  cases Numeral.read digits with
  | malformed => simp [eq_comm]
  | tooLong m => simp
  | value m =>
      dsimp only
      rcases Nat.lt_or_ge maxCount m with hlt | hle
      · rw [if_neg (not_le.mpr hlt)]
        simp [hlt, eq_comm]
      · rw [if_pos hle]
        simp [not_lt.mpr hle]

theorem readDiceCount_eq_fault_iff {fault other : Fault}
    {digits : List Char} :
    readDiceCount fault digits = .error (.fault other) ↔
      digits ≠ [] ∧ IsNoCount digits ∧ other = fault := by
  unfold readDiceCount
  by_cases hempty : digits = []
  · simp [hempty]
  · rw [if_neg (by simpa using hempty), readCount_eq_fault_iff]
    simp [hempty]

theorem Modifier.read_eq_fault_iff {negative : Bool} {core : List Char}
    {fault : Fault} (hcore : IsCore negative core) :
    Modifier.read (minus negative ++ core) = .error (.fault fault) ↔
      (isDigits core = false ∨
        ∃ n, Numeral.Spells core n ∧ ¬ n ≤ maxModifier negative) ∧
      fault = .modifier (String.ofList (minus negative ++ core)) := by
  simp only [← Numeral.read_eq_malformed_iff, ← Numeral.read_eq_value_iff]
  unfold Modifier.read
  rw [splitMinus_minus_append hcore]
  dsimp only
  cases Numeral.read core with
  | malformed => simp [eq_comm]
  | tooLong m => simp
  | value m =>
      dsimp only
      rcases Nat.lt_or_ge (maxModifier negative) m with hlt | hle
      · rw [if_neg (not_le.mpr hlt)]
        simpa [hlt] using eq_comm
      · rw [if_pos hle]
        simp [not_lt.mpr hle]

theorem DiceTerm.read_eq_fault_iff {piece count sides : List Char}
    {negative : Bool} {fault : Fault} :
    DiceTerm.read piece negative count sides = .error (.fault fault) ↔
      (count ≠ [] ∧ IsNoCount count ∧
          fault = .count (String.ofList piece)) ∨
        ∃ c, (SpellsCount count c ∧ c ≤ 2 ^ 32 - 1) ∧
          ((IsNoCount sides ∧ fault = .sides (String.ofList piece)) ∨
            ∃ s, (Numeral.Spells sides s ∧ s ≤ 2 ^ 32 - 1) ∧
              (c = 0 ∨ s = 0) ∧
              fault = .nonPositive (String.ofList piece)) := by
  have hzero (c s : ℕ) :
      (if c = 0 ∨ s = 0 then
          .error (.fault (.nonPositive (String.ofList piece)))
        else .ok ⟨c, s, if negative then -1 else 1⟩ :
          Except ReadError DiceTerm) = .error (.fault fault) ↔
        (c = 0 ∨ s = 0) ∧ fault = .nonPositive (String.ofList piece) := by
    by_cases hnone : c = 0 ∨ s = 0
    · simp [hnone, eq_comm]
    · simp [hnone]
  unfold DiceTerm.read
  simp only [bind_eq_error_iff, readDiceCount_eq_fault_iff,
    readDiceCount_eq_ok_iff, readCount_eq_fault_iff, readCount_eq_ok_iff,
    hzero]

/-! ## The reader and the list -/

theorem Term.refused_of_read_eq {piece : List Char} {e : ReadError}
    (hread : Term.read piece = .error e) : Term.Refused piece e := by
  cases e with
  | tooManyDigits n => exact .overlong (Term.overlong_of_read_eq hread)
  | fault fault =>
      obtain ⟨negative, core, hcore, rfl,
        hd | ⟨count, sides, rfl, hcount, hd⟩⟩ := Term.exists_shape piece
      · rw [Term.read_of_not_mem hcore hd] at hread
        split at hread
        next hmodifier =>
          obtain ⟨hrefused, rfl⟩ := (Modifier.read_eq_fault_iff hcore).mp
            (map_eq_error_iff.mp hread)
          rcases hrefused with hdigits | ⟨n, hdigits, hlarge⟩
          · have hnegative : negative = true := by
              simpa [hdigits] using hmodifier
            subst negative
            exact .noModifier hd hdigits
          · have hrange := (@modifier_eq_of_value negative n _ rfl).1
            exact .outOfRange negative hdigits rfl (by omega)
        next hmodifier =>
          cases hread
          simp only [Bool.or_eq_true, not_or, Bool.not_eq_true] at hmodifier
          obtain ⟨rfl, hdigits⟩ := hmodifier
          exact .noTerm hd (hcore rfl) hdigits
      · rcases hd with hd | hd
        · rw [Term.read_of_one hcore hcount hd] at hread
          have hfree : 'd' ∉ count ++ sides := by simp [hcount, hd]
          rcases DiceTerm.read_eq_fault_iff.mp (map_eq_error_iff.mp hread) with
            ⟨hne, hno, rfl⟩ |
            ⟨c, hc, ⟨hno, rfl⟩ | ⟨s, hs, hzero, rfl⟩⟩
          · have hfront : IsCore negative count := by
              intro hnegative hhead
              apply hcore hnegative
              rw [List.head?_append_of_ne_nil count hne, hhead]
            exact .count negative hfront hfree hne hno
          · exact .sides negative hc.1 hc.2 hd hno
          · exact .nonPositive negative hc.1 hc.2 hs.1 hs.2 hzero
        · rw [Term.read_of_many hcore hcount hd] at hread
          cases hread
          have hmore : 0 < sides.count 'd' := List.count_pos_iff.mpr hd
          apply Term.Refused.severalDice
          simp only [List.count_append, List.count_cons_self]
          omega

theorem Term.read_eq_of_severalDice {piece : List Char}
    (hd : 2 ≤ piece.count 'd') :
    Term.read piece = .error (.fault (.term (String.ofList piece))) := by
  have hminus (negative : Bool) : (minus negative).count 'd' = 0 := by
    cases negative <;> rfl
  obtain ⟨negative, core, hcore, rfl,
    hno | ⟨count, sides, rfl, hcount, hno | hmore⟩⟩ := Term.exists_shape piece
  · rw [List.count_append, hminus, List.count_eq_zero_of_not_mem hno] at hd
    omega
  · rw [List.count_append, hminus, List.count_append, List.count_cons_self,
      List.count_eq_zero_of_not_mem hcount,
      List.count_eq_zero_of_not_mem hno] at hd
    omega
  · exact Term.read_of_many hcore hcount hmore

theorem Term.read_eq_of_refused {piece : List Char} {e : ReadError}
    (hpiece : Term.Refused piece e) : Term.read piece = .error e := by
  cases hpiece with
  | overlong hrun => exact Term.read_eq_of_overlong hrun
  | @outOfRange negative digits n value hdigits hvalue hrange =>
      have hcore : IsCore negative digits := isCore_of_isDigit hdigits.isDigit
      have hmax := (modifier_eq_of_value hvalue).1
      have hread := (Modifier.read_eq_fault_iff hcore).mpr
        ⟨.inr ⟨n, hdigits, by omega⟩, rfl⟩
      rw [Term.read_of_not_mem hcore (hdigits.not_mem isDigit_d),
        hdigits.isDigits, Bool.or_true, if_pos rfl, hread]
      rfl
  | @noModifier core hd hdigits =>
      have hcore : IsCore true core := fun hfalse => nomatch hfalse
      have hread := (Modifier.read_eq_fault_iff hcore).mpr
        ⟨.inl hdigits, rfl⟩
      exact (Term.read_of_not_mem hcore hd).trans
        (map_eq_error_iff.mpr hread)
  | noTerm hd hminus hdigits =>
      have hcore : IsCore false piece := fun _ => hminus
      have hread := Term.read_of_not_mem hcore hd
      rw [hdigits] at hread
      exact hread
  | severalDice hd => exact Term.read_eq_of_severalDice hd
  | @count negative count sides hfront hd hne hno =>
      simp only [List.mem_append, not_or] at hd
      have hcore : IsCore negative (count ++ 'd' :: sides) := by
        intro hnegative
        rw [List.head?_append_of_ne_nil count hne]
        exact hfront hnegative
      rw [Term.read_of_one hcore hd.1 hd.2]
      exact map_eq_error_iff.mpr
        (DiceTerm.read_eq_fault_iff.mpr (.inl ⟨hne, hno, rfl⟩))
  | @sides negative count sides c hcount hrange hd hno =>
      have hcore : IsCore negative (count ++ 'd' :: sides) :=
        isCore_dice hcount.isDigit
      rw [Term.read_of_one hcore (hcount.not_mem isDigit_d) hd]
      exact map_eq_error_iff.mpr (DiceTerm.read_eq_fault_iff.mpr
        (.inr ⟨c, ⟨hcount, hrange⟩, .inl ⟨hno, rfl⟩⟩))
  | @nonPositive negative count sides c s hcount hcr hsides hsr hzero =>
      have hcore : IsCore negative (count ++ 'd' :: sides) :=
        isCore_dice hcount.isDigit
      rw [Term.read_of_one hcore (hcount.not_mem isDigit_d)
        (hsides.not_mem isDigit_d)]
      exact map_eq_error_iff.mpr (DiceTerm.read_eq_fault_iff.mpr
        (.inr ⟨c, ⟨hcount, hcr⟩, .inr ⟨s, ⟨hsides, hsr⟩, hzero, rfl⟩⟩))

theorem Term.read_eq_error_iff {piece : List Char} {e : ReadError} :
    Term.read piece = .error e ↔ Term.Refused piece e :=
  ⟨Term.refused_of_read_eq, Term.read_eq_of_refused⟩

theorem Term.Refused.unique {piece : List Char} {e other : ReadError}
    (hpiece : Term.Refused piece e) (hother : Term.Refused piece other) :
    e = other := by
  have hread := Term.read_eq_of_refused hpiece
  rw [Term.read_eq_of_refused hother] at hread
  exact (Except.error.inj hread).symm

theorem Term.exists_refused_iff {piece : List Char} :
    (∃ e, Term.Refused piece e) ↔ ¬ ∃ term, Term.Spells piece term := by
  simp only [← Term.read_eq_error_iff, ← Term.read_eq_ok_iff]
  cases Term.read piece <;> simp

/-- A fault quotes a piece if its message has the piece, as it is written,
between two apostrophes. -/
def Fault.Quotes (fault : Fault) (piece : List Char) : Prop :=
  ∃ opening closing : List Char,
    fault.message.toList = opening ++ '\'' :: piece ++ '\'' :: closing

theorem Fault.quotes_of_explanation {fault : Fault} {opening : String}
    {piece : List Char}
    (hopening : opening.toList.getLast? = some '\'')
    (hfault : fault.explanation = opening ++ String.ofList piece ++ "'.") :
    fault.Quotes piece := by
  obtain ⟨before, hbefore⟩ := List.getLast?_eq_some_iff.mp hopening
  refine ⟨("[" ++ fault.code ++ "] ").toList ++ before,
    (". Example: '2d6 + 3' or 'd20 + 5'.").toList, ?_⟩
  unfold Fault.message
  rw [hfault]
  simp [hbefore]

theorem Term.Refused.quotes {piece : List Char} {fault : Fault}
    (hpiece : Term.Refused piece (.fault fault)) : fault.Quotes piece := by
  cases hpiece with
  | outOfRange => exact Fault.quotes_of_explanation (by decide) rfl
  | noModifier => exact Fault.quotes_of_explanation (by decide) rfl
  | noTerm => exact Fault.quotes_of_explanation (by decide) rfl
  | severalDice => exact Fault.quotes_of_explanation (by decide) rfl
  | count => exact Fault.quotes_of_explanation (by decide) rfl
  | sides => exact Fault.quotes_of_explanation (by decide) rfl
  | nonPositive => exact Fault.quotes_of_explanation (by decide) rfl

namespace Expression

/-! ## Texts -/

theorem pieces_ofChars_eq_nil_iff {cs : List Char} :
    (Layout.ofChars cs).pieces = [] ↔ ∀ c ∈ cs, c = '+' := by
  constructor
  · intro hnone
    have hparts : (Layout.ofChars cs).parts = [] := by
      simpa [Layout.pieces] using hnone
    have htext := Layout.text_ofChars cs
    unfold Layout.text at htext
    rw [hparts, List.flatMap_nil, List.append_nil] at htext
    intro c hc
    rw [← htext] at hc
    exact List.eq_of_mem_replicate hc
  · intro hpluses
    have hcs : cs = List.replicate cs.length '+' ++ [] := by
      rw [List.append_nil]
      exact List.eq_replicate_of_mem hpluses
    rw [← cut_eq_pieces_ofChars, hcs, cut_replicate_plus_append, cut_nil]

/-- A text is refused if nothing but blanks is written in it, if nothing but
pluses is, or for the leftmost of its pieces that spells no term.  Every piece
that spells no term is refused in just one way, whatever is written before it
and behind it, and a fault quotes the piece. -/
theorem read_error_iff_leftmost_refused :
    (∀ (text : Option String) (e : ReadError),
      readOptional text = .error e ↔
        (squeeze (text.getD "").toList = [] ∧ e = .fault .empty) ∨
        (squeeze (text.getD "").toList ≠ [] ∧
          (∀ c ∈ squeeze (text.getD "").toList, c = '+') ∧
          e = .fault .nothingToRoll) ∨
        ∃ before piece after,
          (Layout.ofChars (squeeze (text.getD "").toList)).pieces =
            before ++ piece :: after ∧
          (∀ earlier ∈ before, ∃ term, Term.Spells earlier term) ∧
          Term.Refused piece e) ∧
    (∀ piece, (¬ ∃ term, Term.Spells piece term) ↔
      ∃! e, Term.Refused piece e) ∧
    ∀ piece fault, Term.Refused piece (.fault fault) → fault.Quotes piece := by
  refine ⟨?_, ?_, fun piece fault hpiece => hpiece.quotes⟩
  · intro text e
    unfold readOptional read
    rw [readChars_eq_error_iff]
    simp only [pieces_eq_cut, cut_eq_pieces_ofChars, pieces_ofChars_eq_nil_iff,
      Term.read_eq_error_iff]
  · intro piece
    rw [← Term.exists_refused_iff]
    constructor
    · intro hrefused
      obtain ⟨e, he⟩ := hrefused
      exact ⟨e, he, fun other hother => hother.unique he⟩
    · exact ExistsUnique.exists

theorem read_error_count_after_terms :
    readOptional (some "2d6 + 3 - 1_0d6 + xd6 - -") =
      .error (.fault (.count "-1_0d6")) := by
  apply (read_error_iff_leftmost_refused.1 _ _).mpr
  refine .inr (.inr ⟨["2d6".toList, ['3']], "-1_0d6".toList,
    ["xd6".toList, ['-'], ['-']], by decide, ?_, ?_⟩)
  · intro earlier hearlier
    rcases List.mem_pair.mp hearlier with rfl | rfl
    · exact ⟨_, Term.read_eq_ok_iff.mp rfl⟩
    · exact ⟨_, Term.read_eq_ok_iff.mp rfl⟩
  · exact @Term.Refused.count true "1_0".toList ['6']
      (fun hfalse => nomatch hfalse) (by decide) (by decide)
      (.inl (by decide))

end Expression

end TabletopDice
