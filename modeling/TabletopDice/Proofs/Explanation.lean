import TabletopDice.Proofs.Fulfilment
import TabletopDice.Proofs.Legible

/-!
# What an explanation tells

The phrase of a roll is its details and its modifiers, if they come to
anything, one after another, and the total behind an arrow.  A semicolon stands
between two of these parts and nowhere else, a part shows by its first
character what it is, and without a part of their own the modifiers come to
zero.  So two records with the same explanation end with the same roll.
-/

namespace TabletopDice

open Text

/-! ## Parts of a phrase -/

namespace Text

theorem toList_signedDecimal (n : ℤ) :
    (signedDecimal n).toList =
      (if n < 0 then '-' else '+') :: Nat.toDigits 10 n.natAbs := by
  unfold signedDecimal
  by_cases hn : n < 0
  · rw [if_pos hn, if_pos hn, toList_decimal, decide_eq_true hn]
    rfl
  · rw [if_neg hn, if_neg hn, String.toList_append, toList_decimal,
      decide_eq_false hn]
    rfl

theorem legible_signedDecimal :
    Legible (fun n => (signedDecimal n).toList) (fun _ => True)
      EndsNumber := by
  intro m n s t _ _ hs ht heq
  dsimp only at heq
  rw [toList_signedDecimal, toList_signedDecimal, List.cons_append,
    List.cons_append, List.cons.injEq] at heq
  have hneg : m < 0 ↔ n < 0 := by
    have hmark := heq.1
    split at hmark <;> split at hmark
    next hm hn => exact iff_of_true hm hn
    next => cases hmark
    next => cases hmark
    next hm hn => exact iff_of_false hm hn
  obtain ⟨hnatAbs, hrest⟩ := legible_toDigits m.natAbs n.natAbs s t trivial
    trivial hs ht heq.2
  exact ⟨by omega, hrest⟩

end Text

namespace Part

def text : Part → String
  | .dice detail => detail.line
  | .mods value => "mods " ++ signedDecimal value

/-- A part begins with a sign, or with the first letter of the modifiers. -/
def Starts (cs : List Char) : Prop :=
  ∃ c ∈ cs.head?, c = '+' ∨ c = '-' ∨ c = 'm'

theorem toList_text_mods_append (value : ℤ) (s : List Char) :
    (Part.mods value).text.toList ++ s =
      'm' :: 'o' :: 'd' :: 's' :: ' ' ::
        ((signedDecimal value).toList ++ s) := by
  simp [text, String.toList_append]

theorem starts_text_append (part : Part) (s : List Char) :
    Starts (part.text.toList ++ s) := by
  cases part with
  | dice detail =>
      rcases detail.head?_line_append s with hplus | hminus
      · exact ⟨'+', hplus, .inl rfl⟩
      · exact ⟨'-', hminus, .inr (.inl rfl)⟩
  | mods value =>
      rw [toList_text_mods_append]
      exact ⟨'m', rfl, .inr (.inr rfl)⟩

theorem text_detail_append_ne (detail : Detail) (value : ℤ)
    (s t : List Char) :
    (Part.dice detail).text.toList ++ s ≠
      (Part.mods value).text.toList ++ t := by
  intro heq
  have hhead := congrArg List.head? heq
  rw [toList_text_mods_append] at hhead
  exact detail.head?_line_append_ne s (by decide) hhead

/-- The first character tells which kind of part it is. -/
theorem legible_text :
    Legible (fun part : Part => part.text.toList) IsSigned EndsNumber := by
  intro part other s t hpart hother hs ht heq
  cases part with
  | dice detail =>
      cases other with
      | dice detail' =>
          obtain ⟨rfl, hrest⟩ := Detail.legible_line detail detail' s t hpart
            hother hs ht heq
          exact ⟨rfl, hrest⟩
      | mods value' =>
          exact absurd heq (text_detail_append_ne detail value' s t)
  | mods value =>
      cases other with
      | dice detail' =>
          exact absurd heq.symm (text_detail_append_ne detail' value t s)
      | mods value' =>
          dsimp only at heq
          rw [toList_text_mods_append, toList_text_mods_append] at heq
          simp only [List.cons.injEq, true_and] at heq
          obtain ⟨rfl, hrest⟩ := legible_signedDecimal value value' s t trivial
            trivial hs ht heq
          exact ⟨rfl, hrest⟩

end Part

/-! ## Phrases -/

namespace Roll

theorem toList_phrase (roll : Roll) :
    roll.phrase.toList =
      [';', ' '].intercalate (roll.parts.map fun part => part.text.toList) ++
        ' ' :: '=' :: '>' :: ' ' :: (decimal roll.total).toList := by
  have hparts : roll.parts.map Part.text = roll.details.map Detail.line ++
      if roll.flatTotal = 0 then []
        else ["mods " ++ signedDecimal roll.flatTotal] := by
    unfold parts
    rw [List.map_append, List.map_map]
    split <;> rfl
  unfold phrase
  dsimp only
  rw [← hparts]
  simp [String.toList_append, String.toList_intercalate, Function.comp_def]

/-- An arrow closes the parts of a phrase. -/
theorem closes_arrow (rest : List Char) :
    Closes [';', ' '] Part.Starts EndsNumber (' ' :: rest) := by
  refine ⟨endsNumber_cons rfl rest, ?_, ?_⟩
  · rintro ⟨c, hc, hstart⟩
    cases hc
    rcases hstart with h | h | h <;> cases h
  · intro more hmore
    cases hmore

theorem phrase_inj {roll other : Roll}
    (hroll : ∀ detail ∈ roll.details, detail.IsSigned)
    (hother : ∀ detail ∈ other.details, detail.IsSigned)
    (hphrase : roll.phrase = other.phrase) : roll = other := by
  have hchars := congrArg String.toList hphrase
  rw [toList_phrase, toList_phrase] at hchars
  have hlist := Part.legible_text.intercalate [';', ' '] Part.Starts
    (fun part s _ => part.starts_text_append s)
    (fun s => endsNumber_cons rfl (' ' :: s))
  obtain ⟨hparts, htail⟩ := hlist roll.parts other.parts _ _
    (isSigned_of_mem_parts hroll) (isSigned_of_mem_parts hother)
    (closes_arrow _) (closes_arrow _) hchars
  simp only [List.cons.injEq, true_and] at htail
  exact eq_of_parts_eq hparts (decimal_inj htail)

end Roll

/-! ## Explanations -/

section Records

open Rolling

variable {σ τ : Type}

/-- A record ends with a roll of a well-formed expression, and the phrase of
that roll is its explanation. -/
theorem Order.exists_last_of_fulfil_eq_ok {source : Source σ} {stamp : Stamp}
    {order : Order} {feed after : Feed σ} {record : Record}
    (hrecord : order.fulfil source stamp feed = .ok record after) :
    ∃ last, record.rolls.getLast? = some last ∧
      (∀ detail ∈ last.details, detail.IsSigned) ∧
      record.explanation = last.phrase := by
  obtain ⟨expr, rolls, summary, explanation, hread, hrolls, -, hexplain,
    rfl⟩ := fulfil_eq_ok_iff.mp hrecord
  have hexpr : expr.WellFormed :=
    Expression.wellFormed_of_readChars_eq_ok hread
  have hlength := Expression.length_of_rollMany_eq_ok hrolls
  cases hlast : rolls.getLast? with
  | none =>
      rw [List.getLast?_eq_none_iff] at hlast
      rw [hlast, List.length_nil] at hlength
      omega
  | some last =>
      have hmem : last ∈ rolls := List.mem_of_getLast? hlast
      refine ⟨last, rfl,
        (hexpr.accounts_of_mem_rolls hrolls hmem).isSigned hexpr, ?_⟩
      rw [hlast] at hexplain
      change written (last.isWritable false) last.phrase = .ok explanation
        at hexplain
      unfold written at hexplain
      split at hexplain
      next => exact (Except.ok.inj hexplain).symm
      next => cases hexplain

/-- Two records with the same explanation end with the same roll, whatever was
ordered and whatever answered. -/
theorem explanation_determines_last_roll (source : Source σ)
    (source' : Source τ) (stamp stamp' : Stamp) (order order' : Order)
    {feed after : Feed σ} {feed' after' : Feed τ} {record record' : Record}
    (hrecord : order.fulfil source stamp feed = .ok record after)
    (hrecord' : order'.fulfil source' stamp' feed' = .ok record' after')
    (hexplanation : record.explanation = record'.explanation) :
    ∃ last, record.rolls.getLast? = some last ∧
      record'.rolls.getLast? = some last := by
  obtain ⟨last, hlast, hsigned, hphrase⟩ :=
    Order.exists_last_of_fulfil_eq_ok hrecord
  obtain ⟨last', hlast', hsigned', hphrase'⟩ :=
    Order.exists_last_of_fulfil_eq_ok hrecord'
  rw [hphrase, hphrase'] at hexplanation
  obtain rfl := Roll.phrase_inj hsigned hsigned' hexplanation
  exact ⟨last, hlast, hlast'⟩

theorem explanation_determines_last_roll_cancelled_modifiers :
    let stamp : Stamp := ⟨0, ⟨2024, 2, 29, 12, 0, 0⟩, 1⟩
    let order : Order := ⟨"d6 + 1 - 1", "none", 1⟩
    let order' : Order := ⟨"1d6", "advantage", 2⟩
    ∃ record record' after after',
      order.fulfil Source.script stamp (.initial [4]) = .ok record after ∧
        order'.fulfil (Source.linear 0 3) stamp (.initial 0) =
          .ok record' after' ∧
        record.explanation = record'.explanation ∧
        ∃ last, record.rolls.getLast? = some last ∧
          record'.rolls.getLast? = some last := by
  intro stamp order order'
  let one : Roll := ⟨[⟨⟨1, 6, 1⟩, [1], 1⟩], 0, 1⟩
  let four : Roll := ⟨[⟨⟨1, 6, 1⟩, [4], 4⟩], 0, 4⟩
  have hsummary : Summary.ofTotals [4] =
      .ok (some ⟨1, 4, 4, ⟨false, 0x4010000000000000, by decide⟩⟩) := by
    decide +kernel
  have hsummary' : Summary.ofTotals [1, 4] =
      .ok (some ⟨2, 1, 4, ⟨false, 0x4004000000000000, by decide⟩⟩) := by
    decide +kernel
  have hread : Expression.read "d6 + 1 - 1" =
      .ok ⟨[⟨1, 6, 1⟩], [⟨1, 1⟩, ⟨1, -1⟩]⟩ := by rfl
  have hread' : Expression.read "1d6" = .ok ⟨[⟨1, 6, 1⟩], []⟩ := by rfl
  have hexplain : four.explain = .ok four.phrase := by decide +kernel
  obtain ⟨record, after, hrecord, hexplanation⟩ : ∃ record after,
      order.fulfil Source.script stamp (.initial [4]) = .ok record after ∧
        record.explanation = four.phrase :=
    ⟨_, _, Order.fulfil_eq_ok_iff.mpr
      ⟨_, [four], _, _, hread, rfl, hsummary, hexplain, rfl⟩, rfl⟩
  obtain ⟨record', after', hrecord', hexplanation'⟩ : ∃ record' after',
      order'.fulfil (Source.linear 0 3) stamp (.initial 0) =
          .ok record' after' ∧
        record'.explanation = four.phrase :=
    ⟨_, _, Order.fulfil_eq_ok_iff.mpr
      ⟨_, [one, four], _, _, hread', rfl, hsummary', hexplain, rfl⟩, rfl⟩
  have hequal : record.explanation = record'.explanation :=
    hexplanation.trans hexplanation'.symm
  exact ⟨record, record', after, after', hrecord, hrecord', hequal,
    explanation_determines_last_roll _ _ _ _ _ _ hrecord hrecord' hequal⟩

end Records

end TabletopDice
