import TabletopDice.Proofs.Account
import TabletopDice.Proofs.Decimal

/-!
# Legible texts

A way of writing is legible if what is written tells the value and where it
ends, as far as it is followed by something fit to end it.  Numbers are legible
unless a digit follows, and a list of legible items with separators is legible
unless what closes it reads like one more item.  So the text of a detail tells
its term, its rolls and its subtotal, if the sign of the term is one.
-/

namespace TabletopDice

open Text

namespace Text

/-! ## Legible writing -/

section Legible

variable {α β : Type}

/-- What is written of a value tells the value and where it ends, if what
follows is fit to end it. -/
def Legible (write : α → List β) (Valid : α → Prop)
    (Ends : List β → Prop) : Prop :=
  ∀ x y s t, Valid x → Valid y → Ends s → Ends t →
    write x ++ s = write y ++ t → x = y ∧ s = t

/-- What closes a list of items: it ends the last of them, and neither starts
an item nor reads like a separator and another item. -/
structure Closes (separator : List β) (Starts Ends : List β → Prop)
    (s : List β) : Prop where
  ends : Ends s
  not_starts : ¬ Starts s
  not_separator : ∀ rest, s = separator ++ rest → ¬ Starts rest

/-- What stands behind the first of some items. -/
def afterFirst (separator : List β) (rest : List (List β)) (s : List β) :
    List β :=
  if rest = [] then s else separator ++ (separator.intercalate rest ++ s)

theorem intercalate_cons_append (separator first : List β)
    (rest : List (List β)) (s : List β) :
    separator.intercalate (first :: rest) ++ s =
      first ++ afterFirst separator rest s := by
  unfold afterFirst
  cases rest with
  | nil => simp
  | cons second rest =>
      rw [List.intercalate_cons_cons, if_neg (List.cons_ne_nil second rest),
        List.append_assoc, List.append_assoc]

variable {write : α → List β} {Valid : α → Prop}
  {Starts Ends : List β → Prop} {separator : List β}

theorem ends_afterFirst (hseparator : ∀ s, Ends (separator ++ s))
    (rest : List (List β)) {s : List β} (hs : Ends s) :
    Ends (afterFirst separator rest s) := by
  unfold afterFirst
  split
  next => exact hs
  next => exact hseparator _

theorem starts_intercalate_append (separator : List β)
    (hstarts : ∀ x s, Valid x → Starts (write x ++ s)) {xs : List α}
    (hne : xs ≠ []) (hxs : ∀ x ∈ xs, Valid x) (s : List β) :
    Starts (separator.intercalate (xs.map write) ++ s) := by
  obtain ⟨x, rest, rfl⟩ := List.exists_cons_of_ne_nil hne
  rw [List.map_cons, intercalate_cons_append]
  exact hstarts x _ (hxs x List.mem_cons_self)

/-- A separator is never mistaken for what closes a list. -/
theorem Closes.intercalate_append_eq {xs ys : List α} {s t : List β}
    (hs : Closes separator Starts Ends s) (ht : Closes separator Starts Ends t)
    (hstarts : ∀ x s, Valid x → Starts (write x ++ s))
    (hxs : ∀ x ∈ xs, Valid x) (hys : ∀ y ∈ ys, Valid y)
    (heq : afterFirst separator (xs.map write) s =
      afterFirst separator (ys.map write) t) :
    separator.intercalate (xs.map write) ++ s =
      separator.intercalate (ys.map write) ++ t := by
  unfold afterFirst at heq
  simp only [List.map_eq_nil_iff] at heq
  split at heq
  next hxnil =>
      split at heq
      next hynil =>
          rw [hxnil, hynil]
          exact heq
      next hynil =>
          have hstart := starts_intercalate_append separator hstarts hynil hys t
          exact absurd hstart (hs.not_separator _ heq)
  next hxnil =>
      split at heq
      next hynil =>
          have hstart := starts_intercalate_append separator hstarts hxnil hxs s
          exact absurd hstart (ht.not_separator _ heq.symm)
      next => exact List.append_cancel_left heq

theorem Legible.intercalate (separator : List β) (Starts : List β → Prop)
    (hwrite : Legible write Valid Ends)
    (hstarts : ∀ x s, Valid x → Starts (write x ++ s))
    (hseparator : ∀ s, Ends (separator ++ s)) :
    Legible (fun xs : List α => separator.intercalate (xs.map write))
      (fun xs : List α => ∀ x ∈ xs, Valid x)
      (Closes separator Starts Ends) := by
  intro xs ys s t hxs hys hs ht heq
  dsimp only at heq
  induction xs generalizing ys with
  | nil =>
      cases ys with
      | nil => exact ⟨rfl, heq⟩
      | cons y ys =>
          have hstart := starts_intercalate_append separator
            hstarts (List.cons_ne_nil y ys) hys t
          rw [← heq] at hstart
          exact absurd hstart hs.not_starts
  | cons x xs ih =>
      cases ys with
      | nil =>
          have hstart := starts_intercalate_append separator
            hstarts (List.cons_ne_nil x xs) hxs s
          rw [heq] at hstart
          exact absurd hstart ht.not_starts
      | cons y ys =>
          obtain ⟨hx, hxrest⟩ := List.forall_mem_cons.mp hxs
          obtain ⟨hy, hyrest⟩ := List.forall_mem_cons.mp hys
          rw [List.map_cons, List.map_cons, intercalate_cons_append,
            intercalate_cons_append] at heq
          obtain ⟨rfl, hrest⟩ := hwrite x y _ _ hx hy
            (ends_afterFirst hseparator _ hs.ends)
            (ends_afterFirst hseparator _ ht.ends) heq
          obtain ⟨rfl, hclose⟩ := ih ys hxrest hyrest
            (hs.intercalate_append_eq ht hstarts hxrest hyrest hrest)
          exact ⟨rfl, hclose⟩

theorem nil_intercalate (groups : List (List β)) :
    [].intercalate groups = groups.flatten := by
  induction groups with
  | nil => rfl
  | cons first rest ih =>
      cases rest with
      | nil => simp
      | cons second rest =>
          rw [List.intercalate_cons_cons, ih, List.append_nil]
          rfl

/-- Items that tell where they end need no separator. -/
theorem Legible.flatMap (Starts : List β → Prop)
    (hwrite : Legible write Valid fun _ => True)
    (hstarts : ∀ x s, Valid x → Starts (write x ++ s)) :
    Legible (fun xs : List α => xs.flatMap write)
      (fun xs : List α => ∀ x ∈ xs, Valid x) (fun s => ¬ Starts s) := by
  intro xs ys s t hxs hys hs ht heq
  have hcloses : ∀ {u : List β}, ¬ Starts u →
      Closes [] Starts (fun _ => True) u := by
    intro u hu
    refine ⟨trivial, hu, ?_⟩
    rintro rest rfl
    exact hu
  have hlist := hwrite.intercalate [] Starts hstarts fun _ => trivial
  dsimp only at heq
  rw [List.flatMap_def, List.flatMap_def, ← nil_intercalate,
    ← nil_intercalate] at heq
  exact hlist xs ys s t hxs hys (hcloses hs) (hcloses ht) heq

end Legible

/-! ## Numbers -/

/-- What follows a number without adding a digit to it. -/
def EndsNumber (cs : List Char) : Prop :=
  ∀ c ∈ cs.head?, c.isDigit = false

def StartsNumber (cs : List Char) : Prop :=
  ∃ c ∈ cs.head?, c.isDigit = true ∨ c = '-'

theorem takeWhile_digits_append {digits s : List Char}
    (hdigits : ∀ c ∈ digits, c.isDigit = true) (hs : EndsNumber s) :
    (digits ++ s).takeWhile Char.isDigit = digits := by
  rw [List.takeWhile_append_of_pos hdigits]
  cases s with
  | nil => simp
  | cons c rest =>
      have hc : c.isDigit = false := hs c rfl
      simp [hc]

theorem head?_toDigits_append (n : ℕ) (s : List Char) :
    ∃ c ∈ (Nat.toDigits 10 n ++ s).head?, c.isDigit = true := by
  obtain ⟨c, rest, hcons⟩ :=
    List.exists_cons_of_ne_nil (isDigits_iff.mp (isDigits_toDigits n)).1
  refine ⟨c, ?_, isDigit_of_mem_toDigits (n := n) ?_⟩
  · rw [hcons]
    rfl
  · rw [hcons]
    exact List.mem_cons_self

theorem startsNumber_decimal_append (n : ℤ) (s : List Char) :
    StartsNumber ((decimal n).toList ++ s) := by
  rw [toList_decimal, List.append_assoc]
  by_cases hn : n < 0
  · rw [decide_eq_true hn]
    exact ⟨'-', rfl, .inr rfl⟩
  · rw [decide_eq_false hn]
    obtain ⟨c, hc, hdigit⟩ := head?_toDigits_append n.natAbs s
    exact ⟨c, hc, .inl hdigit⟩

theorem splitMinus_decimal_append (n : ℤ) (s : List Char) :
    splitMinus ((decimal n).toList ++ s) =
      (decide (n < 0), Nat.toDigits 10 n.natAbs ++ s) := by
  rw [toList_decimal, List.append_assoc]
  apply splitMinus_minus_append
  intro _ hhead
  obtain ⟨c, hc, hdigit⟩ := head?_toDigits_append n.natAbs s
  rw [hhead] at hc
  cases hc
  cases hdigit

/-- The digits of a number end where no digit follows. -/
theorem legible_toDigits :
    Legible (fun n : ℕ => Nat.toDigits 10 n) (fun _ => True) EndsNumber := by
  intro m n s t _ _ hs ht heq
  dsimp only at heq
  have hdigits : Nat.toDigits 10 m = Nat.toDigits 10 n := by
    have htake := congrArg (List.takeWhile Char.isDigit) heq
    rwa [takeWhile_digits_append (fun c hc => isDigit_of_mem_toDigits hc) hs,
      takeWhile_digits_append (fun c hc => isDigit_of_mem_toDigits hc) ht]
      at htake
  have hvalue : m = n := by
    rw [← digitsValue_toDigits m, hdigits, digitsValue_toDigits]
  rw [hdigits] at heq
  exact ⟨hvalue, List.append_cancel_left heq⟩

theorem legible_decimal :
    Legible (fun n => (decimal n).toList) (fun _ => True) EndsNumber := by
  intro m n s t _ _ hs ht heq
  have hsplit := congrArg splitMinus heq
  rw [splitMinus_decimal_append, splitMinus_decimal_append,
    Prod.mk.injEq] at hsplit
  have hneg : m < 0 ↔ n < 0 := decide_eq_decide.mp hsplit.1
  obtain ⟨hnatAbs, hrest⟩ := legible_toDigits m.natAbs n.natAbs s t trivial
    trivial hs ht hsplit.2
  exact ⟨by omega, hrest⟩

theorem endsNumber_nil : EndsNumber [] := by
  intro c hc
  cases hc

theorem endsNumber_cons {c : Char} (hc : c.isDigit = false) (s : List Char) :
    EndsNumber (c :: s) := by
  intro d hd
  cases hd
  exact hc

theorem decimal_inj {m n : ℤ}
    (heq : (decimal m).toList = (decimal n).toList) : m = n := by
  have happend : (decimal m).toList ++ [] = (decimal n).toList ++ [] := by
    rw [heq]
  exact (legible_decimal m n [] [] trivial trivial endsNumber_nil
    endsNumber_nil happend).1

theorem decimal_append_cons_inj {m n : ℤ} {c : Char} {s t : List Char}
    (hc : c.isDigit = false)
    (heq : (decimal m).toList ++ c :: s = (decimal n).toList ++ c :: t) :
    m = n ∧ s = t := by
  have hread := legible_decimal m n (c :: s) (c :: t) trivial trivial
    (endsNumber_cons hc s) (endsNumber_cons hc t) heq
  exact ⟨hread.1, (List.cons.inj hread.2).2⟩

theorem toList_bracketed_append (values : List ℤ) (s : List Char) :
    (bracketed values).toList ++ s =
      '[' :: ([',', ' '].intercalate
        (values.map fun n => (decimal n).toList) ++ ']' :: s) := by
  unfold bracketed
  simp [String.toList_append, String.toList_intercalate, Function.comp_def]

/-- A closed bracket ends a list of numbers, whatever follows it. -/
theorem legible_bracketed :
    Legible (fun values => (bracketed values).toList) (fun _ => True)
      (fun _ => True) := by
  intro values others s t _ _ _ _ heq
  rw [toList_bracketed_append, toList_bracketed_append, List.cons.injEq] at heq
  have hcloses : ∀ rest, Closes [',', ' '] StartsNumber EndsNumber
      (']' :: rest) := by
    intro rest
    refine ⟨endsNumber_cons rfl rest, ?_, ?_⟩
    · rintro ⟨c, hc, hdigit | hminus⟩
      · cases hc
        cases hdigit
      · cases hc
        cases hminus
    · intro more hmore
      cases hmore
  have hlist := legible_decimal.intercalate [',', ' '] StartsNumber
    (fun n s _ => startsNumber_decimal_append n s)
    (fun s => endsNumber_cons rfl (' ' :: s))
  obtain ⟨rfl, hrest⟩ := hlist values others _ _ (fun _ _ => trivial)
    (fun _ _ => trivial) (hcloses s) (hcloses t) heq.2
  exact ⟨rfl, (List.cons.inj hrest).2⟩

end Text

/-! ## Details -/

namespace Detail

theorem toList_line_append (detail : Detail) (s : List Char) :
    detail.line.toList ++ s =
      (if 0 ≤ detail.term.sign then '+' else '-') ::
        ((decimal detail.term.count).toList ++
          'd' :: ((decimal detail.term.sides).toList ++
            ':' :: ' ' :: ((bracketed detail.rolls).toList ++
              ' ' :: '=' :: ' ' :: ((decimal detail.subtotal).toList ++ s)))) := by
  unfold line DiceTerm.label
  split <;> simp [String.toList_append]

theorem head?_line_append (detail : Detail) (s : List Char) :
    (detail.line.toList ++ s).head? = some '+' ∨
      (detail.line.toList ++ s).head? = some '-' := by
  rw [toList_line_append]
  split
  next => exact .inl rfl
  next => exact .inr rfl

theorem head?_line_append_ne (detail : Detail) (s : List Char) {c : Char}
    (hc : c ≠ '+' ∧ c ≠ '-') :
    (detail.line.toList ++ s).head? ≠ some c := by
  intro hhead
  rcases detail.head?_line_append s with hplus | hminus
  · exact hc.1 (Option.some.inj (hhead.symm.trans hplus))
  · exact hc.2 (Option.some.inj (hhead.symm.trans hminus))

def IsSigned (detail : Detail) : Prop :=
  IsSign detail.term.sign

theorem sign_eq_of_mark_eq {detail other : Detail} (hdetail : detail.IsSigned)
    (hother : other.IsSigned)
    (hmark : (if 0 ≤ detail.term.sign then '+' else '-') =
      if 0 ≤ other.term.sign then '+' else '-') :
    detail.term.sign = other.term.sign := by
  rcases hdetail with hdetail | hdetail <;> rcases hother with hother | hother <;>
    simp [hdetail, hother] at hmark ⊢

/-- The parts of a line stand behind one another, and each tells where it
ends. -/
theorem legible_line :
    Legible (fun detail : Detail => detail.line.toList) IsSigned
      EndsNumber := by
  intro detail other s t hdetail hother hs ht heq
  dsimp only at heq
  rw [toList_line_append, toList_line_append, List.cons.injEq] at heq
  obtain ⟨hmark, hrest⟩ := heq
  have hsign := sign_eq_of_mark_eq hdetail hother hmark
  obtain ⟨hcount, hrest⟩ := decimal_append_cons_inj rfl hrest
  obtain ⟨hsides, hrest⟩ := decimal_append_cons_inj rfl hrest
  obtain ⟨hrolls, hrest⟩ := legible_bracketed _ _ _ _ trivial trivial trivial
    trivial (List.cons.inj hrest).2
  simp only [List.cons.injEq, true_and] at hrest
  obtain ⟨hsubtotal, hafter⟩ :=
    legible_decimal _ _ s t trivial trivial hs ht hrest
  obtain ⟨⟨count, sides, sign⟩, rolls, subtotal⟩ := detail
  obtain ⟨⟨count', sides', sign'⟩, rolls', subtotal'⟩ := other
  dsimp only at hsign hcount hsides hrolls hsubtotal
  subst hsign hcount hsides hrolls hsubtotal
  exact ⟨rfl, hafter⟩

end Detail

/-! ## Parts of a roll -/

/-- What a roll shows besides its total. -/
inductive Part where
  | dice (detail : Detail)
  | mods (value : ℤ)

namespace Part

def dice? : Part → Option Detail
  | .dice detail => some detail
  | .mods _ => none

def mods? : Part → Option ℤ
  | .dice _ => none
  | .mods value => some value

def IsSigned : Part → Prop
  | .dice detail => detail.IsSigned
  | .mods _ => True

end Part

namespace Roll

def parts (roll : Roll) : List Part :=
  roll.details.map Part.dice ++
    if roll.flatTotal = 0 then [] else [Part.mods roll.flatTotal]

theorem filterMap_dice?_parts (roll : Roll) :
    roll.parts.filterMap Part.dice? = roll.details := by
  have hdetails : Part.dice? ∘ Part.dice = some := rfl
  unfold parts
  rw [List.filterMap_append, List.filterMap_map, hdetails,
    List.filterMap_some]
  split <;> simp [Part.dice?]

/-- Modifiers without a part come to zero. -/
theorem sum_filterMap_mods?_parts (roll : Roll) :
    (roll.parts.filterMap Part.mods?).sum = roll.flatTotal := by
  have hdetails : (roll.details.map Part.dice).filterMap Part.mods? = [] := by
    rw [List.filterMap_map]
    exact List.filterMap_eq_nil_iff.mpr fun _ _ => rfl
  unfold parts
  rw [List.filterMap_append, hdetails, List.nil_append]
  split
  next hzero => exact hzero.symm
  next => simp [Part.mods?]

theorem isSigned_of_mem_parts {roll : Roll}
    (hroll : ∀ detail ∈ roll.details, detail.IsSigned) :
    ∀ part ∈ roll.parts, part.IsSigned := by
  intro part hpart
  rcases List.mem_append.mp hpart with hdice | hmods
  · obtain ⟨detail, hdetail, rfl⟩ := List.mem_map.mp hdice
    exact hroll detail hdetail
  · split at hmods
    next => cases hmods
    next =>
      obtain rfl := List.mem_singleton.mp hmods
      trivial

theorem eq_of_parts_eq {roll other : Roll} (hparts : roll.parts = other.parts)
    (htotal : roll.total = other.total) : roll = other := by
  have hdetails : roll.details = other.details := by
    rw [← roll.filterMap_dice?_parts, hparts, other.filterMap_dice?_parts]
  have hflat : roll.flatTotal = other.flatTotal := by
    rw [← roll.sum_filterMap_mods?_parts, hparts,
      other.sum_filterMap_mods?_parts]
  cases roll
  cases other
  dsimp only at hdetails hflat htotal
  subst hdetails hflat htotal
  rfl

end Roll

/-- The details of a roll of a well-formed expression have the signs of its
terms. -/
theorem Roll.Accounts.isSigned {roll : Roll} {expr : Expression}
    (hroll : roll.Accounts expr) (hexpr : expr.WellFormed) :
    ∀ detail ∈ roll.details, detail.IsSigned := by
  intro detail hdetail
  have hterm : detail.term ∈ expr.dice := by
    rw [← hroll.terms]
    exact List.mem_map_of_mem hdetail
  exact (hexpr.dice detail.term hterm).sign

end TabletopDice
