import TabletopDice.Proofs.Arguments

/-!
# How switches are spelled

A switch is named by its letter, or by a start of its long name that no other
switch shares.  A value may be attached to it, behind an equals sign or, if it
is named by its letter, just so.  An argument of such a form is understood as
the switch with the value, and one that is understood as a switch has such a
form.
-/

namespace TabletopDice.CommandLine

open Text

/-! ## Names -/

namespace Switch

theorem mem_all (switch : Switch) : switch ∈ all := by
  rcases switch with flag | setting
  · cases flag <;> decide
  · cases setting <;> decide

theorem mem_matching_iff {stem : List Char} {switch : Switch} :
    switch ∈ matching stem ↔ stem <+: switch.longName.toList := by
  unfold matching
  rw [List.mem_filter, List.isPrefixOf_iff_prefix]
  exact and_iff_right switch.mem_all

/-- The characters are the start of the long name, and of no other. -/
structure Abbreviates (switch : Switch) (stem : List Char) : Prop where
  isPrefix : stem <+: switch.longName.toList
  unique : ∀ other : Switch, stem <+: other.longName.toList → other = switch

theorem abbreviates_iff {switch : Switch} {stem : List Char} :
    switch.Abbreviates stem ↔ matching stem = [switch] := by
  have hnodup : (matching stem).Nodup := by
    have hall : all.Nodup := by decide
    exact hall.filter _
  constructor
  · intro hstem
    rw [← List.perm_singleton,
      List.perm_ext_iff_of_nodup hnodup (List.nodup_singleton switch)]
    intro other
    rw [mem_matching_iff, List.mem_singleton]
    constructor
    · exact hstem.unique other
    · rintro rfl
      exact hstem.isPrefix
  · intro hmatching
    have hmem (other : Switch) :
        stem <+: other.longName.toList ↔ other = switch := by
      rw [← mem_matching_iff, hmatching, List.mem_singleton]
    exact ⟨(hmem switch).mpr rfl, fun other => (hmem other).mp⟩

instance (switch : Switch) (stem : List Char) :
    Decidable (switch.Abbreviates stem) :=
  decidable_of_iff (matching stem = [switch]) abbreviates_iff.symm

theorem abbreviates_longName (switch : Switch) :
    switch.Abbreviates switch.longName.toList := by
  have hnames : ∀ named ∈ all, named.Abbreviates named.longName.toList := by
    decide
  exact hnames switch switch.mem_all

section Abbreviates

variable {switch : Switch} {stem : List Char}

/-- All long names start with no characters at all. -/
theorem Abbreviates.ne_nil (hstem : switch.Abbreviates stem) : stem ≠ [] := by
  rintro rfl
  have hhelp := hstem.unique (.flag .help) List.nil_prefix
  have hquiet := hstem.unique (.flag .quiet) List.nil_prefix
  rw [← hhelp] at hquiet
  cases hquiet

theorem Abbreviates.not_mem_equals (hstem : switch.Abbreviates stem) :
    '=' ∉ stem := by
  have hnames : ∀ named ∈ all, '=' ∉ named.longName.toList := by decide
  exact fun hmem =>
    hnames switch switch.mem_all (hstem.isPrefix.subset hmem)

end Abbreviates

theorem ofLetter?_eq_some_iff {letter : Char} {switch : Switch} :
    ofLetter? letter = some switch ↔ switch.letter? = some letter := by
  constructor
  · intro hfound
    unfold ofLetter? at hfound
    simpa using List.find?_some hfound
  · intro hletter
    unfold letter? at hletter
    split at hletter
    all_goals cases hletter
    all_goals rfl

theorem letter?_ne_minus (switch : Switch) : switch.letter? ≠ some '-' := by
  have hletters : ∀ named ∈ all, named.letter? ≠ some '-' := by decide
  exact hletters switch switch.mem_all

end Switch

namespace Argument

/-! ## Values behind an equals sign -/

section Equals

variable {stem value : List Char}

theorem splitEquals_of_not_mem (hstem : '=' ∉ stem) :
    splitEquals stem = (stem, none) := by
  have hkeep : ∀ c ∈ stem, (c != '=') = true := by
    intro c hc
    rw [bne_iff_ne]
    exact ne_of_mem_of_not_mem hc hstem
  unfold splitEquals
  rw [List.dropWhile_eq_nil_iff.mpr hkeep]

theorem splitEquals_append (hstem : '=' ∉ stem) :
    splitEquals (stem ++ '=' :: value) = (stem, some value) := by
  have hkeep : ∀ c ∈ stem, (c != '=') = true := by
    intro c hc
    rw [bne_iff_ne]
    exact ne_of_mem_of_not_mem hc hstem
  unfold splitEquals
  rw [List.dropWhile_append_of_pos hkeep, List.takeWhile_append_of_pos hkeep]
  simp

theorem eq_of_splitEquals_eq_none {cs : List Char}
    (hsplit : splitEquals cs = (stem, none)) : cs = stem := by
  unfold splitEquals at hsplit
  split at hsplit
  next => exact (Prod.mk.inj hsplit).1
  next => cases (Prod.mk.inj hsplit).2

end Equals

/-! ## Arguments that name a switch -/

variable {switch : Switch}

section Long

variable {stem : String} (hstem : switch.Abbreviates stem.toList)

include hstem

theorem read_long : read ("--" ++ stem) = .ok (.named switch true none) := by
  have htext : ("--" ++ stem).toList = '-' :: '-' :: stem.toList := by simp
  unfold read
  rw [htext]
  change readLong _ stem.toList = _
  unfold readLong
  rw [splitEquals_of_not_mem hstem.not_mem_equals]
  dsimp only
  rw [Switch.abbreviates_iff.mp hstem]

theorem read_long_equals (value : String) :
    read ("--" ++ stem ++ "=" ++ value) =
      .ok (.named switch true (some value.toList)) := by
  have htext : ("--" ++ stem ++ "=" ++ value).toList =
      '-' :: '-' :: (stem.toList ++ '=' :: value.toList) := by simp
  unfold read
  rw [htext]
  change readLong _ (stem.toList ++ '=' :: value.toList) = _
  unfold readLong
  rw [splitEquals_append hstem.not_mem_equals]
  dsimp only
  rw [Switch.abbreviates_iff.mp hstem]

end Long

section Letter

variable {letter : Char} (hletter : switch.letter? = some letter)

include hletter

/-- An argument that starts with a letter's dash and the letter names the switch
of that letter, with what is attached. -/
theorem read_letter_append {text : String} {rest : List Char}
    (htext : text.toList = '-' :: letter :: rest) :
    read text = .ok (.named switch false (attached? rest)) := by
  have hminus : letter ≠ '-' := by
    rintro rfl
    exact switch.letter?_ne_minus hletter
  unfold read
  rw [htext]
  split
  next heq => exact absurd (List.cons.inj (List.cons.inj heq).2).1 hminus
  next found tail _ heq =>
    cases heq
    unfold readShort
    rw [Switch.ofLetter?_eq_some_iff.mpr hletter]
  next hnone => exact absurd rfl (hnone letter rest)

theorem read_letter :
    read ("-" ++ letter.toString) = .ok (.named switch false none) := by
  have htext : ("-" ++ letter.toString).toList = ['-', letter] := by simp
  exact read_letter_append hletter htext

theorem read_letter_equals (value : String) :
    read ("-" ++ letter.toString ++ "=" ++ value) =
      .ok (.named switch false (some value.toList)) := by
  have htext : ("-" ++ letter.toString ++ "=" ++ value).toList =
      '-' :: letter :: '=' :: value.toList := by simp
  exact read_letter_append hletter htext

theorem read_letter_attached {value : String} (hne : value ≠ "")
    (hequals : value.toList.head? ≠ some '=') :
    read ("-" ++ letter.toString ++ value) =
      .ok (.named switch false (some value.toList)) := by
  have hattached : attached? value.toList = some value.toList := by
    unfold attached?
    split
    next hnil => exact absurd (String.toList_eq_nil_iff.mp hnil) hne
    next heq => exact absurd (by rw [heq]; rfl) hequals
    next => rfl
  rw [← hattached]
  exact read_letter_append hletter (by simp)

end Letter

theorem withoutSwitch_ne_named {text : String} {body : List Char} {long : Bool}
    {attached : Option (List Char)} :
    withoutSwitch text body ≠ .named switch long attached := by
  unfold withoutSwitch
  split <;> simp

/-- Only the long name and the letter name a switch. -/
theorem names_of_read_eq_named {text : String} {long : Bool}
    {attached : Option (List Char)}
    (hread : read text = .ok (.named switch long attached)) :
    (long = true ∧ ∃ name stem, text.toList = '-' :: '-' :: name ∧
      splitEquals name = (stem, attached) ∧ switch.Abbreviates stem) ∨
    (long = false ∧ ∃ letter, switch.letter? = some letter) := by
  unfold read at hread
  split at hread
  next name htext =>
    unfold readLong at hread
    cases hsplit : splitEquals name with
    | mk stem value =>
        rw [hsplit] at hread
        dsimp only at hread
        split at hread
        next =>
          exact absurd (Except.ok.inj hread) withoutSwitch_ne_named
        next found hmatching =>
          cases hread
          have hstem := Switch.abbreviates_iff.mpr hmatching
          exact .inl ⟨rfl, name, stem, htext, hsplit, hstem⟩
        next => cases hread
  next letter rest _ htext =>
    unfold readShort at hread
    split at hread
    next found hfound =>
      cases hread
      exact .inr ⟨rfl, letter, Switch.ofLetter?_eq_some_iff.mp hfound⟩
    next => exact absurd (Except.ok.inj hread) withoutSwitch_ne_named
  next => cases hread

end Argument

end TabletopDice.CommandLine
