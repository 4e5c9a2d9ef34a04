import TabletopDice.Text.Blank

/-!
# Pieces of an expression

An expression is cut at every plus and before every minus.  The cut is made by
writing a plus before each minus and splitting at the pluses; empty pieces say
nothing and are dropped.
-/

namespace TabletopDice.Expression

open Text

def separateSigns (cs : List Char) : List Char :=
  cs.flatMap fun c => if c = '-' then ['+', '-'] else [c]

/-- The characters without blanks, and with a plus before every minus. -/
def normalizedChars (cs : List Char) : List Char :=
  separateSigns (squeeze cs)

def normalize (text : String) : String :=
  String.ofList (normalizedChars text.toList)

def pieces (cs : List Char) : List (List Char) :=
  ((normalizedChars cs).splitOn '+').filter fun piece => !piece.isEmpty

@[simp] theorem separateSigns_nil : separateSigns [] = [] := rfl

@[simp] theorem separateSigns_append (s t : List Char) :
    separateSigns (s ++ t) = separateSigns s ++ separateSigns t :=
  List.flatMap_append ..

@[simp] theorem normalizedChars_append (s t : List Char) :
    normalizedChars (s ++ t) = normalizedChars s ++ normalizedChars t := by
  simp [normalizedChars]

theorem pieces_append_plus (s t : List Char) :
    pieces (s ++ '+' :: t) = pieces s ++ pieces t := by
  have hplus : normalizedChars ('+' :: t) = '+' :: normalizedChars t := by
    rw [← List.singleton_append, normalizedChars_append]
    rfl
  unfold pieces
  rw [normalizedChars_append, hplus, List.splitOn,
    List.splitOnP_append_cons _ _ (by rfl), List.filter_append]
  rfl

end TabletopDice.Expression
