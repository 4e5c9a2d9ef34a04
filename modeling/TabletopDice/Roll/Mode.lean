/-!
# Modes

A mode says what happens to a single twenty-sided die: it is rolled once, or
twice to keep the better or the worse of the two.
-/

namespace TabletopDice

inductive Mode where
  | plain
  | advantage
  | disadvantage
  deriving DecidableEq, Repr

namespace Mode

def name : Mode → String
  | plain => "none"
  | advantage => "advantage"
  | disadvantage => "disadvantage"

def all : List Mode := [plain, advantage, disadvantage]

def ofName? (name : String) : Option Mode :=
  all.find? fun mode => mode.name = name

/-- How to choose between two rolls, in the modes that roll twice. -/
def choice? : Mode → Option (Int → Int → Int)
  | plain => none
  | advantage => some max
  | disadvantage => some min

@[simp] theorem ofName?_name (mode : Mode) : ofName? mode.name = some mode := by
  cases mode <;> rfl

end Mode

end TabletopDice
