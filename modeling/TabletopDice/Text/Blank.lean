/-!
# Blank characters

The characters that carry no meaning in a dice expression, and the text that is
left without them.
-/

namespace TabletopDice.Text

/-- The characters with the white-space property, and the four information
separators. -/
def isBlank (c : Char) : Bool :=
  let n := c.toNat
  (9 ≤ n && n ≤ 13) || (0x1C ≤ n && n ≤ 0x20) || n == 0x85 || n == 0xA0 ||
    n == 0x1680 || (0x2000 ≤ n && n ≤ 0x200A) || n == 0x2028 || n == 0x2029 ||
    n == 0x202F || n == 0x205F || n == 0x3000

def squeeze (cs : List Char) : List Char :=
  cs.filter fun c => !isBlank c

/-- Blanks that may surround a number: the information separators are not among
them. -/
def isPadding (c : Char) : Bool :=
  isBlank c && !(0x1C ≤ c.toNat && c.toNat ≤ 0x1F)

def trim (cs : List Char) : List Char :=
  ((cs.dropWhile isPadding).reverse.dropWhile isPadding).reverse

@[simp] theorem squeeze_nil : squeeze [] = [] := rfl

@[simp] theorem squeeze_append (s t : List Char) :
    squeeze (s ++ t) = squeeze s ++ squeeze t :=
  List.filter_append ..

@[simp] theorem squeeze_squeeze (s : List Char) :
    squeeze (squeeze s) = squeeze s := by
  simp [squeeze]

theorem mem_squeeze {c : Char} {s : List Char} :
    c ∈ squeeze s ↔ c ∈ s ∧ isBlank c = false := by
  simp [squeeze]

end TabletopDice.Text
