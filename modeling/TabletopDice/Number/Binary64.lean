import TabletopDice.Number.HalfEven

/-!
# Binary64 numbers

A binary64 number is a sign and a code below `2 ^ 63`.  The codes of the finite
numbers are in the order of their magnitudes, the code after the last of them is
infinity, and those beyond are not numbers.  A finite magnitude is a whole
number of units of `2 ^ -1074`, which is the view in which rounding and printing
are stated.
-/

namespace TabletopDice.Number

structure Binary64 where
  negative : Bool
  code : Nat
  code_lt : code < 0x8000000000000000
  deriving DecidableEq

namespace Binary64

/-- The number of codes that share an exponent. -/
def binade : Nat := 0x10000000000000

def infinityCode : Nat := 0x7FF0000000000000

def ofBits (bits : BitVec 64) : Binary64 where
  negative := bits.msb
  code := bits.toNat % 0x8000000000000000
  code_lt := Nat.mod_lt _ (by decide)

def toBits (x : Binary64) : BitVec 64 :=
  BitVec.ofNat 64 (if x.negative then 0x8000000000000000 + x.code else x.code)

def isFinite (x : Binary64) : Bool :=
  x.code < infinityCode

def isInfinite (x : Binary64) : Bool :=
  x.code = infinityCode

/-- The magnitude of the finite number with this code, in units of `2 ^ -1074`.
-/
def unitsOf (code : Nat) : Nat :=
  let exponent := code / binade
  let fraction := code % binade
  if exponent = 0 then fraction else (binade + fraction) <<< (exponent - 1)

def units (x : Binary64) : Nat :=
  unitsOf x.code

/-- The code nearest to the magnitude `a / b`, and of two equally near ones the
even one.

The shift leaves 53 binary digits, fewer only below the least normal number, so
that a carry out of the last digit moves on to the next exponent by itself. -/
def nearestCode (a b : Nat) : Nat :=
  let scaled := a <<< 1074
  let shift := bitLength (scaled / b) - 53
  shift * binade + roundQuotient scaled (b <<< shift)

/-- The number nearest to `num / den`, a half going to the even neighbour; none
when it is out of range. -/
def ofQuotient? (num : Int) (den : Nat) : Option Binary64 :=
  let code := nearestCode num.natAbs den
  if h : code < infinityCode then
    some ⟨num < 0, code, Nat.lt_trans h (by decide)⟩
  else none

end Binary64

end TabletopDice.Number
