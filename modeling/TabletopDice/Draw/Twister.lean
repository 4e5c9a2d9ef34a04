import TabletopDice.Number.HalfEven
import TabletopDice.Draw.Source

/-!
# The twister generator

A generator of 32-bit words with a state of 624 words, seeded by an integer of
any size, and the source that draws uniform integers from it by discarding
values that are too large.
-/

namespace TabletopDice

open Number

abbrev Twister.Words := Vector UInt32 624

structure Twister where
  words : Twister.Words
  /-- the number of words of this state that have been used -/
  used : Nat

namespace Twister

/-- The generator repeats after so many words. -/
def period : Nat := 1 <<< 19937 - 1

def put (words : Words) (i : Fin 624) (word : UInt32) : Words :=
  words.set i.val word i.isLt

/-! ## The recurrence -/

/-- Renews one word from itself, its successor, and the word 397 places on. -/
def twistWord (words : Words) (i : Fin 624) : Words :=
  let y := (words.get i &&& 0x80000000) ||| (words.get (i + 1) &&& 0x7FFFFFFF)
  let odd : UInt32 := if y &&& 1 = 0 then 0 else 0x9908B0DF
  put words i (words.get (i + 397) ^^^ (y >>> 1) ^^^ odd)

def twist (words : Words) : Words :=
  Fin.foldl 624 twistWord words

/-- Spreads the bits of a word before it is handed out. -/
def temper (word : UInt32) : UInt32 :=
  let a := word ^^^ (word >>> 11)
  let b := a ^^^ ((a <<< 7) &&& 0x9D2C5680)
  let c := b ^^^ ((b <<< 15) &&& 0xEFC60000)
  c ^^^ (c >>> 18)

def next (t : Twister) : UInt32 × Twister :=
  let t := if t.used < 624 then t else ⟨twist t.words, 0⟩
  (temper (t.words.get (Fin.ofNat 624 t.used)), { t with used := t.used + 1 })

/-! ## Seeding -/

def scramble (word : UInt32) : UInt32 :=
  word ^^^ (word >>> 30)

/-- The state from which every seeding starts. -/
def base : Words :=
  Fin.foldl 624
    (fun words i =>
      if i = 0 then words
      else put words i (1812433253 * scramble (words.get (i - 1)) + i.val.toUInt32))
    (Vector.replicate 624 19650218)

/-- The place visited at a step of the seeding: from 1 to 623, over and over. -/
def place (step : Nat) : Fin 624 :=
  Fin.ofNat 624 (step % 623 + 1)

/-- Writes a word; the last one is also kept at the front, as the predecessor of
the first. -/
def settle (words : Words) (i : Fin 624) (word : UInt32) : Words :=
  let words := put words i word
  if i = 623 then put words 0 word else words

def stirKey (key : Array UInt32) (words : Words) (step : Nat) : Words :=
  let i := place step
  let j := step % key.size
  let mixed := words.get i ^^^ (scramble (words.get (i - 1)) * 1664525)
  settle words i (mixed + key.getD j 0 + j.toUInt32)

def stir (words : Words) (step : Nat) : Words :=
  let i := place step
  let mixed := words.get i ^^^ (scramble (words.get (i - 1)) * 1566083941)
  settle words i (mixed - i.val.toUInt32)

def ofKey (key : Array UInt32) : Twister :=
  let steps := max 624 key.size
  let keyed := (List.range steps).foldl (stirKey key) base
  let spread := (List.range' steps 623).foldl stir keyed
  ⟨put spread 0 0x80000000, 624⟩

/-- The 32-bit words of a number, least significant first, and at least one. -/
def keyOf (n : Nat) : Array UInt32 :=
  ((List.range (max 1 ((bitLength n + 31) / 32))).map fun i =>
    (n >>> (32 * i)).toUInt32).toArray

/-- The generator seeded with an integer; its sign does not matter. -/
def ofSeed (seed : Int) : Twister :=
  ofKey (keyOf seed.natAbs)

/-! ## Uniform integers -/

/-- A number of `k` bits: whole words from the low end, then the high bits of
one more word. -/
def bits (k : Nat) (t : Twister) : Nat × Twister :=
  if k = 0 then (0, t)
  else if k ≤ 32 then
    let (word, t) := t.next
    (word.toNat >>> (32 - k), t)
  else
    let (word, t) := t.next
    let (high, t) := bits (k - 32) t
    (word.toNat + high <<< 32, t)
termination_by k

/-- The first number of `k` bits that is below `n`, among at most `tries` of
them. -/
def firstBelow (n k : Nat) : (tries : Nat) → Twister → Nat × Twister
  | 0, t => (0, t)
  | tries + 1, t =>
    let (value, t) := bits k t
    if value < n then (value, t) else firstBelow n k tries t

/-- A number below `n`; what does not occur within one period never occurs. -/
def below (n : Nat) (t : Twister) : Nat × Twister :=
  firstBelow n (bitLength n) period t

end Twister

def Source.twister : Source Twister where
  draw request t :=
    if request.high < request.low then (.error (.emptyRange request), t)
    else
      let (value, t) := t.below (request.high - request.low + 1).toNat
      (.ok (request.low + value), t)

end TabletopDice
