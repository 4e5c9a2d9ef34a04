import TabletopDice.CommandLine.Command

/-!
# The program

Runs the command on the arguments of the process, with a generator seeded from
the entropy of the system.
-/

namespace TabletopDice.CommandLine

/-- The number whose digits to the base 256 are the given bytes. -/
def seedOfBytes (bytes : ByteArray) : Nat :=
  bytes.foldl (fun seed byte => 256 * seed + byte.toNat) 0

end TabletopDice.CommandLine

open TabletopDice TabletopDice.CommandLine

def main (arguments : List String) : IO UInt32 := do
  let seed := seedOfBytes (← IO.getRandomBytes 2496)
  let (report, _) := run Source.twister (Twister.ofSeed seed) arguments
  IO.print (printed report.out)
  IO.eprint (printed report.err)
  match report.ending with
  | .exit status => return status.toUInt32
  | .broken failure =>
    IO.eprintln failure.message
    return 1
  | .blank setting =>
    IO.eprintln (blankMessage setting)
    return 1
