import TabletopDice.CommandLine.Usage

/-!
# Single arguments

How one argument is understood before any is acted upon.  It is an operand
unless it starts with a dash and more follows.  Then it may name a switch in
full, by the start of its long name, or by its letter with text attached.  If it
names none, a negative number or a text with a space is an operand after all,
and anything else is unknown.

Readers of arguments do not agree on what may be attached to a letter, and here
the older of their rules are kept.  An equals sign right behind the first letter
is dropped, whether a value or further letters follow: `-q=t5` is `-qt5`.  Behind
a later letter it belongs to the value, so that `-qt=5` gives `=5` to the setting.
A letter that names no switch is a value that the flag before it ignores: `-qx`
is refused for the value `x` of `-q`.  By the newer rules `-q=t5` is refused,
`-qt=5` gives `5`, and `-qx` leaves `-x` over.
-/

namespace TabletopDice.CommandLine

open Text

inductive Argument where
  | operand (text : String)
  | named (switch : Switch) (long : Bool) (attached : Option (List Char))
  | unknown (text : String)
  deriving DecidableEq, Repr

namespace Argument

/-- Whether a minus before the text makes it a whole number or a decimal
fraction. -/
def isNumberAfterMinus (cs : List Char) : Bool :=
  let body := if cs.getLast? = some '\n' then cs.dropLast else cs
  match body.dropWhile isAnyDigit with
  | [] => !body.isEmpty
  | '.' :: fraction => !fraction.isEmpty && fraction.all isAnyDigit
  | _ => false

/-- An argument with a dash that names no switch. -/
def withoutSwitch (text : String) (body : List Char) : Argument :=
  if isNumberAfterMinus body || body.contains ' ' then .operand text
  else .unknown text

/-- The text before the first equals sign, and the text after it if there is
one. -/
def splitEquals (cs : List Char) : List Char × Option (List Char) :=
  match cs.dropWhile (· != '=') with
  | [] => (cs, none)
  | _ :: value => (cs.takeWhile (· != '='), some value)

/-- An argument with two dashes; no long name is the start of another. -/
def readLong (text : String) (name : List Char) : Except UsageError Argument :=
  let (stem, value) := splitEquals name
  match Switch.matching stem with
  | [] => .ok (withoutSwitch text ('-' :: name))
  | [switch] => .ok (.named switch true value)
  | _ => .error (.ambiguous text)

/-- The text attached to a letter, without the equals sign that may introduce
it. -/
def attached? : List Char → Option (List Char)
  | [] => none
  | '=' :: value => some value
  | cs => some cs

def readShort (text : String) (letter : Char) (rest : List Char) : Argument :=
  match Switch.ofLetter? letter with
  | some switch => .named switch false (attached? rest)
  | none => withoutSwitch text (letter :: rest)

def read (text : String) : Except UsageError Argument :=
  match text.toList with
  | '-' :: '-' :: name => readLong text name
  | '-' :: letter :: rest => .ok (readShort text letter rest)
  | _ => .ok (.operand text)

end Argument

/-- The switches that one argument spells: flags, and possibly a setting after
them. -/
structure Spelling where
  flags : List Flag
  setting : Option (Setting × Option (List Char)) := none
  deriving DecidableEq, Repr

namespace Spelling

/-- A flag and the letters attached to it. -/
def ofLetters (flag : Flag) : List Char → Except UsageError Spelling
  | [] => .ok { flags := [flag] }
  | letter :: rest =>
    match Switch.ofLetter? letter with
    | some (.flag next) => do
      let spelling ← ofLetters next rest
      return { spelling with flags := flag :: spelling.flags }
    | some (.setting setting) =>
      .ok {
        flags := [flag]
        setting := some (setting, if rest.isEmpty then none else some rest) }
    | none => .error (.ignoredValue flag (String.ofList (letter :: rest)))

/-- A flag takes letters after its own letter, and no value. -/
def ofFlag (flag : Flag) (long : Bool) :
    (attached : Option (List Char)) → Except UsageError Spelling
  | none => .ok { flags := [flag] }
  | some cs =>
    if long || cs.isEmpty then .error (.ignoredValue flag (String.ofList cs))
    else ofLetters flag cs

def read (switch : Switch) (long : Bool) (attached : Option (List Char)) :
    Except UsageError Spelling :=
  match switch with
  | .flag flag => ofFlag flag long attached
  | .setting setting => .ok { flags := [], setting := some (setting, attached) }

end Spelling

end TabletopDice.CommandLine
