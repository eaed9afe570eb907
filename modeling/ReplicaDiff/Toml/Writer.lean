/-
# ReplicaDiff.Toml.Writer — strings as TOML

A string with a quotation mark or a backslash is written between apostrophes if
that is possible, so that it stands for itself; every other string is written
between quotation marks, with escapes.  A string with a line break is written
over several lines.
-/

namespace ReplicaDiff.Toml

set_option autoImplicit false

/-- A control character. -/
def isControl (c : Char) : Bool := c.toNat < 0x20 || c.toNat = 0x7F

/-- The length of the longest run of apostrophes, given the length of the one that is open. -/
def longestRun : Nat → List Char → Nat
  | run, [] => run
  | run, c :: rest => if c = '\x27' then longestRun (run + 1) rest else max run (longestRun 0 rest)

/-- Whether a string can stand between apostrophes, one or three. -/
def fitsLiteral (cs : List Char) : Bool :=
  cs.all (fun c => c = '\t' || c = '\n' || !isControl c) && decide (longestRun 0 cs < 3) &&
    cs.getLast? != some '\x27'

/-- Whether a string is easier to read without escapes. -/
def prefersLiteral (cs : List Char) : Bool := cs.contains '"' || cs.contains '\\'

/-- The hexadecimal digits of a number, at least four. -/
def fourDigits (n : Nat) : List Char :=
  let ds := (Nat.toDigits 16 n).map Char.toUpper
  List.replicate (4 - ds.length) '0' ++ ds

/-- How a character is written between quotation marks. -/
def writeChar (lines : Bool) (c : Char) : List Char :=
  if c = '\x08' then ['\\', 'b']
  else if c = '\t' then ['\\', 't']
  else if c = '\n' then if lines then ['\n'] else ['\\', 'n']
  else if c = '\x0c' then ['\\', 'f']
  else if c = '\r' then ['\\', 'r']
  else if c = '"' then ['\\', '"']
  else if c = '\\' then ['\\', '\\']
  else if isControl c then ['\\', 'u'] ++ fourDigits c.toNat
  else [c]

/-- A string as TOML. -/
def writeText (s : String) : String :=
  let cs := s.toList
  let lines := cs.contains '\n'
  let threeOf (mark : Char) : List Char := [mark, mark, mark]
  String.ofList <|
    if prefersLiteral cs && fitsLiteral cs then
      if lines then threeOf '\x27' ++ '\n' :: (cs ++ threeOf '\x27')
      else if cs.contains '\x27' then threeOf '\x27' ++ cs ++ threeOf '\x27'
      else '\x27' :: (cs ++ ['\x27'])
    else if lines then threeOf '"' ++ '\n' :: (cs.flatMap (writeChar true) ++ threeOf '"')
    else '"' :: (cs.flatMap (writeChar false) ++ ['"'])

end ReplicaDiff.Toml
