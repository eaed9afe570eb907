/-
# ReplicaDiff.Toml.Text — strings of TOML

A string stands between quotation marks, where a backslash begins an escape, or
between apostrophes, where every character stands for itself.  Three marks begin
a string that may run over several lines; the line break right after them does
not belong to it.
-/

namespace ReplicaDiff.Toml

set_option autoImplicit false

/-- Reads something from the front of the characters. -/
abbrev Scan (α : Type) := List Char → Option (α × List Char)

/-- Characters that may stand in a comment: all but control characters; the tab is allowed. -/
def isPlain (c : Char) : Bool := c = '\t' || (0x20 ≤ c.toNat && c.toNat ≠ 0x7F)

/-- Space and tab. -/
def isSpace (c : Char) : Bool := c = ' ' || c = '\t'

/-- What follows a line break, if one comes first. -/
def afterNewline? : List Char → Option (List Char)
  | '\n' :: rest => some rest
  | '\r' :: '\n' :: rest => some rest
  | _ => none

/-- The value of a hexadecimal digit. -/
def hexValue? (c : Char) : Option Nat :=
  if '0' ≤ c ∧ c ≤ '9' then some (c.toNat - 48)
  else if 'a' ≤ c ∧ c ≤ 'f' then some (c.toNat - 87)
  else if 'A' ≤ c ∧ c ≤ 'F' then some (c.toNat - 55)
  else none

/-- Read a fixed number of hexadecimal digits. -/
def hexNumber : Nat → Nat → Scan Nat
  | 0, acc, input => some (acc, input)
  | _ + 1, _, [] => none
  | n + 1, acc, c :: rest => do hexNumber n (acc * 16 + (← hexValue? c)) rest

/-- Read the character of an escape, after its backslash. -/
def escape : Scan Char
  | 'b' :: rest => some ('\x08', rest)
  | 't' :: rest => some ('\t', rest)
  | 'n' :: rest => some ('\n', rest)
  | 'f' :: rest => some ('\x0c', rest)
  | 'r' :: rest => some ('\r', rest)
  | '"' :: rest => some ('"', rest)
  | '\\' :: rest => some ('\\', rest)
  | 'u' :: rest => scalar 4 rest
  | 'U' :: rest => scalar 8 rest
  | _ => none
where
  /-- Read the code point of a character. -/
  scalar (digits : Nat) (input : List Char) : Option (Char × List Char) := do
    let (n, rest) ← hexNumber digits 0 input
    if n.isValidChar then some (Char.ofNat n, rest) else none

/-- Put characters before what is read next. -/
def before (cs : List Char) : Option (List Char × List Char) → Option (List Char × List Char)
  | some (read, rest) => some (cs ++ read, rest)
  | none => none

/-- Read a string on one line, after its quotation mark; `fuel` exceeds the number of
characters. -/
def basicText : Nat → Scan (List Char)
  | 0, _ => none
  | _ + 1, [] => none
  | fuel + 1, c :: rest =>
      if c = '"' then some ([], rest)
      else if c = '\\' then do
        let (e, rest) ← escape rest
        before [e] (basicText fuel rest)
      else if isPlain c then before [c] (basicText fuel rest)
      else none

/-- Read a string on one line, after its apostrophe. -/
def literalText : Scan (List Char)
  | [] => none
  | c :: rest =>
      if c = '\x27' then some ([], rest)
      else if isPlain c then before [c] (literalText rest)
      else none

/-- The most marks that can stand at the end of a string over several lines: two of its own and
the three that end it. -/
def mostMarks : Nat := 5

/-- What begins with a run of marks inside a string over several lines: one or two marks stand for
themselves, and three or more end the string. -/
inductive Marks where
  /-- Marks that belong to the string. -/
  | inside (marks rest : List Char)
  /-- The end of the string, with the marks before it that belong to the string. -/
  | closing (marks rest : List Char)

/-- Look at a run of marks. -/
def marks (mark : Char) (input : List Char) : Marks :=
  let run := min mostMarks (input.takeWhile (· = mark)).length
  let rest := input.drop run
  if run < 3 then .inside (List.replicate run mark) rest
  else .closing (List.replicate (run - 3) mark) rest

/-- Drop spaces and line breaks. -/
def dropSpaceAndNewlines : List Char → List Char
  | [] => []
  | c :: rest =>
      if isSpace c || c = '\n' then dropSpaceAndNewlines rest
      else if c = '\r' then
        match rest with
        | '\n' :: rest => dropSpaceAndNewlines rest
        | _ => c :: rest
      else c :: rest

/-- Read a string over several lines after its quotation marks; `fuel` exceeds the number of
characters. -/
def basicLines : Nat → Scan (List Char)
  | 0, _ => none
  | _ + 1, [] => none
  | fuel + 1, c :: rest =>
      if c = '"' then
        match marks '"' (c :: rest) with
        | .closing own rest => some (own, rest)
        | .inside own rest => before own (basicLines fuel rest)
      else if c = '\\' then
        match afterNewline? (rest.dropWhile isSpace) with
        | some rest => basicLines fuel (dropSpaceAndNewlines rest)
        | none => do
            let (e, rest) ← escape rest
            before [e] (basicLines fuel rest)
      else
        match afterNewline? (c :: rest) with
        | some rest => before ['\n'] (basicLines fuel rest)
        | none => if isPlain c then before [c] (basicLines fuel rest) else none

/-- Read a string over several lines after its apostrophes; `fuel` exceeds the number of
characters. -/
def literalLines : Nat → Scan (List Char)
  | 0, _ => none
  | _ + 1, [] => none
  | fuel + 1, c :: rest =>
      if c = '\x27' then
        match marks '\x27' (c :: rest) with
        | .closing own rest => some (own, rest)
        | .inside own rest => before own (literalLines fuel rest)
      else
        match afterNewline? (c :: rest) with
        | some rest => before ['\n'] (literalLines fuel rest)
        | none => if isPlain c then before [c] (literalLines fuel rest) else none

/-- Read a string that may be on one line or on several. -/
def anyText (input : List Char) : Option (String × List Char) :=
  let finish (result : Option (List Char × List Char)) : Option (String × List Char) :=
    result.map fun (cs, rest) => (String.ofList cs, rest)
  let firstLine (rest : List Char) : List Char := (afterNewline? rest).getD rest
  match input with
  | '"' :: '"' :: '"' :: rest => finish (basicLines (rest.length + 1) (firstLine rest))
  | '\x27' :: '\x27' :: '\x27' :: rest => finish (literalLines (rest.length + 1) (firstLine rest))
  | '"' :: rest => finish (basicText (rest.length + 1) rest)
  | '\x27' :: rest => finish (literalText rest)
  | _ => none

end ReplicaDiff.Toml
