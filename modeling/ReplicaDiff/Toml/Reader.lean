/-
# ReplicaDiff.Toml.Reader — reading a TOML document

A document is a list of lines: blank ones, headers, and keys with their values.
A value may run over several lines.  `parse?` gives the table that a document
stands for, if it is well formed.
-/
import ReplicaDiff.Toml.Number

namespace ReplicaDiff.Toml

set_option autoImplicit false

/-- Lists and tables may be nested less deep than this, and dotted keys have fewer parts. -/
def nestingLimit : Nat := 80

/-- Drop spaces and tabs. -/
def dropSpace (input : List Char) : List Char := input.dropWhile isSpace

/-- The characters of a key without quotation marks. -/
def isBareKeyChar (c : Char) : Bool :=
  ('a' ≤ c && c ≤ 'z') || ('A' ≤ c && c ≤ 'Z') || ('0' ≤ c && c ≤ '9') || c = '_' || c = '-'

/-- Read one part of a key. -/
def keyPart (input : List Char) : Option (String × List Char) :=
  match input with
  | '"' :: rest => (basicText (rest.length + 1) rest).map fun (cs, rest) => (String.ofList cs, rest)
  | '\x27' :: rest => (literalText rest).map fun (cs, rest) => (String.ofList cs, rest)
  | _ =>
      match input.takeWhile isBareKeyChar with
      | [] => none
      | c :: cs => some (String.ofList (c :: cs), input.dropWhile isBareKeyChar)

/-- Read the parts of a dotted key; `fuel` exceeds their number. -/
def keyParts : Nat → Scan (List String)
  | 0, _ => none
  | fuel + 1, input => do
      let (part, rest) ← keyPart (dropSpace input)
      match dropSpace rest with
      | '.' :: rest => do
          let (parts, rest) ← keyParts fuel rest
          some (part :: parts, rest)
      | rest => some ([part], rest)

/-- A dotted key: where it leads, and the key there. -/
structure DottedKey where
  path : List String
  key : String

/-- Read a dotted key. -/
def dottedKey (input : List Char) : Option (DottedKey × List Char) := do
  let (parts, rest) ← keyParts (input.length + 1) input
  if nestingLimit ≤ parts.length then none
  else
    let key ← parts.getLast?
    some (⟨parts.dropLast, key⟩, rest)

/-- Drop blanks, line breaks and comments; `inside` tells whether a comment has begun. -/
def dropBlankLines (inside : Bool) : List Char → List Char
  | [] => []
  | c :: rest =>
      if c = '\n' then dropBlankLines false rest
      else if c = '\r' then
        match rest with
        | '\n' :: rest => dropBlankLines false rest
        | _ => c :: rest
      else if inside then if isPlain c then dropBlankLines true rest else c :: rest
      else if isSpace c then dropBlankLines false rest
      else if c = '#' then dropBlankLines true rest
      else c :: rest

mutual

/-- Read a value inside `depth` lists and tables; `fuel` exceeds the number of characters. -/
def readValue : Nat → Nat → Scan Value
  | 0, _, _ => none
  | fuel + 1, depth, input =>
      match input with
      | [] => none
      | c :: rest =>
          if c = '"' ∨ c = '\x27' then (anyText input).map fun (s, rest) => (.text s, rest)
          else if c = '[' then
            if nestingLimit ≤ depth + 1 then none
            else (readItems fuel (depth + 1) (dropBlankLines false rest)).map fun (vs, rest) =>
              (.list vs, rest)
          else if c = '\x7b' then
            if nestingLimit ≤ depth + 1 then none
            else (readPairs fuel (depth + 1) true [] rest).map fun (es, rest) =>
              (.table .whole es, rest)
          else if c = 't' then
            match rest with
            | 'r' :: 'u' :: 'e' :: rest => some (.boolean true, rest)
            | _ => none
          else if c = 'f' then
            match rest with
            | 'a' :: 'l' :: 's' :: 'e' :: rest => some (.boolean false, rest)
            | _ => none
          else numberOrMoment input

/-- Read the values of a list up to its end; blank lines before the next one have been dropped. -/
def readItems : Nat → Nat → Scan (List Value)
  | 0, _, _ => none
  | fuel + 1, depth, input =>
      match input with
      | ']' :: rest => some ([], rest)
      | _ => do
          let (v, rest) ← readValue fuel depth input
          match dropBlankLines false rest with
          | ']' :: rest => some ([v], rest)
          | ',' :: rest => do
              let (vs, rest) ← readItems fuel depth (dropBlankLines false rest)
              some (v :: vs, rest)
          | _ => none

/-- Read the entries of a table in one piece up to its end; only the first may be missing. -/
def readPairs : Nat → Nat → Bool → Entries → Scan Entries
  | 0, _, _, _, _ => none
  | fuel + 1, depth, first, entries, input =>
      match first, dropSpace input with
      | true, '\x7d' :: rest => some (entries, rest)
      | _, _ => do
          let (k, rest) ← dottedKey input
          let rest ← expect '=' rest
          let (v, rest) ← readValue fuel depth (dropSpace rest)
          let entries ← Entries.putDotted k.path k.key v .header entries
          match dropSpace rest with
          | '\x7d' :: rest => some (entries, rest)
          | ',' :: rest => readPairs fuel depth false entries rest
          | _ => none

end

/-- Read the rest of a line on which nothing else may stand but a comment. -/
def endOfLine (input : List Char) : Option (List Char) :=
  let rest :=
    match dropSpace input with
    | '#' :: rest => rest.dropWhile isPlain
    | rest => rest
  match rest with
  | [] => some []
  | _ => afterNewline? rest

/-- A document as far as it has been read: its table, and the path of the header that holds. -/
structure State where
  entries : Entries
  header : List String

/-- Read a header after its first bracket. -/
def readHeader (s : State) (input : List Char) : Option (State × List Char) :=
  match input with
  | '[' :: rest => do
      let (k, rest) ← dottedKey rest
      let rest ← expect ']' rest
      let rest ← expect ']' rest
      let entries ← Entries.openTables k.path k.key s.entries
      let rest ← endOfLine rest
      some (⟨entries, k.path ++ [k.key]⟩, rest)
  | _ => do
      let (k, rest) ← dottedKey input
      let rest ← expect ']' rest
      let entries ← Entries.openTable k.path k.key s.entries
      let rest ← endOfLine rest
      some (⟨entries, k.path ++ [k.key]⟩, rest)

/-- Read a key with its value. -/
def readEntry (s : State) (input : List Char) : Option (State × List Char) := do
  let (k, rest) ← dottedKey input
  let rest ← expect '=' rest
  let rest := dropSpace rest
  let (v, rest) ← readValue (2 * rest.length + 2) 0 rest
  let entries ← Entries.putBelow s.header k.path k.key v s.entries
  let rest ← endOfLine rest
  some ({ s with entries }, rest)

/-- Read the lines of a document; `fuel` exceeds the number of characters. -/
def readLines : Nat → State → List Char → Option State
  | 0, _, _ => none
  | fuel + 1, s, input =>
      match dropSpace input with
      | [] => some s
      | c :: rest =>
          if c = '[' then do
            let (s, rest) ← readHeader s rest
            readLines fuel s rest
          else if c = '#' ∨ c = '\n' ∨ c = '\r' then do
            let rest ← endOfLine (c :: rest)
            readLines fuel s rest
          else do
            let (s, rest) ← readEntry s (c :: rest)
            readLines fuel s rest

/-- The mark that may stand before the first character of a text. -/
def byteOrderMark : Char := '\ufeff'

/-- The table of a document. -/
def parse? (text : String) : Option Entries :=
  let input :=
    match text.toList with
    | c :: rest => if c = byteOrderMark then rest else c :: rest
    | [] => []
  (readLines (input.length + 1) ⟨[], []⟩ input).map (·.entries)

end ReplicaDiff.Toml
