/-
# ReplicaDiff.Json.Shape — values of a wanted shape

Readers for strings, integers in a range, lists, pairs, maps and records.  A
record is read from an object, whose members may come in any order and may
include unknown ones, or from a list of its fields in their order.  A value of
another kind is read far enough to tell whether it is JSON at all (`refuse`).
-/
import ReplicaDiff.Json.Number
import ReplicaDiff.Json.Quoted
import ReplicaDiff.Json.Skip
import ReplicaDiff.KeyMap

namespace ReplicaDiff.Json

set_option autoImplicit false

open ReplicaDiff.Text (Bytes)

/-- The fault of a result that is read only to be refused. -/
def faultOf {α : Type} : Except Fault α → Fault
  | .ok _ => .mistyped
  | .error fault => fault

/-- The fault of a value that is not of the wanted kind; `input` does not begin blank. -/
def refuse (input : Bytes) : Fault :=
  match input with
  | [] => .truncated
  | b :: rest =>
      if b = 110 then faultOf (expectWord [117, 108, 108] rest)
      else if b = 116 then faultOf (expectWord [114, 117, 101] rest)
      else if b = 102 then faultOf (expectWord [97, 108, 115, 101] rest)
      else if b = 45 then faultOf (scanMagnitude false rest)
      else if isDigit b then faultOf (scanMagnitude true input)
      else if b = quoteByte then faultOf (quotedText rest)
      else if b = 91 ∨ b = 123 then .mistyped
      else .malformed

/-- Read a string. -/
def readText : Reader String := fun input =>
  match skipBlank input with
  | [] => .error .truncated
  | b :: rest => if b = quoteByte then quotedText rest else .error (refuse (b :: rest))

/-- Read an integer from zero to `bound`. -/
def readUnsigned (bound : Nat) : Reader Nat := fun input =>
  match skipBlank input with
  | [] => .error .truncated
  | b :: rest =>
      if isDigit b then do
        let (number, rest) ← scanMagnitude true (b :: rest)
        match number with
        | .unsigned n => if n ≤ bound then .ok (n, rest) else .error .mistyped
        | _ => .error .mistyped
      else .error (refuse (b :: rest))

/-- Read the word `null`. -/
def readNull : Reader Unit := fun input =>
  match skipBlank input with
  | [] => .error .truncated
  | b :: rest =>
      if b = 110 then do
        let rest ← expectWord [117, 108, 108] rest
        .ok ((), rest)
      else .error (refuse (b :: rest))

/-- What stands before the next element of a list. -/
inductive Separator where
  /-- The list is over. -/
  | close (rest : Bytes)
  /-- Another element begins. -/
  | element (input : Bytes)

/-- Look for the next element, or for the end of the list; the first element has no comma. -/
def nextElement (first : Bool) (input : Bytes) : Except Fault Separator :=
  match skipBlank input with
  | [] => .error .truncated
  | b :: rest =>
      if b = 93 then .ok (.close rest)
      else if first then .ok (.element (b :: rest))
      else if b = 44 then
        match skipBlank rest with
        | [] => .error .truncated
        | c :: tail => if c = 93 then .error .malformed else .ok (.element (c :: tail))
      else .error .malformed

/-- Read the elements of a list up to its end; `fuel` exceeds their number. -/
def readElements {α : Type} (read : Reader α) : Nat → Bool → Bytes → Except Fault (List α × Bytes)
  | 0, _, _ => .error .truncated
  | fuel + 1, first, input => do
      match ← nextElement first input with
      | .close rest => .ok ([], rest)
      | .element input =>
          let (x, rest) ← read input
          let (xs, rest) ← readElements read fuel false rest
          .ok (x :: xs, rest)

/-- Read a list. -/
def readList {α : Type} (read : Reader α) : Reader (List α) := fun input =>
  match skipBlank input with
  | [] => .error .truncated
  | b :: rest =>
      if b = 91 then readElements read (rest.length + 1) true rest else .error (refuse (b :: rest))

/-- The end of a list that holds no more elements than it should. -/
def closeList (input : Bytes) : Except Fault Bytes :=
  match skipBlank input with
  | [] => .error .truncated
  | b :: rest => if b = 93 then .ok rest else .error .malformed

/-- Read a list of exactly two elements. -/
def readPair {α : Type} (read : Reader α) : Reader (α × α) := fun input =>
  match skipBlank input with
  | [] => .error .truncated
  | b :: rest =>
      if b = 91 then do
        match ← nextElement true rest with
        | .close _ => .error .mistyped
        | .element input =>
            let (x, rest) ← read input
            match ← nextElement false rest with
            | .close _ => .error .mistyped
            | .element input =>
                let (y, rest) ← read input
                let rest ← closeList rest
                .ok ((x, y), rest)
      else .error (refuse (b :: rest))

/-- Read the members of an object up to its end.  `read` takes a key with what was gathered so
far, and goes on after the closing quotation mark of the key. -/
def readMembers {α : Type} (read : String → α → Reader α) :
    Nat → Bool → α → Bytes → Except Fault (α × Bytes)
  | 0, _, _, _ => .error .truncated
  | fuel + 1, first, gathered, input =>
      match skipBlank input with
      | [] => .error .truncated
      | b :: rest =>
          if b = 125 then .ok (gathered, rest)
          else
            let key : Except Fault Bytes :=
              if first then .ok (b :: rest)
              else if b = 44 then .ok (skipBlank rest)
              else .error .malformed
            match key with
            | .error fault => .error fault
            | .ok [] => .error .truncated
            | .ok (q :: input) =>
                if q = quoteByte then do
                  let (name, rest) ← quotedText input
                  let (gathered, rest) ← read name gathered rest
                  readMembers read fuel false gathered rest
                else .error .malformed

/-- Read a map; of several members with one key the last counts. -/
def readMap {α : Type} (read : Reader α) : Reader (KeyMap α) := fun input =>
  match skipBlank input with
  | [] => .error .truncated
  | b :: rest =>
      if b = 123 then
        readMembers
          (fun key m input => do
            let input ← afterColon input
            let (value, rest) ← read input
            .ok (m.insert key value, rest))
          (rest.length + 1) true .empty rest
      else .error (refuse (b :: rest))

/-- A named part of a record and how to read it into the record. -/
structure RecordField (α : Type) where
  name : String
  read : α → Reader α

/-- Read one member of a record, given the names of the members before it. -/
def readMember {α : Type} (fields : List (RecordField α)) (name : String) (state : List String × α) :
    Reader (List String × α) := fun input =>
  match fields.find? fun f => f.name = name with
  | none => do
      let input ← afterColon input
      let rest ← skipValue input
      .ok (state, rest)
  | some field =>
      if name ∈ state.1 then .error .mistyped
      else do
        let input ← afterColon input
        let (record, rest) ← field.read state.2 input
        .ok ((name :: state.1, record), rest)

/-- Read the fields of a record from a list, in their order; a list may end before its last
field unless every field is required. -/
def readPositions {α : Type} (required : Bool) :
    List (RecordField α) → Bool → α → Bytes → Except Fault (α × Bytes)
  | [], _, record, input => do
      let rest ← closeList input
      .ok (record, rest)
  | field :: fields, first, record, input => do
      match ← nextElement first input with
      | .close rest => if required then .error .mistyped else .ok (record, rest)
      | .element input =>
          let (record, rest) ← field.read record input
          readPositions required fields false record rest

/-- Read a record, whose fields have the values of `start` as long as nothing else is read. -/
def readRecord {α : Type} (fields : List (RecordField α)) (required : Bool) (start : α) : Reader α :=
  fun input =>
    match skipBlank input with
    | [] => .error .truncated
    | b :: rest =>
        if b = 91 then readPositions required fields true start rest
        else if b = 123 then do
          let ((seen, record), rest) ←
            readMembers (readMember fields) (rest.length + 1) true ([], start) rest
          if required ∧ ¬ fields.all fun f => f.name ∈ seen then .error .mistyped
          else .ok (record, rest)
        else .error (refuse (b :: rest))

end ReplicaDiff.Json
