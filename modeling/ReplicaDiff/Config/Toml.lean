/-
# ReplicaDiff.Config.Toml — settings as TOML

A document has one key for each setting, all of which may be left out; the
endpoints are tables.  Spans of time are whole milliseconds.  An integer of TOML
has a sign, so that a setting of 2^63 or more cannot be written.
-/
import ReplicaDiff.Config.Setting
import ReplicaDiff.Toml.Reader
import ReplicaDiff.Toml.Writer

namespace ReplicaDiff

set_option autoImplicit false

open ReplicaDiff.Toml

/-- The text of a value, if it is one. -/
def Toml.Value.text? : Value → Option String
  | .text s => some s
  | _ => none

/-- The number of a value, if it is an integer from zero to `bound`. -/
def Toml.Value.unsigned? (bound : Nat) : Value → Option Nat
  | .integer n => if 0 ≤ n ∧ n ≤ bound then some n.toNat else none
  | _ => none

/-- The word of a value, if it is an integer from zero to 2^64 - 1. -/
def Toml.Value.word? (v : Value) : Option UInt64 :=
  (v.unsigned? 18446744073709551615).map UInt64.ofNat

/-- The largest integer of TOML. -/
def Toml.maxInteger : Nat := 9223372036854775807

/-- An integer as TOML, if it can be one. -/
def Toml.writeNat? (n : Nat) : Option String :=
  if n ≤ Toml.maxInteger then some (toString n) else none

/-- An entry of a table, on a line of its own. -/
def Toml.line (key value : String) : String := key ++ " = " ++ value ++ "\n"

namespace Setting.Kind

/-- Read a value of a kind. -/
def ofToml? : (k : Kind) → Toml.Value → Option k.Value
  | .text, v => v.text?
  | .path, v => v.text?
  | .count, v => v.word?
  | .repeats, v => (v.unsigned? 4294967295).map UInt32.ofNat
  | .millis, v => v.word?.map Duration.ofMillis

/-- A value of a kind as TOML, if it can be written. -/
def toToml? : (k : Kind) → k.Value → Option String
  | .text, s => some (Toml.writeText s)
  | .path, s => some (Toml.writeText s)
  | .count, n => Toml.writeNat? n.toNat
  | .repeats, n => Toml.writeNat? n.toNat
  | .millis, d => Toml.writeNat? d.millis.toNat

end Setting.Kind

namespace Endpoint

/-- Give a part of an endpoint a value, if there is a part of that name. -/
def setToml (e : Endpoint) (name : String) (v : Value) : Option Endpoint :=
  match Part.all.find? (·.name = name) with
  | some part => v.text?.map (e.set part)
  | none => some e

/-- The endpoint of a value: a table of its parts, or a list of them in order.  A date, which is
no table but reads as one without known keys, is the endpoint in which nothing is set. -/
def ofToml? : Value → Option Endpoint
  | .table _ entries => entries.foldlM (fun e (name, v) => setToml e name v) {}
  | .list items => (Part.all.zip items).foldlM (fun e (part, v) => setToml e part.name v) {}
  | .moment => some {}
  | _ => none

/-- An endpoint as a table with a header. -/
def toToml (name : String) (e : Endpoint) : String :=
  "\n[" ++ name ++ "]\n" ++
    String.join (Part.all.map fun part => Toml.line part.name (Toml.writeText (e.get part)))

end Endpoint

namespace Config

/-- Give a setting a value, if its name is known. -/
def setToml (c : Config) (name : String) (v : Value) : Option Config :=
  if name = Side.source.name then (Endpoint.ofToml? v).map (c.setEndpoint .source)
  else if name = Side.target.name then (Endpoint.ofToml? v).map (c.setEndpoint .target)
  else
    match Setting.ofRun.find? (·.key = name) with
    | some s => (s.kind.ofToml? v).map (c.set s)
    | none => some c

/-- The settings of a document. -/
def ofToml? (text : String) : Option Config := do
  let entries ← Toml.parse? text
  entries.foldlM (fun c (name, v) => setToml c name v) {}

/-- The settings as a document, if every number can be written. -/
def toToml? (c : Config) : Option String := do
  let lines ← Setting.ofRun.mapM fun s => (s.kind.toToml? (c.get s)).map (Toml.line s.key)
  return String.join lines ++ c.source.toToml Side.source.name ++ c.target.toToml Side.target.name

end Config

end ReplicaDiff
