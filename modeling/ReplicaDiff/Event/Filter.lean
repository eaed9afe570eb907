/-
# ReplicaDiff.Event.Filter — which events are told

A filter is a list of rules.  A rule speaks of the parts of the program whose name
begins with its own, and of events that have certain fields, and says how
unimportant such an event may be.  The most specific rule that speaks of an event
decides; an event of which none speaks is not told.

A filter is written as rules with commas between them: a level alone, or the name
of a part with an equals sign and a level.
-/
import ReplicaDiff.Event
import ReplicaDiff.Text.Split

namespace ReplicaDiff.Event

set_option autoImplicit false

/-- A rule of a filter. -/
structure Rule where
  /-- How the names of the parts begin that the rule speaks of. -/
  scope : String
  /-- The fields that an event must have. -/
  required : List String
  /-- The highest rank of a level that is told, zero for none. -/
  limit : Nat
deriving DecidableEq

/-- The rules of a filter. -/
abbrev Filter := List Rule

namespace Rule

/-- The names of the fields of an event, its message included. -/
def fieldNames (e : Event) : List String := "message" :: e.fields.map (·.1)

/-- Whether a rule speaks of an event. -/
def covers (r : Rule) (e : Event) : Bool :=
  r.scope.toList.isPrefixOf e.target.toList &&
    r.required.all fun name => (fieldNames e).contains name

/-- Whether a rule is no less specific than another: its scope is longer, or equally long and it
requires more fields, or as many and they come no earlier in the order of texts. -/
def atLeastAsSpecific (a b : Rule) : Bool :=
  if a.scope.utf8ByteSize = b.scope.utf8ByteSize then
    if a.required.length = b.required.length then !decide (a.required < b.required)
    else decide (b.required.length < a.required.length)
  else decide (b.scope.utf8ByteSize < a.scope.utf8ByteSize)

/-- The more specific of two rules, and the second of equal ones. -/
def moreSpecific (a b : Rule) : Rule := if b.atLeastAsSpecific a then b else a

end Rule

namespace Filter

/-- The rule that decides on an event. -/
def ruleFor? (f : Filter) (e : Event) : Option Rule :=
  match f.filter (·.covers e) with
  | [] => none
  | r :: rest => some (rest.foldl Rule.moreSpecific r)

/-- Whether an event is told. -/
def allows (f : Filter) (e : Event) : Bool :=
  match f.ruleFor? e with
  | some r => decide (e.level.rank ≤ r.limit)
  | none => false

/-- The filter that tells of everything up to a level. -/
def upTo (level : Level) : Filter := [⟨"", [], level.rank⟩]

/-! ## The written form -/

/-- The limits that have a name. -/
def limitNames : List (String × Nat) :=
  ("off", 0) :: [Level.error, .warn, .info, .debug, .trace].map fun l => (l.name.toLower, l.rank)

/-- The limit of a text: a name in any case, or one digit. -/
def limit? (text : List Char) : Option Nat :=
  match limitNames.find? fun n => n.1.toList = text.map Char.toLower with
  | some n => some n.2
  | none =>
      match text with
      | [c] => if '0' ≤ c ∧ c ≤ '5' then some (c.toNat - '0'.toNat) else none
      | _ => none

/-- A character of the name of a part. -/
def isScopeChar (c : Char) : Bool :=
  c.isAlphanum || c = '_' || c = ':' || c = '-' || 0x80 ≤ c.toNat

/-- A text in brackets, without them, and what follows it. -/
def bracketed : List Char → Option (List Char × List Char)
  | '[' :: rest =>
      match rest.dropWhile (· != ']') with
      | ']' :: after => some (rest.takeWhile (· != ']'), after)
      | _ => none
  | _ => none

/-- What stands before the level of a rule: the name of a part and a text in brackets. -/
structure Subject where
  scope : List Char := []
  brackets : List Char := []

/-- Read a name or a text in brackets. -/
def readSubject (s : Subject) (input : List Char) : Option (Subject × List Char) :=
  match bracketed input with
  | some (inside, rest) => some ({ s with brackets := inside }, rest)
  | none =>
      let scope := input.takeWhile isScopeChar
      if scope.isEmpty then none else some ({ s with scope }, input.dropWhile isScopeChar)

/-- Read the end of a rule: nothing, or an equals sign and perhaps a limit, without which all is
told. -/
def readLimit? : List Char → Option Nat
  | [] => some Level.trace.rank
  | ['='] => some Level.trace.rank
  | '=' :: text => limit? text
  | _ => none

/-- Where a rule applies, as its brackets tell.  Those that name a span of work or the value of a
field apply to no event. -/
inductive Place where
  | everywhere
  | withField (name : String)
  | nowhere

/-- Read a text in brackets: the name of a span, and a field in braces. -/
def placeOf (brackets : List Char) : Place :=
  let isOpen (c : Char) : Bool := c = '\x7b'
  let isClose (c : Char) : Bool := c = '\x7d'
  match brackets.takeWhile (fun c => !isOpen c), brackets.dropWhile (fun c => !isOpen c) with
  | [], [] => .everywhere
  | [], _ :: inside =>
      if !inside.any isClose then .everywhere
      else
        let field := inside.takeWhile fun c => !isClose c
        if field.isEmpty then .everywhere
        else if field.contains '=' then .nowhere
        else .withField (String.ofList field)
  | _ :: _, _ => .nowhere

/-- The rule of a subject and a limit, if it can apply to an event.  A scope that reads as a limit
is none. -/
def ruleOf (s : Subject) (limit : Nat) : Option Rule :=
  let scope := if (limit? s.scope).isSome then "" else String.ofList s.scope
  match placeOf s.brackets with
  | .everywhere => some ⟨scope, [], limit⟩
  | .withField name => some ⟨scope, [name], limit⟩
  | .nowhere => none

/-- Read a rule; of one that can apply to no event, nothing is kept. -/
def parseRule? (text : List Char) : Option (Option Rule) :=
  match limit? text with
  | some limit => some (some ⟨"", [], limit⟩)
  | none => do
      let (subject, rest) ← readSubject {} text
      match readLimit? rest with
      | some limit => return ruleOf subject limit
      | none =>
          let (subject, rest) ← readSubject subject rest
          return ruleOf subject (← readLimit? rest)

/-- Read a filter.  One without rules tells of errors. -/
def parse? (text : String) : Option Filter := do
  let rules ← ((Text.split ',' text.toList).filter (!·.isEmpty)).mapM parseRule?
  if rules.isEmpty then return upTo .error else return rules.filterMap id

/-! ## The choice of a filter -/

/-- The variables of the environment that may hold a filter, in the order in which they are
asked. -/
def variableNames : List String := ["XDIFF_LOG", "RUST_LOG"]

/-- The filter of the first variable that holds one, or that of a level. -/
def choose (valueOf : String → Option String) (level : Level) : Filter :=
  (variableNames.findSome? fun name => (valueOf name).bind parse?).getD (upTo level)

end Filter

end ReplicaDiff.Event
