/-
# ReplicaDiff.Fetch — what one fetch of a key answers

A fetch answers with a document or with a reason why there is none.  That a key
is absent is one such reason; a store may also say it in words, and
`FetchError.isNotFound` takes both for the same.
-/
import ReplicaDiff.Document

namespace ReplicaDiff

set_option autoImplicit false

/-- The words by which a store says that it holds no document for a key. -/
def keyNotFoundText : String := "key not found"

/-- Why a fetch brought no document. -/
inductive FetchError where
  | notFound
  | other (message : String)
deriving DecidableEq

/-- The text of a fetch error. -/
def FetchError.message : FetchError → String
  | .notFound => keyNotFoundText
  | .other message => message

/-- Whether the error says that the key is absent. -/
def FetchError.isNotFound : FetchError → Bool
  | .notFound => true
  | .other message => message = keyNotFoundText

/-- What a fetch answers. -/
abbrev Outcome := Except FetchError Document

instance : DecidableEq Outcome
  | .ok a, .ok b => if h : a = b then isTrue (h ▸ rfl) else isFalse fun e => h (by cases e; rfl)
  | .error a, .error b => if h : a = b then isTrue (h ▸ rfl) else isFalse fun e => h (by cases e; rfl)
  | .ok _, .error _ => isFalse nofun
  | .error _, .ok _ => isFalse nofun

/-- The result of one key on one side: no outcome as long as it is pending. -/
structure SideResult where
  key : String
  outcome : Option Outcome
deriving DecidableEq

namespace SideResult

/-- The result of a key that has not been answered. -/
def pending (key : String) : SideResult := ⟨key, none⟩

/-- Whether an answer has arrived. -/
def isComplete (r : SideResult) : Bool := r.outcome.isSome

/-- The document, if the answer is one. -/
def document? (r : SideResult) : Option Document :=
  match r.outcome with
  | some (.ok document) => some document
  | _ => none

end SideResult

end ReplicaDiff
