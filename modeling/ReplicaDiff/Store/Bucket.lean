/-
# ReplicaDiff.Store.Bucket — documents held in memory
-/
import ReplicaDiff.Store

namespace ReplicaDiff

set_option autoImplicit false

/-- The documents of a bucket, held in memory. -/
structure Bucket where
  documents : KeyMap Document
deriving DecidableEq, Inhabited

namespace Bucket

/-- A bucket without documents. -/
def empty : Bucket := ⟨.empty⟩

/-- The bucket in which `key` holds `document`. -/
def insert (b : Bucket) (key : String) (document : Document) : Bucket :=
  ⟨b.documents.insert key document⟩

/-- The document that `key` held, and the bucket without it. -/
def remove (b : Bucket) (key : String) : Option Document × Bucket :=
  (b.documents.find? key, ⟨b.documents.erase key⟩)

/-- What the bucket answers to a fetch. -/
def get (b : Bucket) (key : String) : Outcome :=
  match b.documents.find? key with
  | some document => .ok document
  | none => .error .notFound

/-- Number of documents. -/
def size (b : Bucket) : Nat := b.documents.size

/-- Whether the bucket holds no document. -/
def isEmpty (b : Bucket) : Bool := b.size = 0

/-- The store that answers from the bucket at once. -/
def store (b : Bucket) : Store := ⟨[], b.get⟩

end Bucket

/-- The store that answers every fetch with one error. -/
def Store.failing (message : String) : Store := ⟨[], fun _ => .error (.other message)⟩

end ReplicaDiff
