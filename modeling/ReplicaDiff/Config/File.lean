/-
# ReplicaDiff.Config.File — a configuration from a file
-/
import ReplicaDiff.Config.Toml
import ReplicaDiff.FileTree

namespace ReplicaDiff.Config.File

set_option autoImplicit false

/-- Why a configuration could not be loaded. -/
inductive Error where
  | unreadable (path : String) (cause : IoError)
  | malformed (path : String)
deriving DecidableEq

/-- The texts of an error, from what was tried to why it failed. -/
def Error.chain : Error → List String
  | .unreadable path cause => ["failed to read config file " ++ path, cause.message]
  | .malformed path => ["failed to parse config file " ++ path, "not a TOML document of settings"]

/-- The text of a file, which must be UTF-8. -/
def readText (files : Files) (path : String) : Except IoError String := do
  match Text.ofUtf8? (← files path) with
  | some text => .ok text
  | none => .error .notText

/-- The configuration of a file, or the default one where no file is named. -/
def load (files : Files) : Option String → Except Error Config
  | none => .ok {}
  | some path =>
      match readText files path with
      | .error cause => .error (.unreadable path cause)
      | .ok text =>
          match Config.ofToml? text with
          | none => .error (.malformed path)
          | some config => .ok config

end ReplicaDiff.Config.File
