/-
# ReplicaDiff.Text.Split — the stretches between separators
-/

namespace ReplicaDiff.Text

set_option autoImplicit false

/-- The stretches between the separators of a text, empty ones included. -/
def split (separator : Char) : List Char → List (List Char)
  | [] => [[]]
  | c :: rest =>
      if c = separator then [] :: split separator rest
      else
        match split separator rest with
        | [] => [[c]]
        | stretch :: others => (c :: stretch) :: others

end ReplicaDiff.Text
