/-
# ReplicaDiff.Text.Blank — text that shows nothing

The characters of the Unicode property White_Space, and the strings made of them.
-/

namespace ReplicaDiff.Text

set_option autoImplicit false

/-- Whether a character has the property White_Space. -/
def isBlank (c : Char) : Bool :=
  let n := c.toNat
  (9 ≤ n && n ≤ 13) || n = 32 || n = 0x85 || n = 0xA0 || n = 0x1680 ||
    (0x2000 ≤ n && n ≤ 0x200A) || n = 0x2028 || n = 0x2029 || n = 0x202F || n = 0x205F ||
    n = 0x3000

/-- Whether a string has no character but blank ones. -/
def isBlankText (s : String) : Bool := s.toList.all isBlank

end ReplicaDiff.Text
