/-
# ReplicaDiff.Proofs.Text.Ascii — bytes that are characters of their own

A byte below 128 is a character of one byte (`utf8EncodeChar_ofNat`), so that
every list of such bytes is the text of its characters (`utf8_ascii`).
-/
import ReplicaDiff.Text.Utf8

namespace ReplicaDiff.Text

set_option autoImplicit false

theorem utf8_append (s t : String) : utf8 (s ++ t) = utf8 s ++ utf8 t := by
  simp [utf8, ByteArray.data_append]

theorem utf8EncodeChar_ofNat {n : Nat} (small : n < 128) :
    String.utf8EncodeChar (Char.ofNat n) = [UInt8.ofNat n] := by
  have value : (Char.ofNat n).val.toNat = n := by
    unfold Char.ofNat
    rw [dif_pos (.inl (by omega))]
    rfl
  have size : (Char.ofNat n).utf8Size = 1 := by
    rw [Char.utf8Size_eq_one_iff, UInt32.le_iff_toNat_le, value]
    exact Nat.le_of_lt_succ small
  rw [String.utf8EncodeChar_eq_singleton size]
  congr 1
  refine UInt8.toNat_inj.1 ?_
  rw [UInt32.toNat_toUInt8, value, UInt8.toNat_ofNat']

/-- The text whose characters are these bytes. -/
def ascii (bytes : Bytes) : String := String.ofList (bytes.map fun b => Char.ofNat b.toNat)

theorem utf8_ascii {bytes : Bytes} (small : ∀ b ∈ bytes, b.toNat < 128) :
    utf8 (ascii bytes) = bytes := by
  have flat : utf8 (ascii bytes) =
      bytes.flatMap fun b => String.utf8EncodeChar (Char.ofNat b.toNat) := by
    simp [utf8, ascii, List.utf8Encode, List.flatMap_map]
  rw [flat]
  clear flat
  induction bytes with
  | nil => rfl
  | cons b bytes ih =>
      rw [List.flatMap_cons, utf8EncodeChar_ofNat (small b List.mem_cons_self), UInt8.ofNat_toNat,
        ih fun b' mem => small b' (List.mem_cons_of_mem _ mem)]
      rfl

end ReplicaDiff.Text
