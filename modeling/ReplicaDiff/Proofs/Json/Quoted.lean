/-
# ReplicaDiff.Proofs.Json.Quoted — a written string is read back

`scanQuoted` undoes the escape of each byte (`scanQuoted_escapeByte`), so that it
gives back the bytes of a written string and what comes after its closing
quotation mark (`scanQuoted_escaped`).
-/
import ReplicaDiff.Json.Quoted
import ReplicaDiff.Proofs.Text.Ascii

namespace ReplicaDiff.Json

set_option autoImplicit false

open ReplicaDiff.Text (Bytes ofUtf8? utf8)

/-! ## One step of the reader -/

theorem scanQuoted_quote (rest : Bytes) : scanQuoted (quoteByte :: rest) = .ok ([], rest) := by
  rw [scanQuoted.eq_def]
  exact if_pos rfl

theorem scanQuoted_plain {b : UInt8} (quote : b ≠ quoteByte) (backslash : b ≠ backslashByte)
    (control : ¬b < 32) (rest : Bytes) :
    scanQuoted (b :: rest) = before [b] (scanQuoted rest) := by
  rw [scanQuoted.eq_def]
  exact (if_neg quote).trans ((if_neg backslash).trans (if_neg control))

theorem scanQuoted_short {e c : UInt8} (letter : e ≠ 117) (short : shortEscape? e = some c)
    (rest : Bytes) : scanQuoted (backslashByte :: e :: rest) = before [c] (scanQuoted rest) := by
  rw [scanQuoted.eq_def]
  refine (if_neg (by decide)).trans ((if_pos rfl).trans ((if_neg letter).trans ?_))
  rw [short]

theorem scanQuoted_unit {h₁ h₂ h₃ h₄ : UInt8} {u : Nat} (unit : codeUnit? h₁ h₂ h₃ h₄ = some u)
    (leading : isLeading u = false) (trailing : isTrailing u = false) (rest : Bytes) :
    scanQuoted (backslashByte :: 117 :: h₁ :: h₂ :: h₃ :: h₄ :: rest) =
      before (codePoint u) (scanQuoted rest) := by
  rw [scanQuoted.eq_def]
  refine (if_neg (by decide)).trans ((if_pos rfl).trans ((if_pos rfl).trans ?_))
  simp only [unit]
  exact (if_neg (by simp [trailing])).trans (if_neg (by simp [leading]))

/-! ## What is written -/

theorem hexValue?_hexDigit : ∀ n < 16, hexValue? (hexDigit n) = some n := by decide

/-- The code unit of a control character is written with two zeros in front. -/
theorem codeUnit?_control {b : UInt8} (control : b < 32) :
    codeUnit? 48 48 (hexDigit (b.toNat / 16)) (hexDigit (b.toNat % 16)) = some b.toNat := by
  have small : b.toNat < 32 := UInt8.lt_iff_toNat_lt.1 control
  unfold codeUnit?
  rw [hexValue?_hexDigit _ (by omega), hexValue?_hexDigit _ (by omega)]
  show some (((0 * 16 + 0) * 16 + b.toNat / 16) * 16 + b.toNat % 16) = some b.toNat
  congr 1
  omega

/-- A byte is written as a backslash with a letter, as a code unit, or as itself. -/
theorem escapeByte_cases (b : UInt8) :
    (∃ e, escapeByte b = [backslashByte, e] ∧ e ≠ 117 ∧ shortEscape? e = some b) ∨
      (∃ h₁ h₂ h₃ h₄, escapeByte b = [backslashByte, 117, h₁, h₂, h₃, h₄] ∧
        codeUnit? h₁ h₂ h₃ h₄ = some b.toNat ∧ b < 32) ∨
      escapeByte b = [b] ∧ b ≠ quoteByte ∧ b ≠ backslashByte ∧ ¬b < 32 := by
  -- The cases are those of `escapeByte`: seven short escapes, the other control characters, and
  -- the bytes that stand for themselves.
  unfold escapeByte
  split
  · rename_i quote
    subst quote
    exact .inl ⟨_, rfl, by decide, rfl⟩
  · rename_i quote
    split
    · rename_i backslash
      subst backslash
      exact .inl ⟨_, rfl, by decide, rfl⟩
    · rename_i backslash
      iterate 5
        split
        · rename_i short
          subst short
          exact .inl ⟨_, rfl, by decide, rfl⟩
      split
      · rename_i control
        exact .inr (.inl ⟨_, _, _, _, rfl, codeUnit?_control control, control⟩)
      · rename_i control
        exact .inr (.inr ⟨rfl, quote, backslash, control⟩)

theorem scanQuoted_escapeByte (b : UInt8) (rest : Bytes) :
    scanQuoted (escapeByte b ++ rest) = before [b] (scanQuoted rest) := by
  rcases escapeByte_cases b with ⟨e, eq, letter, short⟩ | ⟨h₁, h₂, h₃, h₄, eq, unit, control⟩ |
    ⟨eq, quote, backslash, control⟩
  · rw [eq]
    exact scanQuoted_short letter short rest
  · have small : b.toNat < 32 := UInt8.lt_iff_toNat_lt.1 control
    have point : codePoint b.toNat = [b] := by
      unfold codePoint
      rw [Text.utf8EncodeChar_ofNat (by omega), UInt8.ofNat_toNat]
    rw [eq, ← point]
    refine scanQuoted_unit unit ?_ ?_ rest
    · simp only [isLeading, Bool.and_eq_false_iff, decide_eq_false_iff_not]
      omega
    · simp only [isTrailing, Bool.and_eq_false_iff, decide_eq_false_iff_not]
      omega
  · rw [eq]
    exact scanQuoted_plain quote backslash control rest

theorem scanQuoted_escaped (bytes rest : Bytes) :
    scanQuoted (bytes.flatMap escapeByte ++ quoteByte :: rest) = .ok (bytes, rest) := by
  induction bytes with
  | nil => exact scanQuoted_quote rest
  | cons b bytes ih =>
      rw [List.flatMap_cons, List.append_assoc, scanQuoted_escapeByte, ih]
      rfl

/-- A written string, after its opening quotation mark, is read back. -/
theorem quotedText_escaped (s : String) (rest : Bytes) :
    quotedText ((utf8 s).flatMap escapeByte ++ quoteByte :: rest) = .ok (s, rest) := by
  unfold quotedText
  rw [scanQuoted_escaped]
  simp [bind, Except.bind, Text.ofUtf8?_utf8]

end ReplicaDiff.Json
