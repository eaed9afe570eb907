/-
# ReplicaDiff.Proofs.Json.Number — a written integer is read back

The digits of an integer are those of its tenth part and one more
(`writeNat_of_ge`), and `significand` gathers them again as long as 64 bits hold
the number (`significand_writeNat`); of a larger one it leaves digits out
(`dropped_of_gt`).  What comes after a value in compact JSON (`Follows`) cannot
belong to a number, so that `readUnsigned` stops there, with the integer itself
(`readUnsigned_writeNat`) or with a fault if it is above the bound
(`readUnsigned_of_gt`).
-/
import ReplicaDiff.Json.Shape
import ReplicaDiff.Json.Writer
import ReplicaDiff.Proofs.Text.Ascii

namespace ReplicaDiff.Json

set_option autoImplicit false

open ReplicaDiff.Text (Bytes utf8)

/-- What may come after a value in compact JSON: nothing, a comma or a closing bracket. -/
def Follows (rest : Bytes) : Prop := ∀ b ∈ rest.head?, b = 44 ∨ b = 93 ∨ b = 125

theorem follows_nil : Follows [] := by simp [Follows]

theorem follows_comma (rest : Bytes) : Follows (44 :: rest) := by simp [Follows]

theorem follows_bracket (rest : Bytes) : Follows (93 :: rest) := by simp [Follows]

theorem follows_brace (rest : Bytes) : Follows (125 :: rest) := by simp [Follows]

/-! ## Digits -/

theorem writeNat_of_lt : ∀ n < 10, writeNat n = [UInt8.ofNat (48 + n)] := by decide

theorem writeNat_of_ge {n : Nat} (large : 10 ≤ n) :
    writeNat n = writeNat (n / 10) ++ [UInt8.ofNat (48 + n % 10)] := by
  rw [← writeNat_of_lt (n % 10) (Nat.mod_lt _ (by decide))]
  unfold writeNat
  rw [← Text.utf8_append]
  exact congrArg utf8 (Nat.repr_eq_repr_append_repr large)

theorem digitValue_ofNat : ∀ d < 10, digitValue (UInt8.ofNat (48 + d)) = d := by decide

theorem isDigit_ofNat : ∀ d < 10, isDigit (UInt8.ofNat (48 + d)) = true := by decide

theorem isDigit_of_mem_writeNat {n : Nat} : ∀ b ∈ writeNat n, isDigit b = true := by
  induction n using Nat.strongRecOn with
  | _ n ih =>
      intro b mem
      by_cases small : n < 10
      · rw [writeNat_of_lt n small, List.mem_singleton] at mem
        exact mem ▸ isDigit_ofNat n small
      · rw [writeNat_of_ge (by omega)] at mem
        rcases List.mem_append.1 mem with mem | mem
        · exact ih (n / 10) (by omega) b mem
        · rw [List.mem_singleton] at mem
          exact mem ▸ isDigit_ofNat _ (Nat.mod_lt _ (by decide))

/-- A written integer begins with a digit, which is zero for zero alone. -/
theorem writeNat_eq_cons (n : Nat) :
    ∃ b tail, writeNat n = b :: tail ∧ isDigit b = true ∧ (b = 48 → n = 0) := by
  induction n using Nat.strongRecOn with
  | _ n ih =>
      by_cases small : n < 10
      · refine ⟨_, [], writeNat_of_lt n small, isDigit_ofNat n small, fun zero => ?_⟩
        have value := digitValue_ofNat n small
        rw [zero] at value
        exact value.symm
      · obtain ⟨b, tail, eq, digit, zero⟩ := ih (n / 10) (by omega)
        refine ⟨b, tail ++ [UInt8.ofNat (48 + n % 10)], ?_, digit, fun h => ?_⟩
        · rw [writeNat_of_ge (by omega), eq, List.cons_append]
        · have := zero h
          omega

/-! ## The value of the digits -/

/-- One more digit, as long as 64 bits hold the number. -/
theorem significand_snoc {acc n : Nat} {digits : Bytes} (whole : significand acc digits = (n, 0))
    {d : UInt8} (fits : n * 10 + digitValue d ≤ maxWord) :
    significand acc (digits ++ [d]) = (n * 10 + digitValue d, 0) := by
  induction digits generalizing acc with
  | nil =>
      cases whole
      simp [significand, fits]
  | cons c digits ih =>
      rw [List.cons_append]
      unfold significand at whole ⊢
      split at whole
      · rename_i below
        rw [if_pos below]
        exact ih whole
      · cases whole

theorem significand_writeNat {n : Nat} (fits : n ≤ maxWord) :
    significand 0 (writeNat n) = (n, 0) := by
  induction n using Nat.strongRecOn with
  | _ n ih =>
      by_cases small : n < 10
      · rw [writeNat_of_lt n small]
        simp only [significand, Nat.zero_mul, Nat.zero_add, digitValue_ofNat n small]
        rw [if_pos fits]
      · have value := digitValue_ofNat (n % 10) (Nat.mod_lt _ (by decide))
        have sum : n / 10 * 10 + n % 10 = n := Nat.div_add_mod' n 10
        have whole := ih (n / 10) (by omega) (by omega)
        rw [writeNat_of_ge (by omega), significand_snoc whole (by rwa [value, sum]), value, sum]

/-- Where no digit was left out, the integer is the value of the digits, and 64 bits hold it. -/
theorem significand_whole {acc n : Nat} {digits : Bytes} (fits : acc ≤ maxWord)
    (whole : significand acc digits = (n, 0)) :
    n = digits.foldl (fun acc d => acc * 10 + digitValue d) acc ∧ n ≤ maxWord := by
  induction digits generalizing acc with
  | nil =>
      cases whole
      exact ⟨rfl, fits⟩
  | cons d digits ih =>
      unfold significand at whole
      split at whole
      · rename_i below
        exact ih below whole
      · cases whole

theorem exponentValue_writeNat (n : Nat) : exponentValue (writeNat n) = n := by
  induction n using Nat.strongRecOn with
  | _ n ih =>
      by_cases small : n < 10
      · rw [writeNat_of_lt n small]
        exact (Nat.zero_add _).trans (digitValue_ofNat n small)
      · have value := digitValue_ofNat (n % 10) (Nat.mod_lt _ (by decide))
        have tens := ih (n / 10) (by omega)
        unfold exponentValue at tens ⊢
        rw [writeNat_of_ge (by omega), List.foldl_append, tens, List.foldl_cons, List.foldl_nil, value]
        exact Nat.div_add_mod' n 10

/-- Digits are left out of an integer that 64 bits do not hold. -/
theorem dropped_of_gt {n : Nat} (large : maxWord < n) : 0 < (significand 0 (writeNat n)).2 := by
  refine Nat.pos_of_ne_zero fun none => ?_
  obtain ⟨value, fits⟩ := significand_whole (Nat.zero_le _) (Prod.ext rfl none)
  exact absurd (value.trans (exponentValue_writeNat n) ▸ fits) (Nat.not_le.2 large)

/-! ## Reading -/

theorem isBlankByte_of_isDigit {b : UInt8} (digit : isDigit b = true) : isBlankByte b = false := by
  refine Bool.eq_false_iff.2 fun blank => ?_
  simp only [isBlankByte, Bool.or_eq_true, decide_eq_true_eq] at blank
  rcases blank with ((rfl | rfl) | rfl) | rfl <;> cases digit

/-- What follows a value is not part of a number. -/
theorem Follows.head {b : UInt8} {rest : Bytes} (h : Follows (b :: rest)) :
    isDigit b = false ∧ b ≠ 46 ∧ b ≠ 101 ∧ b ≠ 69 := by
  rcases h b rfl with rfl | rfl | rfl <;> decide

theorem spanDigits_append {digits rest : Bytes} (all : ∀ b ∈ digits, isDigit b = true)
    (follows : Follows rest) : spanDigits (digits ++ rest) = (digits, rest) := by
  have stop : rest.takeWhile isDigit = [] ∧ rest.dropWhile isDigit = rest := by
    cases rest with
    | nil => exact ⟨rfl, rfl⟩
    | cons b rest => simp [follows.head.1]
  unfold spanDigits
  rw [List.takeWhile_append_of_pos all, List.dropWhile_append_of_pos all, stop.1, stop.2,
    List.append_nil]

/-- The digits of an integer are read as far as they go, and as far as 64 bits hold them. -/
theorem scanMagnitude_digits (n : Nat) {rest : Bytes} (follows : Follows rest) :
    scanMagnitude true (writeNat n ++ rest) =
      if 0 < (significand 0 (writeNat n)).2 then
        finishFraction (significand 0 (writeNat n)).1 (significand 0 (writeNat n)).2 rest
      else .ok (.unsigned (significand 0 (writeNat n)).1, rest) := by
  obtain ⟨b, tail, eq, digit, zero⟩ := writeNat_eq_cons n
  have all : ∀ c ∈ writeNat n, isDigit c = true := isDigit_of_mem_writeNat
  -- A zero in front is the whole number; other digits are taken together.
  have taken : (if b = 48 then ([b], tail ++ rest) else spanDigits (b :: (tail ++ rest))) =
      (writeNat n, rest) := by
    split
    · rename_i leading
      have nothing : writeNat n = [48] := by
        rw [zero leading]
        decide
      rw [nothing] at eq ⊢
      cases eq
      rfl
    · rw [← List.cons_append, ← eq]
      exact spanDigits_append all follows
  have whole : writeNat n ++ rest = b :: (tail ++ rest) := by rw [eq, List.cons_append]
  rw [whole]
  unfold scanMagnitude
  simp only [digit, not_true_eq_false, ↓reduceIte, taken]
  cases rest with
  | nil => rfl
  | cons c rest =>
      obtain ⟨other, point, small, capital⟩ := follows.head
      simp [other, point, small, capital]

theorem scanMagnitude_writeNat {n : Nat} (fits : n ≤ maxWord) {rest : Bytes}
    (follows : Follows rest) :
    scanMagnitude true (writeNat n ++ rest) = .ok (.unsigned n, rest) := by
  rw [scanMagnitude_digits n follows, significand_writeNat fits]
  rfl

/-- A written integer is read back. -/
theorem readUnsigned_writeNat {n bound : Nat} (le : n ≤ bound) (fits : bound ≤ maxWord)
    {rest : Bytes} (follows : Follows rest) :
    readUnsigned bound (writeNat n ++ rest) = .ok (n, rest) := by
  have scanned := scanMagnitude_writeNat (Nat.le_trans le fits) follows
  obtain ⟨b, tail, eq, digit, -⟩ := writeNat_eq_cons n
  have solid := isBlankByte_of_isDigit digit
  rw [eq, List.cons_append] at scanned ⊢
  unfold readUnsigned skipBlank
  rw [List.dropWhile_cons_of_neg (by simp [solid])]
  simp [digit, scanned, le, bind, Except.bind]

/-- What goes on too long to be an integer of 64 bits is not an integer at all. -/
theorem finishFraction_of_follows (digits : Nat) (shift : Int) {rest : Bytes}
    (follows : Follows rest) :
    finishFraction digits shift rest =
      if overflows digits shift then .error .malformed else .ok (.fractional, rest) := by
  cases rest with
  | nil => rfl
  | cons c rest =>
      obtain ⟨-, -, small, capital⟩ := follows.head
      simp [finishFraction, small, capital]

/-- A written integer above the bound is refused, also where 64 bits do not hold it. -/
theorem readUnsigned_of_gt {n bound : Nat} (large : bound < n) {rest : Bytes}
    (follows : Follows rest) : ∃ fault, readUnsigned bound (writeNat n ++ rest) = .error fault := by
  have scanned := scanMagnitude_digits n follows
  obtain ⟨b, tail, eq, digit, -⟩ := writeNat_eq_cons n
  have start : skipBlank (writeNat n ++ rest) = b :: (tail ++ rest) := by
    rw [eq, List.cons_append]
    exact List.dropWhile_cons_of_neg (by simp [isBlankByte_of_isDigit digit])
  have same : writeNat n ++ rest = b :: (tail ++ rest) := by rw [eq, List.cons_append]
  unfold readUnsigned
  rw [start]
  simp only [digit, ↓reduceIte]
  rw [← same, scanned]
  by_cases fits : n ≤ maxWord
  · rw [significand_writeNat fits]
    exact ⟨.mistyped, by simp [bind, Except.bind, Nat.not_le.2 large]⟩
  · rw [if_pos (dropped_of_gt (Nat.not_le.1 fits)), finishFraction_of_follows _ _ follows]
    split
    · exact ⟨.malformed, rfl⟩
    · exact ⟨.mistyped, rfl⟩

end ReplicaDiff.Json
