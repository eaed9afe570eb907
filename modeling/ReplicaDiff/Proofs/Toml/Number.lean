/-
# ReplicaDiff.Proofs.Toml.Number — a written integer is read back

The digits of a number are those of its tenth part and one more, and only zero
begins with a zero (`exists_digits`).  No digit is a hyphen or a colon, so that
digits alone are taken for neither a date nor a time; they are read as the number
whose digits they are (`numberOrMoment_toString`).
-/
import Mathlib.Data.List.Forall2
import Mathlib.Tactic.SplitIfs
import ReplicaDiff.Config.Toml

namespace ReplicaDiff.Toml

set_option autoImplicit false

/-- Characters, and the decimal digits that they are. -/
abbrev Digits (cs : List Char) (ds : List Nat) : Prop :=
  List.Forall₂ (fun c d => digit? 10 c = some d) cs ds

theorem digit_digitChar : ∀ d < 10, digit? 10 d.digitChar = some d := by decide

theorem ofDigits_snoc (ds : List Nat) (d : Nat) :
    ofDigits 10 (ds ++ [d]) = ofDigits 10 ds * 10 + d := by
  rw [ofDigits, List.foldl_append]
  rfl

/-- The characters of a number are its digits; a zero comes first for zero alone. -/
theorem exists_digits (n : Nat) :
    ∃ d ds, Digits (toString n).toList (d :: ds) ∧ ofDigits 10 (d :: ds) = n ∧ (d = 0 → n = 0) := by
  rw [Nat.toString_eq_repr]
  induction n using Nat.strongRecOn with
  | _ n ih =>
      have last := digit_digitChar (n % 10) (Nat.mod_lt _ (by decide))
      by_cases small : n < 10
      · rw [Nat.mod_eq_of_lt small] at last
        refine ⟨n, [], ?_, Nat.zero_add n, id⟩
        rw [Nat.toList_repr, Nat.toDigits_of_lt_base small]
        exact .cons last .nil
      · obtain ⟨d, ds, chars, value, leading⟩ := ih (n / 10) (by omega)
        refine ⟨d, ds ++ [n % 10], ?_, ?_, fun zero => ?_⟩
        · rw [Nat.repr_eq_repr_append_repr (by omega), String.toList_append, ← List.cons_append,
            @Nat.toList_repr (n % 10), Nat.toDigits_of_lt_base (Nat.mod_lt _ (by decide))]
          exact List.rel_append chars (.cons last .nil)
        · rw [← List.cons_append, ofDigits_snoc, value]
          exact Nat.div_add_mod' n 10
        · have := leading zero
          omega

/-- Nothing but a digit is a decimal digit. -/
theorem isDigit_of_digit {c : Char} {d : Nat} (digit : digit? 10 c = some d) :
    isDigit c = true := by
  obtain ⟨value, below⟩ := Option.filter_eq_some_iff.1 digit
  rw [decide_eq_true_eq] at below
  unfold hexValue? at value
  split_ifs at value with decimal small capital
  · simpa [isDigit] using decimal
  · have : 97 ≤ c.toNat := small.1
    cases value
    omega
  · have : 65 ≤ c.toNat := capital.1
    cases value
    omega

theorem ne_of_digit {c other : Char} {d : Nat} (digit : digit? 10 c = some d)
    (none : isDigit other = false) : c ≠ other := by
  rintro rfl
  rw [isDigit_of_digit digit] at none
  cases none

/-! ## Reading -/

theorem moreDigits_digits {cs : List Char} {ds : List Nat} (digits : Digits cs ds)
    (rest : List Char) : moreDigits 10 (cs ++ '\n' :: rest) = some (ds, '\n' :: rest) := by
  induction digits with
  | nil =>
      rw [List.nil_append, moreDigits.eq_def]
      rfl
  | @cons c d cs ds digit _ ih =>
      have plain : c ≠ '_' := ne_of_digit digit (by decide)
      rw [List.cons_append, moreDigits.eq_def]
      simp [plain, digit, ih]

theorem digits_digits {c : Char} {cs : List Char} {d : Nat} {ds : List Nat}
    (all : Digits (c :: cs) (d :: ds)) (rest : List Char) :
    digits 10 (c :: (cs ++ '\n' :: rest)) = some (d :: ds, '\n' :: rest) := by
  cases all with
  | cons digit more => simp [digits, digit, moreDigits_digits more]

/-- Digits up to the end of a line are not digits up to a mark. -/
theorem append_newline_ne {cs rest tail : List Char} {mark : Char} (front : List Char)
    (all : ∀ c ∈ cs, isDigit c = true) (first : ∀ c ∈ front, isDigit c = true)
    (other : isDigit mark = false) (sameLine : mark ≠ '\n') :
    cs ++ '\n' :: rest ≠ front ++ mark :: tail := by
  intro same
  induction front generalizing cs with
  | nil =>
      cases cs with
      | nil => exact sameLine (List.cons.inj same).1.symm
      | cons c cs =>
          have digit := all c List.mem_cons_self
          rw [(List.cons.inj same).1, other] at digit
          cases digit
  | cons d front ih =>
      cases cs with
      | nil =>
          have digit := first d List.mem_cons_self
          rw [← (List.cons.inj same).1] at digit
          cases digit
      | cons c cs =>
          exact ih (fun b mem => all b (List.mem_cons_of_mem _ mem))
            (fun b mem => first b (List.mem_cons_of_mem _ mem)) (List.cons.inj same).2

theorem startsDate_digits {cs : List Char} (all : ∀ c ∈ cs, isDigit c = true)
    (rest : List Char) : startsDate (cs ++ '\n' :: rest) = false := by
  unfold startsDate
  split
  · rename_i a b c d tail same
    refine Bool.eq_false_iff.2 fun digits => ?_
    refine append_newline_ne [a, b, c, d] all ?_ rfl (by decide) same
    simpa [and_assoc] using digits
  · rfl

theorem startsTime_digits {cs : List Char} (all : ∀ c ∈ cs, isDigit c = true)
    (rest : List Char) : startsTime (cs ++ '\n' :: rest) = false := by
  unfold startsTime
  split
  · rename_i a b tail same
    refine Bool.eq_false_iff.2 fun digits => ?_
    refine append_newline_ne [a, b] all ?_ rfl (by decide) same
    simpa using digits
  · rfl

/-- What begins with a digit other than zero is a decimal number. -/
theorem number_of_digit {c : Char} {d : Nat} (digit : digit? 10 c = some d) (nonzero : c ≠ '0')
    (tail : List Char) : number (c :: tail) = afterSign false (c :: tail) := by
  have plus : c ≠ '+' := ne_of_digit digit rfl
  have minus : c ≠ '-' := ne_of_digit digit rfl
  unfold number
  split <;> simp_all

theorem afterSign_digits {c : Char} {cs : List Char} {d : Nat} {ds : List Nat}
    (all : Digits (c :: cs) (d :: ds)) (nonzero : c ≠ '0') (rest : List Char) :
    afterSign false (c :: (cs ++ '\n' :: rest)) = afterWhole false (d :: ds) ('\n' :: rest) := by
  have digit : digit? 10 c = some d := (List.forall₂_cons.1 all).1
  have infinite : c ≠ 'i' := ne_of_digit digit rfl
  have none : c ≠ 'n' := ne_of_digit digit rfl
  have read := digits_digits all rest
  unfold afterSign
  split
  · simp_all
  · simp_all
  · unfold wholeDigits
    split
    · simp_all
    · rw [read]
      rfl

/-- A written number is read back, if its line ends after it. -/
theorem numberOrMoment_toString {n : Nat} (fits : n ≤ maxInteger) (rest : List Char) :
    numberOrMoment ((toString n).toList ++ '\n' :: rest) = some (.integer n, '\n' :: rest) := by
  obtain ⟨d, ds, all, value, leading⟩ := exists_digits n
  have plain : ∀ c ∈ (toString n).toList, isDigit c = true := fun c mem => by
    obtain ⟨i, bound, rfl⟩ := List.mem_iff_getElem.1 mem
    exact isDigit_of_digit (all.get bound (all.length_eq ▸ bound))
  have whole : integer? n = some (.integer n) := by
    unfold maxInteger at fits
    exact if_pos (by omega)
  unfold numberOrMoment
  rw [startsDate_digits plain, startsTime_digits plain]
  simp only [Bool.false_eq_true, ↓reduceIte]
  by_cases zero : n = 0
  · subst zero
    rfl
  · cases eq : (toString n).toList with
    | nil => rw [eq] at all; cases all
    | cons c cs =>
        rw [eq] at all
        have digit : digit? 10 c = some d := (List.forall₂_cons.1 all).1
        have nonzero : c ≠ '0' := by
          rintro rfl
          exact zero (leading (Option.some.inj digit).symm)
        rw [List.cons_append, number_of_digit digit nonzero, afterSign_digits all nonzero]
        simp only [afterWhole, value, Bool.false_eq_true, ↓reduceIte, whole]
        rfl

end ReplicaDiff.Toml
