/-
# ReplicaDiff.Proofs.Toml.Text — a written string is read back

Between quotation marks a character is written as itself or as an escape
(`Written`), and both are read back as the character, on one line or on several
(`basicText_written`, `basicLines_written`).  Between apostrophes every character
stands for itself; a string is written there only if it has no run of three
apostrophes and none at its end, so that no run of them can be taken for its end
(`literalLines_closed`).  Whichever of the five forms `writeText` chooses,
`anyText` gives the string back (`anyText_writeText`).
-/
import Mathlib.Tactic.SplitIfs
import ReplicaDiff.Toml.Text
import ReplicaDiff.Toml.Writer

namespace ReplicaDiff.Toml

set_option autoImplicit false

/-! ## Escapes -/

theorem hexNumber_append {k acc n : Nat} {ds : List Char} (reads : hexNumber k acc ds = some (n, []))
    (tail : List Char) : hexNumber k acc (ds ++ tail) = some (n, tail) := by
  induction k generalizing acc ds with
  | zero =>
      cases reads
      rfl
  | succ k ih =>
      cases ds with
      | nil => cases reads
      | cons d ds =>
          rw [List.cons_append]
          unfold hexNumber at reads ⊢
          cases value : hexValue? d with
          | none =>
              rw [value] at reads
              cases reads
          | some v =>
              rw [value] at reads
              exact ih reads

theorem hexNumber_fourDigits : ∀ n < 128, hexNumber 4 0 (fourDigits n) = some (n, []) := by decide

/-- The digits of a control character are read back. -/
theorem escape_control {c : Char} (control : isControl c = true) (tail : List Char) :
    escape ('u' :: (fourDigits c.toNat ++ tail)) = some (c, tail) := by
  have small : c.toNat < 128 := by
    simp only [isControl, Bool.or_eq_true, decide_eq_true_eq] at control
    omega
  have valid : c.toNat.isValidChar := .inl (by omega)
  have digits := hexNumber_append (hexNumber_fourDigits _ small) tail
  simp [escape, escape.scalar, digits, valid, Char.ofNat_toNat]

/-- Letters after a backslash that stand for a character.  They do not look like the blanks that
may stand between a backslash and the end of its line. -/
structure Escapes (letters : List Char) (c : Char) : Prop where
  reads : ∀ tail, escape (letters ++ tail) = some (c, tail)
  solid : ∀ tail, afterNewline? ((letters ++ tail).dropWhile isSpace) = none

/-- How a character can be written between quotation marks. -/
inductive Written (c : Char) : List Char → Prop where
  | plain (quote : c ≠ '"') (backslash : c ≠ '\\') (feed : c ≠ '\n') (back : c ≠ '\r')
      (plain : isPlain c = true) : Written c [c]
  | escaped {letters : List Char} (escapes : Escapes letters c) : Written c ('\\' :: letters)

theorem written_writeChar {lines : Bool} {c : Char} (oneLine : lines = true → c ≠ '\n') :
    Written c (writeChar lines c) := by
  unfold writeChar
  split_ifs with back tab feed several form carriage quote backslash control
  · exact .escaped (back ▸ ⟨fun _ => rfl, fun _ => rfl⟩)
  · exact .escaped (tab ▸ ⟨fun _ => rfl, fun _ => rfl⟩)
  · exact absurd feed (oneLine several)
  · exact .escaped (feed ▸ ⟨fun _ => rfl, fun _ => rfl⟩)
  · exact .escaped (form ▸ ⟨fun _ => rfl, fun _ => rfl⟩)
  · exact .escaped (carriage ▸ ⟨fun _ => rfl, fun _ => rfl⟩)
  · subst quote
    exact .escaped ⟨fun _ => rfl, fun _ => rfl⟩
  · subst backslash
    exact .escaped ⟨fun _ => rfl, fun _ => rfl⟩
  · exact .escaped ⟨escape_control control, fun _ => rfl⟩
  · refine .plain quote backslash feed carriage ?_
    simp only [isControl, Bool.or_eq_true, decide_eq_true_eq, not_or] at control
    simp only [isPlain, Bool.or_eq_true, Bool.and_eq_true, decide_eq_true_eq]
    omega

theorem Written.ne_nil {c : Char} {w : List Char} (h : Written c w) : w ≠ [] := by
  cases h <;> exact List.cons_ne_nil _ _

theorem length_le_flatMap {f : Char → List Char} (nonempty : ∀ c, f c ≠ []) (cs : List Char) :
    cs.length ≤ (cs.flatMap f).length := by
  induction cs with
  | nil => exact Nat.zero_le _
  | cons c cs ih =>
      have one : 0 < (f c).length := List.length_pos_iff.2 (nonempty c)
      rw [List.flatMap_cons, List.length_append, List.length_cons]
      omega

theorem writeChar_ne_nil (lines : Bool) (c : Char) : writeChar lines c ≠ [] := by
  by_cases feed : lines = true ∧ c = '\n'
  · obtain ⟨rfl, rfl⟩ := feed
    decide
  · exact (written_writeChar fun several same => feed ⟨several, same⟩).ne_nil

/-! ## Between quotation marks -/

theorem afterNewline_of_other {c : Char} (feed : c ≠ '\n') (back : c ≠ '\r') (tail : List Char) :
    afterNewline? (c :: tail) = none := by
  unfold afterNewline?
  split <;> simp_all

theorem basicText_step {c : Char} {w : List Char} (h : Written c w) (fuel : Nat)
    (tail : List Char) :
    basicText (fuel + 1) (w ++ tail) = before [c] (basicText fuel tail) := by
  cases h with
  | plain quote backslash feed back plain => simp [basicText, quote, backslash, plain]
  | escaped escapes => simp [basicText, escapes.reads]

/-- A string on one line is read up to its closing mark. -/
theorem basicText_written {cs : List Char} {fuel : Nat} (enough : cs.length < fuel)
    (rest : List Char) :
    basicText fuel (cs.flatMap (writeChar false) ++ '"' :: rest) = some (cs, rest) := by
  induction cs generalizing fuel with
  | nil =>
      obtain ⟨fuel, rfl⟩ := Nat.exists_eq_succ_of_ne_zero (Nat.ne_zero_of_lt enough)
      rfl
  | cons c cs ih =>
      obtain ⟨fuel, rfl⟩ := Nat.exists_eq_succ_of_ne_zero (Nat.ne_zero_of_lt enough)
      have written : Written c (writeChar false c) := written_writeChar nofun
      rw [List.flatMap_cons, List.append_assoc, basicText_step written,
        ih (Nat.lt_of_succ_lt_succ enough)]
      rfl

theorem basicLines_step {c : Char} {w : List Char} (h : Written c w) (fuel : Nat)
    (tail : List Char) :
    basicLines (fuel + 1) (w ++ tail) = before [c] (basicLines fuel tail) := by
  cases h with
  | plain quote backslash feed back plain =>
      simp [basicLines, quote, backslash, afterNewline_of_other feed back tail, plain]
  | escaped escapes => simp [basicLines, escapes.reads, escapes.solid]

theorem basicLines_newline (fuel : Nat) (tail : List Char) :
    basicLines (fuel + 1) ('\n' :: tail) = before ['\n'] (basicLines fuel tail) := by
  simp [basicLines, afterNewline?]

/-- Three marks end a string over several lines, if no other mark follows. -/
theorem marks_three (mark : Char) {rest : List Char} (other : rest.head? ≠ some mark) :
    marks mark (mark :: mark :: mark :: rest) = .closing [] rest := by
  have stop : rest.takeWhile (· = mark) = [] := by
    cases rest with
    | nil => rfl
    | cons c rest =>
        refine List.takeWhile_cons_of_neg ?_
        simpa using other
  simp [marks, stop, mostMarks]

/-- A string over several lines is read up to its closing marks. -/
theorem basicLines_written {cs : List Char} {fuel : Nat} (enough : cs.length < fuel)
    {rest : List Char} (other : rest.head? ≠ some '"') :
    basicLines fuel (cs.flatMap (writeChar true) ++ '"' :: '"' :: '"' :: rest) =
      some (cs, rest) := by
  induction cs generalizing fuel with
  | nil =>
      obtain ⟨fuel, rfl⟩ := Nat.exists_eq_succ_of_ne_zero (Nat.ne_zero_of_lt enough)
      simp [basicLines, marks_three '"' other]
  | cons c cs ih =>
      obtain ⟨fuel, rfl⟩ := Nat.exists_eq_succ_of_ne_zero (Nat.ne_zero_of_lt enough)
      have onward := ih (Nat.lt_of_succ_lt_succ enough)
      rw [List.flatMap_cons, List.append_assoc]
      by_cases feed : c = '\n'
      · subst feed
        rw [show writeChar true '\n' = ['\n'] from rfl, List.singleton_append, basicLines_newline,
          onward]
        rfl
      · rw [basicLines_step (written_writeChar fun _ => feed), onward]
        rfl

/-! ## Between apostrophes -/

/-- Characters that can stand between apostrophes. -/
def isLiteral (c : Char) : Bool := c = '\t' || c = '\n' || !isControl c

theorem isPlain_of_isLiteral {c : Char} (literal : isLiteral c = true) (feed : c ≠ '\n') :
    isPlain c = true := by
  simp only [isLiteral, isControl, Bool.or_eq_true, Bool.not_eq_true', decide_eq_true_eq,
    Bool.or_eq_false_iff, decide_eq_false_iff_not] at literal
  simp only [isPlain, Bool.or_eq_true, Bool.and_eq_true, decide_eq_true_eq]
  rcases literal with (tab | same) | printable
  · exact .inl tab
  · exact absurd same feed
  · omega

theorem ne_return_of_isLiteral {c : Char} (literal : isLiteral c = true) : c ≠ '\r' := by
  rintro rfl
  cases literal

/-- A string on one line is read up to its closing apostrophe. -/
theorem literalText_closed {cs : List Char} (literal : ∀ c ∈ cs, isLiteral c = true)
    (oneLine : '\n' ∉ cs) (unmarked : '\x27' ∉ cs) (rest : List Char) :
    literalText (cs ++ '\x27' :: rest) = some (cs, rest) := by
  induction cs with
  | nil => rfl
  | cons c cs ih =>
      simp only [List.mem_cons, not_or] at oneLine unmarked
      have plain := isPlain_of_isLiteral (literal c List.mem_cons_self) (Ne.symm oneLine.1)
      have onward := ih (fun d mem => literal d (List.mem_cons_of_mem _ mem)) oneLine.2 unmarked.2
      rw [List.cons_append, literalText, if_neg (Ne.symm unmarked.1), if_pos plain, onward]
      rfl

/-- Text in which every run of apostrophes is short and followed by something else. -/
inductive ShortRuns : List Char → Prop where
  | nil : ShortRuns []
  | plain {c : Char} {cs : List Char} (literal : isLiteral c = true) (other : c ≠ '\x27')
      (tail : ShortRuns cs) : ShortRuns (c :: cs)
  | run {n : Nat} {c : Char} {cs : List Char} (positive : 0 < n) (few : n < 3) (other : c ≠ '\x27')
      (tail : ShortRuns (c :: cs)) : ShortRuns (List.replicate n '\x27' ++ c :: cs)

/-- Runs are counted from the left, so that one may be open where the rest of the text begins. -/
theorem shortRuns_of_open {cs : List Char} (run : Nat) (literal : ∀ c ∈ cs, isLiteral c = true)
    (few : longestRun run cs < 3)
    (ends : (List.replicate run '\x27' ++ cs).getLast? ≠ some '\x27') :
    ShortRuns (List.replicate run '\x27' ++ cs) := by
  induction cs generalizing run with
  | nil =>
      cases run with
      | zero => exact .nil
      | succ run => simp [List.replicate_succ'] at ends
  | cons c cs ih =>
      have onward (n : Nat) := ih n fun d mem => literal d (List.mem_cons_of_mem _ mem)
      by_cases mark : c = '\x27'
      · subst mark
        have longer : List.replicate run '\x27' ++ '\x27' :: cs =
            List.replicate (run + 1) '\x27' ++ cs := by
          rw [List.replicate_succ', List.append_assoc, List.singleton_append]
        rw [longer] at ends ⊢
        rw [longestRun, if_pos rfl] at few
        exact onward (run + 1) few ends
      · rw [longestRun, if_neg mark] at few
        have tail : ShortRuns (c :: cs) := by
          refine .plain (literal c List.mem_cons_self) mark (onward 0 (by omega) fun last => ends ?_)
          have last : cs.getLast? = some '\x27' := last
          rw [List.getLast?_append, List.getLast?_cons, last]
          rfl
        cases run with
        | zero => exact tail
        | succ run => exact .run (Nat.succ_pos run) (by omega) mark tail

theorem literalLines_step {c : Char} (literal : isLiteral c = true) (other : c ≠ '\x27')
    (fuel : Nat) (tail : List Char) :
    literalLines (fuel + 1) (c :: tail) = before [c] (literalLines fuel tail) := by
  rw [literalLines, if_neg other]
  by_cases feed : c = '\n'
  · subst feed
    rfl
  · rw [afterNewline_of_other feed (ne_return_of_isLiteral literal)]
    simp only [isPlain_of_isLiteral literal feed, ↓reduceIte]

/-- One or two apostrophes before another character stand for themselves. -/
theorem literalLines_run {run : Nat} (few : run < 3) (positive : 0 < run) {c : Char}
    (other : c ≠ '\x27') (fuel : Nat) (tail : List Char) :
    literalLines (fuel + 1) (List.replicate run '\x27' ++ c :: tail) =
      before (List.replicate run '\x27') (literalLines fuel (c :: tail)) := by
  have looked : marks '\x27' (List.replicate run '\x27' ++ c :: tail) =
      .inside (List.replicate run '\x27') (c :: tail) := by
    have length : ((List.replicate run '\x27' ++ c :: tail).takeWhile (· = '\x27')).length = run := by
      rw [List.takeWhile_append_of_pos (by simp), List.takeWhile_cons_of_neg (by simpa using other)]
      simp
    unfold marks
    simp only [length, mostMarks, show min 5 run = run by omega, if_pos few]
    rw [List.drop_left' List.length_replicate]
  obtain ⟨more, rfl⟩ := Nat.exists_eq_succ_of_ne_zero (Nat.ne_of_gt positive)
  rw [List.replicate_succ, List.cons_append] at looked ⊢
  rw [literalLines, if_pos rfl, looked]

/-- A string over several lines is read up to its closing apostrophes. -/
theorem literalLines_closed {cs : List Char} (short : ShortRuns cs) {fuel : Nat}
    (enough : cs.length < fuel) {rest : List Char} (other : rest.head? ≠ some '\x27') :
    literalLines fuel (cs ++ '\x27' :: '\x27' :: '\x27' :: rest) = some (cs, rest) := by
  induction short generalizing fuel with
  | nil =>
      obtain ⟨fuel, rfl⟩ := Nat.exists_eq_succ_of_ne_zero (Nat.ne_zero_of_lt enough)
      simp [literalLines, marks_three '\x27' other]
  | plain literal different tail ih =>
      obtain ⟨fuel, rfl⟩ := Nat.exists_eq_succ_of_ne_zero (Nat.ne_zero_of_lt enough)
      rw [List.cons_append, literalLines_step literal different, ih (Nat.lt_of_succ_lt_succ enough)]
      rfl
  | run positive few different tail ih =>
      obtain ⟨fuel, rfl⟩ := Nat.exists_eq_succ_of_ne_zero (Nat.ne_zero_of_lt enough)
      rw [List.length_append, List.length_replicate] at enough
      rw [List.append_assoc, List.cons_append, literalLines_run few positive different,
        ← List.cons_append, ih (by omega)]
      rfl

/-! ## Either way -/

theorem shortRuns_of_fitsLiteral {cs : List Char} (fits : fitsLiteral cs = true) :
    (∀ c ∈ cs, isLiteral c = true) ∧ ShortRuns cs := by
  simp only [fitsLiteral, Bool.and_eq_true, List.all_eq_true, decide_eq_true_eq, bne_iff_ne] at fits
  obtain ⟨⟨literal, few⟩, ends⟩ := fits
  exact ⟨literal, shortRuns_of_open 0 literal few ends⟩

/-- The rest of a string in its final form. -/
def finish (result : Option (List Char × List Char)) : Option (String × List Char) :=
  result.map fun (cs, rest) => (String.ofList cs, rest)

theorem anyText_basic {tail : List Char} (one : tail.take 2 ≠ ['"', '"']) :
    anyText ('"' :: tail) = finish (basicText (tail.length + 1) tail) := by
  unfold anyText
  split <;> simp_all [finish]

theorem anyText_literal {tail : List Char} (one : tail.take 2 ≠ ['\x27', '\x27']) :
    anyText ('\x27' :: tail) = finish (literalText tail) := by
  unfold anyText
  split <;> simp_all [finish]

theorem anyText_basicLines (tail : List Char) :
    anyText ('"' :: '"' :: '"' :: tail) =
      finish (basicLines (tail.length + 1) ((afterNewline? tail).getD tail)) := rfl

theorem anyText_literalLines (tail : List Char) :
    anyText ('\x27' :: '\x27' :: '\x27' :: tail) =
      finish (literalLines (tail.length + 1) ((afterNewline? tail).getD tail)) := rfl

theorem take_two_ne {mark c : Char} (other : c ≠ mark) (tail : List Char) :
    (c :: tail).take 2 ≠ [mark, mark] := by
  cases tail <;> simp [other]

/-- On one line, whatever is written between two marks does not begin with another mark; nothing
written leaves the second mark alone. -/
theorem take_two_written (cs rest : List Char) :
    (cs.flatMap (writeChar false) ++ '"' :: '\n' :: rest).take 2 ≠ ['"', '"'] := by
  cases cs with
  | nil => simp
  | cons c cs =>
      have written : Written c (writeChar false c) := written_writeChar nofun
      rw [List.flatMap_cons, List.append_assoc]
      generalize writeChar false c = w at written
      cases written with
      | plain quote => exact take_two_ne quote _
      | escaped => exact take_two_ne (by decide) _

theorem exists_cons_of_prefersLiteral {cs : List Char} (prefers : prefersLiteral cs = true) :
    ∃ d ds, cs = d :: ds := by
  cases cs with
  | nil => cases prefers
  | cons d ds => exact ⟨d, ds, rfl⟩

/-- A written string is read back, if its line ends after it. -/
theorem anyText_writeText (s : String) (rest : List Char) :
    anyText ((writeText s).toList ++ '\n' :: rest) = some (s, '\n' :: rest) := by
  have back : String.ofList s.toList = s := String.ofList_toList
  unfold writeText
  generalize s.toList = cs at back
  subst back
  have written (lines : Bool) := length_le_flatMap (writeChar_ne_nil lines) cs
  rw [String.toList_ofList]
  split_ifs with literally lines marked lines <;>
    simp only [List.cons_append, List.nil_append, List.append_assoc]
  -- Between three apostrophes, from the next line on.
  · obtain ⟨-, short⟩ := shortRuns_of_fitsLiteral (Bool.and_eq_true_iff.1 literally).2
    rw [anyText_literalLines, afterNewline?, Option.getD_some, literalLines_closed short _ (by simp)]
    · rfl
    · simp only [List.length_append, List.length_cons]
      omega
  -- Between three apostrophes on one line: the first character breaks no line, so that none is
  -- dropped before it.
  · obtain ⟨prefers, fits⟩ := Bool.and_eq_true_iff.1 literally
    obtain ⟨literal, short⟩ := shortRuns_of_fitsLiteral fits
    obtain ⟨d, ds, rfl⟩ := exists_cons_of_prefersLiteral prefers
    have feed : d ≠ '\n' := fun same => lines (by simp [same])
    have same := afterNewline_of_other feed (ne_return_of_isLiteral (literal d List.mem_cons_self))
      (ds ++ '\x27' :: '\x27' :: '\x27' :: '\n' :: rest)
    rw [anyText_literalLines, List.cons_append, same, Option.getD_none, ← List.cons_append,
      literalLines_closed short _ (by simp)]
    · rfl
    · simp only [List.length_append, List.length_cons]
      omega
  -- Between two apostrophes: the first character is none, so that no three of them come first.
  · obtain ⟨prefers, fits⟩ := Bool.and_eq_true_iff.1 literally
    obtain ⟨literal, -⟩ := shortRuns_of_fitsLiteral fits
    simp only [List.contains_iff_mem] at lines marked
    have closed := literalText_closed literal lines marked ('\n' :: rest)
    obtain ⟨d, ds, rfl⟩ := exists_cons_of_prefersLiteral prefers
    have other : d ≠ '\x27' := fun same => marked (by simp [same])
    rw [anyText_literal, closed]
    · rfl
    · exact take_two_ne other _
  -- Between three quotation marks, from the next line on.
  · rw [anyText_basicLines, afterNewline?, Option.getD_some, basicLines_written _ (by simp)]
    · rfl
    · have := written true
      simp only [List.length_append, List.length_cons]
      omega
  -- Between two quotation marks.
  · rw [anyText_basic (take_two_written cs rest), basicText_written]
    · rfl
    · have := written false
      simp only [List.length_append, List.length_cons]
      omega

end ReplicaDiff.Toml
