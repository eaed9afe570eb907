/-
# ReplicaDiff.Proofs.Comparison — what two results say of a key

The result of a side says one of three things of its key: that it is undecided, that
it is absent, or which document it has (`SideResult.finding`).  The verdict on the
key is a table of what the two sides say (`compare_eq`).  From the table it is read
off when each verdict is given, that it is mirrored when the sides change places,
and that it does not matter how a side says that the key is absent
(`compare_decides`).
-/
import ReplicaDiff.Comparison

namespace ReplicaDiff

set_option autoImplicit false

/-! ## What one side says -/

/-- What a side says of its key. -/
inductive Finding where
  | undecided
  | absent
  | found (document : Document)

namespace SideResult

/-- The side has not answered, or failed with an error other than that the key is absent. -/
def Undecided (r : SideResult) : Prop :=
  r.outcome = none ∨
    ∃ message, message ≠ "key not found" ∧ r.outcome = some (.error (.other message))

/-- The side says that the key is absent, by the error of this kind or in words. -/
def Absent (r : SideResult) : Prop :=
  r.outcome = some (.error .notFound) ∨ r.outcome = some (.error (.other "key not found"))

/-- The side answered with a document. -/
def Holds (r : SideResult) (d : Document) : Prop := r.outcome = some (.ok d)

/-- What a result says of its key. -/
def finding (r : SideResult) : Finding :=
  match r.outcome with
  | none => .undecided
  | some (.ok d) => .found d
  | some (.error reason) => if reason.isNotFound then .absent else .undecided

theorem undecided_iff (r : SideResult) : r.Undecided ↔ r.finding = .undecided := by
  obtain ⟨key, _ | (_ | message) | d⟩ := r
  case some.error.other =>
    by_cases text : message = "key not found" <;>
      simp [Undecided, finding, FetchError.isNotFound, keyNotFoundText, text]
  all_goals simp [Undecided, finding, FetchError.isNotFound]

theorem absent_iff (r : SideResult) : r.Absent ↔ r.finding = .absent := by
  obtain ⟨key, _ | (_ | message) | d⟩ := r
  case some.error.other =>
    by_cases text : message = "key not found" <;>
      simp [Absent, finding, FetchError.isNotFound, keyNotFoundText, text]
  all_goals simp [Absent, finding, FetchError.isNotFound]

theorem holds_iff (r : SideResult) (d : Document) : r.Holds d ↔ r.finding = .found d := by
  obtain ⟨key, _ | (_ | message) | d'⟩ := r
  case some.error.other =>
    by_cases text : message = "key not found" <;>
      simp [Holds, finding, FetchError.isNotFound, keyNotFoundText, text]
  all_goals simp [Holds, finding, FetchError.isNotFound]

/-- An error in words says that the key is absent if these are the words for it, and nothing else. -/
theorem finding_other (key message : String) :
    finding ⟨key, some (.error (.other message))⟩ =
      if message = "key not found" then finding ⟨key, some (.error .notFound)⟩ else .undecided := by
  by_cases text : message = "key not found" <;>
    simp [finding, FetchError.isNotFound, keyNotFoundText, text]

end SideResult

/-! ## The verdict on what both sides say -/

/-- The two documents agree in their value and in all of their metadata. -/
def Document.SameContent (s t : Document) : Prop :=
  s.value = t.value ∧ s.flags = t.flags ∧ s.datatype = t.datatype ∧ s.cas = t.cas

instance (s t : Document) : Decidable (s.SameContent t) := inferInstanceAs (Decidable (_ ∧ _ ∧ _ ∧ _))

theorem Document.agrees_iff_sameContent (s t : Document) : s.agrees t = true ↔ s.SameContent t := by
  simp [agrees, SameContent, and_assoc]

theorem Document.SameContent.symm {s t : Document} (same : s.SameContent t) : t.SameContent s :=
  ⟨same.1.symm, same.2.1.symm, same.2.2.1.symm, same.2.2.2.symm⟩

/-- The verdict on a key of which the sides say this. -/
def Finding.verdict : Finding → Finding → Option Classification
  | .found s, .found t => some (if s.SameContent t then .agreement else .mismatch s t)
  | .absent, .found t => some (.missingFromSource t)
  | .found s, .absent => some (.missingFromTarget s)
  | .absent, .absent => some .agreement
  | _, _ => none

/-- The verdict on a key depends on what its two sides say, and on nothing else. -/
theorem compare_eq (source target : SideResult) :
    compare source target = source.finding.verdict target.finding := by
  obtain ⟨key, _ | reason | s⟩ := source <;> obtain ⟨key', _ | reason' | t⟩ := target
  case some.error.some.error =>
    cases absent : reason.isNotFound <;> cases absent' : reason'.isNotFound <;>
      simp [compare, compareOutcomes, SideResult.finding, Finding.verdict, absent, absent']
  case some.error.some.ok =>
    cases absent : reason.isNotFound <;>
      simp [compare, compareOutcomes, SideResult.finding, Finding.verdict, absent]
  case some.ok.some.error =>
    cases absent : reason'.isNotFound <;>
      simp [compare, compareOutcomes, SideResult.finding, Finding.verdict, absent]
  case some.ok.some.ok =>
    simp [compare, compareOutcomes, SideResult.finding, Finding.verdict,
      Document.agrees_iff_sameContent]
  case some.error.none | none.some.error =>
    simp only [compare, SideResult.finding]
    split <;> rfl
  all_goals rfl

/-- The verdict when the sides change places. -/
def Classification.mirrored : Classification → Classification
  | .missingFromSource target => .missingFromTarget target
  | .missingFromTarget source => .missingFromSource source
  | .mismatch source target => .mismatch target source
  | .agreement => .agreement

namespace Finding

variable (f g : Finding)

theorem verdict_eq_none : f.verdict g = none ↔ f = .undecided ∨ g = .undecided := by
  cases f <;> cases g <;> simp [verdict]

theorem verdict_eq_agreement : f.verdict g = some .agreement ↔
    (f = .absent ∧ g = .absent) ∨ ∃ s t, f = .found s ∧ g = .found t ∧ s.SameContent t := by
  cases f with
  | found s =>
      cases g with
      | found t => by_cases same : s.SameContent t <;> simp [verdict, same]
      | _ => simp [verdict]
  | _ => cases g <;> simp [verdict]

theorem verdict_eq_mismatch (s t : Document) : f.verdict g = some (.mismatch s t) ↔
    f = .found s ∧ g = .found t ∧ ¬s.SameContent t := by
  cases f with
  | found s' =>
      cases g with
      | found t' => by_cases same : s'.SameContent t' <;> simp [verdict, same] <;> grind
      | _ => simp [verdict]
  | _ => cases g <;> simp [verdict]

theorem verdict_eq_missingFromSource (t : Document) :
    f.verdict g = some (.missingFromSource t) ↔ f = .absent ∧ g = .found t := by
  cases f with
  | found s =>
      cases g with
      | found t' => by_cases same : s.SameContent t' <;> simp [verdict, same]
      | _ => simp [verdict]
  | _ => cases g <;> simp [verdict]

theorem verdict_eq_missingFromTarget (s : Document) :
    f.verdict g = some (.missingFromTarget s) ↔ f = .found s ∧ g = .absent := by
  cases f with
  | found s' =>
      cases g with
      | found t => by_cases same : s'.SameContent t <;> simp [verdict, same]
      | _ => simp [verdict]
  | _ => cases g <;> simp [verdict]

theorem verdict_mirrored : g.verdict f = (f.verdict g).map Classification.mirrored := by
  cases f with
  | found s =>
      cases g with
      | found t =>
          have either : t.SameContent s ↔ s.SameContent t := ⟨.symm, .symm⟩
          by_cases same : s.SameContent t <;>
            simp [verdict, either, same, Classification.mirrored]
      | _ => rfl
  | _ => cases g <;> rfl

end Finding

/-- The verdict on any two results.  There is none if and only if a side is undecided; each verdict is
given in its own case and in no other; when the sides change places the verdict is mirrored; and on
either side the words for an absent key, but no other words, are as good as the error of that kind. -/
theorem compare_decides (source target : SideResult) :
    (compare source target = none ↔ source.Undecided ∨ target.Undecided) ∧
    (compare source target = some .agreement ↔
      (source.Absent ∧ target.Absent) ∨
        ∃ s t, source.Holds s ∧ target.Holds t ∧ s.SameContent t) ∧
    (∀ s t, compare source target = some (.mismatch s t) ↔
      source.Holds s ∧ target.Holds t ∧ ¬s.SameContent t) ∧
    (∀ t, compare source target = some (.missingFromSource t) ↔ source.Absent ∧ target.Holds t) ∧
    (∀ s, compare source target = some (.missingFromTarget s) ↔ source.Holds s ∧ target.Absent) ∧
    compare target source = (compare source target).map Classification.mirrored ∧
    (∀ key message, compare ⟨key, some (.error (.other message))⟩ target =
      if message = "key not found" then compare ⟨key, some (.error .notFound)⟩ target else none) ∧
    ∀ key message, compare source ⟨key, some (.error (.other message))⟩ =
      if message = "key not found" then compare source ⟨key, some (.error .notFound)⟩ else none := by
  simp only [compare_eq, SideResult.undecided_iff, SideResult.absent_iff, SideResult.holds_iff]
  refine ⟨Finding.verdict_eq_none _ _, Finding.verdict_eq_agreement _ _,
    Finding.verdict_eq_mismatch _ _, Finding.verdict_eq_missingFromSource _ _,
    Finding.verdict_eq_missingFromTarget _ _, Finding.verdict_mirrored _ _, ?_, ?_⟩
  · intro key message
    rw [SideResult.finding_other]
    split
    · rfl
    · exact (Finding.verdict_eq_none _ _).2 (.inl rfl)
  · intro key message
    rw [SideResult.finding_other]
    split
    · rfl
    · exact (Finding.verdict_eq_none _ _).2 (.inr rfl)

end ReplicaDiff
