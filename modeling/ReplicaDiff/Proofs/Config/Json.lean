/-
# ReplicaDiff.Proofs.Config.Json — settings written as JSON are read back

Every setting is found again in the object that is written, apart from what the
spans of time lose: each is cut off to whole milliseconds (`Config.reads_write`).
Cutting off keeps the order of two spans, so that the pauses of a valid
configuration stay in order, but it turns a span of less than a millisecond into
none (`Duration.isZero_truncated`).  A report interval may be that short, and is
then refused when it is read back; nothing else of a valid configuration is
(`Config.written_validity`).
-/
import ReplicaDiff.Proofs.Config.Partial
import ReplicaDiff.Proofs.Config.Validity

namespace ReplicaDiff

set_option autoImplicit false

open ReplicaDiff.Json

namespace Duration

/-- Cutting off keeps the order of two spans. -/
theorem truncated_mono {a b : Duration} (le : a ≤ b) : a.truncated ≤ b.truncated := by
  have whole : a.toNanos / 1000000 ≤ b.toNanos / 1000000 := Nat.div_le_div_right le
  show a.truncated.toNanos ≤ b.truncated.toNanos
  rw [toNanos_truncated, toNanos_truncated]
  omega

/-- Nothing is left of a span of less than a millisecond. -/
theorem isZero_truncated {d : Duration} : d.truncated.isZero ↔ d.toNanos < 1000000 := by
  rw [isZero_iff, toNanos_truncated, maxSeconds]
  omega

end Duration

/-! ## Reading the settings -/

namespace Config

/-- Written settings are read back, with their spans of time cut off to whole milliseconds. -/
theorem reads_write (c : Config) : Reads Config.read c.write c.truncated := by
  have edited : c.Edited [] (c.membersLeft [] (c.partsLeft [])) :=
    ⟨c.partsLeft [], fun _ => .refl _ _, .refl _ _⟩
  obtain ⟨c', reads, gets⟩ := reads_edited edited
  rwa [write_members, eq_truncated gets] at reads

/-! ## Validity -/

/-- Cutting off affects no check but that of the report interval. -/
theorem Passes.truncated {c : Config} (passes : c.Passes) : c.truncated.Passes where
  __ := passes
  pauses := Nat.not_lt_of_le (Duration.truncated_mono (Nat.le_of_not_lt passes.pauses))

/-- A valid configuration stays valid when it is cut off, unless its report interval is shorter than a
millisecond. -/
theorem Valid.validate_truncated {c : Config} (valid : c.Valid) :
    c.truncated.validate =
      if c.reportInterval.toNanos < 1000000 then .error "report interval must be non-zero"
      else .ok () := by
  have reports : c.truncated.reportInterval.isZero ↔ c.reportInterval.toNanos < 1000000 :=
    Duration.isZero_truncated
  rw [valid.toPasses.truncated.validate_eq]
  exact if_congr reports rfl rfl

/-- Every valid configuration can be written as JSON and read back, with its spans of time cut off to
whole milliseconds.  What is read back is valid unless the report interval is shorter than a
millisecond. -/
theorem written_validity (c : Config) (valid : c.validate = .ok ()) :
    ∃ c', Json.readAll Config.read c.write = .ok c' ∧ c' = c.truncated ∧
      c'.validate =
        if c.reportInterval.toNanos < 1000000 then .error "report interval must be non-zero"
        else .ok () :=
  ⟨c.truncated, c.reads_write.readAll, rfl, (valid_of_validate valid).validate_truncated⟩

/-- A report interval of almost two milliseconds becomes one of a millisecond. -/
theorem written_validity_almost_two_milliseconds :
    let c : Config := { inMemory "" with reportInterval := ⟨0, 1999999, by decide, by decide⟩ }
    c.validate = .ok () ∧ ∃ c', Json.readAll Config.read c.write = .ok c' ∧
      c'.reportInterval = .ofMillis 1 ∧ c'.validate = .ok () := by
  intro c
  have valid : c.validate = .ok () := ((valid_of_validate (inMemory_valid "")).reporting (by decide)).validate_eq
  obtain ⟨c', readBack, rfl, validity⟩ := written_validity c valid
  have long : ¬c.reportInterval.toNanos < 1000000 := by decide
  exact ⟨valid, _, readBack, Duration.toNanos_inj (by decide), validity.trans (if_neg long)⟩

/-- A report interval of half a millisecond is valid, but refused when it is read back. -/
theorem half_millisecond_refused :
    let c : Config := { inMemory "" with reportInterval := ⟨0, 500000, by decide, by decide⟩ }
    c.validate = .ok () ∧ ∃ c', Json.readAll Config.read c.write = .ok c' ∧
      c'.validate = .error "report interval must be non-zero" := by
  intro c
  have valid : c.Valid := (valid_of_validate (inMemory_valid "")).reporting (by decide)
  have short : c.reportInterval.toNanos < 1000000 := by decide
  exact ⟨valid.validate_eq, _, c.reads_write.readAll, valid.validate_truncated.trans (if_pos short)⟩

end Config

end ReplicaDiff
