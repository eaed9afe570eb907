/-
# ReplicaDiff.Proofs.DiffSet — what a set of differences tells of a key

`DiffSet.Tells set key verdict` says that the three maps hold for the key what
its verdict calls for and nothing else: the entry of the verdict's kind, or none
if there is no verdict or the sides agree.  Recording a first verdict makes the
set tell it (`Tells.record_self`) and leaves the other keys alone
(`Tells.record_of_ne`); two sets that tell the same of a key, or of which one
tells nothing, can be put together (`Tells.extend`).  A set is what it tells of
every key (`ext_of_tells`), and lists the keys of which it tells something
(`Tells.mem_keys`), each once (`nodup_keys`).
-/
import ReplicaDiff.DiffSet
import ReplicaDiff.Proofs.KeyMap

namespace ReplicaDiff

set_option autoImplicit false

namespace DiffSet

/-- The set holds for one key what its verdict calls for, and nothing else. -/
structure Tells (set : DiffSet) (key : String) (verdict : Option Classification) : Prop where
  mismatch : ∀ s t, set.mismatch.find? key = some (s, t) ↔ verdict = some (.mismatch s t)
  missingFromSource : ∀ t,
    set.missingFromSource.find? key = some t ↔ verdict = some (.missingFromSource t)
  missingFromTarget : ∀ s,
    set.missingFromTarget.find? key = some s ↔ verdict = some (.missingFromTarget s)

/-- A verdict by which nothing is recorded. -/
def Silent (verdict : Option Classification) : Prop := verdict = none ∨ verdict = some .agreement

namespace Tells

variable {set other : DiffSet} {key : String} {verdict : Option Classification}

theorem empty (key : String) : DiffSet.empty.Tells key none :=
  ⟨by simp [DiffSet.empty], by simp [DiffSet.empty], by simp [DiffSet.empty]⟩

/-- A set that tells no verdict of a key holds the key nowhere. -/
theorem find?_of_none (h : set.Tells key none) :
    set.mismatch.find? key = none ∧ set.missingFromSource.find? key = none ∧
      set.missingFromTarget.find? key = none := by
  refine ⟨?_, ?_, ?_⟩
  · exact Option.eq_none_iff_forall_ne_some.2 fun e eq => by simpa using (h.mismatch e.1 e.2).1 eq
  · exact Option.eq_none_iff_forall_ne_some.2 fun t eq => by simpa using (h.missingFromSource t).1 eq
  · exact Option.eq_none_iff_forall_ne_some.2 fun s eq => by simpa using (h.missingFromTarget s).1 eq

theorem contains_mismatch (h : set.Tells key verdict) :
    set.mismatch.contains key = true ↔ ∃ s t, verdict = some (.mismatch s t) := by
  unfold KeyMap.contains
  rw [Option.isSome_iff_exists]
  constructor
  · rintro ⟨⟨s, t⟩, held⟩
    exact ⟨s, t, (h.mismatch s t).1 held⟩
  · rintro ⟨s, t, eq⟩
    exact ⟨(s, t), (h.mismatch s t).2 eq⟩

theorem contains_missingFromSource (h : set.Tells key verdict) :
    set.missingFromSource.contains key = true ↔ ∃ t, verdict = some (.missingFromSource t) := by
  unfold KeyMap.contains
  rw [Option.isSome_iff_exists]
  exact exists_congr h.missingFromSource

theorem contains_missingFromTarget (h : set.Tells key verdict) :
    set.missingFromTarget.contains key = true ↔ ∃ s, verdict = some (.missingFromTarget s) := by
  unfold KeyMap.contains
  rw [Option.isSome_iff_exists]
  exact exists_congr h.missingFromTarget

/-- The set holds the key in at most one of its maps. -/
theorem once (h : set.Tells key verdict) :
    (set.mismatch.contains key).toNat + (set.missingFromSource.contains key).toNat +
      (set.missingFromTarget.contains key).toNat ≤ 1 := by
  have mismatch := h.contains_mismatch
  have source := h.contains_missingFromSource
  have target := h.contains_missingFromTarget
  rcases verdict with _ | (t | s | ⟨s, t⟩ | _) <;> simp_all

theorem contains_of_none (h : set.Tells key none) : set.contains key = false := by
  have mismatch := h.contains_mismatch
  have source := h.contains_missingFromSource
  have target := h.contains_missingFromTarget
  simp_all [DiffSet.contains]

/-- The first verdict recorded for a key is what the set tells of it. -/
theorem record_self (h : set.Tells key none) (c : Classification) :
    (set.record key c).Tells key (some c) := by
  obtain ⟨mismatch, source, target⟩ := h.find?_of_none
  cases c <;> constructor <;>
    simp [DiffSet.record, KeyMap.find?_insert, mismatch, source, target, eq_comm]

/-- A verdict on one key changes nothing that is told of another. -/
theorem record_of_ne (h : set.Tells key verdict) {key' : String} (ne : key' ≠ key)
    (c : Classification) : (set.record key' c).Tells key verdict := by
  have mismatch := h.mismatch
  have source := h.missingFromSource
  have target := h.missingFromTarget
  cases c <;> constructor <;>
    simp [DiffSet.record, KeyMap.find?_insert, ne, mismatch, source, target]

/-- Together with a set that tells nothing of a key, a set tells of it what it told before. -/
theorem extend_none (h : set.Tells key verdict) (none : other.Tells key none) :
    (set.extend other).Tells key verdict := by
  obtain ⟨mismatch, source, target⟩ := none.find?_of_none
  constructor
  · intro s t
    rw [← h.mismatch]
    simp [DiffSet.extend, KeyMap.find?_merge, mismatch]
  · intro t
    rw [← h.missingFromSource]
    simp [DiffSet.extend, KeyMap.find?_merge, source]
  · intro s
    rw [← h.missingFromTarget]
    simp [DiffSet.extend, KeyMap.find?_merge, target]

/-- What is added tells its own of a key of which nothing, or the same, was told before. -/
theorem extend (h : set.Tells key none ∨ set.Tells key verdict) (told : other.Tells key verdict) :
    (set.extend other).Tells key verdict := by
  -- In each map the new entry wins; where there is none, the old set has none either.
  have lookup : ∀ {V : Type} (f : DiffSet → KeyMap V), (f (set.extend other)).find? key =
      ((f other).find? key).or ((f set).find? key) → ((f set).find? key = none ∨
        (f set).find? key = (f other).find? key) →
      (f (set.extend other)).find? key = (f other).find? key := by
    intro V f merged before
    rw [merged]
    rcases before with none | same
    · rw [none]
      cases (f other).find? key <;> rfl
    · rw [same]
      cases (f other).find? key <;> rfl
  have same : ∀ {V : Type} {a b : Option V}, (∀ v, a = some v ↔ b = some v) → a = b :=
    fun both => Option.ext both
  have mismatch : set.mismatch.find? key = none ∨
      set.mismatch.find? key = other.mismatch.find? key := by
    refine h.imp (fun h => h.find?_of_none.1) fun h => same fun e => ?_
    rw [h.mismatch e.1 e.2, told.mismatch e.1 e.2]
  have source : set.missingFromSource.find? key = none ∨
      set.missingFromSource.find? key = other.missingFromSource.find? key := by
    refine h.imp (fun h => h.find?_of_none.2.1) fun h => same fun t => ?_
    rw [h.missingFromSource, told.missingFromSource]
  have target : set.missingFromTarget.find? key = none ∨
      set.missingFromTarget.find? key = other.missingFromTarget.find? key := by
    refine h.imp (fun h => h.find?_of_none.2.2) fun h => same fun s => ?_
    rw [h.missingFromTarget, told.missingFromTarget]
  constructor
  · intro s t
    rw [lookup (·.mismatch) (KeyMap.find?_merge _ _ _) mismatch, told.mismatch]
  · intro t
    rw [lookup (·.missingFromSource) (KeyMap.find?_merge _ _ _) source, told.missingFromSource]
  · intro s
    rw [lookup (·.missingFromTarget) (KeyMap.find?_merge _ _ _) target, told.missingFromTarget]

/-- Nothing is recorded of a silent verdict. -/
theorem of_silent (h : set.Tells key verdict) (silent : Silent verdict) : set.Tells key none := by
  rcases silent with rfl | rfl
  · exact h
  · have mismatch := h.mismatch
    have source := h.missingFromSource
    have target := h.missingFromTarget
    constructor <;> simp [mismatch, source, target]

/-- The keys of a set are those of which it tells something. -/
theorem mem_keys (h : set.Tells key verdict) : key ∈ set.keys ↔ ¬Silent verdict := by
  unfold DiffSet.keys Silent
  simp only [List.mem_append, KeyMap.mem_keys, h.missingFromSource, h.missingFromTarget]
  have mismatch : (∃ pair, set.mismatch.find? key = some pair) ↔
      ∃ s t, verdict = some (.mismatch s t) := by
    simp only [Prod.exists, h.mismatch]
  rw [mismatch]
  rcases verdict with _ | (t | s | ⟨s, t⟩ | _) <;> simp

end Tells

/-- Sets that tell the same of every key are equal. -/
theorem ext_of_tells {a b : DiffSet}
    (same : ∀ key, ∃ verdict, a.Tells key verdict ∧ b.Tells key verdict) : a = b := by
  have agree : ∀ {V : Type} (f : DiffSet → KeyMap V),
      (∀ key v, (f a).find? key = some v ↔ (f b).find? key = some v) → f a = f b :=
    fun f held => KeyMap.ext fun key => Option.ext (held key)
  have mismatch : a.mismatch = b.mismatch := agree (·.mismatch) fun key v => by
    obtain ⟨verdict, ha, hb⟩ := same key
    rw [ha.mismatch v.1 v.2, hb.mismatch v.1 v.2]
  have source : a.missingFromSource = b.missingFromSource :=
    agree (·.missingFromSource) fun key v => by
      obtain ⟨verdict, ha, hb⟩ := same key
      rw [ha.missingFromSource, hb.missingFromSource]
  have target : a.missingFromTarget = b.missingFromTarget :=
    agree (·.missingFromTarget) fun key v => by
      obtain ⟨verdict, ha, hb⟩ := same key
      rw [ha.missingFromTarget, hb.missingFromTarget]
  cases a
  cases b
  cases mismatch
  cases source
  cases target
  rfl

/-- If something is told of every key then no key is listed twice. -/
theorem nodup_keys {set : DiffSet} (tells : ∀ key, ∃ verdict, set.Tells key verdict) :
    set.keys.Nodup := by
  unfold keys
  refine List.nodup_append.2 ⟨List.nodup_append.2
    ⟨set.missingFromSource.nodup_keys, set.missingFromTarget.nodup_keys, ?_⟩,
    set.mismatch.nodup_keys, ?_⟩
  · rintro key inSource _ inTarget rfl
    obtain ⟨verdict, told⟩ := tells key
    obtain ⟨t, held⟩ := (KeyMap.mem_keys _ _).1 inSource
    obtain ⟨s, held'⟩ := (KeyMap.mem_keys _ _).1 inTarget
    cases ((told.missingFromSource t).1 held).symm.trans ((told.missingFromTarget s).1 held')
  · rintro key missing _ inMismatch rfl
    obtain ⟨verdict, told⟩ := tells key
    obtain ⟨⟨s, t⟩, held'⟩ := (KeyMap.mem_keys _ _).1 inMismatch
    have mismatch := (told.mismatch s t).1 held'
    rcases List.mem_append.1 missing with inSource | inTarget
    · obtain ⟨t', held⟩ := (KeyMap.mem_keys _ _).1 inSource
      cases ((told.missingFromSource t').1 held).symm.trans mismatch
    · obtain ⟨s', held⟩ := (KeyMap.mem_keys _ _).1 inTarget
      cases ((told.missingFromTarget s').1 held).symm.trans mismatch

theorem length_keys (set : DiffSet) : set.keys.length = set.size := by
  simp only [keys, size, KeyMap.keys, KeyMap.size, List.length_append, List.length_map]
  omega

end DiffSet

end ReplicaDiff
