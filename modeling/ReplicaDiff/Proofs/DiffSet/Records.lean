/-
# ReplicaDiff.Proofs.DiffSet.Records — sets of differences made from verdicts

Each of the three maps of a set belongs to one kind of difference
(`Difference`, `DiffSet.held`), and recording a verdict changes the map of its own
kind alone (`held_record_self`, `held_record_of_ne`).  So the map of a kind holds for
a key the documents of the last verdict of that kind on it (`find?_recordAll`).

Putting two sets together does the same to each map, so that verdicts recorded in
two parts make the same set as verdicts recorded in one (`recordAll_append`), and a
set that was made in several steps is that of all its verdicts in order
(`Making.set_eq`).
-/
import Mathlib.Data.List.Basic
import Mathlib.Data.List.Induction
import ReplicaDiff.Proofs.DiffSet

namespace ReplicaDiff

set_option autoImplicit false

/-! ## Kinds of difference -/

/-- A kind of difference. -/
inductive Difference where
  | mismatch
  | missingFromSource
  | missingFromTarget
deriving DecidableEq

namespace Difference

/-- Every kind of difference. -/
def all : List Difference := [.mismatch, .missingFromSource, .missingFromTarget]

theorem mem_all (kind : Difference) : kind ∈ all := by cases kind <;> decide

/-- The documents that tell of a difference. -/
@[reducible] def Documents : Difference → Type
  | .mismatch => Document × Document
  | .missingFromSource => Document
  | .missingFromTarget => Document

/-- The verdict that tells of a difference. -/
def verdict : (kind : Difference) → kind.Documents → Classification
  | .mismatch, documents => .mismatch documents.1 documents.2
  | .missingFromSource, target => .missingFromSource target
  | .missingFromTarget, source => .missingFromTarget source

theorem verdict_inj {kind : Difference} {v w : kind.Documents} :
    kind.verdict v = kind.verdict w ↔ v = w := by
  cases kind <;> simp [verdict, Prod.ext_iff]

theorem verdict_ne_agreement (kind : Difference) (v : kind.Documents) :
    kind.verdict v ≠ .agreement := by
  cases kind <;> nofun

/-- A verdict tells of a difference of one kind, unless the sides agree. -/
theorem eq_agreement_or_verdict (c : Classification) :
    c = .agreement ∨ ∃ (kind : Difference) (v : kind.Documents), c = kind.verdict v := by
  cases c with
  | missingFromSource target => exact .inr ⟨.missingFromSource, target, rfl⟩
  | missingFromTarget source => exact .inr ⟨.missingFromTarget, source, rfl⟩
  | mismatch source target => exact .inr ⟨.mismatch, (source, target), rfl⟩
  | agreement => exact .inl rfl

end Difference

namespace DiffSet

/-- The map of a kind of difference. -/
def held (set : DiffSet) : (kind : Difference) → KeyMap kind.Documents
  | .mismatch => set.mismatch
  | .missingFromSource => set.missingFromSource
  | .missingFromTarget => set.missingFromTarget

/-- A set is what it holds of each kind. -/
theorem ext_held {a b : DiffSet} (same : ∀ kind, a.held kind = b.held kind) : a = b := by
  have mismatch := same .mismatch
  have source := same .missingFromSource
  have target := same .missingFromTarget
  cases a
  cases b
  simp_all [held]

@[simp] theorem held_empty (kind : Difference) : empty.held kind = .empty := by cases kind <;> rfl

@[simp] theorem held_extend (a b : DiffSet) (kind : Difference) :
    (a.extend b).held kind = (a.held kind).merge (b.held kind) := by
  cases kind <;> rfl

@[simp] theorem held_record_self (set : DiffSet) (key : String) (kind : Difference)
    (v : kind.Documents) :
    (set.record key (kind.verdict v)).held kind = (set.held kind).insert key v := by
  cases kind <;> rfl

/-- A verdict that does not tell of this kind of difference leaves its map alone. -/
theorem held_record_of_ne (set : DiffSet) (key : String) {c : Classification} {kind : Difference}
    (other : ∀ v, c ≠ kind.verdict v) : (set.record key c).held kind = set.held kind := by
  cases c with
  | missingFromSource target =>
      cases kind <;> first | rfl | exact absurd rfl (other target)
  | missingFromTarget source =>
      cases kind <;> first | rfl | exact absurd rfl (other source)
  | mismatch source target =>
      cases kind <;> first | rfl | exact absurd rfl (other (source, target))
  | agreement => rfl

/-! ## Two sets together -/

theorem extend_record (a b : DiffSet) (key : String) (c : Classification) :
    a.extend (b.record key c) = (a.extend b).record key c := by
  refine ext_held fun kind => ?_
  by_cases own : ∃ v, c = kind.verdict v
  · obtain ⟨v, rfl⟩ := own
    rw [held_extend, held_record_self, held_record_self, held_extend, KeyMap.merge_insert]
  · have other : ∀ v, c ≠ kind.verdict v := fun v same => own ⟨v, same⟩
    rw [held_extend, held_record_of_ne _ _ other, held_record_of_ne _ _ other, held_extend]

@[simp] theorem extend_empty (a : DiffSet) : a.extend empty = a :=
  ext_held fun kind => by simp

@[simp] theorem empty_extend (a : DiffSet) : empty.extend a = a :=
  ext_held fun kind => by simp

theorem extend_assoc (a b c : DiffSet) : (a.extend b).extend c = a.extend (b.extend c) :=
  ext_held fun kind => by simp [KeyMap.merge_assoc]

theorem recordAll_snoc (set : DiffSet) (records : List (String × Classification))
    (r : String × Classification) :
    set.recordAll (records ++ [r]) = (set.recordAll records).record r.1 r.2 :=
  List.foldl_append

theorem extend_recordAll (a b : DiffSet) (records : List (String × Classification)) :
    a.extend (b.recordAll records) = (a.extend b).recordAll records := by
  induction records using List.reverseRecOn with
  | nil => rfl
  | append_singleton records r ih => rw [recordAll_snoc, recordAll_snoc, extend_record, ih]

/-- Verdicts recorded in two parts make the set of all of them. -/
theorem recordAll_append (as bs : List (String × Classification)) :
    empty.recordAll (as ++ bs) = (empty.recordAll as).extend (empty.recordAll bs) := by
  rw [extend_recordAll, extend_empty]
  exact List.foldl_append

/-! ## The last verdict of a kind -/

/-- Among some verdicts in order, the last one on a key that tells of this kind of difference has
these documents. -/
def Latest (records : List (String × Classification)) (key : String) (kind : Difference)
    (v : kind.Documents) : Prop :=
  ∃ before after, records = before ++ (key, kind.verdict v) :: after ∧
    ∀ w, (key, kind.verdict w) ∉ after

namespace Latest

variable {records : List (String × Classification)} {r : String × Classification} {key : String}
  {kind : Difference} {v : kind.Documents}

theorem not_nil : ¬Latest [] key kind v := by
  rintro ⟨before, after, eq, -⟩
  exact absurd eq.symm (by simp)

/-- A verdict of the kind on the key takes the place of the last one. -/
theorem snoc_self {w : kind.Documents} :
    Latest (records ++ [(key, kind.verdict w)]) key kind v ↔ w = v := by
  constructor
  · rintro ⟨before, after, eq, none⟩
    rcases List.eq_nil_or_concat' after with rfl | ⟨after, r, rfl⟩
    · obtain ⟨-, same⟩ := List.append_inj' eq rfl
      simpa [Difference.verdict_inj] using same
    · rw [← List.cons_append, ← List.append_assoc] at eq
      obtain ⟨-, same⟩ := List.append_inj' eq rfl
      exact absurd (by simp [← same]) (none w)
  · rintro rfl
    exact ⟨records, [], rfl, by simp⟩

/-- Any other verdict leaves the last one as it is. -/
theorem snoc_of_ne (other : ∀ w, r ≠ (key, kind.verdict w)) :
    Latest (records ++ [r]) key kind v ↔ Latest records key kind v := by
  constructor
  · rintro ⟨before, after, eq, none⟩
    rcases List.eq_nil_or_concat' after with rfl | ⟨after, r', rfl⟩
    · obtain ⟨-, same⟩ := List.append_inj' eq rfl
      exact absurd (List.cons.inj same).1 (other v)
    · rw [← List.cons_append, ← List.append_assoc] at eq
      obtain ⟨same, -⟩ := List.append_inj' eq rfl
      exact ⟨before, after, same, fun w mem => none w (List.mem_append_left _ mem)⟩
  · rintro ⟨before, after, rfl, none⟩
    refine ⟨before, after ++ [r], by simp, fun w mem => ?_⟩
    rcases List.mem_append.1 mem with mem | mem
    · exact none w mem
    · exact other w (List.mem_singleton.1 mem).symm

end Latest

/-- The map of a kind holds for a key the documents of the last verdict of that kind on it. -/
theorem find?_recordAll (records : List (String × Classification)) (key : String)
    (kind : Difference) (v : kind.Documents) :
    ((empty.recordAll records).held kind).find? key = some v ↔ Latest records key kind v := by
  induction records using List.reverseRecOn with
  | nil => simp [recordAll, Latest.not_nil]
  | append_singleton records r ih =>
      obtain ⟨k, c⟩ := r
      rw [recordAll_snoc]
      by_cases own : ∃ w, c = kind.verdict w
      · obtain ⟨w, rfl⟩ := own
        rw [held_record_self, KeyMap.find?_insert]
        by_cases same : k = key
        · subst same
          rw [if_pos rfl, Latest.snoc_self, Option.some.injEq]
        · rw [if_neg same, Latest.snoc_of_ne fun w eq => same (congrArg Prod.fst eq), ih]
      · have other : ∀ w, c ≠ kind.verdict w := fun w same => own ⟨w, same⟩
        rw [held_record_of_ne _ _ other, Latest.snoc_of_ne fun w eq => other w (congrArg Prod.snd eq),
          ih]

/-! ## What a set lists -/

/-- How many of the maps of a set hold a key. -/
def mapsWith (set : DiffSet) (key : String) : Nat :=
  Difference.all.countP fun kind => (set.held kind).contains key

theorem mapsWith_eq (set : DiffSet) (key : String) :
    set.mapsWith key = (set.mismatch.contains key).toNat +
      (set.missingFromSource.contains key).toNat + (set.missingFromTarget.contains key).toNat := by
  simp only [mapsWith, Difference.all, List.countP_cons, List.countP_nil, held]
  cases set.mismatch.contains key <;> cases set.missingFromSource.contains key <;>
    cases set.missingFromTarget.contains key <;> rfl

/-- A key is listed once for each map that holds it. -/
theorem count_keys (set : DiffSet) (key : String) : set.keys.count key = set.mapsWith key := by
  rw [keys, List.count_append, List.count_append, KeyMap.count_keys, KeyMap.count_keys,
    KeyMap.count_keys, mapsWith_eq]
  omega

theorem contains_iff_mem_keys (set : DiffSet) (key : String) :
    set.contains key = true ↔ key ∈ set.keys := by
  simp only [contains, keys, List.mem_append, KeyMap.mem_keys_iff_contains, Bool.or_eq_true]
  tauto

theorem isEmpty_iff (set : DiffSet) : set.isEmpty = true ↔ set = empty := by
  constructor
  · intro isEmpty
    have nothing : set.keys = [] := by
      rw [← List.length_eq_zero_iff, length_keys]
      exact of_decide_eq_true isEmpty
    refine ext_held fun kind => KeyMap.ext fun key => ?_
    have nowhere : set.mapsWith key = 0 := by rw [← count_keys, nothing, List.count_nil]
    have unheld := List.countP_eq_zero.1 nowhere kind kind.mem_all
    simpa [KeyMap.contains] using unheld
  · rintro rfl
    rfl

/-- Recording leaves nothing in a set only if the set was empty and the sides agree. -/
theorem record_eq_empty_iff (set : DiffSet) (key : String) (c : Classification) :
    set.record key c = empty ↔ set = empty ∧ c = .agreement := by
  rcases Difference.eq_agreement_or_verdict c with rfl | ⟨kind, v, rfl⟩
  · simp [record]
  · have some : ((set.record key (kind.verdict v)).held kind).find? key = some v := by
      rw [held_record_self, KeyMap.find?_insert, if_pos rfl]
    constructor
    · intro none
      rw [none, held_empty, KeyMap.find?_empty] at some
      cases some
    · rintro ⟨-, agree⟩
      exact absurd agree (kind.verdict_ne_agreement v)

theorem recordAll_eq_empty_iff (records : List (String × Classification)) :
    empty.recordAll records = empty ↔ ∀ r ∈ records, r.2 = .agreement := by
  induction records using List.reverseRecOn with
  | nil => simp [recordAll]
  | append_singleton records r ih =>
      rw [recordAll_snoc, record_eq_empty_iff, ih]
      simp [or_imp, forall_and]

/-! ## How sets are made -/

/-- How a set of differences is made: verdicts are recorded, and sets are put together, in any
order. -/
inductive Making where
  | nothing
  | recorded (before : Making) (key : String) (verdict : Classification)
  | extended (first second : Making)

namespace Making

/-- The set that is made. -/
def set : Making → DiffSet
  | .nothing => empty
  | .recorded before key verdict => before.set.record key verdict
  | .extended first second => first.set.extend second.set

/-- The verdicts from which a set is made, in order. -/
def records : Making → List (String × Classification)
  | .nothing => []
  | .recorded before key verdict => before.records ++ [(key, verdict)]
  | .extended first second => first.records ++ second.records

/-- In however many steps it is made, a set is that of all of its verdicts in order. -/
theorem set_eq (m : Making) : m.set = empty.recordAll m.records := by
  induction m with
  | nothing => rfl
  | recorded before key verdict ih => rw [records, recordAll_snoc, set, ih]
  | extended first second ih ih' => rw [records, recordAll_append, set, ih, ih']

theorem isEmpty_iff (m : Making) : m.set.isEmpty = true ↔ ∀ r ∈ m.records, r.2 = .agreement := by
  rw [DiffSet.isEmpty_iff, set_eq, recordAll_eq_empty_iff]

end Making

/-- Recording verdicts in two parts and putting the parts together is recording all of them, and each
map then holds the documents of the last verdict of its kind on each key.  Putting sets together is
associative and the empty set changes nothing.  A set that was made in any way lists each key once
for each map that holds it, counts what it lists, knows the keys that it lists and no other, and is
empty only if none of its verdicts told of a difference. -/
theorem recorded_in_parts (as bs : List (String × Classification)) (a b c : DiffSet) (m : Making) :
    empty.recordAll (as ++ bs) = (empty.recordAll as).extend (empty.recordAll bs) ∧
    (∀ key kind v, ((empty.recordAll (as ++ bs)).held kind).find? key = some v ↔
      Latest (as ++ bs) key kind v) ∧
    (a.extend b).extend c = a.extend (b.extend c) ∧ empty.extend a = a ∧ a.extend empty = a ∧
    m.set = empty.recordAll m.records ∧
    m.set.size = m.set.keys.length ∧
    (∀ key, m.set.keys.count key = m.set.mapsWith key) ∧
    (∀ key, m.set.contains key = true ↔ key ∈ m.set.keys) ∧
    (m.set.isEmpty = true ↔ ∀ r ∈ m.records, r.2 = .agreement) :=
  ⟨recordAll_append as bs, fun key kind v => find?_recordAll _ key kind v, extend_assoc a b c,
    empty_extend a, extend_empty a, m.set_eq, m.set.length_keys.symm, m.set.count_keys,
    m.set.contains_iff_mem_keys, m.isEmpty_iff⟩

end DiffSet

end ReplicaDiff
