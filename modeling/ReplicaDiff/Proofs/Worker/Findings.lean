/-
# ReplicaDiff.Proofs.Worker.Findings — what a worker keeps and finds

A `Finish` is a batch that is over: its keys, the number of the last attempt at
it, and the results of that attempt if it succeeded.  The results that a worker
keeps for a key are the last ones in the last batch that succeeded with the key
(`find?_kept_of_last`) — when no key is in two batches, those of the batch with
the key (`find?_kept`) — and its findings tell of every key the comparison of the
two results kept for it (`findings_tells`, `findings_tells_verdict`).
-/
import Mathlib.Data.List.Nodup
import ReplicaDiff.Proofs.Batch.Gate
import ReplicaDiff.Proofs.DiffSet
import ReplicaDiff.Worker

namespace ReplicaDiff

set_option autoImplicit false

open ReplicaDiff.Batch

namespace Worker

/-- A batch that is over. -/
structure Finish where
  keys : List String
  /-- The number of the last attempt. -/
  attempts : UInt32
  /-- What the last attempt brought, if it succeeded. -/
  results? : Option Results

/-- The verdict on a key, from what was kept for it on both sides. -/
def verdictOn : Option SideResult → Option SideResult → Option Classification
  | some source, some target => compare source target
  | _, _ => none

namespace Finish

/-- The result of one key on one side. -/
def result? (f : Finish) (side : Side) (key : String) : Option SideResult :=
  f.results?.bind fun r => (r.of side)[f.keys.idxOf key]?

/-- The verdict on one key. -/
def verdict? (f : Finish) (key : String) : Option Classification :=
  verdictOn (f.result? .source key) (f.result? .target key)

/-- The batch succeeded with the key in it. -/
def Checked (f : Finish) (key : String) : Prop := key ∈ f.keys ∧ f.results?.isSome

/-- What a worker contributes when the batch is over. -/
def contributions (f : Finish) : List Contribution :=
  (if f.results?.isNone then [.unchecked f.keys] else [])
    ++ [.processed (UInt64.ofNat f.keys.length)]

end Finish

/-- The results of one side that are kept after one more batch. -/
def keepFinish (side : Side) (held : KeyMap SideResult) (f : Finish) : KeyMap SideResult :=
  match f.results? with
  | some r => State.keep held f.keys (r.of side)
  | none => held

/-- The results of one side that are kept after some batches. -/
def kept (side : Side) (finishes : List Finish) : KeyMap SideResult :=
  finishes.foldl (keepFinish side) .empty

/-! ## What is kept -/

theorem find?_keep_of_not_mem {key : String} {keys : List String} (new : key ∉ keys)
    (held : KeyMap SideResult) (results : List SideResult) :
    (State.keep held keys results).find? key = held.find? key := by
  unfold State.keep
  induction keys generalizing held results with
  | nil => simp
  | cons first keys ih =>
      cases results with
      | nil => simp
      | cons r results =>
          rw [List.mem_cons, not_or] at new
          rw [List.zip_cons_cons, List.foldl_cons, ih new.2, KeyMap.find?_insert,
            if_neg (Ne.symm new.1)]

/-- Of keys that may repeat, each is kept with the result at its last place. -/
theorem find?_keep_of_last {key : String} {keys : List String} {slot : Nat}
    (at_slot : keys[slot]? = some key) (last : ∀ k, slot < k → keys[k]? ≠ some key)
    (held : KeyMap SideResult) {results : List SideResult} (length : results.length = keys.length) :
    (State.keep held keys results).find? key = results[slot]? := by
  induction keys generalizing slot held results with
  | nil => cases at_slot
  | cons first keys ih =>
      cases results with
      | nil => cases length
      | cons r results =>
          have step : State.keep held (first :: keys) (r :: results) =
              State.keep (held.insert first r) keys results := rfl
          rw [step]
          cases slot with
          | zero =>
              cases at_slot
              have new : key ∉ keys := by
                intro mem
                obtain ⟨k, again⟩ := List.mem_iff_getElem?.1 mem
                exact last (k + 1) (Nat.succ_pos k) again
              rw [find?_keep_of_not_mem new, KeyMap.find?_insert, if_pos rfl]
              rfl
          | succ slot =>
              refine ih at_slot (fun k later => ?_) _ (Nat.succ.inj length)
              exact last (k + 1) (Nat.succ_lt_succ later)

theorem find?_keepFinish_of_not_checked {key : String} {f : Finish} (new : ¬f.Checked key)
    (side : Side) (held : KeyMap SideResult) :
    (keepFinish side held f).find? key = held.find? key := by
  unfold keepFinish
  cases brought : f.results? with
  | none => rfl
  | some r =>
      exact find?_keep_of_not_mem (fun mem => new ⟨mem, by rw [brought]; rfl⟩) held _

theorem find?_foldl_keepFinish_of_not_checked {key : String} {finishes : List Finish}
    (new : ∀ f ∈ finishes, ¬f.Checked key) (side : Side) (held : KeyMap SideResult) :
    (finishes.foldl (keepFinish side) held).find? key = held.find? key := by
  induction finishes generalizing held with
  | nil => rfl
  | cons f finishes ih =>
      rw [List.foldl_cons, ih fun f' mem => new f' (List.mem_cons_of_mem _ mem),
        find?_keepFinish_of_not_checked (new f List.mem_cons_self)]

/-- A key with which no batch succeeded is not kept. -/
theorem find?_kept_of_not_checked {key : String} {finishes : List Finish}
    (new : ∀ f ∈ finishes, ¬f.Checked key) (side : Side) :
    (kept side finishes).find? key = none :=
  find?_foldl_keepFinish_of_not_checked new side .empty

/-- A key is kept with its last result in the last batch that succeeded with it. -/
theorem find?_kept_of_last {before after : List Finish} {f : Finish} {r : Results} {key : String}
    {slot : Nat} (brought : f.results? = some r) (answer : r.Answer f.keys)
    (final : ∀ f' ∈ after, ¬f'.Checked key) (at_slot : f.keys[slot]? = some key)
    (last : ∀ k, slot < k → f.keys[k]? ≠ some key) (side : Side) :
    (kept side (before ++ f :: after)).find? key = (r.of side)[slot]? := by
  unfold kept
  rw [List.foldl_append, List.foldl_cons, find?_foldl_keepFinish_of_not_checked final]
  unfold keepFinish
  rw [brought]
  exact find?_keep_of_last at_slot last _ (answer.length_of side)

/-- When no key is in two batches, a key is kept with its result in its own batch. -/
theorem find?_kept {finishes : List Finish} (nodup : (finishes.flatMap (·.keys)).Nodup)
    (answer : ∀ f ∈ finishes, ∀ r, f.results? = some r → r.Answer f.keys) {f : Finish}
    (mem : f ∈ finishes) {key : String} (key_mem : key ∈ f.keys) (side : Side) :
    (kept side finishes).find? key = f.result? side key := by
  obtain ⟨before, after, rfl⟩ := List.append_of_mem mem
  rw [List.flatMap_append, List.flatMap_cons] at nodup
  obtain ⟨-, nodup, apart⟩ := List.nodup_append.1 nodup
  obtain ⟨nodup, -, apart'⟩ := List.nodup_append.1 nodup
  have earlier : ∀ f' ∈ before, ¬f'.Checked key := fun f' mem' checked =>
    apart key (List.mem_flatMap.2 ⟨f', mem', checked.1⟩) key (List.mem_append_left _ key_mem) rfl
  have later : ∀ f' ∈ after, ¬f'.Checked key := fun f' mem' checked =>
    apart' key key_mem key (List.mem_flatMap.2 ⟨f', mem', checked.1⟩) rfl
  unfold Finish.result?
  cases brought : f.results? with
  | none =>
      refine find?_kept_of_not_checked (fun f' mem' => ?_) side
      rcases List.mem_append.1 mem' with mem' | mem'
      · exact earlier f' mem'
      · rcases List.mem_cons.1 mem' with rfl | mem'
        · exact fun checked => by simp [Finish.Checked, brought] at checked
        · exact later f' mem'
  | some r =>
      have slot := List.idxOf_lt_length_of_mem key_mem
      have at_slot : f.keys[f.keys.idxOf key]? = some key := by
        rw [List.getElem?_eq_getElem slot, List.getElem_idxOf]
      refine find?_kept_of_last brought (answer f (by simp) r brought) later at_slot ?_ side
      intro k past again
      obtain ⟨bound, rfl⟩ := List.getElem?_eq_some_iff.1 again
      rw [nodup.idxOf_getElem k bound] at past
      exact Nat.lt_irrefl k past

/-! ## What is found -/

/-- A set after one more of the kept entries has been compared. -/
def noteEntry (target : KeyMap SideResult) (set : DiffSet) (e : String × SideResult) : DiffSet :=
  match target.find? e.1 with
  | none => set
  | some t =>
      match compare e.2 t with
      | none => set
      | some classification => set.record e.1 classification

theorem findings_eq (source target : KeyMap SideResult) :
    State.findings source target = source.entries.foldl (noteEntry target) .empty := rfl

theorem noteEntry_tells_self {set : DiffSet} {e : String × SideResult} (target : KeyMap SideResult)
    (unheard : set.Tells e.1 none) :
    (noteEntry target set e).Tells e.1 (verdictOn (some e.2) (target.find? e.1)) := by
  unfold noteEntry verdictOn
  cases target.find? e.1 with
  | none => exact unheard
  | some t =>
      dsimp only
      cases compare e.2 t with
      | none => exact unheard
      | some classification => exact unheard.record_self classification

theorem noteEntry_tells_of_ne {set : DiffSet} {key : String} {verdict : Option Classification}
    (target : KeyMap SideResult) (told : set.Tells key verdict) {e : String × SideResult}
    (ne : e.1 ≠ key) : (noteEntry target set e).Tells key verdict := by
  unfold noteEntry
  split
  · exact told
  · split
    · exact told
    · exact told.record_of_ne ne _

theorem foldl_noteEntry_tells_of_ne {key : String} {verdict : Option Classification}
    (target : KeyMap SideResult) {entries : List (String × SideResult)} {set : DiffSet}
    (told : set.Tells key verdict) (others : ∀ e ∈ entries, e.1 ≠ key) :
    (entries.foldl (noteEntry target) set).Tells key verdict := by
  induction entries generalizing set with
  | nil => exact told
  | cons e entries ih =>
      exact ih (noteEntry_tells_of_ne target told (others e List.mem_cons_self)) fun e' mem =>
        others e' (List.mem_cons_of_mem _ mem)

/-- Comparing entry after entry tells of a key what the comparison of its own entry yields. -/
theorem foldl_noteEntry_tells (target : KeyMap SideResult) {key : String}
    {entries : List (String × SideResult)} {set : DiffSet} (ascending : Ascending entries)
    (unheard : set.Tells key none) :
    (entries.foldl (noteEntry target) set).Tells key
      (verdictOn (KeyMap.look key entries) (target.find? key)) := by
  induction entries generalizing set with
  | nil => exact unheard
  | cons e rest ih =>
      obtain ⟨k, r⟩ := e
      obtain ⟨head, tail⟩ := List.pairwise_cons.1 ascending
      rw [List.foldl_cons]
      by_cases same : k = key
      · subst same
        have here : KeyMap.look k ((k, r) :: rest) = some r := by simp [KeyMap.look]
        rw [here]
        refine foldl_noteEntry_tells_of_ne target ?_ fun e mem eq =>
          String.lt_irrefl _ (eq ▸ head e mem)
        exact noteEntry_tells_self (e := (k, r)) target unheard
      · have elsewhere : KeyMap.look key ((k, r) :: rest) = KeyMap.look key rest := by
          simp [KeyMap.look, same]
        rw [elsewhere]
        exact ih tail (noteEntry_tells_of_ne target unheard same)

/-- The findings tell of every key what the comparison of its two results yields. -/
theorem findings_tells (source target : KeyMap SideResult) (key : String) :
    (State.findings source target).Tells key
      (verdictOn (source.find? key) (target.find? key)) :=
  findings_eq source target ▸ foldl_noteEntry_tells target source.ascending (.empty key)

/-- The findings from what is kept of some batches tell of a key the verdict of its batch. -/
theorem findings_tells_verdict {finishes : List Finish}
    (nodup : (finishes.flatMap (·.keys)).Nodup)
    (answer : ∀ f ∈ finishes, ∀ r, f.results? = some r → r.Answer f.keys) {f : Finish}
    (mem : f ∈ finishes) {key : String} (key_mem : key ∈ f.keys) :
    (State.findings (kept .source finishes) (kept .target finishes)).Tells key (f.verdict? key) := by
  have told := findings_tells (kept .source finishes) (kept .target finishes) key
  rwa [find?_kept nodup answer mem key_mem, find?_kept nodup answer mem key_mem] at told

/-- They tell nothing of a key with which none of the batches succeeded. -/
theorem findings_tells_none {finishes : List Finish} {key : String}
    (new : ∀ f ∈ finishes, ¬f.Checked key) :
    (State.findings (kept .source finishes) (kept .target finishes)).Tells key none := by
  have told := findings_tells (kept .source finishes) (kept .target finishes) key
  rwa [find?_kept_of_not_checked new, find?_kept_of_not_checked new] at told

end Worker

end ReplicaDiff
