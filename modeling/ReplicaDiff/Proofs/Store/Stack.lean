/-
# ReplicaDiff.Proofs.Store.Stack — stacks of wrappers around a store

A stack is a store that answers from memory, or one that always fails, with
wrappers around it that stall some calls, let some wait, stall the first calls, or
count them (`Store.Stack`).  Every wrapper lets a call go on, at once or later, or
never answers it (`Wrapper.waits`), and those that count do nothing else
(`Wrapper.transparent`), wherever they lie (`Store.counterAt?`).
-/
import ReplicaDiff.Proofs.Store.CallCount
import ReplicaDiff.Proofs.Store.Passage
import ReplicaDiff.Store.Bucket

namespace ReplicaDiff.Store

set_option autoImplicit false

/-- A layer that stalls some keys, lets some wait, stalls its first calls, or counts. -/
inductive Wrapper : Layer → Prop where
  | stalling (keys : List String) : Wrapper (.stalling keys)
  | slow (keys : List String) (delay : Nat) : Wrapper (.slow keys delay)
  | flaky (calls : Nat) : Wrapper (.flaky calls)
  | counting : Wrapper .counting

/-- A store in memory, or one that always fails, with wrappers around it. -/
inductive Stack : Store → Prop where
  | memory (bucket : Bucket) : Stack bucket.store
  | failing (message : String) : Stack (.failing message)
  | wrap {s : Store} {layer : Layer} (inner : Stack s) (wrapper : Wrapper layer) :
      Stack (s.wrap layer)

theorem Stack.wrappers {s : Store} (stack : s.Stack) : ∀ l ∈ s.layers, Wrapper l := by
  induction stack with
  | memory bucket => exact nofun
  | failing message => exact nofun
  | wrap inner wrapper ih => exact List.forall_mem_cons.2 ⟨wrapper, ih⟩

namespace Wrapper

variable {l : Layer}

/-- A wrapper has had no calls yet. -/
theorem seen (wrapper : Wrapper l) : l.seen = .none := by
  cases wrapper <;> rfl

theorem transparent (wrapper : Wrapper l) (counted : l.counted = true) : l.Transparent := by
  cases wrapper with
  | counting => exact fun key earlier total => rfl
  | _ => cases counted

theorem waits (wrapper : Wrapper l) : l.Waits := by
  intro key earlier total
  cases wrapper with
  | stalling keys =>
      by_cases listed : key ∈ keys
      · exact .inl (if_pos listed)
      · exact .inr ⟨0, if_neg listed⟩
  | slow keys delay =>
      by_cases listed : key ∈ keys
      · exact .inr ⟨delay, if_pos listed⟩
      · exact .inr ⟨0, if_neg listed⟩
  | flaky calls =>
      by_cases early : total < calls
      · exact .inl (if_pos early)
      · exact .inr ⟨0, if_neg early⟩
  | counting => exact .inr ⟨0, rfl⟩

end Wrapper

/-! ## Counters -/

/-- What the counter with `depth` layers inside it has counted, if that layer is one. -/
def counterAt? (s : Store) (depth : Nat) : Option CallCount :=
  (s.layers.reverse[depth]?.filter (·.counted)).map (·.seen)

/-- The store with one more counter, with `depth` layers inside it. -/
def insertCounter (s : Store) (depth : Nat) : Store := s.insert depth .counting

variable {s : Store} {depth : Nat}

theorem counterAt?_eq_some {c : CallCount} (counter : s.counterAt? depth = some c) :
    ∃ l, s.layers.reverse[depth]? = some l ∧ l.counted = true ∧ l.seen = c := by
  obtain ⟨l, filtered, seen⟩ := Option.map_eq_some_iff.1 counter
  obtain ⟨at_depth, counted⟩ := Option.filter_eq_some_iff.1 filtered
  exact ⟨l, at_depth, counted, seen⟩

/-- What a store reports is what its counters have counted, the innermost first. -/
theorem calls_eq (s : Store) : s.calls = (List.range s.layers.length).filterMap s.counterAt? := by
  have places : (List.range s.layers.length).map (s.layers.reverse[·]?) =
      s.layers.reverse.map some := by
    refine List.ext_getElem (by simp) fun i bound bound' => ?_
    simp only [List.length_map, List.length_range] at bound
    simp [bound]
  have each : s.counterAt? = (fun l? : Option Layer =>
      (l?.filter (·.counted)).map (·.seen)) ∘ (s.layers.reverse[·]?) := rfl
  rw [each, ← List.filterMap_map, places, List.filterMap_map, calls, ← List.filter_reverse]
  induction s.layers.reverse with
  | nil => rfl
  | cons l rest ih => cases counted : l.counted <;> simp [counted, Option.filter, ih]

/-- Among wrappers a counter has counted nothing yet, and is transparent. -/
theorem counterAt?_of_wrappers (wrappers : ∀ l ∈ s.layers, Wrapper l) {c : CallCount}
    (counter : s.counterAt? depth = some c) : c = .none ∧ s.TransparentAt depth := by
  obtain ⟨l, at_depth, counted, rfl⟩ := counterAt?_eq_some counter
  have wrapper := wrappers l (List.mem_reverse.1 (List.mem_of_getElem? at_depth))
  exact ⟨wrapper.seen, l, at_depth, wrapper.transparent counted⟩

theorem counterAt?_insertCounter (inside : depth ≤ s.layers.length) :
    (s.insertCounter depth).counterAt? depth = some .none := by
  simp [counterAt?, insertCounter, insert, List.getElem?_insertIdx_self, inside, Layer.counting,
    Option.filter_some]

theorem wrappers_insertCounter (wrappers : ∀ l ∈ s.layers, Wrapper l)
    (inside : depth ≤ s.layers.length) : ∀ l ∈ (s.insertCounter depth).layers, Wrapper l := by
  intro l mem
  have among : l = .counting ∨ l ∈ s.layers.reverse := by
    rw [insertCounter, insert, List.mem_reverse] at mem
    exact (List.mem_insertIdx (by rwa [List.length_reverse])).1 mem
  rcases among with rfl | mem
  · exact .counting
  · exact wrappers l (List.mem_reverse.1 mem)

theorem transparentAt_insertCounter (inside : depth ≤ s.layers.length) :
    (s.insertCounter depth).TransparentAt depth :=
  .insert inside (Wrapper.counting.transparent rfl)

end ReplicaDiff.Store
