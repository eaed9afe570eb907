/-
# ReplicaDiff.Proofs.Partition.Shares — every key has one owner

Every worker has a share of the keys, as even as they can be (`SharedOut`).  The
positions before a share are those of the shares before it, the longer of which
come first, so that a share begins at a place that is known in advance; every sum
on the way is that of a position and stays below the number of keys
(`evenShares_sharedOut`).

`balanceLoad` gives the shares out unless there are more of them than a list can
have.  Then a run begins with a worker for each of the first shares, as many as
there are keys and workers, and these own all keys; else it breaks off before it
has a worker (`workers_own_all`).
-/
import Mathlib.Algebra.Order.Floor.Div
import ReplicaDiff.Proofs.Partition

namespace ReplicaDiff

set_option autoImplicit false

namespace Span

/-- The positions of a span, in order. -/
def positions (s : Span) : List Nat := List.range' s.start.toNat s.length

theorem mem_positions {s : Span} {k : Nat} :
    k ∈ s.positions ↔ s.start.toNat ≤ k ∧ k < s.stop.toNat := by
  unfold positions length
  rw [List.mem_range'_1]
  omega

theorem nonempty_of_mem_positions {s : Span} {k : Nat} (mem : k ∈ s.positions) :
    s.isEmpty = false := by
  rw [mem_positions] at mem
  rw [isEmpty_eq_false_iff]
  unfold length
  omega

end Span

namespace Tiles

variable {a b i k : Nat} {s : Span} {spans : List Span}

/-- The positions of tiling spans are, put together, those from one end to the other. -/
theorem flatMap_positions (h : Tiles a spans b) :
    spans.flatMap Span.positions = List.range' a (b - a) := by
  induction h with
  | nil a => simp
  | @cons a b s rest starts forward onward ih =>
      have past := onward.le
      have split : b - a = s.length + (b - s.stop.toNat) := by
        unfold Span.length
        omega
      have reach : a + s.length = s.stop.toNat := by
        unfold Span.length
        omega
      rw [List.flatMap_cons, ih, split, ← List.range'_append_1, reach]
      unfold Span.positions
      rw [starts]

/-- A span of a tiling begins where the lengths of those before it lead. -/
theorem place (h : Tiles a spans b) (present : spans[i]? = some s) :
    s.start.toNat = a + ((spans.map Span.length).take i).sum ∧
      s.stop.toNat = s.start.toNat + s.length := by
  induction h generalizing i with
  | nil a => cases present
  | @cons a b first rest starts forward onward ih =>
      have own : first.stop.toNat = first.start.toNat + first.length := by
        unfold Span.length
        omega
      cases i with
      | zero =>
          cases present
          exact ⟨by simpa using starts, own⟩
      | succ i =>
          obtain ⟨start, stop⟩ := ih present
          refine ⟨?_, stop⟩
          rw [start, own, starts, List.map_cons, List.take_succ_cons, List.sum_cons, Nat.add_assoc]

theorem le_start (h : Tiles a spans b) (mem : s ∈ spans) : a ≤ s.start.toNat := by
  induction h with
  | nil => cases mem
  | cons starts forward onward ih =>
      rcases List.mem_cons.1 mem with rfl | mem
      · exact Nat.le_of_eq starts.symm
      · have := ih mem
        omega

/-- The spans of a tiling do not overlap. -/
theorem ordered (h : Tiles a spans b) :
    spans.Pairwise fun s later => s.stop.toNat ≤ later.start.toNat := by
  induction h with
  | nil => exact .nil
  | cons starts forward onward ih => exact .cons (fun later mem => onward.le_start mem) ih

/-- Every position of a tiling is in one of its spans, and in no other. -/
theorem existsUnique_owner (h : Tiles a spans b) (reached : a ≤ k) (before : k < b) :
    ∃! i : Nat, ∃ s : Span, spans[i]? = some s ∧ k ∈ s.positions := by
  have mem : k ∈ spans.flatMap Span.positions := by
    rw [h.flatMap_positions, List.mem_range'_1]
    omega
  obtain ⟨s, own, inside⟩ := List.mem_flatMap.1 mem
  obtain ⟨i, present⟩ := List.getElem?_of_mem own
  refine ⟨i, ⟨s, present, inside⟩, ?_⟩
  rintro j ⟨s', present', inside'⟩
  obtain ⟨bound, rfl⟩ := List.getElem?_eq_some_iff.1 present
  obtain ⟨bound', rfl⟩ := List.getElem?_eq_some_iff.1 present'
  have apart := List.pairwise_iff_getElem.1 h.ordered
  have here := Span.mem_positions.1 inside
  have there := Span.mem_positions.1 inside'
  rcases Nat.lt_trichotomy i j with lt | same | lt
  · have := apart i j bound bound' lt
    omega
  · exact same.symm
  · have := apart j i bound' bound lt
    omega

end Tiles

/-! ## The lengths of shares -/

section Share

variable {workers keys i j : Nat}

theorem shareOf_le_of_le (le : i ≤ j) : shareOf workers keys j ≤ shareOf workers keys i := by
  unfold shareOf
  split <;> split <;> omega

/-- A share has the keys of an even one, with a part of a key dropped or made whole. -/
theorem shareOf_floor_or_ceil (positive : 0 < workers) (i : Nat) :
    shareOf workers keys i = keys / workers ∨ shareOf workers keys i = keys ⌈/⌉ workers := by
  unfold shareOf
  split
  · rename_i more
    right
    rw [Nat.ceilDiv_eq_add_pred_div]
    have division := Nat.div_add_mod keys workers
    have whole : keys + workers - 1 = (keys / workers + 1) * workers + (keys % workers - 1) := by
      rw [Nat.succ_mul, Nat.mul_comm (keys / workers)]
      omega
    have below : keys % workers - 1 < workers := by
      have := Nat.mod_lt keys positive
      omega
    rw [whole, Nat.mul_comm, Nat.mul_add_div positive, Nat.div_eq_of_lt below]
  · exact .inl rfl

/-- The first workers have a key each, as far as there are keys. -/
theorem shareOf_pos_iff (own : i < workers) : 0 < shareOf workers keys i ↔ i < keys := by
  unfold shareOf
  rcases Nat.lt_or_ge keys workers with fewer | enough
  · rw [Nat.div_eq_of_lt fewer, Nat.mod_eq_of_lt fewer]
    split <;> omega
  · have some : 0 < keys / workers := Nat.div_pos enough (by omega)
    omega

end Share

/-- Spans that share `n` positions out among some workers. -/
structure SharedOut (n workers : Nat) (spans : List Span) : Prop where
  number : spans.length = workers
  /-- Put together, the spans are all positions, in order. -/
  positions : spans.flatMap Span.positions = List.range n
  owner : ∀ k < n, ∃! i : Nat, ∃ s : Span, spans[i]? = some s ∧ k ∈ s.positions
  descending : spans.Pairwise fun s later => later.length ≤ s.length
  even : ∀ s ∈ spans, s.length = n / workers ∨ s.length = n ⌈/⌉ workers
  nonempty_iff : ∀ i s, spans[i]? = some s → (s.isEmpty = false ↔ i < min workers n)
  /-- The ends of a span are the sums that they should be, and none of these passes `n`. -/
  placed : ∀ i s, spans[i]? = some s →
    s.start.toNat = i * (n / workers) + min i (n % workers) ∧
    s.stop.toNat = s.start.toNat + (n / workers + if i < n % workers then 1 else 0) ∧
    s.stop.toNat ≤ n

/-- The shares of the workers share the keys out. -/
theorem evenShares_sharedOut {workers : UInt64} (keys : UInt64) (positive : workers ≠ 0) :
    SharedOut keys.toNat workers.toNat (evenShares workers keys) := by
  have pos : 0 < workers.toNat :=
    Nat.pos_of_ne_zero fun zero => positive (UInt64.toNat_inj.1 zero)
  obtain ⟨tiles, lengths⟩ := evenShares_lays workers keys positive
  generalize evenShares workers keys = spans at tiles lengths
  have number : spans.length = workers.toNat := by
    simpa using congrArg List.length lengths
  have own : ∀ i s, spans[i]? = some s →
      i < workers.toNat ∧ s.length = shareOf workers.toNat keys.toNat i := by
    intro i s present
    have below : i < workers.toNat := number ▸ (List.getElem?_eq_some_iff.1 present).1
    have length := congrArg (·[i]?) lengths
    simp only [List.getElem?_map, present, List.getElem?_range below, Option.map_some] at length
    exact ⟨below, Option.some.inj length⟩
  refine ⟨number, ?_, fun k lt => tiles.existsUnique_owner (Nat.zero_le k) lt, ?_, ?_, ?_, ?_⟩
  · rw [tiles.flatMap_positions, Nat.sub_zero, List.range_eq_range']
  · have sorted : (spans.map Span.length).Pairwise fun n later => later ≤ n := by
      rw [lengths]
      exact List.pairwise_map.2 (List.pairwise_lt_range.imp fun lt =>
        shareOf_le_of_le (Nat.le_of_lt lt))
    exact List.pairwise_map.1 sorted
  · intro s mem
    obtain ⟨i, present⟩ := List.getElem?_of_mem mem
    rw [(own i s present).2]
    exact shareOf_floor_or_ceil pos i
  · intro i s present
    obtain ⟨below, length⟩ := own i s present
    rw [Span.isEmpty_eq_false_iff, length, shareOf_pos_iff below]
    omega
  · intro i s present
    obtain ⟨below, length⟩ := own i s present
    obtain ⟨start, stop⟩ := tiles.place present
    rw [lengths, ← List.map_take, List.take_range, Nat.min_eq_left (Nat.le_of_lt below), sum_shareOf,
      Nat.zero_add] at start
    rw [length] at stop
    exact ⟨start, stop, (tiles.bounds (List.mem_of_getElem? present)).2⟩

namespace Run

/-- A run begins with a worker for each of the first shares, as far as there are keys. -/
theorem workers_eq_map (config : Config) (keys : List String) (positive : config.numWorkers ≠ 0)
    (room : config.numWorkers ≤ mostShares) (small : keys.length < 2 ^ 64) :
    workers config keys =
      ((evenShares config.numWorkers (UInt64.ofNat keys.length)).take
        (min config.numWorkers.toNat keys.length)).zipIdx.map fun e =>
          ⟨e.2, keys, e.1, config.workerSettings⟩ := by
  have shared := evenShares_sharedOut (UInt64.ofNat keys.length) positive
  rw [UInt64.toNat_ofNat', Nat.mod_eq_of_lt small] at shared
  unfold workers
  rw [shares?_eq_some room, Option.getD_some]
  have nonempty := shared.nonempty_iff
  generalize evenShares config.numWorkers (UInt64.ofNat keys.length) = spans at nonempty
  generalize min config.numWorkers.toNat keys.length = launched at nonempty
  conv_lhs => rw [← List.take_append_drop launched spans, List.zipIdx_append, List.filterMap_append]
  have rest : ((spans.drop launched).zipIdx (0 + (spans.take launched).length)).filterMap
      (fun e : Span × Nat =>
        if e.1.isEmpty then none else some (⟨e.2, keys, e.1, config.workerSettings⟩ : Worker)) =
      [] := by
    refine List.filterMap_eq_nil_iff.2 fun ⟨s, n⟩ mem => if_pos ?_
    obtain ⟨i, present⟩ := List.getElem?_of_mem (List.fst_mem_of_mem_zipIdx mem)
    rw [List.getElem?_drop] at present
    by_contra busy
    exact absurd ((nonempty _ s present).1 (Bool.eq_false_iff.2 busy)) (by omega)
  rw [rest, List.append_nil, ← List.filterMap_eq_map]
  refine List.filterMap_congr fun ⟨s, n⟩ mem => if_neg ?_
  obtain ⟨i, present⟩ := List.getElem?_of_mem (List.fst_mem_of_mem_zipIdx mem)
  rw [List.getElem?_take] at present
  split at present
  · rename_i first
    exact Bool.eq_false_iff.1 ((nonempty i s present).2 first)
  · cases present

/-- The workers of a run are numbered in the order of their shares. -/
theorem getElem?_workers (config : Config) (keys : List String) (positive : config.numWorkers ≠ 0)
    (room : config.numWorkers ≤ mostShares) (small : keys.length < 2 ^ 64) (i : Nat) :
    (workers config keys)[i]? =
      if i < min config.numWorkers.toNat keys.length then
        ((evenShares config.numWorkers (UInt64.ofNat keys.length))[i]?).map fun s =>
          (⟨i, keys, s, config.workerSettings⟩ : Worker)
      else none := by
  rw [workers_eq_map config keys positive room small, List.getElem?_map, List.getElem?_zipIdx,
    List.getElem?_take]
  split <;> simp [Function.comp_def]

end Run

/-- Any number of keys is shared out among as many workers as a list of shares has room for: each has
one share, in order and without gaps, the longer ones come first and no two differ by more than one
key; every key has one owner, and no sum on the way passes the number of keys.  A run launches the
workers with a key, which are the first ones, and each key is the business of one of them.  With more
workers there are no shares, and a run that has begun breaks off. -/
theorem workers_own_all (workers keys : UInt64) (positive : workers ≠ 0) :
    (workers ≤ mostShares → ∃ spans, balanceLoad workers keys = some spans ∧
      SharedOut keys.toNat workers.toNat spans ∧
      ∀ (config : Config) (items : List String), config.numWorkers = workers →
        items.length = keys.toNat →
        (Run.workers config items).length = min workers.toNat keys.toNat ∧
        (∀ (i : Nat) (w : Worker), (Run.workers config items)[i]? = some w →
          w.id = i ∧ w.keys = items ∧ spans[i]? = some w.span) ∧
        ∀ k < items.length, ∃! i : Nat, ∃ w : Worker, (Run.workers config items)[i]? = some w ∧
          k ∈ w.span.positions) ∧
    (mostShares < workers → balanceLoad workers keys = none ∧
      ∀ (config : Config) (connector : Connector) (files : Files) (setup : Run.Setup)
        (said : List Event), config.numWorkers = workers →
        Run.prepare config connector files = (.ok setup, said) →
        Run.check config connector files = (.brokenOff setup, said)) := by
  refine ⟨fun room => ?_, fun many => ?_⟩
  · have shared := evenShares_sharedOut keys positive
    refine ⟨_, balanceLoad_eq_some room keys, shared, ?_⟩
    rintro config items rfl length
    have small : items.length < 2 ^ 64 := length ▸ keys.toNat_lt
    have team := Run.workers_eq_map config items positive room small
    have present := Run.getElem?_workers config items positive room small
    rw [length, UInt64.ofNat_toNat] at team present
    refine ⟨?_, ?_, ?_⟩
    · rw [team, List.length_map, List.length_zipIdx, List.length_take, shared.number]
      omega
    · intro i w own
      rw [present] at own
      split at own
      · obtain ⟨s, share, rfl⟩ := Option.map_eq_some_iff.1 own
        exact ⟨rfl, rfl, share⟩
      · cases own
    · intro k lt
      obtain ⟨i, ⟨s, share, inside⟩, unique⟩ := shared.owner k (length ▸ lt)
      have launched := (shared.nonempty_iff i s share).1 (Span.nonempty_of_mem_positions inside)
      refine ⟨i, ⟨⟨i, items, s, config.workerSettings⟩, ?_, inside⟩, ?_⟩
      · rw [present, if_pos launched, share]
        rfl
      · rintro j ⟨w, own, inside'⟩
        rw [present] at own
        split at own
        · obtain ⟨s', share', rfl⟩ := Option.map_eq_some_iff.1 own
          exact unique j ⟨s', share', inside'⟩
        · cases own
  · refine ⟨(balanceLoad_eq_none_iff workers keys).2 many, ?_⟩
    rintro config connector files setup said rfl begins
    exact Run.check_of_lt begins many

/-- Two keys keep two of five workers busy. -/
theorem workers_own_all_two_keys :
    ∃ spans, balanceLoad 5 2 = some spans ∧ SharedOut 2 5 spans ∧
      (Run.workers { numWorkers := 5 } ["a", "b"]).length = 2 ∧
      ∀ k < 2, ∃! i : Nat, ∃ w : Worker, (Run.workers { numWorkers := 5 } ["a", "b"])[i]? = some w ∧
        k ∈ w.span.positions := by
  obtain ⟨spans, shares, shared, launched⟩ := (workers_own_all 5 2 (by decide)).1 (by decide)
  obtain ⟨number, -, owner⟩ := launched { numWorkers := 5 } ["a", "b"] rfl rfl
  exact ⟨spans, shares, shared, number, owner⟩

/-- A configuration with one worker more than there can be shares. -/
def crowd : Config := { Config.inMemory "" with numWorkers := 576460752303423488 }

/-- A run begins with the configuration, but two keys cannot be shared out among its workers. -/
theorem crowd_without_shares :
    crowd.validate = .ok () ∧ balanceLoad crowd.numWorkers 2 = none ∧
      Run.workers crowd ["a", "b"] = [] := by
  exact ⟨by decide +kernel, (balanceLoad_eq_none_iff _ _).2 (by decide),
    Run.workers_of_lt (by decide) _⟩

-- The ends of the last share are computed without overflow even for the most keys that there can be.
example : balanceLoad 2 18446744073709551615 =
    some [⟨0, 9223372036854775808⟩, ⟨9223372036854775808, 18446744073709551615⟩] := by decide +kernel

end ReplicaDiff
