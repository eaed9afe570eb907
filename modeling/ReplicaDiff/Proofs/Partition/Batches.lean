/-
# ReplicaDiff.Proofs.Partition.Batches — when the batches of a share cut it up

A share is cut into `⌈length / size⌉` batches whatever the size.  Whether they are
the pieces that they should be (`Span.CutInto`) depends on one number: where the
batch after the last one would begin (`Span.batchesEnd`).  The end of a batch is
computed in 64 bits before it is cut off at the end of the share; if the number
fits into a word, the batches cut the share up, and else the last of them goes
backwards, so that it cannot be cut out of any list (`Worker.batchSpans_cut_iff`).
A worker cannot list it, and sends none of them (`Worker.batchKeys_of_wraps`).

The number always fits for a share that begins at zero and for a size that fits on
top of the share (`Span.batchesEnd_lt`).  A configuration does not limit the size,
so that the shares of all workers but the first can miss it.
-/
import Mathlib.Algebra.Order.Floor.Div
import ReplicaDiff.Proofs.Partition

namespace ReplicaDiff

set_option autoImplicit false

namespace Span

/-- Spans that cut `s` into pieces of `size` positions, the last of which may be shorter. -/
structure CutInto (s : Span) (size : Nat) (pieces : List Span) : Prop where
  /-- The first begins where `s` does, each next one where the one before it ends, and the last
  ends where `s` does. -/
  tiles : Tiles s.start.toNat pieces s.stop.toNat
  nonempty : ∀ piece ∈ pieces, piece.start.toNat < piece.stop.toNat
  full : ∀ piece ∈ pieces.dropLast, piece.length = size
  short : ∀ piece ∈ pieces, piece.length ≤ size

theorem batchCount_eq_ceilDiv (s : Span) (size : UInt64) :
    s.batchCount (max size 1) = s.length ⌈/⌉ max size.toNat 1 := by
  unfold batchCount
  rw [Nat.ceilDiv_eq_add_pred_div, ← toNat_max_one, Nat.add_sub_assoc (size_pos size)]

theorem length_batches (s : Span) (size : UInt64) :
    (s.batches size).length = s.length ⌈/⌉ max size.toNat 1 := by
  unfold batches
  rw [List.length_map, List.length_range, batchCount_eq_ceilDiv]

theorem batchesEnd_eq (s : Span) (size : UInt64) :
    s.batchesEnd size =
      s.start.toNat + s.length ⌈/⌉ max size.toNat 1 * max size.toNat 1 := by
  unfold batchesEnd
  rw [batchCount_eq_ceilDiv, toNat_max_one]

variable {s : Span} {size : UInt64}

/-- A batch whose end fits into a word has a position and no more than `size` of them, and only
the last one has fewer. -/
theorem batchAt_length {i : Nat} (below : i * size.toNat < s.length) (positive : 0 < size.toNat)
    (fits : s.start.toNat + (i + 1) * size.toNat < 2 ^ 64) :
    let b := s.batchAt size (s.start + UInt64.ofNat i * size)
    b.start.toNat < b.stop.toNat ∧ b.length ≤ size.toNat ∧
      ((i + 1) * size.toNat < s.length → b.length = size.toNat) := by
  intro b
  have start : b.start.toNat = s.start.toNat + i * size.toNat := toNat_batchStart below
  have stop : b.stop.toNat = min (s.start.toNat + (i + 1) * size.toNat) s.stop.toNat :=
    toNat_batchStop_fits below fits
  have onward : (i + 1) * size.toNat = i * size.toNat + size.toNat := Nat.succ_mul _ _
  unfold length at below ⊢
  omega

/-- No batch would end, before it is cut off, past the place of the batch after the last one. -/
theorem start_add_size_le {b : Span} (mem : b ∈ s.batches size) :
    b.start.toNat + max size.toNat 1 ≤ s.batchesEnd size := by
  obtain ⟨i, number, rfl⟩ := List.mem_map.1 mem
  have lt := List.mem_range.1 number
  have start := toNat_batchStart ((lt_batchCount_iff (size_pos size)).1 lt)
  show (s.start + UInt64.ofNat i * max size 1).toNat + _ ≤ _
  rw [start, ← toNat_max_one, Nat.add_assoc, ← Nat.succ_mul]
  exact Nat.add_le_add_left (Nat.mul_le_mul_right _ lt) _

/-- If a word holds the end of the last batch, the batches cut the span up. -/
theorem batches_cut (forward : s.start.toNat ≤ s.stop.toNat) (fits : s.batchesEnd size < 2 ^ 64) :
    s.CutInto (max size.toNat 1) (s.batches size) := by
  have positive := size_pos size
  rw [← toNat_max_one]
  have batch : ∀ i < s.batchCount (max size 1), _ := fun i lt =>
    batchAt_length ((lt_batchCount_iff positive).1 lt) positive
      (Nat.lt_of_le_of_lt (Nat.add_le_add_left (Nat.mul_le_mul_right _ lt) _) fits)
  refine ⟨s.batches_tiles size forward fits, fun piece mem => ?_, fun piece mem => ?_,
    fun piece mem => ?_⟩
  · obtain ⟨i, lt, rfl⟩ := List.mem_map.1 mem
    exact (batch i (List.mem_range.1 lt)).1
  · rw [batches, List.dropLast_eq_take, List.length_map, List.length_range, ← List.map_take,
      List.take_range] at mem
    obtain ⟨i, lt, rfl⟩ := List.mem_map.1 mem
    have before := List.mem_range.1 lt
    exact (batch i (by omega)).2.2 ((lt_batchCount_iff positive).1 (by omega))
  · obtain ⟨i, lt, rfl⟩ := List.mem_map.1 mem
    exact (batch i (List.mem_range.1 lt)).2.1

/-- If a word does not hold the end of the last batch, the batches before it are as they should be,
and the last one goes backwards. -/
theorem batches_wrap (forward : s.start.toNat ≤ s.stop.toNat)
    (wraps : 2 ^ 64 ≤ s.batchesEnd size) :
    ∃ earlier last, s.batches size = earlier ++ [last] ∧
      Tiles s.start.toNat earlier last.start.toNat ∧ last.stop.toNat < last.start.toNat ∧
      2 ^ 64 ≤ last.start.toNat + max size.toNat 1 := by
  have positive := size_pos size
  have small := s.start.toNat_lt
  unfold batchesEnd at wraps
  cases count : s.batchCount (max size 1) with
  | zero =>
      rw [count] at wraps
      omega
  | succ m =>
      rw [count] at wraps
      have inside : ∀ i < m + 1, i * (max size 1).toNat < s.length := fun i lt =>
        (lt_batchCount_iff positive).1 (by omega)
      have below := inside m (Nat.lt_succ_self m)
      have start := toNat_batchStart below
      have within : s.start.toNat + m * (max size 1).toNat < s.stop.toNat := by
        unfold length at below
        omega
      have stop := s.stop.toNat_lt
      have tiles := range_batches_tiles s (max size 1) (n := m) forward (by omega)
        fun i lt => inside i (Nat.lt_succ_of_lt lt)
      rw [Nat.min_eq_left (Nat.le_of_lt within), ← start] at tiles
      refine ⟨_, s.batchAt (max size 1) (s.start + UInt64.ofNat m * max size 1), ?_, tiles, ?_, ?_⟩
      · unfold batches
        dsimp only
        rw [count, List.range_succ, List.map_append, List.map_singleton]
      · show _ < (s.start + UInt64.ofNat m * max size 1).toNat
        rw [start]
        exact toNat_batchStop_wraps below wraps
      · show _ ≤ (s.start + UInt64.ofNat m * max size 1).toNat + _
        rw [start, ← toNat_max_one, Nat.add_assoc, ← Nat.succ_mul]
        exact wraps

end Span

namespace Worker

/-- If a word does not hold the end of the last batch, the worker comes to no batch. -/
theorem batchKeys_of_wraps (w : Worker) (forward : w.span.start.toNat ≤ w.span.stop.toNat)
    (wraps : 2 ^ 64 ≤ w.span.batchesEnd w.settings.batchSize) : w.batchKeys = [] := by
  obtain ⟨earlier, last, batches, -, backwards, -⟩ := Span.batches_wrap forward wraps
  have own : last ∈ w.batchSpans := by simp [batchSpans, batches]
  refine if_neg fun listed => ?_
  have onward := List.all_eq_true.1 (Bool.and_eq_true_iff.1 listed).2 last own
  exact Nat.not_le_of_lt backwards (UInt64.le_iff_toNat_le.1 (of_decide_eq_true onward))

/-- The batches of a share inside the keys have no more keys than the share, and fewer unless there is
a key in each of them. -/
theorem length_flatten_batchKeys (w : Worker) (forward : w.span.start.toNat ≤ w.span.stop.toNat)
    (inside : w.span.stop.toNat ≤ w.keys.length) :
    w.batchKeys.flatten.length ≤ w.span.length ∧
      (w.batchKeys.flatten.length < w.span.length ∨ ∀ keys ∈ w.batchKeys, keys ≠ []) := by
  rcases Nat.lt_or_ge (w.span.batchesEnd w.settings.batchSize) (2 ^ 64) with fits | wraps
  · have all : w.batchKeys.flatten.length = w.span.length := by
      rw [w.flatten_batchKeys inside fits, Span.length_slice inside]
    refine ⟨Nat.le_of_eq all, .inr fun keys mem => ?_⟩
    rw [batchKeys_of_inBounds (w.inBounds_of_fits inside fits)] at mem
    obtain ⟨b, batch, rfl⟩ := List.mem_map.1 mem
    have cut := Span.batches_cut forward fits
    have some := cut.nonempty b batch
    have within := Nat.le_trans (cut.tiles.bounds batch).2 inside
    rw [← List.length_pos_iff, Span.length_slice within, Span.length]
    omega
  · rw [w.batchKeys_of_wraps forward wraps]
    exact ⟨Nat.zero_le _, .inr nofun⟩

/-- For a share inside the keys, the number of batches is right for every size; the batches cut
the share up, no addition overflows and every batch can be cut out of the keys just when a word
holds the end of the last batch. -/
theorem batchSpans_cut_iff (w : Worker) (forward : w.span.start.toNat ≤ w.span.stop.toNat)
    (inside : w.span.stop.toNat ≤ w.keys.length) :
    let size := max w.settings.batchSize.toNat 1
    let number := w.span.length ⌈/⌉ size
    let fits := w.span.start.toNat + number * size < 2 ^ 64
    w.batchSpans.length = number ∧
    (w.settings.batchSize = 0 → w.batchSpans = w.span.batches 1) ∧
    (w.span.CutInto size w.batchSpans ↔ fits) ∧
    ((∀ b ∈ w.batchSpans, b.start.toNat + size < 2 ^ 64) ↔ fits) ∧
    (w.inBounds = true ↔ fits) := by
  intro size number fits
  refine ⟨w.span.length_batches _, fun zero => by rw [batchSpans, zero]; rfl, ?_⟩
  have boundary : w.span.batchesEnd w.settings.batchSize < 2 ^ 64 ↔ fits := by
    rw [Span.batchesEnd_eq]
  rcases Nat.lt_or_ge (w.span.batchesEnd w.settings.batchSize) (2 ^ 64) with lt | ge
  · have holds := boundary.1 lt
    have cut := Span.batches_cut forward lt
    refine ⟨iff_of_true cut holds, iff_of_true (fun b mem => ?_) holds, iff_of_true ?_ holds⟩
    · exact Nat.lt_of_le_of_lt (Span.start_add_size_le mem) lt
    · refine List.all_eq_true.2 fun b mem => decide_eq_true ⟨?_, ?_⟩
      · exact UInt64.le_iff_toNat_le.2 (Nat.le_of_lt (cut.nonempty b mem))
      · exact Nat.le_trans (cut.tiles.bounds mem).2 inside
  · have fails : ¬fits := fun holds => Nat.not_lt_of_ge ge (boundary.2 holds)
    obtain ⟨earlier, last, batches, -, backwards, overflows⟩ := Span.batches_wrap forward ge
    have mem : last ∈ w.batchSpans := by
      rw [batchSpans, batches]
      exact List.mem_append_right _ List.mem_cons_self
    refine ⟨iff_of_false (fun cut => ?_) fails, iff_of_false (fun all => ?_) fails,
      iff_of_false (fun all => ?_) fails⟩
    · exact Nat.lt_asymm backwards (cut.nonempty last mem)
    · exact Nat.not_lt_of_ge overflows (all last mem)
    · have forward := (of_decide_eq_true (List.all_eq_true.1 all last mem)).1
      exact Nat.not_lt_of_ge (UInt64.le_iff_toNat_le.1 forward) backwards

/-- The last two of three keys, in batches of two. -/
def lastTwo : Worker where
  id := 0
  keys := ["a", "b", "c"]
  span := ⟨1, 3⟩
  settings := { Config.workerSettings {} with batchSize := 2 }

/-- One batch takes the last two of three keys. -/
theorem lastTwo_cut :
    lastTwo.batchSpans = [⟨1, 3⟩] ∧ lastTwo.span.CutInto 2 lastTwo.batchSpans ∧
      lastTwo.inBounds = true := by
  obtain ⟨-, -, cut, -, bounds⟩ := batchSpans_cut_iff lastTwo (by decide) (by decide)
  exact ⟨by decide +kernel, cut.2 (by decide +kernel), bounds.2 (by decide +kernel)⟩

/-- A configuration with batches as large as a word allows. -/
def hugeBatches : Config := { Config.inMemory "" with batchSize := 18446744073709551615 }

/-- A run begins with the configuration, but the batch of the second worker goes backwards. -/
theorem second_share_backwards :
    hugeBatches.validate = .ok () ∧
      ∃ w, (Run.workers hugeBatches ["a", "b"])[1]? = some w ∧ w.span = ⟨1, 2⟩ ∧
        w.batchSpans = [⟨1, 0⟩] ∧
        ¬w.span.CutInto w.settings.batchSize.toNat w.batchSpans ∧ w.inBounds = false := by
  refine ⟨by decide +kernel, ⟨1, ["a", "b"], ⟨1, 2⟩, hugeBatches.workerSettings⟩, rfl, rfl,
    by decide +kernel, fun cut => ?_, by decide +kernel⟩
  exact absurd (cut.nonempty ⟨1, 0⟩ (by decide +kernel)) (by decide)

end Worker

end ReplicaDiff
