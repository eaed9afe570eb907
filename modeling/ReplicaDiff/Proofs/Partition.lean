/-
# ReplicaDiff.Proofs.Partition — every key is in one batch of one worker

`Tiles a spans b` says that spans lie one after the other from position `a` to
position `b`.  The shares of the workers tile the key list (`evenShares_tiles`)
and the batches of a share tile the share (`Span.batches_tiles`), as long as the
end of its last batch, before it is cut off, fits into 64 bits; put together
again, the batches of all workers are the key list (`flatten_batchKeys`).

The shares are laid unless there are more of them than a list can have
(`balanceLoad_eq_none_iff`).
-/
import Mathlib.Algebra.GroupWithZero.Nat
import Mathlib.Data.List.Basic
import Mathlib.Data.List.TakeWhile
import ReplicaDiff.Run

namespace ReplicaDiff

set_option autoImplicit false

/-- Spans that lie one after the other, from one position to another. -/
inductive Tiles : Nat → List Span → Nat → Prop where
  | nil (a : Nat) : Tiles a [] a
  | cons {a b : Nat} {s : Span} {rest : List Span} (starts : s.start.toNat = a)
      (forward : s.start.toNat ≤ s.stop.toNat) (onward : Tiles s.stop.toNat rest b) :
      Tiles a (s :: rest) b

namespace Tiles

variable {a b c : Nat} {first second spans : List Span}

theorem le (h : Tiles a spans b) : a ≤ b := by
  induction h with
  | nil => exact Nat.le_refl _
  | cons starts forward _ ih => omega

theorem append (h : Tiles a first b) (h' : Tiles b second c) : Tiles a (first ++ second) c := by
  induction h with
  | nil => exact h'
  | cons starts forward _ ih => exact .cons starts forward (ih h')

theorem snoc (h : Tiles a spans b) {s : Span} (starts : s.start.toNat = b)
    (forward : s.start.toNat ≤ s.stop.toNat) : Tiles a (spans ++ [s]) s.stop.toNat :=
  h.append (.cons starts forward (.nil _))

/-- What tiling spans cut out of a list is, put together again, one piece of it. -/
theorem flatten_slices {α : Type} (h : Tiles a spans b) (items : List α) :
    (spans.map fun s => s.slice items).flatten = (items.drop a).take (b - a) := by
  induction h with
  | nil a => simp
  | @cons a b s rest starts forward onward ih =>
      have past := onward.le
      have split : b - a = s.length + (b - s.stop.toNat) := by
        unfold Span.length
        omega
      have reach : a + s.length = s.stop.toNat := by
        unfold Span.length
        omega
      rw [List.map_cons, List.flatten_cons, ih, split, List.take_add, List.drop_drop, reach]
      unfold Span.slice
      rw [starts]

/-- The spans of a tiling go forward and lie inside it. -/
theorem bounds (h : Tiles a spans b) {s : Span} (mem : s ∈ spans) :
    s.start.toNat ≤ s.stop.toNat ∧ s.stop.toNat ≤ b := by
  induction h with
  | nil => cases mem
  | cons starts forward onward ih =>
      rcases List.mem_cons.1 mem with rfl | mem
      · exact ⟨forward, onward.le⟩
      · exact ih mem

end Tiles

/-! ## Batches -/

theorem toNat_max_one (n : UInt64) : (max n 1).toNat = max n.toNat 1 := by
  show (if n ≤ 1 then 1 else n).toNat = _
  have one : (1 : UInt64).toNat = 1 := rfl
  split
  · rename_i le
    have le := UInt64.le_iff_toNat_le.1 le
    omega
  · rename_i gt
    have gt := Nat.lt_of_not_le fun le => gt (UInt64.le_iff_toNat_le.2 le)
    omega

namespace Span

/-- A batch has a position. -/
theorem size_pos (size : UInt64) : 0 < (max size 1).toNat := by
  rw [toNat_max_one]
  exact Nat.lt_of_lt_of_le Nat.one_pos (Nat.le_max_right _ _)

section Batch

variable {s : Span} {size : UInt64} {i : Nat}

/-- There is a batch `i` when the batches before it do not take up the span. -/
theorem lt_batchCount_iff (positive : 0 < size.toNat) :
    i < s.batchCount size ↔ i * size.toNat < s.length := by
  unfold batchCount
  rw [Nat.lt_div_iff_mul_lt positive]
  omega

theorem length_le_batches (positive : 0 < size.toNat) :
    s.length ≤ s.batchCount size * size.toNat :=
  Nat.le_of_not_lt fun lt => Nat.lt_irrefl _ ((lt_batchCount_iff positive).2 lt)

/-- Where a batch begins is computed without wrapping around, as it lies inside the span. -/
theorem toNat_batchStart (below : i * size.toNat < s.length) :
    (s.start + UInt64.ofNat i * size).toNat = s.start.toNat + i * size.toNat := by
  have stop := s.stop.toNat_lt
  unfold length at below
  have product : (UInt64.ofNat i * size).toNat = i * size.toNat := by
    rw [UInt64.toNat_mul, UInt64.toNat_ofNat']
    by_cases zero : size.toNat = 0
    · rw [zero, Nat.mul_zero, Nat.mul_zero, Nat.zero_mod]
    · have small : i * 1 ≤ i * size.toNat := Nat.mul_le_mul_left i (Nat.pos_of_ne_zero zero)
      have number : i % 2 ^ 64 = i := Nat.mod_eq_of_lt (by omega)
      rw [number, Nat.mod_eq_of_lt (by omega)]
  rw [UInt64.toNat_add, product, Nat.mod_eq_of_lt (by omega)]

theorem toNat_batchStop (s : Span) (size start : UInt64) :
    (s.batchAt size start).stop.toNat =
      min ((start.toNat + size.toNat) % 2 ^ 64) s.stop.toNat := by
  rw [← UInt64.toNat_add]
  show (if start + size ≤ s.stop then start + size else s.stop).toNat = _
  split
  · rename_i le
    rw [Nat.min_eq_left (UInt64.le_iff_toNat_le.1 le)]
  · rename_i gt
    rw [Nat.min_eq_right (Nat.le_of_not_le fun le => gt (UInt64.le_iff_toNat_le.2 le))]

/-- A batch ends where the next one begins or at the end of the span, if a word holds both. -/
theorem toNat_batchStop_fits (below : i * size.toNat < s.length)
    (fits : s.start.toNat + (i + 1) * size.toNat < 2 ^ 64) :
    (s.batchAt size (s.start + UInt64.ofNat i * size)).stop.toNat =
      min (s.start.toNat + (i + 1) * size.toNat) s.stop.toNat := by
  rw [toNat_batchStop, toNat_batchStart below, Nat.add_assoc, ← Nat.succ_mul,
    Nat.mod_eq_of_lt fits]

/-- A batch whose end does not fit into a word goes backwards. -/
theorem toNat_batchStop_wraps (below : i * size.toNat < s.length)
    (wraps : 2 ^ 64 ≤ s.start.toNat + (i + 1) * size.toNat) :
    (s.batchAt size (s.start + UInt64.ofNat i * size)).stop.toNat <
      s.start.toNat + i * size.toNat := by
  have stop := s.stop.toNat_lt
  have small := size.toNat_lt
  unfold length at below
  rw [Nat.succ_mul, ← Nat.add_assoc] at wraps
  rw [toNat_batchStop, toNat_batchStart below, Nat.mod_eq_sub_mod wraps, Nat.mod_eq_of_lt (by omega)]
  omega

end Batch

/-- The batches with numbers below `n` tile the span up to where the next batch begins. -/
theorem range_batches_tiles (s : Span) (size : UInt64) {n : Nat}
    (forward : s.start.toNat ≤ s.stop.toNat) (fits : s.start.toNat + n * size.toNat < 2 ^ 64)
    (inside : ∀ i, i < n → i * size.toNat < s.length) :
    Tiles s.start.toNat
      ((List.range n).map fun i => s.batchAt size (s.start + UInt64.ofNat i * size))
      (min (s.start.toNat + n * size.toNat) s.stop.toNat) := by
  induction n with
  | zero =>
      simp only [Nat.zero_mul, Nat.add_zero, Nat.min_eq_left forward]
      exact .nil _
  | succ n ih =>
      have below : n * size.toNat < s.length := inside n (Nat.lt_succ_self n)
      have start := toNat_batchStart below
      have stop := toNat_batchStop_fits below fits
      have onward : n * size.toNat ≤ (n + 1) * size.toNat :=
        Nat.mul_le_mul_right _ (Nat.le_succ n)
      have earlier := ih (by omega) fun i lt => inside i (Nat.lt_succ_of_lt lt)
      unfold length at below
      rw [List.range_succ, List.map_append, List.map_singleton, ← stop]
      refine earlier.snoc ?_ ?_
      · show (s.start + UInt64.ofNat n * size).toNat = _
        rw [start, Nat.min_eq_left (by omega)]
      · rw [stop]
        show (s.start + UInt64.ofNat n * size).toNat ≤ _
        rw [start]
        omega

/-- Where the batch after the last one would begin. -/
def batchesEnd (s : Span) (size : UInt64) : Nat :=
  s.start.toNat + s.batchCount (max size 1) * (max size 1).toNat

/-- The end of the last batch is not a whole batch beyond the span. -/
theorem batchesEnd_lt (s : Span) (size : UInt64) (forward : s.start.toNat ≤ s.stop.toNat) :
    s.batchesEnd size < s.stop.toNat + max size.toNat 1 := by
  have positive := size_pos size
  have division := Nat.div_mul_le_self (s.length + ((max size 1).toNat - 1)) (max size 1).toNat
  unfold batchesEnd batchCount
  rw [← toNat_max_one]
  unfold length at division ⊢
  omega

/-- The batches of a span tile it, if a word holds the end of the last batch. -/
theorem batches_tiles (s : Span) (size : UInt64) (forward : s.start.toNat ≤ s.stop.toNat)
    (fits : s.batchesEnd size < 2 ^ 64) :
    Tiles s.start.toNat (s.batches size) s.stop.toNat := by
  have tiles := range_batches_tiles s (max size 1) forward fits
    fun i lt => (lt_batchCount_iff (size_pos size)).1 lt
  have whole := length_le_batches (s := s) (size_pos size)
  unfold length at whole
  rwa [Nat.min_eq_right (by omega)] at tiles

end Span

/-! ## Shares -/

/-- The number of keys of one worker. -/
def shareOf (workers keys worker : Nat) : Nat :=
  keys / workers + if worker < keys % workers then 1 else 0

theorem sum_shareOf (workers keys n : Nat) :
    ((List.range n).map (shareOf workers keys)).sum =
      n * (keys / workers) + min n (keys % workers) := by
  induction n with
  | zero => simp
  | succ n ih =>
      rw [List.range_succ, List.map_append, List.sum_append, ih, List.map_singleton,
        List.sum_singleton, Nat.add_mul]
      unfold shareOf
      split <;> omega

/-- Spans that are laid out with some lengths lie one after the other and have these lengths, if a
word holds the end of the last one. -/
theorem lay_tiles (length : UInt64 → UInt64) (ids : List Nat) (start : UInt64)
    (fits : start.toNat + (ids.map fun i => (length (UInt64.ofNat i)).toNat).sum < 2 ^ 64) :
    Tiles start.toNat (evenShares.lay length start ids)
        (start.toNat + (ids.map fun i => (length (UInt64.ofNat i)).toNat).sum) ∧
      (evenShares.lay length start ids).map Span.length =
        ids.map fun i => (length (UInt64.ofNat i)).toNat := by
  induction ids generalizing start with
  | nil => exact ⟨.nil _, rfl⟩
  | cons id ids ih =>
      rw [List.map_cons, List.sum_cons] at fits ⊢
      have stop : (start + length (UInt64.ofNat id)).toNat =
          start.toNat + (length (UInt64.ofNat id)).toNat := by
        rw [UInt64.toNat_add, Nat.mod_eq_of_lt (by omega)]
      obtain ⟨onward, lengths⟩ := ih (start + length (UInt64.ofNat id)) (by rw [stop]; omega)
      rw [stop, Nat.add_assoc] at onward
      unfold evenShares.lay
      refine ⟨.cons rfl ?_ ?_, ?_⟩
      · show start.toNat ≤ (start + length (UInt64.ofNat id)).toNat
        omega
      · show Tiles (start + length (UInt64.ofNat id)).toNat _ _
        rw [stop]
        exact onward
      · rw [List.map_cons, lengths]
        refine congrArg (· :: _) ?_
        show (start + length (UInt64.ofNat id)).toNat - start.toNat = _
        omega

/-- The number of keys of one worker is computed without wrapping around. -/
theorem toNat_share {workers keys : UInt64} {i : Nat} (small : i < workers.toNat) :
    (keys / workers + if UInt64.ofNat i < keys % workers then 1 else 0).toNat =
      shareOf workers.toNat keys.toNat i := by
  have number : (UInt64.ofNat i).toNat = i := by
    rw [UInt64.toNat_ofNat', Nat.mod_eq_of_lt (Nat.lt_trans small workers.toNat_lt)]
  have lt := keys.toNat_lt
  unfold shareOf
  rw [UInt64.toNat_add, UInt64.toNat_div]
  have extra : (if UInt64.ofNat i < keys % workers then (1 : UInt64) else 0).toNat =
      if i < keys.toNat % workers.toNat then 1 else 0 := by
    by_cases more : UInt64.ofNat i < keys % workers
    · have more' := UInt64.lt_iff_toNat_lt.1 more
      rw [number, UInt64.toNat_mod] at more'
      rw [if_pos more, if_pos more']
      rfl
    · have more' := fun h => more (UInt64.lt_iff_toNat_lt.2 h)
      rw [number, UInt64.toNat_mod] at more'
      rw [if_neg more, if_neg more']
      rfl
  rw [extra, Nat.mod_eq_of_lt]
  split
  · rename_i more
    have quotient : keys.toNat / workers.toNat ≤ keys.toNat / workers.toNat * workers.toNat :=
      Nat.le_mul_of_pos_right _ (by omega)
    have division := Nat.div_add_mod keys.toNat workers.toNat
    rw [Nat.mul_comm] at division
    omega
  · exact Nat.lt_of_le_of_lt (Nat.div_le_self _ _) lt

/-- The shares of the workers tile the key list, and each has the length that it should have. -/
theorem evenShares_lays (workers keys : UInt64) (positive : workers ≠ 0) :
    Tiles 0 (evenShares workers keys) keys.toNat ∧
      (evenShares workers keys).map Span.length =
        (List.range workers.toNat).map (shareOf workers.toNat keys.toNat) := by
  have pos : 0 < workers.toNat := by
    rw [Nat.pos_iff_ne_zero]
    exact fun zero => positive (UInt64.toNat_inj.1 zero)
  unfold evenShares
  dsimp only
  have lengths : ((List.range workers.toNat).map fun i =>
      (keys / workers + if UInt64.ofNat i < keys % workers then 1 else 0).toNat) =
        (List.range workers.toNat).map (shareOf workers.toNat keys.toNat) :=
    List.map_congr_left fun i mem => toNat_share (List.mem_range.1 mem)
  have total : ((List.range workers.toNat).map (shareOf workers.toNat keys.toNat)).sum =
      keys.toNat := by
    rw [sum_shareOf, Nat.min_eq_right (Nat.le_of_lt (Nat.mod_lt _ pos))]
    exact Nat.div_add_mod _ _
  have laid := lay_tiles
    (fun worker => keys / workers + if worker < keys % workers then 1 else 0)
    (List.range workers.toNat) 0
    (by rw [lengths, total]; exact Nat.lt_of_le_of_lt (Nat.le_of_eq (Nat.zero_add _)) keys.toNat_lt)
  rw [lengths, total] at laid
  simpa using laid

/-- The shares of the workers tile the key list. -/
theorem evenShares_tiles (workers keys : UInt64) (positive : workers ≠ 0) :
    Tiles 0 (evenShares workers keys) keys.toNat := (evenShares_lays workers keys positive).1

/-- There is a list of the shares as long as there are not too many of them. -/
theorem balanceLoad_eq_some {workers : UInt64} (room : workers ≤ mostShares) (keys : UInt64) :
    balanceLoad workers keys = some (evenShares workers keys) := by
  unfold balanceLoad
  split
  · rename_i none
    rw [none]
    rfl
  · rw [if_neg (UInt64.not_lt.2 room)]

/-- Whoever asks for more breaks off, whatever the number of keys. -/
theorem balanceLoad_eq_none_iff (workers keys : UInt64) :
    balanceLoad workers keys = none ↔ mostShares < workers := by
  constructor
  · intro none
    by_contra room
    rw [balanceLoad_eq_some (UInt64.not_lt.1 room)] at none
    cases none
  · intro many
    have some : workers ≠ 0 := by
      rintro rfl
      exact absurd many (by decide)
    rw [balanceLoad, if_neg some, if_pos many]

/-! ## The batches of all workers -/

/-- A share inside a list is as long as what it cuts out of it. -/
theorem Span.length_slice {α : Type} {s : Span} {items : List α}
    (inside : s.stop.toNat ≤ items.length) : (s.slice items).length = s.length := by
  unfold slice length
  rw [List.length_take, List.length_drop]
  omega

/-- A span without positions cuts nothing out of a list. -/
theorem Span.slice_of_isEmpty {α : Type} {s : Span} (empty : s.isEmpty = true) (items : List α) :
    s.slice items = [] := by
  have le := UInt64.le_iff_toNat_le.1 (of_decide_eq_true empty)
  unfold slice Span.length
  rw [Nat.sub_eq_zero_of_le le, List.take_zero]

/-- It has no batches. -/
theorem Span.batchCount_of_isEmpty {s : Span} (empty : s.isEmpty = true) (size : UInt64) :
    s.batchCount (max size 1) = 0 := by
  have le := UInt64.le_iff_toNat_le.1 (of_decide_eq_true empty)
  refine Nat.eq_zero_of_not_pos fun some => ?_
  have below := (lt_batchCount_iff (size_pos size)).1 some
  unfold Span.length at below
  omega

theorem Span.batches_of_isEmpty {s : Span} (empty : s.isEmpty = true) (size : UInt64) :
    s.batches size = [] := by
  have none := s.batchCount_of_isEmpty empty size
  unfold batches
  dsimp only
  rw [none]
  rfl

theorem Span.isEmpty_eq_false_iff (s : Span) : s.isEmpty = false ↔ 0 < s.length := by
  unfold isEmpty length
  rw [decide_eq_false_iff_not, UInt64.le_iff_toNat_le]
  omega

theorem Span.forward_of_not_isEmpty {s : Span} (some : s.isEmpty = false) :
    s.start.toNat ≤ s.stop.toNat := by
  have positive := s.isEmpty_eq_false_iff.1 some
  unfold length at positive
  omega

/-- A word holds the end of the last batch if the size fits on top of the span. -/
theorem Span.batchesEnd_fits (s : Span) (size : UInt64)
    (fits : s.stop.toNat + size.toNat < 2 ^ 64) : s.batchesEnd size < 2 ^ 64 := by
  have small := s.stop.toNat_lt
  cases empty : s.isEmpty with
  | true =>
      have start := s.start.toNat_lt
      have none := s.batchCount_of_isEmpty empty size
      unfold batchesEnd
      rw [none]
      omega
  | false =>
      have past := s.batchesEnd_lt size (forward_of_not_isEmpty empty)
      omega

/-- Every batch of a worker whose share lies inside the keys can be cut out of them. -/
theorem Worker.inBounds_of_fits (w : Worker) (inside : w.span.stop.toNat ≤ w.keys.length)
    (fits : w.span.batchesEnd w.settings.batchSize < 2 ^ 64) : w.inBounds = true := by
  refine List.all_eq_true.2 fun b mem => ?_
  unfold batchSpans at mem
  cases empty : w.span.isEmpty with
  | true =>
      rw [w.span.batches_of_isEmpty empty] at mem
      cases mem
  | false =>
      have tiles := w.span.batches_tiles _ (Span.forward_of_not_isEmpty empty) fits
      obtain ⟨forward, within⟩ := tiles.bounds mem
      exact decide_eq_true ⟨UInt64.le_iff_toNat_le.2 forward, Nat.le_trans within inside⟩

/-- Batches that can all be cut out of a list are no more than it has entries, as each of them has a
position that the earlier ones have not. -/
theorem Span.batchCount_le_of_inBounds {s : Span} {size : UInt64} {n : Nat}
    (bounds : ∀ b ∈ s.batches size, b.inBounds n = true) : s.batchCount (max size 1) ≤ n := by
  cases count : s.batchCount (max size 1) with
  | zero => exact Nat.zero_le n
  | succ i =>
      have positive := size_pos size
      have below : i * (max size 1).toNat < s.length :=
        (lt_batchCount_iff positive).1 (count ▸ Nat.lt_succ_self i)
      have last : s.batchAt (max size 1) (s.start + UInt64.ofNat i * max size 1) ∈ s.batches size :=
        List.mem_map.2 ⟨i, List.mem_range.2 (count ▸ Nat.lt_succ_self i), rfl⟩
      obtain ⟨forward, within⟩ := of_decide_eq_true (bounds _ last)
      have start := toNat_batchStart below
      have earlier : i * 1 ≤ i * (max size 1).toNat := Nat.mul_le_mul_left i positive
      rcases Nat.lt_or_ge (s.start.toNat + (i + 1) * (max size 1).toNat) (2 ^ 64) with fits | wraps
      · rw [toNat_batchStop_fits below fits, Nat.succ_mul] at within
        unfold length at below
        omega
      · have backwards := toNat_batchStop_wraps below wraps
        rw [← start] at backwards
        exact absurd backwards (Nat.not_lt.2 (UInt64.le_iff_toNat_le.1 forward))

/-- A worker lists its batches if every one can be cut out of the keys. -/
theorem Worker.listable_of_inBounds {w : Worker} (bounds : w.inBounds = true) :
    w.listable = true := by
  have each := List.all_eq_true.1 bounds
  have few := Nat.le_trans (Span.batchCount_le_of_inBounds each) (Nat.le_max_right mostShares.toNat _)
  refine Bool.and_eq_true_iff.2 ⟨decide_eq_true few, List.all_eq_true.2 fun b mem => ?_⟩
  exact decide_eq_true (of_decide_eq_true (each b mem)).1

/-- The batches that a worker comes to are the first of its batches. -/
theorem Worker.batchKeys_prefix (w : Worker) :
    w.batchKeys <+: w.batchSpans.map fun s => s.slice w.keys := by
  unfold batchKeys
  split
  · exact (List.takeWhile_prefix _).map _
  · exact List.nil_prefix

/-- They are all of its batches if every one can be cut out of the keys. -/
theorem Worker.batchKeys_of_inBounds {w : Worker} (bounds : w.inBounds = true) :
    w.batchKeys = w.batchSpans.map fun s => s.slice w.keys := by
  unfold batchKeys
  rw [if_pos (listable_of_inBounds bounds), List.takeWhile_eq_self_iff.2 (List.all_eq_true.1 bounds)]

/-- And only then. -/
theorem Worker.batchKeys_eq_iff (w : Worker) :
    w.batchKeys = w.batchSpans.map (fun s => s.slice w.keys) ↔ w.inBounds = true := by
  refine ⟨fun all => List.all_eq_true.2 ?_, batchKeys_of_inBounds⟩
  have length := congrArg List.length all
  unfold batchKeys at length
  split at length
  · rw [List.length_map, List.length_map] at length
    exact List.takeWhile_eq_self_iff.1 ((List.takeWhile_prefix _).eq_of_length length)
  · rw [List.length_map] at length
    rw [List.length_eq_zero_iff.1 length.symm]
    exact nofun

/-- The batches of a worker are, put together, its share of the keys. -/
theorem Worker.flatten_batchKeys (w : Worker) (inside : w.span.stop.toNat ≤ w.keys.length)
    (fits : w.span.batchesEnd w.settings.batchSize < 2 ^ 64) :
    w.batchKeys.flatten = w.span.slice w.keys := by
  rw [batchKeys_of_inBounds (w.inBounds_of_fits inside fits), batchSpans]
  cases empty : w.span.isEmpty with
  | true =>
      rw [w.span.batches_of_isEmpty empty, w.span.slice_of_isEmpty empty]
      rfl
  | false =>
      have tiles := w.span.batches_tiles _ (Span.forward_of_not_isEmpty empty) fits
      exact tiles.flatten_slices w.keys

namespace Run

theorem shares?_eq_none_iff (config : Config) (keys : List String) :
    shares? config keys = none ↔ mostShares < config.numWorkers := balanceLoad_eq_none_iff _ _

theorem shares?_eq_some {config : Config} (room : config.numWorkers ≤ mostShares)
    (keys : List String) :
    shares? config keys = some (evenShares config.numWorkers (UInt64.ofNat keys.length)) :=
  balanceLoad_eq_some room _

/-- A run that breaks off has no workers. -/
theorem workers_of_lt {config : Config} (many : mostShares < config.numWorkers)
    (keys : List String) : workers config keys = [] := by
  unfold workers
  rw [(shares?_eq_none_iff config keys).2 many]
  rfl

section Check

variable {config : Config} {connector : Connector} {files : Files} {setup : Setup}
  {said : List Event} (begins : prepare config connector files = (.ok setup, said))

include begins

/-- A run that could be prepared breaks off if it has more workers than there can be shares. -/
theorem check_of_lt (many : mostShares < config.numWorkers) :
    check config connector files = (.brokenOff setup, said) := by
  rw [check, begins]
  dsimp only
  rw [(shares?_eq_none_iff config setup.keys).2 many]

/-- Else its workers check its keys. -/
theorem check_of_le (room : config.numWorkers ≤ mostShares) :
    check config connector files = (.verified (verify config setup), said) := by
  rw [check, begins]
  dsimp only
  rw [shares?_eq_some room]

end Check

/-- A worker of a run works on the keys of the run, and its share is not empty. -/
theorem mem_workers {config : Config} {keys : List String} {w : Worker}
    (mem : w ∈ workers config keys) :
    w.keys = keys ∧ w.settings = config.workerSettings ∧ w.span.isEmpty = false ∧
      w.span ∈ evenShares config.numWorkers (UInt64.ofNat keys.length) := by
  rcases UInt64.lt_or_le mostShares config.numWorkers with many | room
  · rw [workers_of_lt many] at mem
    cases mem
  obtain ⟨⟨span, id⟩, own, eq⟩ := List.mem_filterMap.1 mem
  rw [shares?_eq_some room] at own
  dsimp only at eq
  split at eq
  · cases eq
  · rename_i some
    cases eq
    exact ⟨rfl, rfl, Bool.eq_false_iff.2 some, List.fst_mem_of_mem_zipIdx own⟩

variable (config : Config) (keys : List String) (workers : config.numWorkers ≠ 0)

include workers

/-- The shares of the workers of a run tile its keys. -/
theorem shares_tile (small : keys.length < 2 ^ 64) :
    Tiles 0 (evenShares config.numWorkers (UInt64.ofNat keys.length)) keys.length := by
  have number : (UInt64.ofNat keys.length).toNat = keys.length := by
    rw [UInt64.toNat_ofNat', Nat.mod_eq_of_lt small]
  have tiles := evenShares_tiles config.numWorkers (UInt64.ofNat keys.length) workers
  rwa [number] at tiles

/-- The shares of all workers of a run are, put together, its keys. -/
theorem flatMap_shares (room : config.numWorkers ≤ mostShares) (small : keys.length < 2 ^ 64) :
    (Run.workers config keys).flatMap (fun w => w.span.slice keys) = keys := by
  have slices : (evenShares config.numWorkers (UInt64.ofNat keys.length)).flatMap
      (fun s => s.slice keys) = keys := by
    rw [List.flatMap_def, (shares_tile config keys workers small).flatten_slices keys]
    simp
  refine Eq.trans ?_ slices
  unfold Run.workers
  rw [shares?_eq_some room, Option.getD_some]
  generalize evenShares config.numWorkers (UInt64.ofNat keys.length) = spans
  clear slices
  -- The numbers of the workers do not matter, so that the induction is over the spans alone.
  generalize 0 = first
  induction spans generalizing first with
  | nil => rfl
  | cons s spans ih =>
      rw [List.zipIdx_cons, List.filterMap_cons]
      cases empty : s.isEmpty with
      | true =>
          simp only [empty, ↓reduceIte]
          rw [ih, List.flatMap_cons, s.slice_of_isEmpty empty, List.nil_append]
      | false =>
          simp only [empty, Bool.false_eq_true, ↓reduceIte, List.flatMap_cons]
          rw [ih]

/-- The share of a worker lies inside the keys, and a word holds the end of its last batch. -/
theorem share_fits (fits : config.batchSize.toNat + keys.length < 2 ^ 64) {w : Worker}
    (mem : w ∈ Run.workers config keys) :
    w.span.stop.toNat ≤ w.keys.length ∧ w.span.batchesEnd w.settings.batchSize < 2 ^ 64 := by
  obtain ⟨own, settings, -, share⟩ := mem_workers mem
  have within := ((shares_tile config keys workers (by omega)).bounds share).2
  have size : w.settings.batchSize = config.batchSize := by rw [settings]; rfl
  exact ⟨own ▸ within, w.span.batchesEnd_fits _ (by rw [size]; omega)⟩

/-- No worker of a run breaks off whose batches fit on top of its keys. -/
theorem inBounds_of_mem_workers (fits : config.batchSize.toNat + keys.length < 2 ^ 64) {w : Worker}
    (mem : w ∈ Run.workers config keys) : w.inBounds = true := by
  obtain ⟨inside, ends⟩ := share_fits config keys workers fits mem
  exact w.inBounds_of_fits inside ends

/-- The batches of all workers of a run are, put together, its keys. -/
theorem flatten_batchKeys (room : config.numWorkers ≤ mostShares)
    (fits : config.batchSize.toNat + keys.length < 2 ^ 64) :
    (Run.workers config keys).flatMap (fun w => w.batchKeys.flatten) = keys := by
  refine Eq.trans (List.flatMap_congr fun w mem => ?_)
    (flatMap_shares config keys workers room (by omega))
  obtain ⟨inside, ends⟩ := share_fits config keys workers fits mem
  rw [w.flatten_batchKeys inside ends, (mem_workers mem).1]

end Run

end ReplicaDiff
