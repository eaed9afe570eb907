/-
# ReplicaDiff.Proofs.Retry.Backoff — the length of each pause

A pause is the one before it, multiplied at most to the longest span and then cut
off at the cap.  That no pause but the first is computed from the interval makes no
difference: cutting off after every step comes to the same as cutting off once
(`min_mul_min`), and the cap is never longer than the longest span.  So pause `i`
is the interval times the `i`-th power of the factor, or the cap
(`Policy.toNanos_pause`), as an exact number of nanoseconds.

A factor that is not zero lets the pauses grow until they reach the cap, where they
stay (`delays_grow_to_cap`).
-/
import Mathlib.Logic.Function.Iterate
import ReplicaDiff.Proofs.Config.Validity
import ReplicaDiff.Proofs.Retry

namespace ReplicaDiff.Retry

set_option autoImplicit false

/-- What has been cut off may be multiplied and cut off once more. -/
theorem min_mul_min (x factor cap : Nat) : min (min x cap * factor) cap = min (x * factor) cap := by
  rcases Nat.eq_zero_or_pos factor with rfl | positive
  · simp
  · rcases Nat.le_total x cap with le | ge
    · rw [Nat.min_eq_left le]
    · have reached : cap ≤ cap * factor := Nat.le_mul_of_pos_right cap positive
      have passed : cap * factor ≤ x * factor := Nat.mul_le_mul_right factor ge
      rw [Nat.min_eq_right ge, Nat.min_eq_right reached,
        Nat.min_eq_right (Nat.le_trans reached passed)]

namespace Policy

variable (p : Policy)

/-- The pause after the attempt `i + 1`. -/
def pause (i : Nat) : Duration := p.nextDelay^[i] p.firstDelay

theorem delaysFrom_eq_map (delay : Duration) (n : Nat) :
    p.delaysFrom delay n = (List.range n).map fun i => p.nextDelay^[i] delay := by
  induction n generalizing delay with
  | zero => rfl
  | succ n ih =>
      have later : ∀ i, p.nextDelay^[i] (p.nextDelay delay) = p.nextDelay^[i + 1] delay :=
        fun i => (Function.iterate_succ_apply p.nextDelay i delay).symm
      simp only [delaysFrom, ih, later, List.range_succ_eq_map, List.map_cons, List.map_map,
        Function.iterate_zero_apply, Function.comp_def, Nat.succ_eq_add_one]

/-- The pauses that a policy lists. -/
theorem delays_eq_map : p.delays = (List.range p.maxRetries.toNat).map p.pause :=
  p.delaysFrom_eq_map p.firstDelay p.maxRetries.toNat

theorem length_delays : p.delays.length = p.maxRetries.toNat := by
  rw [delays_eq_map, List.length_map, List.length_range]

theorem getElem?_delays {i : Nat} (listed : i < p.maxRetries.toNat) :
    p.delays[i]? = some (p.pause i) := by
  rw [delays_eq_map, List.getElem?_map, List.getElem?_range listed, Option.map_some]

/-- Pause `i` is the interval times the `i`-th power of the factor, cut off at the cap. -/
theorem toNanos_pause (i : Nat) :
    (p.pause i).toNanos =
      min (p.interval.toNanos * p.factor.toNat ^ i) p.maxBackoff.toNanos := by
  induction i with
  | zero => rw [Nat.pow_zero, Nat.mul_one, pause, Function.iterate_zero_apply, firstDelay,
      Duration.toNanos_shorter]
  | succ i ih =>
      calc (p.pause (i + 1)).toNanos
          = (p.nextDelay (p.pause i)).toNanos := by
            rw [pause, Function.iterate_succ_apply']
            rfl
        _ = min (min (p.interval.toNanos * p.factor.toNat ^ i) p.maxBackoff.toNanos *
              p.factor.toNat) p.maxBackoff.toNanos := by rw [toNanos_nextDelay, ih]
        _ = min (p.interval.toNanos * p.factor.toNat ^ (i + 1)) p.maxBackoff.toNanos := by
            rw [min_mul_min, Nat.mul_assoc, ← Nat.pow_succ]

theorem pause_le (i : Nat) : p.pause i ≤ p.maxBackoff := by
  show (p.pause i).toNanos ≤ p.maxBackoff.toNanos
  rw [toNanos_pause]
  exact Nat.min_le_right _ _

variable {p}

/-- With a factor that is not zero no pause is shorter than one before it. -/
theorem pause_mono (grows : 1 ≤ p.factor.toNat) {i j : Nat} (le : i ≤ j) :
    p.pause i ≤ p.pause j := by
  show (p.pause i).toNanos ≤ (p.pause j).toNanos
  rw [toNanos_pause, toNanos_pause]
  have powers := Nat.mul_le_mul_left p.interval.toNanos (Nat.pow_le_pow_right grows le)
  omega

/-- A pause that follows one as long as the cap is as long as the cap. -/
theorem pause_eq_cap (grows : 1 ≤ p.factor.toNat) {i j : Nat} (le : i ≤ j)
    (reached : p.pause i = p.maxBackoff) : p.pause j = p.maxBackoff := by
  have longer : (p.pause i).toNanos ≤ (p.pause j).toNanos := pause_mono grows le
  rw [reached] at longer
  exact Duration.toNanos_inj (Nat.le_antisymm (p.pause_le j) longer)

end Policy

/-- Every policy lists as many pauses as it allows repetitions.  Pause `i` is, to the nanosecond, the
interval times the `i`-th power of the factor, or the cap if that is shorter; a part of a second is less
than a second and no pause is longer than the cap.  With a factor that is not zero the pauses do not
get shorter, and stay at the cap once they have reached it.  With a valid configuration the first of
them is the configured interval. -/
theorem delays_grow_to_cap :
    (∀ p : Policy,
      p.delays.length = p.maxRetries.toNat ∧
      (∀ i < p.maxRetries.toNat, ∃ d, p.delays[i]? = some d ∧
        d.toNanos = min (p.interval.toNanos * p.factor.toNat ^ i) p.maxBackoff.toNanos) ∧
      (∀ d ∈ p.delays, d.nanos < 1000000000 ∧ d ≤ p.maxBackoff) ∧
      (1 ≤ p.factor → p.delays.Pairwise (· ≤ ·) ∧
        ∀ i j, i ≤ j → j < p.maxRetries.toNat → p.delays[i]? = some p.maxBackoff →
          p.delays[j]? = some p.maxBackoff)) ∧
    ∀ config : Config, config.validate = .ok () →
      config.batchPolicy.delays.head? =
        if config.maxSendBatchRetries = 0 then none else some config.retryInterval := by
  constructor
  · intro p
    refine ⟨p.length_delays, fun i listed => ⟨_, p.getElem?_delays listed, p.toNanos_pause i⟩,
      fun d mem => ⟨d.nanos_lt, ?_⟩, fun factor => ?_⟩
    · rw [p.delays_eq_map] at mem
      obtain ⟨i, -, rfl⟩ := List.mem_map.1 mem
      exact p.pause_le i
    · have grows : 1 ≤ p.factor.toNat := UInt32.le_iff_toNat_le.1 factor
      refine ⟨?_, fun i j le listed reached => ?_⟩
      · rw [p.delays_eq_map]
        exact List.pairwise_map.2 (List.pairwise_lt_range.imp fun lt =>
          Policy.pause_mono grows (Nat.le_of_lt lt))
      · rw [p.getElem?_delays (Nat.lt_of_le_of_lt le listed)] at reached
        rw [p.getElem?_delays listed, Policy.pause_eq_cap grows le (Option.some.inj reached)]
  · intro config valid
    have order := Nat.le_of_not_lt (Config.valid_of_validate valid).pauses
    have first : config.batchPolicy.pause 0 = config.retryInterval := by
      rw [Policy.pause, Function.iterate_zero_apply]
      exact if_pos order
    rw [List.head?_eq_getElem?]
    split
    · rename_i none
      rw [Policy.delays_eq_map, show config.batchPolicy.maxRetries = 0 from none]
      rfl
    · rename_i some
      have listed : 0 < config.batchPolicy.maxRetries.toNat :=
        Nat.pos_of_ne_zero fun zero => some (UInt32.toNat_inj.1 zero)
      rw [Policy.getElem?_delays _ listed, first]

/-- Seconds and nanoseconds carry over, and the cap is reached at the third pause. -/
theorem delays_grow_to_cap_at_third :
    let p : Policy := ⟨4, ⟨0, 600000000, by decide, by decide⟩, 3, ⟨5, 1, by decide, by decide⟩⟩
    (∃ d, p.delays[1]? = some d ∧ d.toNanos = 1800000000) ∧
      p.delays[2]? = some p.maxBackoff ∧ p.delays[3]? = some p.maxBackoff ∧
      p.delays.Pairwise (· ≤ ·) ∧
      (Config.inMemory "").validate = .ok () ∧
      (Config.inMemory "").batchPolicy.delays.head? = some (.ofMillis 10) := by
  intro p
  obtain ⟨policies, configured⟩ := delays_grow_to_cap
  obtain ⟨-, lengths, -, growth⟩ := policies p
  obtain ⟨ascending, stays⟩ := growth (by decide)
  have reached : p.delays[2]? = some p.maxBackoff := by
    obtain ⟨d, listed, length⟩ := lengths 2 (by decide)
    have capped : d = p.maxBackoff := Duration.toNanos_inj (length.trans (by decide))
    rw [listed, capped]
  refine ⟨?_, reached, stays 2 3 (by decide) (by decide) reached, ascending, ?_⟩
  · obtain ⟨d, listed, length⟩ := lengths 1 (by decide)
    exact ⟨d, listed, length.trans (by decide)⟩
  · have valid := Config.inMemory_valid ""
    exact ⟨valid, configured _ valid⟩

end ReplicaDiff.Retry
