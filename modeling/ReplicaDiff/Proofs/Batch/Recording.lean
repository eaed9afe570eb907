/-
# ReplicaDiff.Proofs.Batch.Recording — a gate after any completions

`Gate.after keys cs` is the gate of a round over `keys` after the completions `cs`,
which may come in any order, name a slot more than once or name none that is there.
A slot holds the answer that came last for it (`latest`), and the gate is settled by
its keys and these answers (`Holds.unique`).  So a completion past the end changes
nothing, and where no slot is named twice the order is of no account
(`after_of_perm`).

The countdowns are kept apart from the slots.  That each is the number of slots of
its side without an answer (`Holds.pending_eq_countP`) is why it never has to go
below zero: it goes down for an empty slot only, and the empty slot is counted
(`Holds.pending_record_of_empty`).
-/
import Mathlib.Data.List.Induction
import Mathlib.Data.List.Nodup
import ReplicaDiff.Proofs.Batch.Gate

namespace ReplicaDiff.Batch

set_option autoImplicit false

/-! ## What came last -/

/-- The slot that a completion names: its side and its position there. -/
def Completion.place (c : Completion) : Side × Nat := (c.side, c.slot)

/-- The answers that came last, each for its slot. -/
def latest (cs : List Completion) : Answers := fun side slot =>
  (cs.reverse.find? fun c => c.place = (side, slot)).map (·.outcome)

theorem latest_snoc (cs : List Completion) (c : Completion) :
    latest (cs ++ [c]) = (latest cs).put c.side c.slot c.outcome := by
  funext side slot
  unfold latest Answers.put
  rw [List.reverse_append, List.reverse_singleton, List.singleton_append, List.find?_cons]
  by_cases same : side = c.side ∧ slot = c.slot
  · obtain ⟨rfl, rfl⟩ := same
    simp [Completion.place]
  · have other : ¬c.place = (side, slot) := fun eq => same (Prod.mk.inj eq.symm)
    rw [if_neg same, decide_eq_false other]

/-- What has been answered after some completions is what came last. -/
theorem putAll_none (cs : List Completion) : Answers.none.putAll cs = latest cs := by
  induction cs using List.reverseRecOn with
  | nil => rfl
  | append_singleton cs c ih =>
      rw [latest_snoc, ← ih]
      exact List.foldl_append

/-- Where no slot is named twice, every answer came last. -/
theorem latest_eq_some_iff {cs : List Completion} (once : (cs.map (·.place)).Nodup) (side : Side)
    (slot : Nat) (outcome : Outcome) :
    latest cs side slot = some outcome ↔ ⟨side, slot, outcome⟩ ∈ cs := by
  constructor
  · intro last
    rw [← putAll_none] at last
    exact (Answers.of_putAll last).resolve_left nofun
  · intro mem
    -- The search stops at a completion for the slot, and there is one such completion only.
    have named : (cs.reverse.find? fun c => c.place = (side, slot)).isSome :=
      List.find?_isSome.2 ⟨_, List.mem_reverse.2 mem, decide_eq_true rfl⟩
    obtain ⟨c, found⟩ := Option.isSome_iff_exists.1 named
    have there : c ∈ cs := List.mem_reverse.1 (List.mem_of_find?_eq_some found)
    have place : c.place = (side, slot) := by simpa using List.find?_some found
    have same : c = ⟨side, slot, outcome⟩ := List.inj_on_of_nodup_map once there mem place
    unfold latest
    rw [found, same]
    rfl

/-- Where no slot is named twice, what came last does not depend on the order. -/
theorem latest_of_perm {cs cs' : List Completion} (once : (cs.map (·.place)).Nodup)
    (perm : cs'.Perm cs) : latest cs' = latest cs := by
  funext side slot
  have once' : (cs'.map (·.place)).Nodup := (perm.map _).nodup_iff.2 once
  refine Option.ext fun outcome => ?_
  rw [latest_eq_some_iff once, latest_eq_some_iff once', perm.mem_iff]

namespace Gate

/-! ## The two sides of a gate -/

/-- The slots of one side. -/
def slots (g : Gate) (side : Side) : List SideResult := g.results.of side

/-- The side of a completion has the slot filled. -/
theorem record_self (g : Gate) (c : Completion) :
    ((g.record c).slots c.side, (g.record c).pending c.side) =
      fill (g.slots c.side) (g.pending c.side) c.slot c.outcome := by
  obtain ⟨side, slot, outcome⟩ := c
  cases side <;> rfl

/-- A completion does not touch the other side. -/
theorem record_of_ne (g : Gate) {c : Completion} {side : Side} (ne : side ≠ c.side) :
    (g.record c).slots side = g.slots side ∧ (g.record c).pending side = g.pending side := by
  obtain ⟨own, slot, outcome⟩ := c
  cases own <;> cases side <;> first | exact ⟨rfl, rfl⟩ | exact absurd rfl ne

/-- The countdown goes down by one, as far as it can, when an empty slot is filled. -/
theorem pending_record_of_empty (g : Gate) {c : Completion} {r : SideResult}
    (there : (g.slots c.side)[c.slot]? = some r) (empty : r.outcome = none) :
    (g.record c).pending c.side = g.pending c.side - 1 := by
  have filled := congrArg Prod.snd (g.record_self c)
  simpa [fill, there, SideResult.isComplete, empty] using filled

/-! ## After any completions -/

/-- The gate of a round over some keys after some completions. -/
def after (keys : List String) (cs : List Completion) : Gate := (ofKeys keys).recordAll cs

theorem after_holds (keys : List String) (cs : List Completion) :
    (after keys cs).Holds keys (latest cs) := by
  rw [← putAll_none]
  exact (ofKeys_holds keys).recordAll cs

end Gate

/-- The slots without an answer are those whose position is unanswered. -/
theorem countP_slotsOf (keys : List String) (answer : Nat → Option Outcome) :
    (slotsOf keys answer).countP (·.outcome.isNone) = unanswered keys.length answer := by
  unfold slotsOf unanswered
  rw [List.mapIdx_eq_zipIdx_map, List.countP_map, List.range_eq_range', ← List.zipIdx_map_snd 0 keys,
    List.countP_map]
  rfl

namespace Gate.Holds

variable {g g' : Gate} {keys : List String} {answer answer' : Answers}

theorem slots_eq (h : g.Holds keys answer) (side : Side) :
    g.slots side = slotsOf keys (answer side) := by
  cases side with
  | source => exact h.source
  | target => exact h.target

/-- A countdown is the number of slots of its side that are without an answer. -/
theorem pending_eq_countP (h : g.Holds keys answer) (side : Side) :
    g.pending side = (g.slots side).countP (·.outcome.isNone) := by
  rw [h.pending_eq, h.slots_eq, countP_slotsOf]

/-- A gate is open when no slot of either side is without an answer. -/
theorem isOpen_iff_slots (h : g.Holds keys answer) :
    g.isOpen = true ↔ ∀ side, ∀ r ∈ g.slots side, r.outcome.isSome := by
  rw [isOpen_iff_pending]
  refine forall_congr' fun side => ?_
  rw [h.pending_eq_countP, List.countP_eq_zero]
  simp [Option.isSome_iff_ne_none]

/-- There is one gate over some keys with some answers; answers past the end are for no slot. -/
theorem unique (h : g.Holds keys answer) (h' : g'.Holds keys answer')
    (same : ∀ side slot, slot < keys.length → answer side slot = answer' side slot) : g = g' := by
  have slots : ∀ side, slotsOf keys (answer side) = slotsOf keys (answer' side) := fun side =>
    slotsOf_congr (same side)
  have counts : ∀ side, unanswered keys.length (answer side) =
      unanswered keys.length (answer' side) := fun side => by
    rw [← countP_slotsOf, ← countP_slotsOf, slots]
  have sources : g.source = g'.source := h.source.trans ((slots _).trans h'.source.symm)
  have targets : g.target = g'.target := h.target.trans ((slots _).trans h'.target.symm)
  have pendingSources : g.pendingSource = g'.pendingSource :=
    h.pendingSource.trans ((counts _).trans h'.pendingSource.symm)
  have pendingTargets : g.pendingTarget = g'.pendingTarget :=
    h.pendingTarget.trans ((counts _).trans h'.pendingTarget.symm)
  cases g
  cases g'
  cases sources
  cases targets
  cases pendingSources
  cases pendingTargets
  rfl

/-- A completion for a slot that is not there changes nothing. -/
theorem record_eq_self (h : g.Holds keys answer) {c : Completion} (past : keys.length ≤ c.slot) :
    g.record c = g :=
  (h.record c).unique h fun _ _ bound =>
    answer.put_of_ne c.outcome fun eq => absurd (eq.2 ▸ bound) (Nat.not_lt.2 past)

/-- An empty slot is one of those that its countdown counts, so that filling it takes one off. -/
theorem pending_record_of_empty (h : g.Holds keys answer) {c : Completion} {r : SideResult}
    (there : (g.slots c.side)[c.slot]? = some r) (empty : r.outcome = none) :
    (g.record c).pending c.side + 1 = g.pending c.side := by
  have counted : 0 < g.pending c.side := by
    rw [h.pending_eq_countP, List.countP_pos_iff]
    exact ⟨r, List.mem_of_getElem? there, by rw [empty]; rfl⟩
  rw [g.pending_record_of_empty there empty]
  omega

end Gate.Holds

namespace Gate

/-- Where no slot is named twice, the gate does not depend on the order of the completions. -/
theorem after_of_perm (keys : List String) {cs cs' : List Completion}
    (once : (cs.map (·.place)).Nodup) (perm : cs'.Perm cs) : after keys cs' = after keys cs :=
  (after_holds keys cs').unique (after_holds keys cs) fun side slot _ => by
    rw [latest_of_perm once perm]

/-- After any completions, each countdown is the number of slots of its side that are without an
answer, and the gate is open when there are none.  The slots carry the keys in order, each with the
answer that came last for it.  A further completion changes nothing if its slot is not there, does
not touch the other side, and takes one off its countdown, which is not zero then, if its slot is
empty.  Where no slot has been named twice, every order of the completions leaves the same gate. -/
theorem recorded_slot_by_slot (keys : List String) (cs : List Completion) :
    (∀ side, (after keys cs).pending side =
      ((after keys cs).slots side).countP (·.outcome.isNone)) ∧
    ((after keys cs).isOpen = true ↔
      ∀ side, ∀ r ∈ (after keys cs).slots side, r.outcome.isSome) ∧
    (∀ (side : Side) (slot : Nat), ((after keys cs).slots side)[slot]? =
      keys[slot]?.map fun key => (⟨key, latest cs side slot⟩ : SideResult)) ∧
    (∀ c : Completion, keys.length ≤ c.slot → (after keys cs).record c = after keys cs) ∧
    (∀ (c : Completion) (side : Side), side ≠ c.side →
      ((after keys cs).record c).slots side = (after keys cs).slots side ∧
      ((after keys cs).record c).pending side = (after keys cs).pending side) ∧
    (∀ (c : Completion) (r : SideResult), ((after keys cs).slots c.side)[c.slot]? = some r →
      r.outcome = none →
      ((after keys cs).record c).pending c.side + 1 = (after keys cs).pending c.side) ∧
    ((cs.map (·.place)).Nodup → ∀ cs', cs'.Perm cs → after keys cs' = after keys cs) := by
  have holds := after_holds keys cs
  refine ⟨holds.pending_eq_countP, holds.isOpen_iff_slots, fun side slot => ?_, ?_, ?_, ?_, ?_⟩
  · rw [holds.slots_eq, getElem?_slotsOf]
  · exact fun c past => holds.record_eq_self past
  · exact fun c side ne => record_of_ne _ ne
  · exact fun c r there empty => holds.pending_record_of_empty there empty
  · exact fun once cs' perm => after_of_perm keys once perm

/-- Completions that name a slot that is not there, and a slot twice. -/
def strayAndRepeated : List Completion :=
  [⟨.source, 7, .error .notFound⟩, ⟨.source, 0, .error (.other "busy")⟩,
    ⟨.source, 0, .error .notFound⟩]

/-- Completions that name each slot of a round over two keys at most once, and one past the end. -/
def namedOnce : List Completion :=
  [⟨.target, 1, .error .notFound⟩, ⟨.source, 9, .error .notFound⟩,
    ⟨.source, 1, .error (.other "busy")⟩]

theorem recorded_slot_by_slot_two_keys :
    (after ["a", "b"] strayAndRepeated).pending .source = 1 ∧
    ((after ["a", "b"] strayAndRepeated).slots .source)[0]? =
      some ⟨"a", some (.error .notFound)⟩ ∧
    (after ["a", "b"] strayAndRepeated).record ⟨.target, 2, .error .notFound⟩ =
      after ["a", "b"] strayAndRepeated ∧
    ((after ["a", "b"] strayAndRepeated).record ⟨.target, 1, .error .notFound⟩).slots .source =
      (after ["a", "b"] strayAndRepeated).slots .source ∧
    ((after ["a", "b"] strayAndRepeated).record ⟨.source, 1, .error .notFound⟩).pending .source + 1 =
      1 ∧
    (namedOnce.map (·.place)).Nodup ∧
    after ["a", "b"] namedOnce.reverse = after ["a", "b"] namedOnce := by
  have once : (namedOnce.map (·.place)).Nodup := by decide
  obtain ⟨counts, -, slots, stray, across, down, -⟩ :=
    recorded_slot_by_slot ["a", "b"] strayAndRepeated
  obtain ⟨-, -, -, -, -, -, order⟩ := recorded_slot_by_slot ["a", "b"] namedOnce
  refine ⟨(counts .source).trans (by decide), (slots .source 0).trans (by decide), ?_, ?_, ?_, once,
    ?_⟩
  · exact stray _ (by decide)
  · exact (across _ .source (by decide)).1
  · exact down ⟨.source, 1, .error .notFound⟩ ⟨"b", none⟩ (by decide) rfl
  · exact order once _ (List.reverse_perm _)

end Gate

end ReplicaDiff.Batch
