/-
# ReplicaDiff.Proofs.Batch.Gate — a gate is what has been answered

`Gate.Holds keys answer` says that a gate is that of a round over `keys` in which
`answer side slot` has been answered: the slots carry the keys in order, and each
countdown is the number of slots of its side that are without an answer.  A new
gate holds nothing (`ofKeys_holds`), recording answers one slot
(`Holds.record`), and the gate is open when nothing is unanswered
(`Holds.isOpen_iff`).
-/
import ReplicaDiff.Batch.Gate

namespace ReplicaDiff.Batch

set_option autoImplicit false

/-- Which slots of a round have been answered, and how. -/
abbrev Answers := Side → Nat → Option Outcome

namespace Answers

/-- Nothing has been answered. -/
def none : Answers := fun _ _ => .none

/-- One more slot has been answered. -/
def put (a : Answers) (side : Side) (slot : Nat) (outcome : Outcome) : Answers :=
  fun s k => if s = side ∧ k = slot then some outcome else a s k

/-- Several slots have been answered, one after the other. -/
def putAll (a : Answers) (cs : List Completion) : Answers :=
  cs.foldl (fun a c => a.put c.side c.slot c.outcome) a

theorem put_self (a : Answers) (side : Side) (slot : Nat) (outcome : Outcome) :
    a.put side slot outcome side slot = some outcome := by
  simp [put]

theorem put_of_ne (a : Answers) {side s : Side} {slot k : Nat} (outcome : Outcome)
    (ne : ¬(s = side ∧ k = slot)) : a.put side slot outcome s k = a s k := by
  simp [put, ne]

/-- What is answered after several answers was answered before, or is one of them. -/
theorem of_putAll {answer : Answers} {cs : List Completion} {side : Side} {slot : Nat}
    {outcome : Outcome} (eq : answer.putAll cs side slot = some outcome) :
    answer side slot = some outcome ∨ ⟨side, slot, outcome⟩ ∈ cs := by
  induction cs generalizing answer with
  | nil => exact .inl eq
  | cons c cs ih =>
      rcases ih (show (answer.put c.side c.slot c.outcome).putAll cs side slot = _ from eq)
        with before | later
      · unfold put at before
        split at before
        · rename_i same
          obtain ⟨rfl, rfl⟩ := same
          cases before
          exact .inr List.mem_cons_self
        · exact .inl before
      · exact .inr (List.mem_cons_of_mem _ later)

end Answers

/-- The slots of one side over some keys, with what has been answered. -/
def slotsOf (keys : List String) (answer : Nat → Option Outcome) : List SideResult :=
  keys.mapIdx fun slot key => ⟨key, answer slot⟩

/-- How many of the first `n` slots are without an answer. -/
def unanswered (n : Nat) (answer : Nat → Option Outcome) : Nat :=
  (List.range n).countP fun slot => (answer slot).isNone

theorem length_slotsOf (keys : List String) (answer : Nat → Option Outcome) :
    (slotsOf keys answer).length = keys.length := List.length_mapIdx

theorem getElem?_slotsOf (keys : List String) (answer : Nat → Option Outcome) (slot : Nat) :
    (slotsOf keys answer)[slot]? = (keys[slot]?).map fun key => ⟨key, answer slot⟩ :=
  List.getElem?_mapIdx

theorem map_key_slotsOf (keys : List String) (answer : Nat → Option Outcome) :
    (slotsOf keys answer).map (·.key) = keys := by
  apply List.ext_getElem?
  intro slot
  rw [List.getElem?_map, getElem?_slotsOf]
  cases keys[slot]? <;> rfl

theorem slotsOf_congr {keys : List String} {a b : Nat → Option Outcome}
    (same : ∀ slot, slot < keys.length → a slot = b slot) : slotsOf keys a = slotsOf keys b := by
  apply List.ext_getElem?
  intro slot
  rw [getElem?_slotsOf, getElem?_slotsOf]
  by_cases bound : slot < keys.length
  · rw [same slot bound]
  · rw [List.getElem?_eq_none (Nat.le_of_not_lt bound)]
    rfl

theorem unanswered_eq_zero_iff {n : Nat} {answer : Nat → Option Outcome} :
    unanswered n answer = 0 ↔ ∀ slot, slot < n → (answer slot).isSome := by
  simp [unanswered, List.countP_eq_zero, Option.isSome_iff_ne_none]

/-- Flipping a predicate at one place below `n` changes its count below `n` by one. -/
theorem countP_range_flip {n slot : Nat} {p q : Nat → Bool} (bound : slot < n)
    (same : ∀ k, k ≠ slot → p k = q k) (before : p slot = true) (after : q slot = false) :
    (List.range n).countP p = (List.range n).countP q + 1 := by
  induction n with
  | zero => omega
  | succ n ih =>
      rw [List.range_succ, List.countP_append, List.countP_append]
      by_cases last : slot = n
      · subst last
        have below : (List.range slot).countP p = (List.range slot).countP q :=
          List.countP_congr fun k mem => by
            rw [same k (Nat.ne_of_lt (List.mem_range.1 mem))]
        simp [below, before, after]
      · rw [ih (by omega)]
        have : p n = q n := same n (Ne.symm last)
        simp only [List.countP_cons, List.countP_nil, this]
        omega

/-- The gate is that of a round over `keys` in which `answer` has been answered. -/
structure Gate.Holds (g : Gate) (keys : List String) (answer : Answers) : Prop where
  source : g.source = slotsOf keys (answer .source)
  target : g.target = slotsOf keys (answer .target)
  pendingSource : g.pendingSource = unanswered keys.length (answer .source)
  pendingTarget : g.pendingTarget = unanswered keys.length (answer .target)

namespace Gate

/-- The countdown of one side. -/
def pending (g : Gate) : Side → Nat
  | .source => g.pendingSource
  | .target => g.pendingTarget

theorem isOpen_iff_pending (g : Gate) : g.isOpen = true ↔ ∀ side, g.pending side = 0 := by
  unfold isOpen
  rw [Bool.and_eq_true, decide_eq_true_eq, decide_eq_true_eq]
  constructor
  · rintro ⟨source, target⟩ side
    cases side with
    | source => exact source
    | target => exact target
  · intro all
    exact ⟨all .source, all .target⟩

theorem ofKeys_holds (keys : List String) : (Gate.ofKeys keys).Holds keys .none := by
  have slots : keys.map SideResult.pending = slotsOf keys fun _ => Option.none := by
    apply List.ext_getElem?
    intro slot
    rw [List.getElem?_map, getElem?_slotsOf]
    rfl
  have count : keys.length = unanswered keys.length fun _ => Option.none := by
    simp [unanswered]
  exact ⟨slots, slots, count, count⟩

/-- Filling one slot answers it, and counts it if it was unanswered; a slot past the end is none
that counts. -/
theorem fill_slotsOf (keys : List String) (answer after : Nat → Option Outcome) (slot : Nat)
    (outcome : Outcome) (self : after slot = some outcome)
    (other : ∀ k, k ≠ slot → after k = answer k) :
    fill (slotsOf keys answer) (unanswered keys.length answer) slot outcome =
      (slotsOf keys after, unanswered keys.length after) := by
  unfold fill
  rw [getElem?_slotsOf]
  by_cases bound : slot < keys.length
  · rw [List.getElem?_eq_getElem bound]
    simp only [Option.map_some, Prod.mk.injEq]
    constructor
    · apply List.ext_getElem?
      intro k
      rw [List.getElem?_set, length_slotsOf, getElem?_slotsOf keys after]
      by_cases same : slot = k
      · subst same
        simp [bound, self]
      · rw [if_neg same, getElem?_slotsOf, other k (Ne.symm same)]
    · cases held : answer slot with
      | some previous =>
          simp only [SideResult.isComplete, Option.isSome_some, ↓reduceIte]
          apply List.countP_congr
          intro k _
          by_cases same : k = slot
          · subst same
            simp [held, self]
          · rw [other k same]
      | none =>
          have flip : unanswered keys.length answer = unanswered keys.length after + 1 :=
            countP_range_flip bound (fun k ne => by rw [other k ne]) (by simp [held])
              (by simp [self])
          simp [SideResult.isComplete, flip]
  · have past : keys[slot]? = none := List.getElem?_eq_none (Nat.le_of_not_lt bound)
    have below : ∀ k, k < keys.length → after k = answer k := fun k h => other k (by omega)
    rw [past]
    simp only [Option.map_none, Prod.mk.injEq]
    refine ⟨slotsOf_congr fun k h => (below k h).symm, List.countP_congr fun k mem => ?_⟩
    rw [below k (List.mem_range.1 mem)]

namespace Holds

variable {g : Gate} {keys : List String} {answer : Answers}

theorem keys_eq (h : g.Holds keys answer) : g.source.map (·.key) = keys := by
  rw [h.source, map_key_slotsOf]

/-- Recording answers one slot, and touches no other. -/
theorem record (h : g.Holds keys answer) (c : Completion) :
    (g.record c).Holds keys (answer.put c.side c.slot c.outcome) := by
  obtain ⟨side, slot, outcome⟩ := c
  have self := Answers.put_self answer side slot outcome
  have other : ∀ k, k ≠ slot → answer.put side slot outcome side k = answer side k :=
    fun k ne => answer.put_of_ne outcome fun e => ne e.2
  have across : ∀ s, s ≠ side → answer.put side slot outcome s = answer s :=
    fun s ne => funext fun k => answer.put_of_ne outcome fun e => ne e.1
  cases side with
  | source =>
      have filled := fill_slotsOf keys _ _ slot outcome self other
      rw [← h.source, ← h.pendingSource] at filled
      unfold Gate.record
      simp only [filled]
      exact ⟨rfl, by rw [across .target (by decide)]; exact h.target, rfl,
        by rw [across .target (by decide)]; exact h.pendingTarget⟩
  | target =>
      have filled := fill_slotsOf keys _ _ slot outcome self other
      rw [← h.target, ← h.pendingTarget] at filled
      unfold Gate.record
      simp only [filled]
      exact ⟨by rw [across .source (by decide)]; exact h.source, rfl,
        by rw [across .source (by decide)]; exact h.pendingSource, rfl⟩

theorem recordAll (h : g.Holds keys answer) (cs : List Completion) :
    (g.recordAll cs).Holds keys (answer.putAll cs) := by
  induction cs generalizing g answer with
  | nil => exact h
  | cons c cs ih => exact ih (h.record c)

theorem pending_eq (h : g.Holds keys answer) (side : Side) :
    g.pending side = unanswered keys.length (answer side) := by
  cases side with
  | source => exact h.pendingSource
  | target => exact h.pendingTarget

/-- The gate is open when every slot of both sides has been answered. -/
theorem isOpen_iff (h : g.Holds keys answer) :
    g.isOpen = true ↔ ∀ side slot, slot < keys.length → (answer side slot).isSome := by
  rw [isOpen_iff_pending]
  refine forall_congr' fun side => ?_
  rw [h.pending_eq, unanswered_eq_zero_iff]

end Holds

end Gate

/-- The results hold an answer for each of the keys, in their order, on both sides. -/
structure Results.Answer (r : Results) (keys : List String) : Prop where
  source : r.source.map (·.key) = keys
  target : r.target.map (·.key) = keys
  complete : (∀ s ∈ r.source, s.isComplete = true) ∧ ∀ s ∈ r.target, s.isComplete = true

/-- The results of one side. -/
def Results.of (r : Results) : Side → List SideResult
  | .source => r.source
  | .target => r.target

theorem Results.Answer.length_of {r : Results} {keys : List String} (h : r.Answer keys)
    (side : Side) : (r.of side).length = keys.length := by
  cases side with
  | source => rw [← h.source, List.length_map]; rfl
  | target => rw [← h.target, List.length_map]; rfl

theorem mem_slotsOf_complete {keys : List String} {answer : Nat → Option Outcome}
    (all : ∀ slot, slot < keys.length → (answer slot).isSome) :
    ∀ s ∈ slotsOf keys answer, s.isComplete = true := by
  intro s mem
  obtain ⟨slot, bound, rfl⟩ := List.mem_iff_getElem.1 mem
  have bound' : slot < keys.length := by rwa [length_slotsOf] at bound
  simp only [slotsOf, List.getElem_mapIdx]
  exact all slot bound'

/-- The results of an open gate answer its keys. -/
theorem Gate.Holds.results_answer {g : Gate} {keys : List String} {answer : Answers}
    (h : g.Holds keys answer) (open' : g.isOpen = true) : g.results.Answer keys := by
  have all := h.isOpen_iff.1 open'
  have results : g.results = ⟨slotsOf keys (answer .source), slotsOf keys (answer .target)⟩ := by
    rw [← h.source, ← h.target]
    rfl
  rw [results]
  exact ⟨map_key_slotsOf keys _, map_key_slotsOf keys _, mem_slotsOf_complete (all .source),
    mem_slotsOf_complete (all .target)⟩

end ReplicaDiff.Batch
