/-
# ReplicaDiff.Proofs.Store.Fate — stores whose calls meet a known fate

A fate says whether and when a call ends, counted from the moment of the call,
and with which answer.  `Store.dealing` is the store that deals fates by a rule:
what becomes of a call depends on its key, on how many calls for the key came
before it, and on how many calls came before it at all.

`Store.Obeys` says that a store deals by a rule and has had so many calls.  It
holds of a dealing store and of a store without layers, which answers at once;
the next call meets the fate of the rule, and leaves a store that has had one
call more (`Obeys.call`).
-/
import ReplicaDiff.Proofs.Store.CallCount

namespace ReplicaDiff

set_option autoImplicit false

/-- What becomes of a call. -/
inductive Fate where
  /-- It ends after some milliseconds, with an answer or without a word. -/
  | ends (answer : Option Outcome) (after : Nat)
  | never

/-- The fate of a call, from its key, the earlier calls for the key, and all earlier calls. -/
abbrev Rule := String → Nat → Nat → Fate

namespace Fate

/-- How a layer ends a call that is to have an answer, or none. -/
def endingOf : Option Outcome → Store.Ending
  | some outcome => .answer outcome
  | none => .vanish

/-- What a layer does with a call of this fate. -/
def plan : Fate → Store.Plan
  | .ends answer after => ⟨after, endingOf answer⟩
  | .never => ⟨0, .stall⟩

/-- Where a call of this fate stands once it has been made. -/
def halt : Fate → Store.Halt
  | .ends answer 0 => .ended answer
  | .ends answer (after + 1) => .asleep (after + 1) 0 (endingOf answer)
  | .never => .stalled

/-- The answer of a call that is over before a limit. -/
def answerWithin (limit : Nat) : Fate → Option Outcome
  | .ends answer after => if after < limit then answer else none
  | .never => none

/-- Whether a call is over before a limit. -/
def endsWithin (limit : Nat) : Fate → Bool
  | .ends _ after => after < limit
  | .never => false

/-- How long after its call a fetch is over that ends. -/
def time : Fate → Nat
  | .ends _ after => after
  | .never => 0

theorem endsWithin_of_answerWithin {limit : Nat} {f : Fate} (h : (f.answerWithin limit).isSome) :
    f.endsWithin limit = true := by
  cases f with
  | never => cases h
  | ends answer after =>
      by_cases early : after < limit
      · simpa [endsWithin] using early
      · simp [answerWithin, early] at h

theorem endingOf_inj {a b : Option Outcome} (h : endingOf a = endingOf b) : a = b := by
  cases a <;> cases b <;> simp_all [endingOf]

theorem eq_never_of_halt {f : Fate} (h : f.halt = .stalled) : f = .never := by
  cases f with
  | never => rfl
  | ends answer after => cases after <;> simp [halt] at h

theorem eq_ends_of_halt_ended {f : Fate} {answer : Option Outcome} (h : f.halt = .ended answer) :
    f = .ends answer 0 := by
  cases f with
  | never => simp [halt] at h
  | ends answer' after =>
      cases after with
      | zero => simpa [halt] using h
      | succ n => simp [halt] at h

theorem eq_ends_of_halt_asleep {f : Fate} {delay below : Nat} {ending : Store.Ending}
    (h : f.halt = .asleep delay below ending) :
    below = 0 ∧ ∃ answer, ending = endingOf answer ∧ f = .ends answer delay := by
  cases f with
  | never => simp [halt] at h
  | ends answer after =>
      cases after with
      | zero => simp [halt] at h
      | succ n =>
          simp only [halt, Store.Halt.asleep.injEq] at h
          obtain ⟨rfl, rfl, rfl⟩ := h
          exact ⟨rfl, answer, rfl, rfl⟩

end Fate

namespace Store

/-- The store that deals fates by a rule, and counts its calls. -/
def dealing (rule : Rule) : Store :=
  ⟨[⟨true, fun key earlier total => (rule key earlier total).plan, .none⟩],
    fun _ => .error .notFound⟩

/-- The store deals by a rule and has had `calls` calls for each key, `total` in all. -/
inductive Obeys (s : Store) (rule : Rule) (calls : String → Nat) (total : Nat) : Prop where
  | bare (layers : s.layers = [])
      (atOnce : ∀ key earlier n, rule key earlier n = .ends (some (s.base key)) 0)
  | layer {l : Layer} (layers : s.layers = [l])
      (plan : ∀ key earlier n, l.plan key earlier n = (rule key earlier n).plan)
      (seen : ∀ key, l.seen.of key = calls key) (all : l.seen.total = total)

theorem dealing_obeys (rule : Rule) : (dealing rule).Obeys rule (fun _ => 0) 0 :=
  .layer rfl (fun _ _ _ => rfl) (fun _ => rfl) rfl

namespace Obeys

variable {s : Store} {rule : Rule} {calls : String → Nat} {total : Nat}

/-- The next call meets the fate of the rule. -/
theorem call (h : s.Obeys rule calls total) (key : String) :
    (s.call key).2 = (rule key (calls key) total).halt ∧
      (s.call key).1.Obeys rule (fun k => calls k + if key = k then 1 else 0) (total + 1) := by
  cases h with
  | bare layers atOnce =>
      simp only [Store.call, layers, descend, atOnce, Fate.halt, true_and]
      exact .bare rfl atOnce
  | @layer l layers plan seen all =>
      have fate := plan key (l.seen.of key) l.seen.total
      rw [seen, all] at fate
      have counted : ∀ k, (l.call key).1.seen.of k = calls k + if key = k then 1 else 0 := by
        intro k
        rw [← seen]
        exact CallCount.of_add l.seen key k
      have obeys : (⟨[(l.call key).1], s.base⟩ : Store).Obeys rule
          (fun k => calls k + if key = k then 1 else 0) (total + 1) :=
        .layer rfl plan counted (congrArg (· + 1) all)
      have planned : (l.call key).2 = (rule key (calls key) total).plan := by
        rw [← fate, ← all, ← seen]
        rfl
      simp only [Store.call, layers, descend, planned]
      cases rule key (calls key) total with
      | never => exact ⟨rfl, obeys⟩
      | ends answer after =>
          cases after with
          | zero => cases answer <;> exact ⟨rfl, obeys⟩
          | succ n => exact ⟨rfl, obeys⟩

/-- What a store that deals by a rule has seen. -/
theorem seen (h : s.Obeys rule calls total) (one : s.layers.length = 1) :
    s.layers.map (·.seen.total) = [total] ∧ ∀ key, s.layers.map (·.seen.of key) = [calls key] := by
  cases h with
  | bare layers =>
      rw [layers] at one
      cases one
  | layer layers plan seen all =>
      rw [layers]
      exact ⟨congrArg ([·]) all, fun key => congrArg ([·]) (seen key)⟩

/-- A call that has slept ends with its answer, and leaves the store as it is. -/
theorem resume (s : Store) (key : String) (below : Nat) (answer : Option Outcome) :
    s.resume key below (Fate.endingOf answer) = (s, .ended answer) := by
  cases answer <;> rfl

end Obeys

end Store

end ReplicaDiff
