/-
# ReplicaDiff.Proofs.World.Fetching — where a round of fetches stands

The stores deal fates by rules, so that the fate of a fetch follows from the
calls before it (`Dealt`).  `Places` says how far the fetch of each slot has come,
and `Fetching` what this makes of the round, of the calls that have been made and
of the tasks of the round that are on the agenda: a fetch that is ahead is due
when the round began, one that is on its way when its fate has it end; what has
been answered is in the gate or in the inbox; looking into the inbox is on the
agenda exactly when something is new there, and then it is due at once.

The other lemmas carry this through what can happen to the round: it begins
(`fetching_opened`), a fetch is called (`Fetching.call`) or ends
(`Fetching.note`), the inbox is emptied (`Fetching.empty`), or something else
happens (`Fetching.frame`).  `Fetching.settled` says by what it can be settled.
-/
import Mathlib.Data.List.Perm.Basic
import ReplicaDiff.Proofs.Store.Fate
import ReplicaDiff.Proofs.World.Play

namespace ReplicaDiff

set_option autoImplicit false

open ReplicaDiff.Batch

/-- The round that a task is about, by client and number. -/
def Task.round? : Task → Option (Nat × Nat)
  | .enter t => some (t.client, t.serial)
  | .resume t _ _ => some (t.client, t.serial)
  | .look client serial => some (client, serial)
  | .deadline client serial => some (client, serial)
  | _ => none

/-- The fetch is one of a round over some keys. -/
structure Ticket.IsOf (t : Ticket) (client serial : Nat) (keys : List String) : Prop where
  client : t.client = client
  serial : t.serial = serial
  key : keys[t.slot]? = some t.key

/-- The fetches of one round differ in their sides or slots. -/
theorem Ticket.IsOf.eq {t t' : Ticket} {client serial : Nat} {keys : List String}
    (own : t.IsOf client serial keys) (own' : t'.IsOf client serial keys)
    (side : t.side = t'.side) (slot : t.slot = t'.slot) : t = t' := by
  have key := own.key
  rw [slot, own'.key] at key
  obtain ⟨client, serial, side, slot, key⟩ := t
  obtain ⟨client', serial', side', slot', key'⟩ := t'
  have clients := own.client.trans own'.client.symm
  have serials := own.serial.trans own'.serial.symm
  simp_all

namespace World

/-! ## The fates that have been dealt -/

/-- How many of some calls were for a key of a side. -/
def callsFor (calls : List Ticket) (side : Side) (key : String) : Nat :=
  calls.countP fun t => t.side = side ∧ t.key = key

/-- How many of some calls were for a side. -/
def callsOf (calls : List Ticket) (side : Side) : Nat := calls.countP fun t => t.side = side

/-- The fate of a call after some others. -/
def fateOf (rules : Side → Rule) (earlier : List Ticket) (t : Ticket) : Fate :=
  rules t.side t.key (callsFor earlier t.side t.key) (callsOf earlier t.side)

/-- Among some calls, one for a ticket met a fate. -/
def Dealt (rules : Side → Rule) (calls : List Ticket) (t : Ticket) (fate : Fate) : Prop :=
  ∃ earlier later, calls = earlier ++ t :: later ∧ fate = fateOf rules earlier t

theorem Dealt.append {rules : Side → Rule} {calls : List Ticket} {t : Ticket} {fate : Fate}
    (h : Dealt rules calls t fate) (more : List Ticket) : Dealt rules (calls ++ more) t fate := by
  obtain ⟨earlier, later, rfl, same⟩ := h
  exact ⟨earlier, later ++ more, by simp, same⟩

theorem dealt_last (rules : Side → Rule) (calls : List Ticket) (t : Ticket) :
    Dealt rules (calls ++ [t]) t (fateOf rules calls t) := ⟨calls, [], rfl, rfl⟩

/-! ## How far the fetches have come -/

/-- How far the fetch of one slot has come. -/
inductive Progress where
  /-- It has not been called. -/
  | ahead
  /-- It is to end so long after its call. -/
  | going (answer : Option Outcome) (after : Nat)
  | finished (answer : Option Outcome) (after : Nat)
  /-- It will never end. -/
  | hung

/-- How far the fetches of a round have come. -/
abbrev Places := Side → Nat → Progress

namespace Progress

/-- How far a fetch has come that has just been called. -/
def ofFate : Fate → Progress
  | .ends answer after => .going answer after
  | .never => .hung

def fate? : Progress → Option Fate
  | .ahead => none
  | .going answer after => some (.ends answer after)
  | .finished answer after => some (.ends answer after)
  | .hung => some .never

/-- The answer that has come. -/
def answer? : Progress → Option Outcome
  | .finished answer _ => answer
  | _ => none

def isOver : Progress → Bool
  | .finished _ _ => true
  | _ => false

/-- What is due for the fetch of a ticket of a round that began at some moment. -/
def errand (opened : Nat) (t : Ticket) : Progress → List (Nat × Task)
  | .ahead => [(opened, .enter t)]
  | .going answer after => [(opened + after, .resume t 0 (Fate.endingOf answer))]
  | _ => []

theorem ticket_of_mem_errand {opened : Nat} {t : Ticket} {x : Progress} {e : Nat × Task}
    (mem : e ∈ x.errand opened t) : e.2.ticket? = some t := by
  cases x <;> simp [errand] at mem <;> simp [mem, Task.ticket?]

theorem ofFate_spec (f : Fate) :
    (ofFate f).fate? = some f ∧ (ofFate f).answer? = none ∧ (ofFate f).isOver = false := by
  cases f <;> exact ⟨rfl, rfl, rfl⟩

end Progress

namespace Places

/-- The fetch of one slot has come so far. -/
def put (p : Places) (side : Side) (slot : Nat) (x : Progress) : Places :=
  fun s k => if s = side ∧ k = slot then x else p s k

/-- The answers that have come. -/
def answers (p : Places) : Answers := fun side slot => (p side slot).answer?

/-- How many of the first `n` fetches of a side are not over. -/
def left (p : Places) (n : Nat) (side : Side) : Nat :=
  (List.range n).countP fun slot => !(p side slot).isOver

variable {p : Places} {side s : Side} {slot k n : Nat} {x : Progress}

theorem put_self : p.put side slot x side slot = x := by simp [put]

theorem put_of_ne (ne : ¬(s = side ∧ k = slot)) : p.put side slot x s k = p s k := by
  simp [put, ne]

theorem left_put_of_ne (ne : s ≠ side) : (p.put side slot x).left n s = p.left n s := by
  unfold left
  refine List.countP_congr fun k _ => ?_
  rw [put_of_ne fun h => ne h.1]

theorem left_put_same (same : (p side slot).isOver = x.isOver) :
    (p.put side slot x).left n s = p.left n s := by
  unfold left
  refine List.countP_congr fun k _ => ?_
  by_cases own : s = side ∧ k = slot
  · obtain ⟨rfl, rfl⟩ := own
    rw [put_self, same]
  · rw [put_of_ne own]

/-- When one more fetch is over, one fewer is left. -/
theorem left_put_over (bound : slot < n) (before : (p side slot).isOver = false)
    (after : x.isOver = true) : p.left n side = (p.put side slot x).left n side + 1 := by
  refine countP_range_flip bound (fun k ne => ?_) (by simp [before]) (by simp [put_self, after])
  rw [put_of_ne fun h => ne h.2]

theorem left_sum_put_over (bound : slot < n) (before : (p side slot).isOver = false)
    (after : x.isOver = true) :
    p.left n .source + p.left n .target =
      (p.put side slot x).left n .source + (p.put side slot x).left n .target + 1 := by
  have less := left_put_over bound before after
  cases side with
  | source =>
      rw [left_put_of_ne (s := .target) (by decide)]
      omega
  | target =>
      rw [left_put_of_ne (s := .source) (by decide)]
      omega

theorem answers_put_same (same : (p side slot).answer? = x.answer?) :
    (p.put side slot x).answers = p.answers := by
  funext s k
  unfold answers
  by_cases own : s = side ∧ k = slot
  · obtain ⟨rfl, rfl⟩ := own
    rw [put_self, same]
  · rw [put_of_ne own]

theorem answers_put_over (outcome : Outcome) (after : Nat) :
    (p.put side slot (.finished (some outcome) after)).answers = p.answers.put side slot outcome := by
  funext s k
  unfold answers Answers.put put
  split <;> rfl

end Places

/-! ## Where a round stands -/

/-- The fetch that was the last to be over was so just now; without keys, the round has just
begun. -/
def Latest (keys : List String) (opened : Nat) (p : Places) (now : Nat) : Prop :=
  (keys = [] ∧ now = opened) ∨
    ∃ side slot answer after, slot < keys.length ∧ p side slot = .finished answer after ∧
      opened + after = now

/-- What is put down for a fetch that was not over leaves the last one what it was. -/
theorem Latest.put {keys : List String} {opened now slot : Nat} {p : Places} {side : Side}
    (h : Latest keys opened p now) (before : (p side slot).isOver = false) (x : Progress) :
    Latest keys opened (p.put side slot x) now := by
  refine h.imp id ?_
  rintro ⟨s, k, answer, after, bound, finished, time⟩
  refine ⟨s, k, answer, after, bound, ?_, time⟩
  rw [Places.put_of_ne]
  · exact finished
  · rintro ⟨rfl, rfl⟩
    rw [finished] at before
    cases before

/-- Where the round of a client stands: `b` is what is on the agenda about it. -/
structure Fetching (rules : Side → Rule) (client serial opened : Nat) (keys : List String)
    (r : Round) (p : Places) (calls : List Ticket) (now : Nat) (b : List (Nat × Task)) : Prop where
  begun : opened ≤ now
  holds : r.emptied.gate.Holds keys p.answers
  running : r.running = p.left keys.length .source + p.left keys.length .target
  errands : ∀ t : Ticket, t.IsOf client serial keys →
    (b.filter fun e => e.2.ticket? = some t).Perm ((p t.side t.slot).errand opened t)
  own : ∀ e ∈ b, ∀ t, e.2.ticket? = some t → t.IsOf client serial keys
  count : ∀ t : Ticket, t.IsOf client serial keys →
    calls.count t = if (p t.side t.slot).fate?.isNone then 0 else 1
  ownCalls : ∀ t ∈ calls, t.client = client → t.serial = serial → t.IsOf client serial keys
  fates : ∀ (t : Ticket) (f : Fate), t.IsOf client serial keys →
    (p t.side t.slot).fate? = some f → Dealt rules calls t f
  ended : ∀ side slot answer after, slot < keys.length → p side slot = .finished answer after →
    opened + after ≤ now
  looks : (b.filter fun e => e.2 = .look client serial).Perm
    (if r.notified then [(now, .look client serial)] else [])
  deadline : (b.filter fun e => e.2 = .deadline client serial).Perm
    (if keys.isEmpty then [] else [(opened + r.timeout.ticks, .deadline client serial)])
  notified : r.notified = true → Latest keys opened p now
  quiet : r.notified = false → r.emptied.gate.isOpen = false ∧ r.running ≠ 0

namespace Fetching

variable {rules : Side → Rule} {client serial opened : Nat} {keys : List String} {r : Round}
  {p : Places} {calls : List Ticket} {now : Nat} {b b' b₀ : List (Nat × Task)}

/-- While something is new in the inbox time stands still. -/
theorem looks_still (h : Fetching rules client serial opened keys r p calls now b) {now' : Nat}
    (still : r.notified = true → now' = now) :
    (b.filter fun e => e.2 = .look client serial).Perm
      (if r.notified then [(now', .look client serial)] else []) := by
  refine h.looks.trans (.of_eq ?_)
  split
  · rename_i notified
    rw [still notified]
  · rfl

/-- What does not concern a round leaves it where it stands. -/
theorem frame (h : Fetching rules client serial opened keys r p calls now b) (perm : b'.Perm b)
    {now' : Nat} (later : now ≤ now') (still : r.notified = true → now' = now)
    {more : List Ticket} (others : ∀ t ∈ more, ¬(t.client = client ∧ t.serial = serial)) :
    Fetching rules client serial opened keys r p (calls ++ more) now' b' where
  begun := Nat.le_trans h.begun later
  holds := h.holds
  running := h.running
  errands t own := (perm.filter _).trans (h.errands t own)
  own e mem := h.own e (perm.mem_iff.1 mem)
  count t own := by
    have none : more.count t = 0 :=
      List.count_eq_zero.2 fun mem => others t mem ⟨own.client, own.serial⟩
    rw [List.count_append, none, Nat.add_zero, h.count t own]
  ownCalls t mem client serial := by
    rcases List.mem_append.1 mem with mem | mem
    · exact h.ownCalls t mem client serial
    · exact absurd ⟨client, serial⟩ (others t mem)
  fates t f own fate := (h.fates t f own fate).append more
  ended side slot answer after bound finished :=
    Nat.le_trans (h.ended side slot answer after bound finished) later
  looks := (perm.filter _).trans (h.looks_still still)
  deadline := (perm.filter _).trans h.deadline
  notified notified := by
    rw [still notified]
    exact h.notified notified
  quiet := h.quiet

theorem of_perm (h : Fetching rules client serial opened keys r p calls now b) (perm : b'.Perm b) :
    Fetching rules client serial opened keys r p calls now b' := by
  have none : ∀ t ∈ ([] : List Ticket), ¬(t.client = client ∧ t.serial = serial) := by simp
  simpa using h.frame perm (Nat.le_refl now) (fun _ => rfl) none

/-- A task of a fetch is all that is due for it. -/
theorem errand_of_mem (h : Fetching rules client serial opened keys r p calls now b)
    {e : Nat × Task} (perm : b.Perm (e :: b₀)) {t : Ticket} (ticket : e.2.ticket? = some t) :
    t.IsOf client serial keys ∧ (p t.side t.slot).errand opened t = [e] ∧
      (b₀.filter fun e => e.2.ticket? = some t) = [] := by
  have own := h.own e (perm.mem_iff.2 List.mem_cons_self) t ticket
  have all := ((perm.filter fun e => e.2.ticket? = some t).symm.trans (h.errands t own)).symm
  rw [List.filter_cons_of_pos (by simp [ticket])] at all
  -- A fetch has at most one errand, so that the task at hand is the one there is.
  have single : ∀ x, (p t.side t.slot).errand opened t = [x] →
      (p t.side t.slot).errand opened t = [e] ∧ (b₀.filter fun e => e.2.ticket? = some t) = [] := by
    intro x eq
    rw [eq] at all
    have same := List.perm_singleton.1 all.symm
    rw [List.cons.injEq] at same
    exact ⟨by rw [eq, same.1], same.2⟩
  refine ⟨own, ?_⟩
  cases progress : p t.side t.slot with
  | ahead => exact progress ▸ single _ (by rw [progress]; rfl)
  | going answer after => exact progress ▸ single _ (by rw [progress]; rfl)
  | finished answer after =>
      rw [progress] at all
      cases List.nil_perm.1 all
  | hung =>
      rw [progress] at all
      cases List.nil_perm.1 all

/-- A task that stays on the agenda is not among those of a fetch whose task is taken off. -/
theorem filter_of_ne {q : Nat × Task → Bool} {e : Nat × Task} (perm : b.Perm (e :: b₀))
    (not : q e = false) : (b₀.filter q).Perm (b.filter q) := by
  have := (perm.filter q).symm
  rwa [List.filter_cons_of_neg (by simp [not])] at this

/-- A filter that sees neither the task that is taken off nor those that are put on sees what it
saw before. -/
theorem filter_replaced {q : Nat × Task → Bool} {e : Nat × Task} {added : List (Nat × Task)}
    (perm : b.Perm (e :: b₀)) (not : q e = false) (none : ∀ e ∈ added, q e = false) :
    ((added ++ b₀).filter q).Perm (b.filter q) := by
  rw [List.filter_append, List.filter_eq_nil_iff.2 fun e mem => by simp [none e mem],
    List.nil_append]
  exact filter_of_ne perm not

theorem own_replaced (h : Fetching rules client serial opened keys r p calls now b)
    {e : Nat × Task} {added : List (Nat × Task)} (perm : b.Perm (e :: b₀))
    (new : ∀ e ∈ added, ∀ t, e.2.ticket? = some t → t.IsOf client serial keys) :
    ∀ e ∈ added ++ b₀, ∀ t, e.2.ticket? = some t → t.IsOf client serial keys := by
  intro e mem
  rcases List.mem_append.1 mem with mem | mem
  · exact new e mem
  · exact h.own e (perm.mem_iff.2 (List.mem_cons_of_mem _ mem))

/-- What is put down for one fetch lies in the past if it says that the fetch is over. -/
theorem ended_put (h : Fetching rules client serial opened keys r p calls now b) {moment : Nat}
    (onward : now ≤ moment) {x : Progress}
    (past : ∀ answer after, x = .finished answer after → opened + after ≤ moment) (s : Side)
    (k : Nat) (side : Side) (slot : Nat) (answer : Option Outcome) (after : Nat)
    (bound : slot < keys.length) (finished : p.put s k x side slot = .finished answer after) :
    opened + after ≤ moment := by
  by_cases same : side = s ∧ slot = k
  · obtain ⟨rfl, rfl⟩ := same
    rw [Places.put_self] at finished
    exact past answer after finished
  · rw [Places.put_of_ne same] at finished
    exact Nat.le_trans (h.ended side slot answer after bound finished) onward

/-- What is due for the fetches, when what is due for one of them has been replaced. -/
theorem errands_put (h : Fetching rules client serial opened keys r p calls now b)
    {e : Nat × Task} (perm : b.Perm (e :: b₀)) {t : Ticket} (ticket : e.2.ticket? = some t)
    (x : Progress) (added : List (Nat × Task)) (quiet : ∀ e ∈ added, e.2.ticket? = none)
    (t' : Ticket) (own' : t'.IsOf client serial keys) :
    ((x.errand opened t ++ added ++ b₀).filter fun e => e.2.ticket? = some t').Perm
      ((p.put t.side t.slot x t'.side t'.slot).errand opened t') := by
  obtain ⟨own, -, rest⟩ := h.errand_of_mem perm ticket
  have silent : (added.filter fun e => e.2.ticket? = some t') = [] := by
    rw [List.filter_eq_nil_iff]
    intro e mem
    simp [quiet e mem]
  rw [List.filter_append, List.filter_append, silent, List.append_nil]
  by_cases same : t'.side = t.side ∧ t'.slot = t.slot
  · obtain rfl := own'.eq own same.1 same.2
    rw [Places.put_self, rest, List.append_nil]
    refine .of_eq (List.filter_eq_self.2 fun e mem => ?_)
    simp [Progress.ticket_of_mem_errand mem]
  · have other : t ≠ t' := fun eq => same (eq ▸ ⟨rfl, rfl⟩)
    have none : ((x.errand opened t).filter fun e => e.2.ticket? = some t') = [] := by
      rw [List.filter_eq_nil_iff]
      intro e mem
      simp [Progress.ticket_of_mem_errand mem, other]
    rw [Places.put_of_ne same, none, List.nil_append]
    refine (filter_of_ne perm ?_).trans (h.errands t' own')
    simp [ticket, other]

/-- A fetch that is about to be called is ahead. -/
theorem ahead_of_enter (h : Fetching rules client serial opened keys r p calls now b) {due : Nat}
    {t : Ticket} (perm : b.Perm ((due, .enter t) :: b₀)) :
    p t.side t.slot = .ahead ∧ opened = due := by
  obtain ⟨-, errand, -⟩ := h.errand_of_mem perm rfl
  cases progress : p t.side t.slot with
  | ahead =>
      rw [progress] at errand
      exact ⟨rfl, congrArg Prod.fst (List.cons.inj errand).1⟩
  | going answer after =>
      rw [progress] at errand
      cases (List.cons.inj errand).1
  | finished answer after =>
      rw [progress] at errand
      cases errand
  | hung =>
      rw [progress] at errand
      cases errand

/-- A fetch that is about to end is going, with the answer that it ends with. -/
theorem going_of_resume (h : Fetching rules client serial opened keys r p calls now b)
    {due below : Nat} {t : Ticket} {ending : Store.Ending} {answer : Option Outcome}
    (perm : b.Perm ((due, .resume t below ending) :: b₀)) (ends : ending = Fate.endingOf answer) :
    ∃ after, p t.side t.slot = .going answer after ∧ due = opened + after := by
  obtain ⟨-, errand, -⟩ := h.errand_of_mem perm rfl
  cases progress : p t.side t.slot with
  | going answer' after =>
      rw [progress] at errand
      have same := (List.cons.inj errand).1
      simp only [Prod.mk.injEq, Task.resume.injEq] at same
      rw [ends] at same
      exact ⟨after, by rw [Fate.endingOf_inj same.2.2.2], same.1.symm⟩
  | ahead =>
      rw [progress] at errand
      cases (List.cons.inj errand).1
  | finished answer after =>
      rw [progress] at errand
      cases errand
  | hung =>
      rw [progress] at errand
      cases errand

/-- Calling a fetch of the round deals it its fate. -/
theorem call (h : Fetching rules client serial opened keys r p calls now b) {due moment : Nat}
    {t : Ticket} (perm : b.Perm ((due, .enter t) :: b₀)) (prompt : moment = due)
    (onward : now ≤ moment) (still : r.notified = true → moment = now) :
    moment = opened ∧ p t.side t.slot = .ahead ∧
      Fetching rules client serial opened keys r
        (p.put t.side t.slot (.ofFate (fateOf rules calls t))) (calls ++ [t]) moment
        ((Progress.ofFate (fateOf rules calls t)).errand opened t ++ b₀) := by
  obtain ⟨own, -, -⟩ := h.errand_of_mem perm rfl
  obtain ⟨ahead, began⟩ := h.ahead_of_enter perm
  obtain ⟨fate, answer, isOver⟩ := Progress.ofFate_spec (fateOf rules calls t)
  generalize Progress.ofFate (fateOf rules calls t) = x at fate answer isOver
  have first : calls.count t = 0 := by rw [h.count t own, ahead]; rfl
  have slots : ∀ {t' : Ticket}, t'.IsOf client serial keys → t' ≠ t →
      ¬(t'.side = t.side ∧ t'.slot = t.slot) :=
    fun own' ne same => ne (own'.eq own same.1 same.2)
  have before : (p t.side t.slot).isOver = false := by rw [ahead]; rfl
  refine ⟨prompt.trans began.symm, ahead, ?_⟩
  constructor
  case begun =>
    omega
  case holds =>
    rw [Places.answers_put_same (by rw [ahead, answer]; rfl)]
    exact h.holds
  case running =>
    rw [h.running, Places.left_put_same (before.trans isOver.symm),
      Places.left_put_same (before.trans isOver.symm)]
  case errands =>
    intro t' own'
    simpa using h.errands_put perm rfl x [] (by simp) t' own'
  case own =>
    refine h.own_replaced perm fun e mem t' ticket => ?_
    rw [Progress.ticket_of_mem_errand mem] at ticket
    cases ticket
    exact own
  case count =>
    intro t' own'
    rw [List.count_append]
    by_cases same : t' = t
    · subst same
      rw [first, Places.put_self, fate]
      simp
    · have none : [t].count t' = 0 := List.count_eq_zero.2 (by simpa using same)
      rw [none, Nat.add_zero, Places.put_of_ne (slots own' same)]
      exact h.count t' own'
  case ownCalls =>
    intro t' mem
    rcases List.mem_append.1 mem with mem | mem
    · exact h.ownCalls t' mem
    · rw [List.mem_singleton] at mem
      intro _ _
      exact mem ▸ own
  case fates =>
    intro t' f own' dealt
    by_cases same : t' = t
    · subst same
      rw [Places.put_self, fate] at dealt
      cases dealt
      exact dealt_last rules calls t'
    · rw [Places.put_of_ne (slots own' same)] at dealt
      exact (h.fates t' f own' dealt).append [t]
  case ended =>
    refine h.ended_put onward (fun a after finished => ?_) t.side t.slot
    rw [finished] at isOver
    cases isOver
  case looks =>
    refine (filter_replaced perm (by simp) fun e mem => ?_).trans (h.looks_still still)
    simpa using ne_of_ticket (Progress.ticket_of_mem_errand mem) rfl
  case deadline =>
    refine (filter_replaced perm (by simp) fun e mem => ?_).trans h.deadline
    simpa using ne_of_ticket (Progress.ticket_of_mem_errand mem) rfl
  case notified =>
    intro notified
    rw [still notified]
    exact (h.notified notified).put before _
  case quiet =>
    exact h.quiet

/-- A fetch of the round ends when its fate has it end, with the answer of its fate. -/
theorem note (h : Fetching rules client serial opened keys r p calls now b) {due moment below : Nat}
    {t : Ticket} {ending : Store.Ending} {answer : Option Outcome}
    (perm : b.Perm ((due, .resume t below ending) :: b₀)) (ends : ending = Fate.endingOf answer)
    (prompt : moment = due) (onward : now ≤ moment) (still : r.notified = true → moment = now) :
    ∃ after, p t.side t.slot = .going answer after ∧ moment = opened + after ∧
      Fetching rules client serial opened keys (r.noted t answer)
        (p.put t.side t.slot (.finished answer after)) calls moment
        ((if r.wakes answer then [(moment, .look client serial)] else []) ++ b₀) := by
  obtain ⟨own, -, -⟩ := h.errand_of_mem perm rfl
  obtain ⟨after, going, time⟩ := h.going_of_resume perm ends
  have bound : t.slot < keys.length := (List.getElem?_eq_some_iff.1 own.key).1
  have unfinished : (p t.side t.slot).isOver = false := by rw [going]; rfl
  have running := h.running
  rw [Places.left_sum_put_over (x := .finished answer after) bound unfinished rfl] at running
  have look : ∀ e ∈ (if r.wakes answer then [(moment, Task.look client serial)] else []),
      e = (moment, .look client serial) :=
    fun e mem => List.mem_singleton.1 (List.mem_ite_nil_right.1 mem).2
  refine ⟨after, going, prompt.trans time, ?_⟩
  constructor
  case begun =>
    omega
  case holds =>
    cases answer with
    | none =>
        rw [Places.answers_put_same (by rw [going]; rfl)]
        exact h.holds
    | some outcome =>
        rw [Places.answers_put_over]
        have recorded := h.holds.record ⟨t.side, t.slot, outcome⟩
        simpa [Round.emptied, Round.noted, Gate.recordAll] using recorded
  case running =>
    show r.running - 1 = _
    omega
  case errands =>
    intro t' own'
    simpa [Progress.errand] using h.errands_put perm rfl (.finished answer after) _
      (fun e mem => by rw [look e mem]; rfl) t' own'
  case own =>
    refine h.own_replaced perm fun e mem t' ticket => ?_
    rw [look e mem] at ticket
    cases ticket
  case count =>
    intro t' own'
    rw [h.count t' own']
    by_cases same : t'.side = t.side ∧ t'.slot = t.slot
    · obtain rfl := own'.eq own same.1 same.2
      rw [Places.put_self, going]
      rfl
    · rw [Places.put_of_ne same]
  case ownCalls =>
    exact h.ownCalls
  case fates =>
    intro t' f own' fate
    refine h.fates t' f own' ?_
    by_cases same : t'.side = t.side ∧ t'.slot = t.slot
    · obtain rfl := own'.eq own same.1 same.2
      rw [Places.put_self] at fate
      rw [going]
      exact fate
    · rwa [Places.put_of_ne same] at fate
  case ended =>
    refine h.ended_put onward (fun a d finished => ?_) t.side t.slot
    cases finished
    omega
  case looks =>
    have before := (filter_of_ne perm (q := fun e => e.2 = .look client serial) (by simp)).trans
      h.looks
    rw [List.filter_append]
    cases notified : r.notified with
    | true =>
        have asleep : r.wakes answer = false := by simp [Round.wakes, notified]
        rw [notified] at before
        simpa [asleep, Round.noted, notified, still notified] using before
    | false =>
        rw [notified] at before
        have none := List.perm_nil.1 before
        rw [none, List.append_nil]
        cases wakes : r.wakes answer <;> simp [Round.noted, notified, wakes]
  case deadline =>
    exact (filter_replaced perm (by simp) fun e mem => by simp [look e mem]).trans h.deadline
  case notified =>
    intro notified
    cases before : r.notified with
    | false => exact .inr ⟨t.side, t.slot, answer, after, bound, Places.put_self, by omega⟩
    | true =>
        rw [still before]
        exact (h.notified before).put unfinished _
  case quiet =>
    intro quiet
    have before : r.notified = false ∧ r.wakes answer = false := by
      simpa [Round.noted] using quiet
    have wakes := before.2
    obtain ⟨closed, -⟩ := h.quiet before.1
    simp only [Round.wakes, before.1, Bool.not_false, Bool.true_and, Bool.or_eq_false_iff,
      decide_eq_false_iff_not] at wakes
    refine ⟨?_, wakes.2⟩
    cases answer with
    | none => exact closed
    | some outcome => cases wakes.1

/-- Emptying the inbox of the round leaves nothing new in it. -/
theorem empty (h : Fetching rules client serial opened keys r p calls now b) {due moment : Nat}
    (perm : b.Perm ((due, .look client serial) :: b₀)) (prompt : moment = due)
    (undecided : verdict? r.emptied false = none) :
    moment = now ∧ Fetching rules client serial opened keys r.emptied p calls moment b₀ := by
  have looks := (perm.filter fun e => e.2 = .look client serial).symm.trans h.looks
  rw [List.filter_cons_of_pos (by simp)] at looks
  have notified : r.notified = true := by
    cases notified : r.notified with
    | true => rfl
    | false =>
        rw [notified] at looks
        cases List.perm_nil.1 looks
  rw [notified] at looks
  have only := List.perm_singleton.1 looks
  rw [List.cons.injEq, Prod.mk.injEq] at only
  have time : moment = now := prompt.trans only.1.1
  refine ⟨time, ?_⟩
  subst time
  constructor
  case begun =>
    exact h.begun
  case holds =>
    exact h.holds
  case running =>
    exact h.running
  case errands =>
    intro t own
    exact (filter_of_ne perm (by simp [Task.ticket?])).trans (h.errands t own)
  case own =>
    intro e mem
    exact h.own e (perm.mem_iff.2 (List.mem_cons_of_mem _ mem))
  case count =>
    exact h.count
  case ownCalls =>
    exact h.ownCalls
  case fates =>
    exact h.fates
  case ended =>
    exact h.ended
  case looks =>
    rw [only.2]
    exact .refl _
  case deadline =>
    exact (filter_of_ne perm (by simp)).trans h.deadline
  case notified =>
    intro new
    cases new
  case quiet =>
    intro _
    obtain ⟨closed, running, -⟩ := verdict?_eq_none_iff.1 undecided
    exact ⟨closed, running⟩

end Fetching

/-! ## The beginning of a round -/

theorem nodup_fetches (client serial : Nat) (keys : List String) :
    (fetches client serial keys).Nodup := by
  have tail : ∀ (keys : List String) (first : Nat),
      ((keys.zipIdx first).flatMap (fetchesOf client serial)).Nodup := by
    intro keys
    induction keys with
    | nil => simp
    | cons key keys ih =>
        intro first
        rw [List.zipIdx_cons, List.flatMap_cons, List.nodup_append]
        refine ⟨by simp [fetchesOf], ih (first + 1), ?_⟩
        rintro a here b there rfl
        obtain ⟨⟨key', slot⟩, mem, there⟩ := List.mem_flatMap.1 there
        have past := (List.mem_zipIdx mem).1
        simp only [fetchesOf, List.mem_cons, List.not_mem_nil, or_false] at here there
        rcases here with rfl | rfl <;> rcases there with eq | eq <;> cases eq <;> omega
  exact tail keys 0

theorem chores_send_nil (now client serial : Nat) {keys : List String} (timeout : Duration)
    (empty : keys.isEmpty = true) :
    chores now client serial (.send keys timeout) = [(now, .look client serial)] := by
  simp [chores, empty]

theorem chores_send (now client serial : Nat) {keys : List String} (timeout : Duration)
    (some : keys.isEmpty = false) :
    chores now client serial (.send keys timeout) =
      (now + timeout.ticks, .deadline client serial) ::
        (fetches client serial keys).map fun task => (now, task) := by
  simp [chores, some]

/-- What is due for a fetch of a round that begins. -/
theorem filter_chores {now client serial : Nat} {keys : List String} {timeout : Duration}
    {t : Ticket} (own : t.IsOf client serial keys) :
    ((chores now client serial (.send keys timeout)).filter
      fun e => e.2.ticket? = some t).Perm [(now, .enter t)] := by
  have some : keys.isEmpty = false := by
    refine Bool.eq_false_iff.2 fun none => ?_
    have key := own.key
    rw [List.isEmpty_iff.1 none] at key
    cases key
  have nodup : (((fetches client serial keys).map fun task => (now, task)).filter
      fun e => e.2.ticket? = .some t).Nodup := by
    refine ((nodup_fetches client serial keys).map ?_).filter _
    intro a b same
    exact congrArg Prod.snd same
  rw [chores_send now client serial timeout some, List.filter_cons_of_neg (by simp [Task.ticket?])]
  refine (List.perm_ext_iff_of_nodup nodup (by simp)).2 fun e => ?_
  rw [List.mem_filter, List.mem_map, List.mem_singleton]
  constructor
  · rintro ⟨⟨task, listed, rfl⟩, ticket⟩
    obtain ⟨side, slot, key, -, rfl⟩ := mem_fetches.1 listed
    simp only [Task.ticket?, Option.some.injEq, decide_eq_true_eq] at ticket
    rw [ticket]
  · rintro rfl
    refine ⟨⟨.enter t, mem_fetches.2 ⟨t.side, t.slot, t.key, own.key, ?_⟩, rfl⟩, by simp [Task.ticket?]⟩
    have client := own.client
    have serial := own.serial
    subst client serial
    rfl

/-- A round that begins stands where every fetch is ahead. -/
theorem fetching_opened (rules : Side → Rule) {client serial now : Nat} {keys : List String}
    {timeout : Duration} {calls : List Ticket} {b : List (Nat × Task)}
    (perm : b.Perm (chores now client serial (.send keys timeout)))
    (new : ∀ t ∈ calls, ¬(t.client = client ∧ t.serial = serial)) :
    Fetching rules client serial now keys (Round.opened keys timeout) (fun _ _ => .ahead) calls now
      b := by
  have left : ∀ side, Places.left (fun _ _ => .ahead) keys.length side = keys.length := by
    intro side
    simp [Places.left, Progress.isOver]
  have fetch : ∀ e ∈ (fetches client serial keys).map fun task => (now, task),
      ∃ t : Ticket, t.IsOf client serial keys ∧ e = (now, .enter t) := by
    intro e mem
    obtain ⟨task, listed, rfl⟩ := List.mem_map.1 mem
    obtain ⟨side, slot, key, present, rfl⟩ := mem_fetches.1 listed
    exact ⟨_, ⟨rfl, rfl, present⟩, rfl⟩
  have alone : ∀ task : Task, task.ticket? = none →
      (((fetches client serial keys).map fun task => (now, task)).filter fun e => e.2 = task) =
        [] := by
    intro task ticket
    rw [List.filter_eq_nil_iff]
    intro e mem
    obtain ⟨t, -, rfl⟩ := fetch e mem
    rw [decide_eq_true_eq]
    rintro rfl
    cases ticket
  constructor
  case begun =>
    exact Nat.le_refl _
  case holds =>
    exact Gate.ofKeys_holds keys
  case running =>
    rw [left, left]
    show 2 * keys.length = _
    omega
  case errands =>
    intro t own
    exact (perm.filter _).trans (filter_chores own)
  case own =>
    intro e mem t ticket
    rw [perm.mem_iff] at mem
    cases empty : keys.isEmpty with
    | true =>
        rw [chores_send_nil now client serial timeout empty, List.mem_singleton] at mem
        rw [mem] at ticket
        cases ticket
    | false =>
        rw [chores_send now client serial timeout empty] at mem
        rcases List.mem_cons.1 mem with rfl | mem
        · cases ticket
        · obtain ⟨t', own, rfl⟩ := fetch e mem
          cases ticket
          exact own
  case count =>
    intro t own
    exact List.count_eq_zero.2 fun mem => new t mem ⟨own.client, own.serial⟩
  case ownCalls =>
    intro t mem client serial
    exact absurd ⟨client, serial⟩ (new t mem)
  case fates =>
    intro t f _ fate
    cases fate
  case ended =>
    intro side slot answer after _ finished
    cases finished
  case looks =>
    refine (perm.filter _).trans ?_
    cases empty : keys.isEmpty with
    | true =>
        rw [chores_send_nil now client serial timeout empty]
        simp [Round.opened, empty]
    | false =>
        rw [chores_send now client serial timeout empty, List.filter_cons_of_neg (by simp),
          alone _ rfl]
        simp [Round.opened, empty]
  case deadline =>
    refine (perm.filter _).trans ?_
    cases empty : keys.isEmpty with
    | true =>
        rw [chores_send_nil now client serial timeout empty]
        simp
    | false =>
        rw [chores_send now client serial timeout empty, List.filter_cons_of_pos (by simp),
          alone _ rfl]
        simp [Round.opened]
  case notified =>
    intro empty
    exact .inl ⟨List.isEmpty_iff.1 empty, rfl⟩
  case quiet =>
    intro some
    have present : 0 < keys.length :=
      List.length_pos_iff.2 fun none => by simp [Round.opened, none] at some
    constructor
    · refine Bool.eq_false_iff.2 fun opened => ?_
      have answered := (Gate.ofKeys_holds keys).isOpen_iff.1 opened .source 0 present
      cases answered
    · show 2 * keys.length ≠ 0
      omega

/-! ## The end of a round -/

/-- By what a round is settled, and when. -/
inductive Settlement (keys : List String) (timeout : Duration) (opened : Nat) (p : Places)
    (moment : Nat) : Except Batch.Error Results → Prop where
  /-- Every fetch has been answered. -/
  | answered (all : ∀ side slot, slot < keys.length → (p side slot).answer?.isSome)
      (latest : Latest keys opened p moment) :
      Settlement keys timeout opened p moment
        (.ok ⟨slotsOf keys (p.answers .source), slotsOf keys (p.answers .target)⟩)
  /-- Every fetch is over, but some have not been answered. -/
  | closed (all : ∀ side slot, slot < keys.length → (p side slot).isOver = true)
      (silent : ∃ side slot, slot < keys.length ∧ (p side slot).answer? = none)
      (latest : Latest keys opened p moment) :
      Settlement keys timeout opened p moment
        (.error (.channelClosed (unanswered keys.length (p.answers .source) +
          unanswered keys.length (p.answers .target))))
  /-- Time is up, and some fetches are not over. -/
  | late (missing : ∃ side slot, slot < keys.length ∧ (p side slot).isOver = false)
      (time : moment = opened + timeout.ticks) :
      Settlement keys timeout opened p moment
        (.error (.timeout keys.length timeout.secs (unanswered keys.length (p.answers .source))
          (unanswered keys.length (p.answers .target))))

/-- How far a fetch has come at a moment at which all that was due before has happened. -/
def Progress.Current (opened moment : Nat) : Progress → Prop
  | .ahead => False
  | .going _ after => moment ≤ opened + after
  | .finished _ after => opened + after ≤ moment
  | .hung => True

theorem Progress.Current.exists_fate {opened moment : Nat} {x : Progress}
    (current : x.Current opened moment) : ∃ f, x.fate? = some f := by
  cases x with
  | ahead => cases current
  | going answer after => exact ⟨_, rfl⟩
  | finished answer after => exact ⟨_, rfl⟩
  | hung => exact ⟨_, rfl⟩

theorem Places.left_eq_zero_iff {p : Places} {n : Nat} :
    p.left n .source + p.left n .target = 0 ↔
      ∀ side slot, slot < n → (p side slot).isOver = true := by
  rw [Nat.add_eq_zero_iff]
  simp only [Places.left, List.countP_eq_zero, List.mem_range, Bool.not_eq_true',
    Bool.not_eq_false]
  constructor
  · rintro ⟨source, target⟩ side
    cases side with
    | source => exact source
    | target => exact target
  · intro all
    exact ⟨all .source, all .target⟩

/-- One of the first tasks looks into a round, or finds its time to be up, when it is due. -/
structure Inspected (rules : Side → Rule) (client serial opened : Nat) (keys : List String)
    (r : Round) (p : Places) (calls : List Ticket) (now : Nat) (b : List (Nat × Task))
    (moment : Nat) (task : Task) (expired : Bool) : Prop where
  fetching : Fetching rules client serial opened keys r p calls now b
  mem : (moment, task) ∈ b
  kind : task = .look client serial ∧ expired = false ∨
    task = .deadline client serial ∧ expired = true
  first : ∀ e ∈ b, moment ≤ e.1
  onward : now ≤ moment
  positive : 0 < r.timeout.ticks

namespace Inspected

variable {rules : Side → Rule} {client serial opened : Nat} {keys : List String} {r : Round}
  {p : Places} {calls : List Ticket} {now : Nat} {b : List (Nat × Task)} {moment : Nat} {task : Task}
  {expired : Bool}

/-- A look that is on the agenda is due at once. -/
theorem moment_eq (h : Inspected rules client serial opened keys r p calls now b moment task expired)
    (notified : r.notified = true) : moment = now := by
  have looks := h.fetching.looks
  rw [notified] at looks
  have look : moment ≤ now := h.first _ (List.mem_filter.1 (looks.mem_iff.2 List.mem_cons_self)).1
  have := h.onward
  omega

theorem notified_of_look
    (h : Inspected rules client serial opened keys r p calls now b moment task expired)
    (early : expired = false) : r.notified = true := by
  rcases h.kind with ⟨rfl, -⟩ | ⟨-, late⟩
  · have here := h.fetching.looks.mem_iff.1 (List.mem_filter.2 ⟨h.mem, by simp⟩)
    cases notified : r.notified with
    | true => rfl
    | false =>
        rw [notified] at here
        cases here
  · rw [early] at late
    cases late

/-- Time is up when the deadline of the round has come, which it has only with keys. -/
theorem time_of_late
    (h : Inspected rules client serial opened keys r p calls now b moment task expired)
    (late : expired = true) : keys ≠ [] ∧ moment = opened + r.timeout.ticks := by
  rcases h.kind with ⟨-, early⟩ | ⟨rfl, -⟩
  · rw [late] at early
    cases early
  · have here := h.fetching.deadline.mem_iff.1 (List.mem_filter.2 ⟨h.mem, by simp⟩)
    split at here
    · cases here
    · rename_i some
      rw [List.mem_singleton, Prod.mk.injEq] at here
      exact ⟨fun none => some (by simp [none]), here.1⟩

/-- A round is settled by the end of its last fetch at that very moment. -/
theorem latest (h : Inspected rules client serial opened keys r p calls now b moment task expired)
    (some : r.emptied.gate.isOpen = true ∨ r.running = 0) : Latest keys opened p moment := by
  have notified : r.notified = true := by
    by_contra quiet
    obtain ⟨closed, running⟩ := h.fetching.quiet (Bool.eq_false_iff.2 quiet)
    rcases some with opened | none
    · rw [closed] at opened
      cases opened
    · exact running none
  rw [h.moment_eq notified]
  exact h.fetching.notified notified

theorem inTime (h : Inspected rules client serial opened keys r p calls now b moment task expired) :
    moment ≤ opened + r.timeout.ticks := by
  have deadline := h.fetching.deadline
  cases empty : keys.isEmpty with
  | true =>
      -- Without keys there is no deadline, but the round is settled as soon as it has begun.
      have early : expired = false := by
        cases late : expired with
        | false => rfl
        | true => exact absurd (List.isEmpty_iff.1 empty) (h.time_of_late late).1
      have notified := h.notified_of_look early
      have atOnce := h.moment_eq notified
      rcases h.fetching.notified notified with ⟨-, same⟩ | ⟨_, slot, _, _, bound, -⟩
      · omega
      · rw [List.isEmpty_iff.1 empty] at bound
        cases bound
  | false =>
      rw [empty] at deadline
      exact h.first _ (List.mem_filter.1 (deadline.mem_iff.2 List.mem_cons_self)).1

/-- What a fetch still has to do is due no earlier. -/
theorem le_of_errand
    (h : Inspected rules client serial opened keys r p calls now b moment task expired) (side : Side)
    {slot : Nat} (bound : slot < keys.length) {e : Nat × Task}
    (errand : e ∈ (p side slot).errand opened ⟨client, serial, side, slot, keys[slot]⟩) :
    moment ≤ e.1 := by
  have own : Ticket.IsOf ⟨client, serial, side, slot, keys[slot]⟩ client serial keys :=
    ⟨rfl, rfl, List.getElem?_eq_getElem bound⟩
  exact h.first e (List.mem_filter.1 ((h.fetching.errands _ own).mem_iff.2 errand)).1

theorem current (h : Inspected rules client serial opened keys r p calls now b moment task expired)
    (begun : ∀ side slot, slot < keys.length → p side slot ≠ .ahead) (side : Side) (slot : Nat)
    (bound : slot < keys.length) : (p side slot).Current opened moment := by
  have errand := fun e => h.le_of_errand side bound (e := e)
  cases progress : p side slot with
  | ahead => exact begun side slot bound progress
  | going answer after =>
      rw [progress] at errand
      exact errand _ List.mem_cons_self
  | finished answer after =>
      exact Nat.le_trans (h.fetching.ended side slot answer after bound progress) h.onward
  | hung => trivial

/-- A round is settled by its answers when there is one from every fetch. -/
theorem settled_ok (h : Inspected rules client serial opened keys r p calls now b moment task expired)
    (open' : r.emptied.gate.isOpen = true) :
    (∀ side slot, slot < keys.length → (p side slot).Current opened moment) ∧
      Settlement keys r.timeout opened p moment (.ok r.emptied.gate.results) := by
  have holds := h.fetching.holds
  have all := holds.isOpen_iff.1 open'
  have results : r.emptied.gate.results =
      ⟨slotsOf keys (p.answers .source), slotsOf keys (p.answers .target)⟩ := by
    rw [← holds.source, ← holds.target]
    rfl
  rw [results]
  refine ⟨h.current fun side slot bound ahead => ?_, .answered all (h.latest (.inl open'))⟩
  have some := all side slot bound
  unfold Places.answers at some
  rw [ahead] at some
  cases some

theorem exists_silent
    (h : Inspected rules client serial opened keys r p calls now b moment task expired)
    (closed : r.emptied.gate.isOpen = false) :
    ∃ side slot, slot < keys.length ∧ (p side slot).answer? = none := by
  by_contra none
  refine Bool.eq_false_iff.1 closed (h.fetching.holds.isOpen_iff.2 fun side slot bound => ?_)
  by_contra no
  exact none ⟨side, slot, bound, Option.not_isSome_iff_eq_none.1 no⟩

/-- A round is settled when every fetch is over, though some have brought nothing. -/
theorem settled_closed
    (h : Inspected rules client serial opened keys r p calls now b moment task expired)
    (closed : r.emptied.gate.isOpen = false) (none : r.running = 0) :
    (∀ side slot, slot < keys.length → (p side slot).Current opened moment) ∧
      Settlement keys r.timeout opened p moment (.error (.channelClosed
        (r.emptied.gate.pendingSource + r.emptied.gate.pendingTarget))) := by
  have all := Places.left_eq_zero_iff.1 (h.fetching.running ▸ none)
  rw [h.fetching.holds.pendingSource, h.fetching.holds.pendingTarget]
  refine ⟨h.current fun side slot bound ahead => ?_,
    .closed all (h.exists_silent closed) (h.latest (.inr none))⟩
  have finished := all side slot bound
  rw [ahead] at finished
  cases finished

/-- A round is settled when its time is up, though some fetches are not over. -/
theorem settled_late
    (h : Inspected rules client serial opened keys r p calls now b moment task expired)
    (some : r.running ≠ 0) (late : expired = true) :
    (∀ side slot, slot < keys.length → (p side slot).Current opened moment) ∧
      Settlement keys r.timeout opened p moment (.error (.timeout r.emptied.gate.source.length
        r.timeout.secs r.emptied.gate.pendingSource r.emptied.gate.pendingTarget)) := by
  have holds := h.fetching.holds
  obtain ⟨-, time⟩ := h.time_of_late late
  have missing : ∃ side slot, slot < keys.length ∧ (p side slot).isOver = false := by
    by_contra none
    refine some (h.fetching.running.trans (Places.left_eq_zero_iff.2 fun side slot bound => ?_))
    by_contra no
    exact none ⟨side, slot, bound, Bool.eq_false_iff.2 no⟩
  have length : r.emptied.gate.source.length = keys.length := by
    rw [holds.source, length_slotsOf]
  rw [holds.pendingSource, holds.pendingTarget, length]
  refine ⟨h.current fun side slot bound ahead => ?_, .late missing time⟩
  -- A fetch that is ahead would have been due before time was up.
  have due : moment ≤ opened := h.le_of_errand side bound
    (e := (opened, .enter ⟨client, serial, side, slot, keys[slot]⟩))
    (by rw [ahead]; exact List.mem_cons_self)
  have := h.positive
  omega

/-- When one of the first tasks settles the round, no fetch is ahead, and the verdict is what the
fetches have come to. -/
theorem settled (h : Inspected rules client serial opened keys r p calls now b moment task expired)
    {verdict : Except Batch.Error Results} (decided : verdict? r.emptied expired = some verdict) :
    moment ≤ opened + r.timeout.ticks ∧
      (∀ side slot, slot < keys.length → (p side slot).Current opened moment) ∧
      Settlement keys r.timeout opened p moment verdict := by
  refine ⟨h.inTime, ?_⟩
  cases verdict with
  | ok results =>
      obtain ⟨open', rfl⟩ := verdict?_eq_ok_iff.1 decided
      exact h.settled_ok open'
  | error error =>
      obtain ⟨closed, ⟨none, rfl⟩ | ⟨some, late, rfl⟩⟩ := verdict?_eq_error_iff.1 decided
      · exact h.settled_closed closed none
      · exact h.settled_late some late

end Inspected

end World

end ReplicaDiff
