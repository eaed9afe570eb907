/-
# ReplicaDiff.Proofs.Store.Passage — how far a call gets

Layers are numbered by how many lie further inside.  A call that comes upon layers
from outside goes on at once up to the first layer that does something else with
it (`Store.stop?`), or to the base.  It passes a number if it gets to where only
so many layers are left (`Store.passes`), and a layer has had one call more if the
call passes the number after its own (`getElem?_descend`).

A transparent layer does nothing to a call.  A call halts where it would halt
without the layer, but for the numbers of the layers outside of it
(`call_remove`, `resume_remove`).
-/
import ReplicaDiff.Store.Layers

namespace ReplicaDiff.Store

set_option autoImplicit false

/-- A layer that lets every call go on at once. -/
def Layer.Transparent (l : Layer) : Prop := ∀ key earlier total, l.plan key earlier total = .through

/-- A layer that lets a call go on, at once or later, or never answers it. -/
def Layer.Waits (l : Layer) : Prop :=
  ∀ key earlier total, l.plan key earlier total = ⟨0, .stall⟩ ∨
    ∃ delay, l.plan key earlier total = ⟨delay, .pass⟩

theorem Layer.Transparent.call {l : Layer} (h : l.Transparent) (key : String) :
    (l.call key).1.Transparent ∧ (l.call key).2 = .through := ⟨h, h _ _ _⟩

/-! ## The layer that stops a call -/

/-- The first layer that does not let a call go on at once, from outside, and what it does. -/
def stop? (key : String) : List Layer → Option (Nat × Plan)
  | [] => none
  | layer :: inner =>
      if (layer.call key).2 = .through then stop? key inner
      else some (inner.length, (layer.call key).2)

/-- Whether a call that comes upon layers gets to where `left` layers are left. -/
def passes (key : String) (layers : List Layer) (left : Nat) : Bool :=
  left ≤ layers.length && (stop? key layers).all fun stop => stop.1 < left

theorem stop?_lt {key : String} {layers : List Layer} {stop : Nat × Plan}
    (stops : stop? key layers = some stop) : stop.1 < layers.length := by
  induction layers with
  | nil => cases stops
  | cons layer inner ih =>
      rw [stop?] at stops
      split at stops
      · exact Nat.lt_succ_of_lt (ih stops)
      · cases stops
        exact Nat.lt_succ_self _

/-- A call gets to all layers that lie ahead of it. -/
theorem passes_length (key : String) (layers : List Layer) :
    passes key layers layers.length = true := by
  cases stops : stop? key layers with
  | none => simp [passes, stops]
  | some stop => simpa [passes, stops] using stop?_lt stops

theorem getElem?_reverse_cons (layer : Layer) (inner : List Layer) (depth : Nat) :
    (layer :: inner).reverse[depth]? =
      if depth = inner.length then some layer else inner.reverse[depth]? := by
  rw [List.reverse_cons, List.getElem?_append, List.length_reverse]
  by_cases here : depth = inner.length
  · simp [here]
  · by_cases inside : depth < inner.length
    · simp [here, inside]
    · have outside : inner.reverse.length ≤ depth := by simpa using Nat.le_of_not_lt inside
      rw [if_neg inside, if_neg here, List.getElem?_eq_none outside, List.getElem?_singleton,
        if_neg (by omega)]

/-- What stops a call is the layer of that number, which does with it what it does with calls. -/
theorem exists_stop {key : String} {layers : List Layer} {stop : Nat × Plan}
    (stops : stop? key layers = some stop) :
    stop.2 ≠ .through ∧ ∃ l, layers.reverse[stop.1]? = some l ∧ stop.2 = (l.call key).2 := by
  induction layers with
  | nil => cases stops
  | cons layer inner ih =>
      rw [stop?] at stops
      split at stops
      · obtain ⟨stopped, l, at_stop, plan⟩ := ih stops
        refine ⟨stopped, l, ?_, plan⟩
        rwa [getElem?_reverse_cons, if_neg (Nat.ne_of_lt (stop?_lt stops))]
      · rename_i stopped
        cases stops
        exact ⟨stopped, layer, by rw [getElem?_reverse_cons, if_pos rfl], rfl⟩

/-- A transparent layer stops no call. -/
theorem passes_succ (key : String) {layers : List Layer} {depth : Nat} {l : Layer}
    (at_depth : layers.reverse[depth]? = some l) (transparent : l.Transparent) :
    passes key layers (depth + 1) = passes key layers depth := by
  have inside : depth < layers.length := by
    have bound := (List.getElem?_eq_some_iff.1 at_depth).1
    rwa [List.length_reverse] at bound
  rw [passes, passes, decide_eq_true (Nat.succ_le_of_lt inside),
    decide_eq_true (Nat.le_of_lt inside), Bool.true_and, Bool.true_and]
  cases stops : stop? key layers with
  | none => rfl
  | some stop =>
      obtain ⟨stopped, l', at_stop, plan⟩ := exists_stop stops
      have elsewhere : stop.1 ≠ depth := by
        rintro rfl
        cases at_stop.symm.trans at_depth
        exact stopped (plan.trans (transparent.call key).2)
      rw [Option.all_some, Option.all_some, decide_eq_decide]
      omega

/-- Where a call halts that a layer stops. -/
def Plan.halt (plan : Plan) (below : Nat) : Halt :=
  if plan.delay ≠ 0 then .asleep plan.delay below plan.ending
  else
    match plan.ending with
    | .pass => .ended none
    | .stall => .stalled
    | .vanish => .ended none
    | .answer outcome => .ended (some outcome)

theorem descend_through (base : String → Outcome) {key : String} {layer : Layer}
    (through : (layer.call key).2 = .through) (inner : List Layer) :
    descend base key (layer :: inner) =
      ((layer.call key).1 :: (descend base key inner).1, (descend base key inner).2) := by
  simp [descend, through, Plan.through]

theorem descend_stopped (base : String → Outcome) {key : String} {layer : Layer}
    (stopped : (layer.call key).2 ≠ .through) (inner : List Layer) :
    descend base key (layer :: inner) =
      ((layer.call key).1 :: inner, (layer.call key).2.halt inner.length) := by
  rw [descend]
  generalize layer.call key = called at stopped
  obtain ⟨layer', delay, ending⟩ := called
  simp only [Plan.halt]
  split
  · rfl
  · rename_i now
    cases ending with
    | pass =>
        have none : delay = 0 := by simpa using now
        exact absurd (by rw [none]; rfl) stopped
    | _ => rfl

theorem stop?_through {key : String} {layer : Layer} (through : (layer.call key).2 = .through)
    (inner : List Layer) : stop? key (layer :: inner) = stop? key inner := by
  rw [stop?, if_pos through]

theorem stop?_stopped {key : String} {layer : Layer} (stopped : (layer.call key).2 ≠ .through)
    (inner : List Layer) :
    stop? key (layer :: inner) = some (inner.length, (layer.call key).2) := by
  rw [stop?, if_neg stopped]

theorem passes_through {key : String} {layer : Layer} {inner : List Layer} {left : Nat}
    (through : (layer.call key).2 = .through) (inside : left ≤ inner.length) :
    passes key (layer :: inner) left = passes key inner left := by
  rw [passes, passes, stop?_through through, List.length_cons, decide_eq_true inside,
    decide_eq_true (Nat.le_succ_of_le inside)]

theorem passes_stopped {key : String} {layer : Layer} {inner : List Layer} {left : Nat}
    (stopped : (layer.call key).2 ≠ .through) (inside : left ≤ inner.length) :
    passes key (layer :: inner) left = false := by
  rw [passes, stop?_stopped stopped, Option.all_some, decide_eq_false (Nat.not_lt.2 inside),
    Bool.and_false]

/-- A call halts at the layer that stops it, or is answered by the base. -/
theorem halt_descend (base : String → Outcome) (key : String) (layers : List Layer) :
    (descend base key layers).2 =
      match stop? key layers with
      | none => .ended (some (base key))
      | some (below, plan) => plan.halt below := by
  induction layers with
  | nil => rfl
  | cons layer inner ih =>
      by_cases through : (layer.call key).2 = .through
      · rw [descend_through base through, stop?_through through]
        exact ih
      · rw [descend_stopped base through, stop?_stopped through]

/-- A call keeps the number of layers, and one that has to wait at a layer has fewer layers
left. -/
theorem descend_layers (base : String → Outcome) (key : String) (layers : List Layer) :
    (descend base key layers).1.length = layers.length ∧
      ∀ delay below ending, (descend base key layers).2 = .asleep delay below ending →
        below < layers.length := by
  induction layers with
  | nil => simp [descend]
  | cons layer inner ih =>
      unfold descend
      dsimp only
      split
      · refine ⟨by simp, ?_⟩
        rintro delay below ending eq
        cases eq
        simp
      · split
        · refine ⟨by simp [ih.1], fun delay below ending eq => ?_⟩
          exact Nat.lt_succ_of_lt (ih.2 delay below ending eq)
        · exact ⟨by simp, by simp⟩
        · exact ⟨by simp, by simp⟩
        · exact ⟨by simp, by simp⟩

/-- A call is counted by the layers that it gets to, and changes nothing else. -/
theorem getElem?_descend (base : String → Outcome) (key : String) (layers : List Layer)
    (depth : Nat) :
    (descend base key layers).1.reverse[depth]? =
      (layers.reverse[depth]?).map fun l =>
        if passes key layers (depth + 1) then (l.call key).1 else l := by
  induction layers with
  | nil => simp [descend]
  | cons layer inner ih =>
      have length := (descend_layers base key inner).1
      by_cases here : depth = inner.length
      · subst here
        have all := passes_length key (layer :: inner)
        rw [List.length_cons] at all
        rw [getElem?_reverse_cons layer inner, if_pos rfl, Option.map_some, if_pos all]
        by_cases through : (layer.call key).2 = .through
        · rw [descend_through base through, getElem?_reverse_cons, if_pos length.symm]
        · rw [descend_stopped base through, getElem?_reverse_cons, if_pos rfl]
      · rw [getElem?_reverse_cons layer inner, if_neg here]
        by_cases through : (layer.call key).2 = .through
        · rw [descend_through base through, getElem?_reverse_cons, length, if_neg here, ih]
          by_cases inside : depth < inner.length
          · rw [passes_through through inside]
          · have outside : inner.reverse.length ≤ depth := by simpa using Nat.le_of_not_lt inside
            rw [List.getElem?_eq_none outside]
            rfl
        · rw [descend_stopped base through, getElem?_reverse_cons, if_neg here]
          by_cases inside : depth < inner.length
          · simp [passes_stopped through inside]
          · have outside : inner.reverse.length ≤ depth := by simpa using Nat.le_of_not_lt inside
            rw [List.getElem?_eq_none outside]
            rfl

theorem forall_descend (base : String → Outcome) {key : String} {P : Layer → Prop}
    (kept : ∀ l, P l → P (l.call key).1) {layers : List Layer} (all : ∀ l ∈ layers, P l) :
    ∀ l ∈ (descend base key layers).1, P l := by
  induction layers with
  | nil => exact all
  | cons layer inner ih =>
      obtain ⟨own, rest⟩ := List.forall_mem_cons.1 all
      by_cases through : (layer.call key).2 = .through
      · rw [descend_through base through]
        exact List.forall_mem_cons.2 ⟨kept layer own, ih rest⟩
      · rw [descend_stopped base through]
        exact List.forall_mem_cons.2 ⟨kept layer own, rest⟩

theorem eq_of_halt_asleep {plan : Plan} {below delay below' : Nat} {ending : Ending}
    (asleep : plan.halt below = .asleep delay below' ending) :
    below' = below ∧ plan = ⟨delay, ending⟩ ∧ delay ≠ 0 := by
  obtain ⟨delay', ending'⟩ := plan
  unfold Plan.halt at asleep
  split at asleep
  · rename_i waits
    cases asleep
    exact ⟨rfl, rfl, waits⟩
  · cases ending' <;> cases asleep

/-- Layers that let calls go on let them go on when they have waited. -/
theorem ending_of_asleep {base : String → Outcome} {key : String} {layers : List Layer}
    (waits : ∀ l ∈ layers, l.Waits) {delay below : Nat} {ending : Ending}
    (asleep : (descend base key layers).2 = .asleep delay below ending) : ending = .pass := by
  rw [halt_descend] at asleep
  cases stops : stop? key layers with
  | none => rw [stops] at asleep; cases asleep
  | some stop =>
      rw [stops] at asleep
      obtain ⟨-, l, at_stop, decided⟩ := exists_stop stops
      obtain ⟨-, plan, positive⟩ := eq_of_halt_asleep asleep
      have mem := List.mem_reverse.1 (List.mem_of_getElem? at_stop)
      rcases waits l mem key (l.seen.of key) l.seen.total with stall | ⟨delay', pass⟩
      · cases plan.symm.trans (decided.trans stall)
        exact absurd rfl positive
      · cases plan.symm.trans (decided.trans pass)
        rfl

/-! ## A layer that does nothing -/

/-- The store with one more layer, with `depth` layers inside it. -/
def insert (s : Store) (depth : Nat) (layer : Layer) : Store :=
  { s with layers := (s.layers.reverse.insertIdx depth layer).reverse }

/-- The store without the layer with `depth` layers inside it. -/
def remove (s : Store) (depth : Nat) : Store :=
  { s with layers := (s.layers.reverse.eraseIdx depth).reverse }

/-- The number of a layer when a layer of another number has been removed. -/
def renumber (removed below : Nat) : Nat := if removed < below then below - 1 else below

/-- Where a call halts if a layer at which it does not halt is removed. -/
def Halt.without (removed : Nat) : Halt → Halt
  | .asleep delay below ending => .asleep delay (renumber removed below) ending
  | .ended answer => .ended answer
  | .stalled => .stalled

/-- The layer with `depth` layers inside it is transparent. -/
def TransparentAt (s : Store) (depth : Nat) : Prop :=
  ∃ l, s.layers.reverse[depth]? = some l ∧ l.Transparent

theorem remove_insert (s : Store) (depth : Nat) (layer : Layer) :
    (s.insert depth layer).remove depth = s := by
  simp [insert, remove, List.eraseIdx_insertIdx_self]

theorem TransparentAt.insert {s : Store} {depth : Nat} {layer : Layer}
    (le : depth ≤ s.layers.length) (transparent : layer.Transparent) :
    (s.insert depth layer).TransparentAt depth := by
  refine ⟨layer, ?_, transparent⟩
  simp [Store.insert, List.getElem?_insertIdx_self, le]

theorem getElem?_reverse_eq_some {layers : List Layer} {depth : Nat} {l : Layer}
    (at_depth : layers.reverse[depth]? = some l) :
    ∃ outer inner, layers = outer ++ l :: inner ∧ inner.length = depth := by
  induction layers with
  | nil => cases at_depth
  | cons layer rest ih =>
      rw [getElem?_reverse_cons] at at_depth
      split at at_depth
      · rename_i here
        cases at_depth
        exact ⟨[], rest, rfl, here.symm⟩
      · obtain ⟨outer, inner, rfl, length⟩ := ih at_depth
        exact ⟨layer :: outer, inner, rfl, length⟩

theorem eraseIdx_split (outer inner : List Layer) (l : Layer) :
    ((outer ++ l :: inner).reverse.eraseIdx inner.length).reverse = outer ++ inner := by
  simp [List.eraseIdx_append_of_length_le]

theorem without_halt (plan : Plan) (removed below : Nat) :
    (plan.halt below).without removed = plan.halt (renumber removed below) := by
  obtain ⟨delay, ending⟩ := plan
  unfold Plan.halt
  split
  · rfl
  · cases ending <;> rfl

/-- A halt at a layer inside stays where it is. -/
theorem without_of_below {halt : Halt} {removed : Nat}
    (inside : ∀ delay below ending, halt = .asleep delay below ending → below < removed) :
    halt.without removed = halt := by
  cases halt with
  | asleep delay below ending =>
      rw [Halt.without, renumber, if_neg (Nat.lt_asymm (inside delay below ending rfl))]
  | ended answer => rfl
  | stalled => rfl

/-- Without a transparent layer a call does to the other layers what it does with it, and halts
where it halts with it. -/
theorem descend_split (base : String → Outcome) (key : String) {l : Layer}
    (transparent : l.Transparent) (outer inner : List Layer) :
    ∃ outer' l' inner', inner'.length = inner.length ∧ l'.Transparent ∧
      (descend base key (outer ++ l :: inner)).1 = outer' ++ l' :: inner' ∧
      descend base key (outer ++ inner) =
        (outer' ++ inner', (descend base key (outer ++ l :: inner)).2.without inner.length) ∧
      ∀ delay ending,
        (descend base key (outer ++ l :: inner)).2 ≠ .asleep delay inner.length ending := by
  induction outer with
  | nil =>
      obtain ⟨transparent', through⟩ := transparent.call key
      obtain ⟨length, inside⟩ := descend_layers base key inner
      rw [List.nil_append, List.nil_append, descend_through base through]
      refine ⟨[], _, _, length, transparent', rfl, ?_, fun delay ending asleep => ?_⟩
      · rw [without_of_below inside]
        rfl
      · exact Nat.lt_irrefl _ (inside delay _ ending asleep)
  | cons layer outer ih =>
      rw [List.cons_append, List.cons_append]
      by_cases through : (layer.call key).2 = .through
      · obtain ⟨outer', l', inner', length, transparent', layers, same, awake⟩ := ih
        rw [descend_through base through, descend_through base through, same, layers]
        exact ⟨(layer.call key).1 :: outer', l', inner', length, transparent', rfl, rfl, awake⟩
      · rw [descend_stopped base through, descend_stopped base through, without_halt]
        refine ⟨(layer.call key).1 :: outer, l, inner, rfl, transparent, rfl, ?_,
          fun delay ending asleep => ?_⟩
        · have number : renumber inner.length (outer ++ l :: inner).length =
              (outer ++ inner).length := by
            rw [renumber, if_pos (by simp only [List.length_append, List.length_cons]; omega)]
            simp only [List.length_append, List.length_cons]
            omega
          rw [number]
          rfl
        · have := (eq_of_halt_asleep asleep).1
          simp only [List.length_append, List.length_cons] at this
          omega

/-- Where a call gets in a store, and where it gets without a layer that it does not wait at. -/
structure SameWithout (depth : Nat) (here there : Store × Halt) : Prop where
  layer : here.1.TransparentAt depth
  same : there = (here.1.remove depth, here.2.without depth)
  awake : ∀ delay ending, here.2 ≠ .asleep delay depth ending

section

variable {l : Layer} (transparent : l.Transparent)
include transparent

/-- A store with the transparent layer between others. -/
theorem transparentAt_split (base : String → Outcome) (outer inner : List Layer) :
    (⟨outer ++ l :: inner, base⟩ : Store).TransparentAt inner.length ∧
      (⟨outer ++ l :: inner, base⟩ : Store).remove inner.length = ⟨outer ++ inner, base⟩ := by
  refine ⟨⟨l, by simp, transparent⟩, ?_⟩
  rw [remove, eraseIdx_split]

theorem SameWithout.of_split (base : String → Outcome) (outer : List Layer) {inner : List Layer}
    {depth : Nat} {halt : Halt} (length : inner.length = depth)
    (awake : ∀ delay ending, halt ≠ .asleep delay depth ending) :
    SameWithout depth (⟨outer ++ l :: inner, base⟩, halt)
      (⟨outer ++ inner, base⟩, halt.without depth) := by
  subst length
  obtain ⟨layer, removed⟩ := transparentAt_split transparent base outer inner
  exact ⟨layer, by rw [removed], awake⟩

end

variable {s : Store} {depth : Nat}

/-- A new call halts where it halts without a transparent layer. -/
theorem TransparentAt.call (h : s.TransparentAt depth) (key : String) :
    SameWithout depth (s.call key) ((s.remove depth).call key) := by
  obtain ⟨l, at_depth, transparent⟩ := h
  obtain ⟨layers, base⟩ := s
  obtain ⟨outer, inner, rfl, rfl⟩ := getElem?_reverse_eq_some at_depth
  obtain ⟨outer', l', inner', length, transparent', after, same, awake⟩ :=
    descend_split base key transparent outer inner
  rw [(transparentAt_split transparent base outer inner).2]
  simp only [Store.call, same, after]
  exact .of_split transparent' base outer' length awake

theorem resume_pass (base : String → Outcome) (key : String) (outer inner : List Layer)
    {below : Nat} (past : (outer ++ inner).length - below = outer.length) :
    (⟨outer ++ inner, base⟩ : Store).resume key below .pass =
      (⟨outer ++ (descend base key inner).1, base⟩, (descend base key inner).2) := by
  simp only [Store.resume, past, List.take_left, List.drop_left]

variable {l : Layer} (transparent : l.Transparent)
include transparent

/-- A call that goes on inside a transparent layer does not notice it. -/
theorem resume_inside (base : String → Outcome) (key : String) (outer near ahead : List Layer) :
    SameWithout (near ++ ahead).length
      ((⟨outer ++ l :: (near ++ ahead), base⟩ : Store).resume key ahead.length .pass)
      ((⟨outer ++ (near ++ ahead), base⟩ : Store).resume key ahead.length .pass) := by
  obtain ⟨kept, halts⟩ := descend_layers base key ahead
  have inside : ∀ delay below ending, (descend base key ahead).2 = .asleep delay below ending →
      below < (near ++ ahead).length := by
    intro delay below ending asleep
    have := halts delay below ending asleep
    rw [List.length_append]
    omega
  have past (outside : List Layer) :
      (outside ++ ahead).length - ahead.length = outside.length := by
    rw [List.length_append, Nat.add_sub_cancel]
  have withLayer := resume_pass base key (outer ++ l :: near) ahead (past _)
  have withoutLayer := resume_pass base key (outer ++ near) ahead (past _)
  rw [List.append_assoc, List.append_assoc, List.cons_append, List.cons_append] at withLayer
  rw [List.append_assoc, List.append_assoc] at withoutLayer
  have split := SameWithout.of_split transparent base outer
    (show (near ++ (descend base key ahead).1).length = (near ++ ahead).length by simp [kept])
    fun delay ending asleep => Nat.lt_irrefl _ (inside delay _ ending asleep)
  rw [without_of_below inside] at split
  rwa [withLayer, withoutLayer]

/-- A call that goes on outside a transparent layer gets past it. -/
theorem resume_outside (base : String → Outcome) (key : String) (outer ahead inner : List Layer)
    {below : Nat} (past : (outer ++ (ahead ++ l :: inner)).length - below = outer.length)
    (further : inner.length < below) :
    SameWithout inner.length
      ((⟨outer ++ (ahead ++ l :: inner), base⟩ : Store).resume key below .pass)
      ((⟨outer ++ (ahead ++ inner), base⟩ : Store).resume key (below - 1) .pass) := by
  have past' : (outer ++ (ahead ++ inner)).length - (below - 1) = outer.length := by
    simp only [List.length_append, List.length_cons] at past ⊢
    omega
  obtain ⟨ahead', l', inner', length, transparent', after, same, awake⟩ :=
    descend_split base key transparent ahead inner
  rw [resume_pass base key outer _ past, resume_pass base key outer _ past', after, same,
    ← List.append_assoc, ← List.append_assoc]
  exact .of_split transparent' base (outer ++ ahead') length awake

omit transparent

theorem exists_append {layers : List Layer} {n : Nat} (le : n ≤ layers.length) :
    ∃ outer inner, outer ++ inner = layers ∧ outer.length = n :=
  ⟨layers.take n, layers.drop n, List.take_append_drop n layers, List.length_take_of_le le⟩

/-- A call that goes on halts where it halts without a transparent layer, if it did not wait
there. -/
theorem TransparentAt.resume (h : s.TransparentAt depth) (key : String) {below : Nat}
    (elsewhere : below ≠ depth) (ending : Ending) :
    SameWithout depth (s.resume key below ending)
      ((s.remove depth).resume key (renumber depth below) ending) := by
  cases ending with
  | stall => exact ⟨h, rfl, nofun⟩
  | vanish => exact ⟨h, rfl, nofun⟩
  | answer outcome => exact ⟨h, rfl, nofun⟩
  | pass =>
      obtain ⟨l, at_depth, transparent⟩ := h
      obtain ⟨layers, base⟩ := s
      obtain ⟨outer, inner, rfl, rfl⟩ := getElem?_reverse_eq_some at_depth
      rw [(transparentAt_split transparent base outer inner).2]
      by_cases inside : below < inner.length
      · obtain ⟨near, ahead, rfl, length⟩ := exists_append (Nat.sub_le inner.length below)
        obtain rfl : ahead.length = below := by
          rw [List.length_append] at length inside
          omega
        rw [renumber, if_neg (Nat.lt_asymm inside)]
        exact resume_inside transparent base key outer near ahead
      · have further : inner.length < below :=
          Nat.lt_of_le_of_ne (Nat.le_of_not_lt inside) elsewhere.symm
        obtain ⟨outer, ahead, rfl, length⟩ := exists_append
          (show outer.length + 1 + inner.length - below ≤ outer.length by omega)
        rw [renumber, if_pos further, List.append_assoc, List.append_assoc]
        refine resume_outside transparent base key outer ahead inner ?_ further
        simp only [List.length_append, List.length_cons] at length ⊢
        omega

end ReplicaDiff.Store
