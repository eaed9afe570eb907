/-
# ReplicaDiff.Proofs.CommandLine.Options — options in any order

An option stands on a command line with the text of its value, in one token or in
two (`Given`).  The texts that an option takes are those that mean a value
(`parseValue_eq_ok_iff`); a span of time is meant by its number of milliseconds.

A command line of a command and such options, each at most once, is read, and gives
each option the value that its text means, wherever it stands (`read_given`).
Between two options the reader may still hold a value that it has not looked at,
so that what it has been given is seen once it has settled (`Reading.Holds`).
-/
import Mathlib.Algebra.GroupWithZero.Nat
import Mathlib.Data.List.TakeWhile
import ReplicaDiff.CommandLine.Arguments

namespace ReplicaDiff

set_option autoImplicit false

theorem Duration.toNanos_ofMillis (ms : UInt64) :
    (Duration.ofMillis ms).toNanos = ms.toNat * 1000000 := by
  simp only [toNanos, ofMillis, nanosPerSecond]
  omega

namespace CommandLine

/-! ## Values -/

/-- What the text of a value means. -/
def Means (text : String) : (k : Setting.Kind) → k.Value → Prop
  | .text, s => s = text
  | .path, s => s = text ∧ text ≠ ""
  | .count, n => Decimal.unsigned? text.toList = some n.toNat
  | .repeats, n => Decimal.signed? text.toList = some (n.toNat : Int)
  | .millis, d => ∃ n < 2 ^ 64, Decimal.unsigned? text.toList = some n ∧ d.toNanos = n * 1000000

theorem parseUnsigned_eq_ok_iff {bound n : Nat} {text : String} :
    parseUnsigned bound text = .ok n ↔ Decimal.unsigned? text.toList = some n ∧ n ≤ bound := by
  unfold parseUnsigned
  split
  · rename_i m number
    rw [number, Option.some.injEq]
    split
    · rename_i le
      rw [Except.ok.injEq]
      exact ⟨fun same => ⟨same, same ▸ le⟩, And.left⟩
    · rename_i large
      exact ⟨nofun, fun ⟨same, le⟩ => absurd (same ▸ le) large⟩
  · rename_i none
    rw [none]
    exact ⟨nofun, fun ⟨same, _⟩ => nomatch same⟩

theorem parseSigned_eq_ok_iff {bound n : Nat} {text : String} :
    parseSigned bound text = .ok n ↔
      Decimal.signed? text.toList = some (n : Int) ∧ n ≤ bound := by
  unfold parseSigned
  split
  · rename_i m number
    rw [number, Option.some.injEq]
    split
    · rename_i fits
      rw [Except.ok.injEq]
      omega
    · rename_i outside
      refine ⟨nofun, fun ⟨same, le⟩ => ?_⟩
      omega
  · rename_i none
    rw [none]
    exact ⟨nofun, fun ⟨same, _⟩ => nomatch same⟩

theorem map_eq_ok_iff {ε α β : Type} {x : Except ε α} {f : α → β} {b : β} :
    x.map f = .ok b ↔ ∃ a, x = .ok a ∧ f a = b := by
  cases x with
  | error => exact ⟨nofun, fun ⟨_, eq, _⟩ => nomatch eq⟩
  | ok a => simp [Except.map]

/-- An option takes the texts that mean a value, and takes them for that value. -/
theorem parseValue_eq_ok_iff {text : String} {k : Setting.Kind} {v : k.Value} :
    parseValue text k = .ok v ↔ Means text k v := by
  cases k with
  | text =>
      simp only [parseValue, Means, Except.ok.injEq]
      exact eq_comm
  | path =>
      simp only [parseValue, Means, String.isEmpty_iff]
      split
      · rename_i empty
        exact ⟨nofun, fun ⟨_, nonempty⟩ => absurd empty nonempty⟩
      · rename_i nonempty
        rw [Except.ok.injEq]
        exact ⟨fun same => ⟨same.symm, nonempty⟩, fun ⟨same, _⟩ => same.symm⟩
  | count =>
      simp only [parseValue, Means, map_eq_ok_iff, parseUnsigned_eq_ok_iff]
      constructor
      · rintro ⟨n, ⟨number, le⟩, rfl⟩
        rw [number, UInt64.toNat_ofNat_of_lt' (Nat.lt_of_le_of_lt le (by decide))]
      · intro number
        exact ⟨v.toNat, ⟨number, Nat.le_of_lt_succ v.toNat_lt⟩, UInt64.ofNat_toNat⟩
  | repeats =>
      simp only [parseValue, Means, map_eq_ok_iff, parseSigned_eq_ok_iff]
      constructor
      · rintro ⟨n, ⟨number, le⟩, rfl⟩
        rw [number, UInt32.toNat_ofNat_of_lt' (Nat.lt_of_le_of_lt le (by decide))]
      · intro number
        exact ⟨v.toNat, ⟨number, Nat.le_of_lt_succ v.toNat_lt⟩, UInt32.ofNat_toNat⟩
  | millis =>
      have whole {n : Nat} (lt : n < 2 ^ 64) :
          (Duration.ofMillis (UInt64.ofNat n)).toNanos = n * 1000000 := by
        rw [Duration.toNanos_ofMillis, UInt64.toNat_ofNat_of_lt' lt]
      simp only [parseValue, Means, map_eq_ok_iff, parseUnsigned_eq_ok_iff]
      constructor
      · rintro ⟨n, ⟨number, le⟩, rfl⟩
        have lt : n < 2 ^ 64 := Nat.lt_of_le_of_lt le (by decide)
        exact ⟨n, lt, number, whole lt⟩
      · rintro ⟨n, lt, number, nanos⟩
        exact ⟨n, ⟨number, Nat.le_of_lt_succ lt⟩, Duration.toNanos_inj ((whole lt).trans nanos.symm)⟩

/-! ## Options and their tokens -/

/-- An option with the text of its value, which stands in its token or in one of its own. -/
structure Given where
  choice : Choice
  text : String
  joined : Bool := true
deriving DecidableEq

/-- A text that looks like neither a flag nor an option. -/
def LooksPlain (text : String) : Prop := ∀ rest, text.toList = '-' :: rest → rest = []

namespace Given

/-- The tokens of an option. -/
def tokens (g : Given) : List String :=
  if g.joined then ["--" ++ g.choice.long ++ "=" ++ g.text] else ["--" ++ g.choice.long, g.text]

/-- The text means a value, and is not taken for something else. -/
structure Accepted (g : Given) : Prop where
  means : ∃ v, Means g.text g.choice.kind v
  plain : g.joined = false → LooksPlain g.text

end Given

theorem long_ne_nil (c : Choice) : c.long.toList ≠ [] := by
  rcases c with _ | (⟨_ | _, _ | _ | _ | _⟩ | _ | _ | _ | _ | _ | _ | _ | _ | _ | _) <;> decide

/-- The name of an option does not hold what separates it from its value. -/
theorem equals_notMem_long (c : Choice) : '=' ∉ c.long.toList := by
  rcases c with _ | (⟨_ | _, _ | _ | _ | _⟩ | _ | _ | _ | _ | _ | _ | _ | _ | _ | _) <;> decide

/-- After the command the name of an option stands for it. -/
theorem ofLong_long (c : Choice) : Mark.ofLong? c.long true = some (.choice c) := by
  rcases c with _ | (⟨_ | _, _ | _ | _ | _⟩ | _ | _ | _ | _ | _ | _ | _ | _ | _ | _) <;> rfl

theorem splitLong_name (c : Choice) : Reading.splitLong c.long.toList = (c.long, none) := by
  have all : ∀ d ∈ c.long.toList, (d != '=') = true := by
    intro d mem
    exact bne_iff_ne.2 fun same => equals_notMem_long c (same ▸ mem)
  unfold Reading.splitLong
  rw [List.takeWhile_eq_self_iff.2 all, List.dropWhile_eq_nil_iff.2 all, String.ofList_toList]

theorem splitLong_value (c : Choice) (text : String) :
    Reading.splitLong (c.long.toList ++ '=' :: text.toList) = (c.long, some text) := by
  have all : ∀ d ∈ c.long.toList, (d != '=') = true := by
    intro d mem
    exact bne_iff_ne.2 fun same => equals_notMem_long c (same ▸ mem)
  unfold Reading.splitLong
  rw [List.takeWhile_append_of_pos all, List.dropWhile_append_of_pos all]
  simp

/-! ## Reading them -/

namespace Reading

variable {r : Reading} {command : Command} {choices : Choices}

/-- After the command some values have been given, and nothing is pending. -/
structure Settled (r : Reading) (command : Command) (choices : Choices) : Prop where
  told : r.command = some command
  named : r.plainOnly = false
  settled : r.pending = none
  given : r.choices = choices

/-- After the command some values have been given, but the last one may not have been looked at. -/
structure Holds (r : Reading) (command : Command) (choices : Choices) : Prop where
  told : r.command = some command
  named : r.plainOnly = false
  settles : ∃ r', r.settle = .ok r' ∧ r'.Settled command choices

theorem Settled.holds (h : r.Settled command choices) : r.Holds command choices where
  told := h.told
  named := h.named
  settles := ⟨r, by rw [settle, h.settled], h⟩

theorem Settled.assign (h : r.Settled command choices) {c : Choice} {text : String}
    {v : c.kind.Value} (new : choices c = none) (means : Means text c.kind v) :
    ∃ r', r.assign c text = .ok r' ∧ r'.Settled command (choices.give c v) := by
  obtain ⟨told, named, settled, rfl⟩ := h
  refine ⟨{ r with choices := r.choices.give c v }, ?_, ⟨told, named, settled, rfl⟩⟩
  rw [Reading.assign, new, parseValue_eq_ok_iff.2 means]
  rfl

/-- A token with the name of an option and the text of its value gives it the value. -/
theorem Holds.take_joined (h : r.Holds command choices) {c : Choice} {text : String}
    {v : c.kind.Value} (new : choices c = none) (means : Means text c.kind v) :
    ∃ r', r.take ("--" ++ c.long ++ "=" ++ text) = .ok r' ∧
      r'.Holds command (choices.give c v) := by
  obtain ⟨settled, settles, idle⟩ := h.settles
  obtain ⟨r', assigns, idle'⟩ := idle.assign new means
  refine ⟨r', ?_, idle'.holds⟩
  have chars : ("--" ++ c.long ++ "=" ++ text).toList =
      '-' :: '-' :: (c.long.toList ++ '=' :: text.toList) := by
    simp
  obtain ⟨d, ds, name⟩ := List.exists_cons_of_ne_nil (long_ne_nil c)
  have split := splitLong_value c text
  rw [name, List.cons_append] at chars split
  simp only [take, h.named, chars, split, takeLong, h.told, Option.isSome_some, ofLong_long,
    Reading.give, settles, bind, Except.bind, assigns, Bool.false_eq_true, ↓reduceIte]

/-- A token with the name of an option and one with the text of its value give it the value. -/
theorem Holds.take_apart (h : r.Holds command choices) {c : Choice} {text : String}
    {v : c.kind.Value} (new : choices c = none) (means : Means text c.kind v)
    (plain : LooksPlain text) :
    ∃ r₁ r₂, r.take ("--" ++ c.long) = .ok r₁ ∧ r₁.command = some command ∧
      r₁.take text = .ok r₂ ∧ r₂.Holds command (choices.give c v) := by
  obtain ⟨settled, settles, idle⟩ := h.settles
  obtain ⟨r', assigns, idle'⟩ := idle.assign new means
  have chars : ("--" ++ c.long).toList = '-' :: '-' :: c.long.toList := by
    simp
  obtain ⟨d, ds, name⟩ := List.exists_cons_of_ne_nil (long_ne_nil c)
  have split := splitLong_name c
  rw [name] at chars split
  refine ⟨{ settled with pending := some ⟨c, none⟩ },
    { settled with pending := some ⟨c, some text⟩ }, ?_, idle.told, ?_, ?_⟩
  · simp only [take, h.named, chars, split, takeLong, h.told, Option.isSome_some, ofLong_long,
      await, settles, bind, Except.bind, Bool.false_eq_true, ↓reduceIte]
  · simp only [take, idle.named, Bool.false_eq_true, ↓reduceIte]
    split
    · rename_i dashes
      cases plain _ dashes
    · rename_i dashes
      cases plain _ dashes
    · rename_i dash
      cases plain _ dash
    · rfl
  · have same : { settled with pending := none } = settled := by rw [← idle.settled]
    exact ⟨idle.told, idle.named, r', (congrArg (·.assign c text) same).trans assigns, idle'⟩

theorem takeAll_cons {r' : Reading} {token : String} (tokens : List String)
    (told : r.command = some command) (takes : r.take token = .ok r') :
    r.takeAll (token :: tokens) = r'.takeAll tokens := by
  have work : r.asksForHelp token = false := by
    simp [asksForHelp, told]
  rw [takeAll, if_neg (by simp [work]), takes]
  rfl

/-- The tokens of an option give it the value that its text means. -/
theorem Holds.takeAll_tokens (h : r.Holds command choices) {g : Given} (accepted : g.Accepted)
    (new : choices g.choice = none) {v : g.choice.kind.Value} (means : Means g.text g.choice.kind v)
    (tokens : List String) :
    ∃ r' : Reading, r.takeAll (g.tokens ++ tokens) = r'.takeAll tokens ∧
      r'.Holds command (choices.give g.choice v) := by
  unfold Given.tokens
  split
  · obtain ⟨r', takes, holds⟩ := h.take_joined new means
    exact ⟨r', takeAll_cons tokens h.told takes, holds⟩
  · rename_i apart
    obtain ⟨r₁, r₂, takes, told, takes', holds⟩ :=
      h.take_apart new means (accepted.plain (by simpa using apart))
    exact ⟨r₂, (takeAll_cons _ h.told takes).trans (takeAll_cons tokens told takes'), holds⟩

/-- Options that have no value yet are given theirs, and no other option is. -/
theorem Holds.takeAll_given (h : r.Holds command choices) {given : List Given}
    (accepted : ∀ g ∈ given, g.Accepted) (distinct : (given.map Given.choice).Nodup)
    (new : ∀ g ∈ given, choices g.choice = none) :
    ∃ a, r.takeAll (given.flatMap Given.tokens) = .ok a ∧ a.command = command ∧
      (∀ g ∈ given, ∃ v, a.choices g.choice = some v ∧ Means g.text g.choice.kind v) ∧
      ∀ c ∉ given.map Given.choice, a.choices c = choices c := by
  induction given generalizing r choices with
  | nil =>
      obtain ⟨settled, settles, idle⟩ := h.settles
      refine ⟨⟨command, settled.before.union settled.after, settled.choices⟩, ?_, rfl, nofun,
        fun c _ => by rw [idle.given]⟩
      rw [List.flatMap_nil, takeAll, finish, h.told]
      simp only [settles, bind, Except.bind]
  | cons g given ih =>
      obtain ⟨v, means⟩ := (accepted g List.mem_cons_self).means
      rw [List.map_cons, List.nodup_cons] at distinct
      obtain ⟨r', takes, holds⟩ := h.takeAll_tokens (accepted g List.mem_cons_self)
        (new g List.mem_cons_self) means (given.flatMap Given.tokens)
      have later : ∀ g' ∈ given, (choices.give g.choice v) g'.choice = none := by
        intro g' mem
        have other : g.choice ≠ g'.choice := fun same =>
          distinct.1 (same ▸ List.mem_map_of_mem mem)
        rw [Choices.give_of_ne choices v other, new g' (List.mem_cons_of_mem _ mem)]
      obtain ⟨a, reads, asks, values, others⟩ :=
        ih holds (fun g' mem => accepted g' (List.mem_cons_of_mem _ mem)) distinct.2 later
      refine ⟨a, takes.trans reads, asks, List.forall_mem_cons.2 ⟨⟨v, ?_, means⟩, values⟩,
        fun c absent => ?_⟩
      · rw [others _ distinct.1, Choices.give_self]
      · rw [List.map_cons, List.mem_cons, not_or] at absent
        rw [others c absent.2, Choices.give_of_ne choices v (Ne.symm absent.1)]

end Reading

/-- A command and options, each at most once and with the text of a value, are read in whatever
order the options stand.  Each has the value that its text means, and all others have none. -/
theorem read_given (command : Command) {given : List Given} (accepted : ∀ g ∈ given, g.Accepted)
    (distinct : (given.map Given.choice).Nodup) :
    ∃ a, Arguments.read (command.name :: given.flatMap Given.tokens) = .ok a ∧
      a.command = command ∧
      (∀ g ∈ given, ∃ v, a.choices g.choice = some v ∧ Means g.text g.choice.kind v) ∧
      ∀ c ∉ given.map Given.choice, a.choices c = none := by
  obtain ⟨r, takes, holds⟩ : ∃ r : Reading, Reading.start.takeAll
      (command.name :: given.flatMap Given.tokens) = r.takeAll (given.flatMap Given.tokens) ∧
        r.Holds command .none := by
    refine ⟨{ Reading.start with command := some command }, by cases command <;> rfl, ?_⟩
    exact Reading.Settled.holds ⟨rfl, rfl, rfl, rfl⟩
  obtain ⟨a, reads, rest⟩ := holds.takeAll_given accepted distinct fun _ _ => rfl
  exact ⟨a, takes.trans reads, rest⟩

end CommandLine

end ReplicaDiff
