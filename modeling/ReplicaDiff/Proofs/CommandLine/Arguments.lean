/-
# ReplicaDiff.Proofs.CommandLine.Arguments — where the values of options come from

Every step of reading a command line leaves the values that have been given as
they are, or gives an option that had none the value of a text.  So all values
that a whole command line gives are values of texts, one for an option
(`chosen_of_read`).  In particular spans of time are numbers of milliseconds, and
a command line does not bring settings that TOML would round
(`Arguments.config_exact`).
-/
import ReplicaDiff.CommandLine.Arguments
import ReplicaDiff.Proofs.Config.Toml

namespace ReplicaDiff.CommandLine

set_option autoImplicit false

theorem exists_of_bind_ok {α β : Type} {x : Except Stop α} {f : α → Except Stop β} {b : β}
    (ok : x >>= f = .ok b) : ∃ a, x = .ok a ∧ f a = .ok b := by
  cases x with
  | error => cases ok
  | ok a => exact ⟨a, rfl, ok⟩

/-- Values that have been given one after the other, each as a text. -/
inductive Chosen : Choices → Prop where
  | none : Chosen .none
  | give {choices : Choices} {c : Choice} {text : String} {value : c.kind.Value}
      (chosen : Chosen choices) (new : choices c = Option.none)
      (parses : parseValue text c.kind = .ok value) : Chosen (choices.give c value)

namespace Reading

variable {r r' : Reading}

theorem chosen_assign {c : Choice} {text : String} (chosen : Chosen r.choices)
    (assigns : r.assign c text = .ok r') : Chosen r'.choices := by
  unfold assign at assigns
  split at assigns
  · cases assigns
  · rename_i new
    split at assigns
    · rename_i value parses
      cases assigns
      exact .give chosen (Option.not_isSome_iff_eq_none.1 new) parses
    · cases assigns

theorem chosen_settle (chosen : Chosen r.choices) (settles : r.settle = .ok r') :
    Chosen r'.choices := by
  unfold settle at settles
  split at settles
  · cases settles
    exact chosen
  · cases settles
  · have unpended : Chosen ({ r with pending := none } : Reading).choices := chosen
    exact chosen_assign unpended settles

theorem chosen_await {c : Choice} (chosen : Chosen r.choices) (awaits : r.await c = .ok r') :
    Chosen r'.choices := by
  obtain ⟨settled, settles, ok⟩ := exists_of_bind_ok awaits
  have chosen := chosen_settle chosen settles
  cases ok
  exact chosen

theorem chosen_give {c : Choice} {text : String} (chosen : Chosen r.choices)
    (gives : r.give c text = .ok r') : Chosen r'.choices := by
  obtain ⟨settled, settles, assigns⟩ := exists_of_bind_ok gives
  exact chosen_assign (chosen_settle chosen settles) assigns

theorem chosen_raise {f : Flag} (chosen : Chosen r.choices) (raises : r.raise f = .ok r') :
    Chosen r'.choices := by
  obtain ⟨settled, settles, ok⟩ := exists_of_bind_ok raises
  have chosen := chosen_settle chosen settles
  dsimp only at ok
  split_ifs at ok
  · cases ok
    exact chosen
  · cases ok
    exact chosen

theorem stop_ne_ok {reason : Stop} : r.stop reason ≠ .ok r' := by
  intro ok
  obtain ⟨settled, settles, ok⟩ := exists_of_bind_ok ok
  cases ok

theorem chosen_takeLong {token name : String} {value : Option String} (chosen : Chosen r.choices)
    (takes : r.takeLong token name value = .ok r') : Chosen r'.choices := by
  unfold takeLong at takes
  split at takes
  · cases takes
  · exact chosen_give chosen takes
  · exact chosen_await chosen takes
  · cases takes
  · exact chosen_raise chosen takes
  · exact absurd takes stop_ne_ok
  · exact absurd takes stop_ne_ok

theorem chosen_takeShort {token : String} {cs : List Char} (chosen : Chosen r.choices)
    (takes : takeShort token r cs = .ok r') : Chosen r'.choices := by
  induction cs generalizing r with
  | nil =>
      cases takes
      exact chosen
  | cons c cs ih =>
      unfold takeShort at takes
      split at takes
      · cases takes
      · split at takes
        · exact chosen_give chosen takes
        · exact chosen_await chosen takes
      · obtain ⟨raised, raises, rest⟩ := exists_of_bind_ok takes
        exact ih (chosen_raise chosen raises) rest
      · exact absurd takes stop_ne_ok
      · exact absurd takes stop_ne_ok

theorem chosen_takePlain {token : String} (chosen : Chosen r.choices)
    (takes : r.takePlain token = .ok r') : Chosen r'.choices := by
  unfold takePlain at takes
  repeat' split at takes
  all_goals cases takes
  all_goals exact chosen

/-- One token. -/
theorem chosen_take {token : String} (chosen : Chosen r.choices) (takes : r.take token = .ok r') :
    Chosen r'.choices := by
  unfold take at takes
  split at takes
  · cases takes
  split at takes
  · cases takes
    exact chosen
  · exact chosen_takeLong chosen takes
  · exact chosen_takeShort chosen takes
  · exact chosen_takePlain chosen takes

theorem chosen_finish {a : Arguments} (chosen : Chosen r.choices) (finishes : r.finish = .ok a) :
    Chosen a.choices := by
  unfold finish at finishes
  split at finishes
  · cases finishes
  · obtain ⟨settled, settles, ok⟩ := exists_of_bind_ok finishes
    cases ok
    exact chosen_settle chosen settles

theorem chosen_takeAll {tokens : List String} {a : Arguments} (chosen : Chosen r.choices)
    (takes : r.takeAll tokens = .ok a) : Chosen a.choices := by
  induction tokens generalizing r with
  | nil => exact chosen_finish chosen takes
  | cons token tokens ih =>
      unfold takeAll at takes
      split at takes
      · cases takes
      · obtain ⟨taken, take, rest⟩ := exists_of_bind_ok takes
        exact ih (chosen_take chosen take) rest

end Reading

/-- The values that a command line gives are values of texts. -/
theorem chosen_of_read {tokens : List String} {a : Arguments} (reads : Arguments.read tokens = .ok a) :
    Chosen a.choices :=
  Reading.chosen_takeAll .none reads

theorem exact_of_parseValue {text : String} {k : Setting.Kind} {value : k.Value}
    (parses : parseValue text k = .ok value) : k.Exact value := by
  cases k with
  | millis =>
      simp only [parseValue] at parses
      cases number : parseUnsigned 18446744073709551615 text with
      | error => simp [number] at parses; cases parses
      | ok n =>
          rw [number] at parses
          cases parses
          exact ⟨_, rfl⟩
  | _ => exact trivial

theorem Chosen.exact {choices : Choices} (chosen : Chosen choices) {c : Choice}
    {value : c.kind.Value} (given : choices c = some value) : c.kind.Exact value := by
  induction chosen with
  | none => cases given
  | @give choices d text value' chosen new parses ih =>
      by_cases same : d = c
      · subst same
        rw [Choices.give_self] at given
        cases given
        exact exact_of_parseValue parses
      · rw [Choices.give_of_ne choices value' same] at given
        exact ih given

/-- What a command line puts in place of settings is not rounded. -/
theorem Arguments.config_exact {tokens : List String} {a : Arguments} {base : Config}
    (reads : Arguments.read tokens = .ok a) (exact : base.Exact) : (a.config base).Exact :=
  exact.override fun _ _ overridden => (chosen_of_read reads).exact overridden

end ReplicaDiff.CommandLine
