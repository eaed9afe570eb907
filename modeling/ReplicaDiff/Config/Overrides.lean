/-
# ReplicaDiff.Config.Overrides — values that go before those of a configuration

An overridden setting takes its value from the overrides, and every other setting
keeps its own (`Config.get_override`).
-/
import ReplicaDiff.Config.Setting

namespace ReplicaDiff

set_option autoImplicit false

/-- Values for some of the settings. -/
abbrev Overrides := (s : Setting) → Option s.Value

namespace Config

/-- The configuration in which a setting has another value, if there is one. -/
def overrideOne (o : Overrides) (c : Config) (s : Setting) : Config :=
  match o s with
  | some value => c.set s value
  | none => c

/-- The configuration in which the overridden settings have their new values. -/
def override (c : Config) (o : Overrides) : Config := Setting.all.foldl (overrideOne o) c

theorem get_overrideOne_self (o : Overrides) (c : Config) (s : Setting) :
    (overrideOne o c s).get s = (o s).getD (c.get s) := by
  unfold overrideOne
  cases h : o s with
  | none => rfl
  | some value => exact get_set_self c s value

theorem get_overrideOne_of_ne (o : Overrides) (c : Config) {s t : Setting} (h : t ≠ s) :
    (overrideOne o c s).get t = c.get t := by
  unfold overrideOne
  cases o s with
  | none => rfl
  | some value => exact get_set_of_ne c value h

theorem get_foldl_overrideOne (o : Overrides) (t : Setting) (ss : List Setting) (c : Config) :
    (ss.foldl (overrideOne o) c).get t = if t ∈ ss then (o t).getD (c.get t) else c.get t := by
  induction ss generalizing c with
  | nil => simp
  | cons s ss ih =>
      rw [List.foldl_cons, ih]
      by_cases hs : t = s
      · subst hs
        by_cases hm : t ∈ ss
        · simp only [hm, if_true, List.mem_cons, or_true, get_overrideOne_self]
          cases o t <;> rfl
        · simp only [hm, if_false, List.mem_cons, or_false, if_true, get_overrideOne_self]
      · simp only [List.mem_cons, hs, false_or, get_overrideOne_of_ne o c hs]

/-- An overridden setting takes its value from the overrides; every other one keeps its own. -/
theorem get_override (c : Config) (o : Overrides) (s : Setting) :
    (c.override o).get s = (o s).getD (c.get s) := by
  rw [override, get_foldl_overrideOne, if_pos (Setting.mem_all s)]

end Config

end ReplicaDiff
