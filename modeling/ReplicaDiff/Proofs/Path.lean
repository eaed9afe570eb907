/-
# ReplicaDiff.Proofs.Path — the last name of a path

Splitting a text at a separator splits what comes before it and what comes after
it (`Text.split_append`).  So the name of a file inside a directory is the last name
of the joined path, however the directory is spelled (`Path.parts_join`).
-/
import ReplicaDiff.Path

namespace ReplicaDiff

set_option autoImplicit false

namespace Text

variable {separator : Char}

theorem split_ne_nil (text : List Char) : split separator text ≠ [] := by
  induction text with
  | nil => exact List.cons_ne_nil _ _
  | cons c text ih =>
      unfold split
      split
      · exact List.cons_ne_nil _ _
      · split <;> exact List.cons_ne_nil _ _

theorem split_cons_of_ne {c : Char} (ne : c ≠ separator) {text stretch : List Char}
    {others : List (List Char)} (rest : split separator text = stretch :: others) :
    split separator (c :: text) = (c :: stretch) :: others := by
  rw [split, if_neg ne, rest]

theorem split_append (before after : List Char) :
    split separator (before ++ separator :: after) =
      split separator before ++ split separator after := by
  induction before with
  | nil => simp [split]
  | cons c before ih =>
      by_cases same : c = separator
      · rw [List.cons_append, split, if_pos same, ih, split, if_pos same]
        rfl
      · have some : split separator before ≠ [] := split_ne_nil before
        obtain ⟨stretch, others, rest⟩ := List.exists_cons_of_ne_nil some
        rw [rest, List.cons_append] at ih
        rw [List.cons_append, split_cons_of_ne same ih, split_cons_of_ne same rest]
        rfl

theorem split_of_not_mem {text : List Char} (absent : separator ∉ text) :
    split separator text = [text] := by
  induction text with
  | nil => rfl
  | cons c text ih =>
      have ne : separator ≠ c := List.ne_of_not_mem_cons absent
      exact split_cons_of_ne ne.symm (ih (List.not_mem_of_not_mem_cons absent))

end Text

namespace Path

/-- A name that stands for a file or directory of its own. -/
structure IsName (name : String) : Prop where
  single : '/' ∉ name.toList
  ne_empty : name ≠ ""
  ne_here : name ≠ "."
  ne_up : name ≠ ".."

theorem IsName.relative {name : String} (isName : IsName name) : isAbsolute name = false := by
  unfold isAbsolute
  rw [decide_eq_false_iff_not]
  exact fun first => isName.single (List.mem_of_mem_head? first)

/-- The last name of a joined path is the one that was joined; the names before it are those of the
directory. -/
theorem parts_join (dir : String) :
    ∃ outer, ∀ name, IsName name → parts (join dir name) = outer ++ [name] := by
  have single : ∀ name, IsName name → Text.split '/' name.toList = [name.toList] :=
    fun name isName => Text.split_of_not_mem isName.single
  have joined : ∀ (outer : List Char) (name : String), IsName name → ∀ path : String,
      path.toList = outer ++ '/' :: name.toList →
      parts path = (Text.split '/' outer).map String.ofList ++ [name] := by
    intro outer name isName path eq
    unfold parts
    rw [eq, Text.split_append, single name isName, List.map_append]
    simp
  unfold join
  by_cases here : dir.isEmpty = true
  · refine ⟨[], fun name isName => ?_⟩
    rw [here, Bool.or_true, if_pos rfl]
    unfold parts
    rw [single name isName]
    simp
  by_cases slash : dir.toList.getLast? = some '/'
  · obtain ⟨outer, eq⟩ := List.getLast?_eq_some_iff.1 slash
    refine ⟨(Text.split '/' outer).map String.ofList, fun name isName => ?_⟩
    rw [isName.relative, Bool.false_or, if_neg here, if_pos slash]
    exact joined outer name isName _ (by rw [String.toList_append, eq, List.append_assoc]; rfl)
  · refine ⟨(Text.split '/' dir.toList).map String.ofList, fun name isName => ?_⟩
    rw [isName.relative, Bool.false_or, if_neg here, if_neg slash]
    exact joined dir.toList name isName _ (by simp)

/-- A name inside a directory is absolute if the directory is. -/
theorem isAbsolute_join {name : String} (isName : IsName name) (dir : String) :
    isAbsolute (join dir name) = isAbsolute dir := by
  unfold join
  rw [isName.relative, Bool.false_or]
  by_cases here : dir.isEmpty = true
  · rw [if_pos here, isName.relative, String.isEmpty_iff.1 here]
    rfl
  · have some : dir.toList ≠ [] := fun nil => here (by simpa using nil)
    obtain ⟨c, rest, eq⟩ := List.exists_cons_of_ne_nil some
    rw [if_neg here]
    unfold isAbsolute
    split <;> simp [eq]

end Path

end ReplicaDiff
