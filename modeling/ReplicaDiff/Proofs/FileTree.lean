/-
# ReplicaDiff.Proofs.FileTree — where paths lead, and what is read there

`Leads t path l` says that a path leads to a name in a directory of the tree.  What
is read at a path is the file at the location that it leads to (`read_eq_ok`), and
a write makes a file there where no directory is and writing is allowed
(`write_eq_ok`).

Where paths lead depends on the directories of a tree alone (`Leads.of_same`), and
writing a file changes none of them (`sameDirectories_put`).
-/
import ReplicaDiff.FileTree
import ReplicaDiff.Proofs.Path

namespace ReplicaDiff.FileTree

set_option autoImplicit false

open ReplicaDiff.Text (Bytes)

variable {t t' : FileTree} {path : String} {l l' : Location} {content : Bytes}

/-! ## Where a path leads -/

/-- A path leads to a name in a directory, where a file may lie. -/
structure Leads (t : FileTree) (path : String) (l : Location) : Prop where
  resolves : t.resolve path = .ok (.name l false)
  short : (l.headD "").utf8ByteSize ≤ maxNameLength

theorem read_eq_ok :
    t.read path = .ok content ↔ ∃ l, t.Leads path l ∧ t.entry l = some (.file content) := by
  unfold read find
  constructor
  · intro reads
    cases resolved : t.resolve path with
    | error cause => simp [resolved, bind, Except.bind] at reads
    | ok target =>
        cases target with
        | directory l => simp [resolved, bind, Except.bind] at reads
        | name l slash =>
            simp only [resolved, bind, Except.bind] at reads
            split at reads
            · rename_i found
              cases reads
            · rename_i found
              split at found
              · cases found
              · rename_i short
                cases held : t.entry l with
                | none => simp [held] at found
                | some e =>
                    cases e with
                    | directory =>
                        simp only [held] at found
                        cases found
                        cases reads
                    | file bytes =>
                        cases slash with
                        | true => simp [held] at found
                        | false =>
                            simp only [held] at found
                            cases found
                            cases reads
                            exact ⟨l, ⟨resolved, Nat.not_lt.1 short⟩, held⟩
  · rintro ⟨l, leads, held⟩
    rw [leads.resolves]
    simp only [bind, Except.bind]
    rw [if_neg (Nat.not_lt.2 leads.short), held]
    rfl

theorem writable_eq_ok :
    t.writable path = .ok l ↔
      t.Leads path l ∧ t.entry l ≠ some .directory ∧ t.refusal l = none := by
  unfold writable
  constructor
  · intro writes
    cases resolved : t.resolve path with
    | error cause => simp [resolved, bind, Except.bind] at writes
    | ok target =>
        cases target with
        | directory l => simp [resolved, bind, Except.bind] at writes
        | name l slash =>
            simp only [resolved, bind, Except.bind] at writes
            split at writes
            · cases writes
            · rename_i single
              split at writes
              · cases writes
              · rename_i short
                split at writes
                · cases writes
                · rename_i free
                  split at writes
                  · cases writes
                  · rename_i allowed
                    cases writes
                    rw [Bool.not_eq_true] at single
                    exact ⟨⟨single ▸ resolved, Nat.not_lt.1 short⟩, free, allowed⟩
  · rintro ⟨leads, free, allowed⟩
    rw [leads.resolves]
    simp only [bind, Except.bind, Bool.false_eq_true, ↓reduceIte]
    rw [if_neg (Nat.not_lt.2 leads.short), allowed]

theorem write_eq_ok :
    t.write path content = .ok t' ↔ ∃ l, t.writable path = .ok l ∧ t' = t.put l (.file content) := by
  unfold write
  cases writes : t.writable path with
  | error cause => simp [bind, Except.bind]
  | ok l => simp [bind, Except.bind, eq_comm]

/-! ## Trees with the same directories -/

/-- Two trees have the same directories, relative paths start from the same one, and the same
locations may not be written. -/
structure SameDirectories (t t' : FileTree) : Prop where
  entry : ∀ l, t.entry l = some .directory ↔ t'.entry l = some .directory
  current : t.current = t'.current
  refusal : t.refusal = t'.refusal

theorem SameDirectories.refl (t : FileTree) : SameDirectories t t := ⟨fun _ => .rfl, rfl, rfl⟩

theorem SameDirectories.symm (same : SameDirectories t t') : SameDirectories t' t :=
  ⟨fun l => (same.entry l).symm, same.current.symm, same.refusal.symm⟩

theorem SameDirectories.trans {t'' : FileTree} (same : SameDirectories t t')
    (same' : SameDirectories t' t'') : SameDirectories t t'' :=
  ⟨fun l => (same.entry l).trans (same'.entry l), same.current.trans same'.current,
    same.refusal.trans same'.refusal⟩

theorem sameDirectories_put (free : t.entry l ≠ some .directory) (content : Bytes) :
    SameDirectories t (t.put l (.file content)) := by
  refine ⟨fun k => ?_, rfl, rfl⟩
  show _ ↔ (if k = l then some (Entry.file content) else t.entry k) = some .directory
  by_cases here : k = l
  · subst here
    simp [free]
  · rw [if_neg here]

theorem walk_of_same (same : SameDirectories t t') {names : List String}
    (walks : t.walk l names = .ok l') : t'.walk l names = .ok l' := by
  induction names generalizing l with
  | nil => exact walks
  | cons name names ih =>
      unfold walk at walks ⊢
      split at walks
      · rw [if_pos ‹_›]
        exact ih walks
      · rw [if_neg ‹_›]
        split at walks
        · rw [if_pos ‹_›]
          exact ih walks
        · rw [if_neg ‹_›]
          split at walks
          · cases walks
          · rw [if_neg ‹_›]
            cases held : t.entry (name :: l) with
            | none => simp [held] at walks
            | some e =>
                cases e with
                | file bytes => simp [held] at walks
                | directory =>
                    rw [(same.entry _).1 held]
                    rw [held] at walks
                    exact ih walks

theorem resolve_of_same (same : SameDirectories t t') {target : Target}
    (resolves : t.resolve path = .ok target) : t'.resolve path = .ok target := by
  unfold resolve at resolves ⊢
  split at resolves
  · cases resolves
  · rw [if_neg ‹_›]
    split at resolves
    · cases resolves
    · rw [if_neg ‹_›]
      split at resolves
      · cases resolves
      · rw [if_neg ‹_›, ← same.current]
        simp only [bind, Except.bind] at resolves ⊢
        split at resolves
        · cases resolves
        · rename_i l walks
          rw [walk_of_same same walks]
          exact resolves

theorem Leads.of_same (leads : t.Leads path l) (same : SameDirectories t t') : t'.Leads path l :=
  ⟨resolve_of_same same leads.resolves, leads.short⟩

theorem writable_of_same (same : SameDirectories t t') (writes : t.writable path = .ok l) :
    t'.writable path = .ok l := by
  obtain ⟨leads, free, allowed⟩ := writable_eq_ok.1 writes
  exact writable_eq_ok.2 ⟨leads.of_same same, fun held => free ((same.entry l).2 held),
    same.refusal ▸ allowed⟩

/-- What lies where a path leads is read there, also in a tree that has changed but for its
directories. -/
theorem read_of_entry (same : SameDirectories t t') (writes : t.writable path = .ok l)
    (held : t'.entry l = some (.file content)) : t'.read path = .ok content :=
  read_eq_ok.2 ⟨l, (writable_eq_ok.1 writes).1.of_same same, held⟩

/-! ## Names in a directory -/

theorem splitLast_of_parts {outer : List String} {name : String} (some : name ≠ "")
    (parts : Path.parts path = outer ++ [name]) : splitLast path = (outer, name, false) := by
  have solid : name.isEmpty = false := by
    rw [← Bool.not_eq_true, String.isEmpty_iff]
    exact some
  unfold splitLast
  rw [parts, List.reverse_append]
  simp [solid]

/-- A path leads to its last name, in the directory that the names before it lead to. -/
theorem Leads.of_parts {outer : List String} {name : String} (some : name ≠ "")
    (parts : Path.parts path = outer ++ [name]) (leads : t.Leads path l) :
    ∃ dir, t.walk (if Path.isAbsolute path then [] else t.current) outer = .ok dir ∧
      l = name :: dir := by
  have resolves := leads.resolves
  unfold resolve at resolves
  split at resolves
  · cases resolves
  · split at resolves
    · cases resolves
    · split at resolves
      · cases resolves
      · rw [splitLast_of_parts some parts] at resolves
        simp only [bind, Except.bind] at resolves
        split at resolves
        · cases resolves
        · rename_i dir walks
          split at resolves
          · cases resolves
          · split at resolves <;> cases resolves
            exact ⟨dir, walks, rfl⟩

/-- A name inside a directory leads to the place of that name. -/
theorem Leads.head?_join {dir name : String} (isName : Path.IsName name)
    (leads : t.Leads (Path.join dir name) l) : l.head? = some name := by
  obtain ⟨outer, joined⟩ := Path.parts_join dir
  obtain ⟨_, -, rfl⟩ := leads.of_parts isName.ne_empty (joined name isName)
  rfl

/-- Different names lead to different places. -/
theorem writable_join_ne {dir name name' : String} (isName : Path.IsName name)
    (isName' : Path.IsName name') (ne : name ≠ name')
    (writes : t.writable (Path.join dir name) = .ok l) :
    t.writable (Path.join dir name) ≠ t.writable (Path.join dir name') := by
  intro same
  have leads := (writable_eq_ok.1 writes).1.head?_join isName
  have leads' := (writable_eq_ok.1 (same ▸ writes)).1.head?_join isName'
  exact ne (Option.some.inj (leads.symm.trans leads'))

end ReplicaDiff.FileTree
