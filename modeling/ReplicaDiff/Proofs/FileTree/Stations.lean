/-
# ReplicaDiff.Proofs.FileTree.Stations — what a path depends on

Following a path looks up one location for each of its names but empty ones, `.`
and `..`: its stations, the last of which is where the path leads.  Two trees that
agree on the stations of a path (`SameAlong`) find the same entry there and allow
or refuse the same write, for the same reason (`SameAlong.find_eq`,
`SameAlong.writable_eq`).
-/
import ReplicaDiff.Proofs.FileTree

namespace ReplicaDiff.FileTree

set_option autoImplicit false

open ReplicaDiff.Text (Bytes)

variable {t t' : FileTree} {path : String} {l l' : Location}

/-- Where a name leads from a location, whatever lies there. -/
def descend (l : Location) (name : String) : Location :=
  if name.isEmpty || name = "." then l else if name = ".." then parent l else name :: l

/-- The location that a name looks up. -/
def lookedUp (l : Location) (name : String) : List Location :=
  if name.isEmpty || name = "." || name = ".." then [] else [name :: l]

/-- The locations that names look up, one after the other. -/
def stationsFrom : Location → List String → List Location
  | _, [] => []
  | l, name :: names => lookedUp l name ++ stationsFrom (descend l name) names

/-- The locations that following a path looks up, where it leads included. -/
def stations (t : FileTree) (path : String) : List Location :=
  stationsFrom (if Path.isAbsolute path then [] else t.current) (Path.parts path)

theorem stationsFrom_append (l : Location) (names names' : List String) :
    stationsFrom l (names ++ names') =
      stationsFrom l names ++ stationsFrom (names.foldl descend l) names' := by
  induction names generalizing l with
  | nil => rfl
  | cons name names ih =>
      rw [List.cons_append, stationsFrom, ih, stationsFrom, List.append_assoc, List.foldl_cons]

theorem walk_eq_ok {names : List String} (walks : t.walk l names = .ok l') :
    l' = names.foldl descend l := by
  induction names generalizing l with
  | nil =>
      cases walks
      rfl
  | cons name names ih =>
      rw [List.foldl_cons, descend]
      unfold walk at walks
      split at walks
      · rw [if_pos ‹_›]
        exact ih walks
      · rw [if_neg ‹_›]
        split at walks
        · rw [if_pos ‹_›]
          exact ih walks
        · rw [if_neg ‹_›]
          split at walks
          · cases walks
          · split at walks
            · cases walks
            · cases walks
            · exact ih walks

/-- Whatever is passed on the way is a directory. -/
theorem directory_of_walk {names : List String} (walks : t.walk l names = .ok l') {k : Location}
    (mem : k ∈ stationsFrom l names) : t.entry k = some .directory := by
  induction names generalizing l with
  | nil => cases mem
  | cons name names ih =>
      unfold walk at walks
      unfold stationsFrom lookedUp descend at mem
      split at walks
      · rename_i stays
        simp only [stays, Bool.true_or, ↓reduceIte, List.nil_append] at mem
        exact ih walks mem
      rename_i goes
      rw [if_neg goes] at mem
      split at walks
      · rename_i up
        simp only [up, decide_true, Bool.or_true, ↓reduceIte, List.nil_append] at mem
        exact ih walks mem
      rename_i down
      rw [if_neg down, if_neg (by simp_all)] at mem
      split at walks
      · cases walks
      split at walks
      · cases walks
      · cases walks
      · rename_i held
        rcases List.mem_append.1 mem with here | onward
        · rw [List.mem_singleton.1 here, held]
        · exact ih walks onward

theorem walk_congr {names : List String}
    (same : ∀ k ∈ stationsFrom l names, t.entry k = t'.entry k) :
    t.walk l names = t'.walk l names := by
  induction names generalizing l with
  | nil => rfl
  | cons name names ih =>
      have onward := ih fun k mem => same k (List.mem_append_right _ mem)
      unfold descend at onward
      unfold walk
      by_cases stays : (name.isEmpty || name = ".") = true
      · rw [if_pos stays] at onward
        rw [if_pos stays, if_pos stays, onward]
      rw [if_neg stays] at onward
      rw [if_neg stays, if_neg stays]
      by_cases up : name = ".."
      · rw [if_pos up] at onward
        rw [if_pos up, if_pos up, onward]
      rw [if_neg up] at onward
      have here : t.entry (name :: l) = t'.entry (name :: l) := by
        refine same _ (List.mem_append_left _ ?_)
        unfold lookedUp
        simp_all
      rw [if_neg up, if_neg up, here, onward]

/-- A path has no names but empty ones, or its last name comes after the names before it. -/
theorem parts_of_splitLast {before : List String} {last : String} {slash : Bool}
    (splits : splitLast path = (before, last, slash)) :
    (before = [] ∧ last = "") ∨ ∃ rest, Path.parts path = before ++ last :: rest := by
  unfold splitLast at splits
  dsimp only at splits
  split at splits
  · cases splits
    exact .inl ⟨rfl, rfl⟩
  · rename_i dropped
    cases splits
    have whole := List.takeWhile_append_dropWhile (p := fun n : String => n.isEmpty)
      (l := (Path.parts path).reverse)
    rw [dropped] at whole
    exact .inr ⟨_, (by simpa using (congrArg List.reverse whole).symm)⟩

/-- Two trees agree on what a path depends on. -/
structure SameAlong (t t' : FileTree) (path : String) : Prop where
  entry : ∀ l ∈ t.stations path, t.entry l = t'.entry l
  current : t.current = t'.current
  refusal : t.refusal = t'.refusal

/-- Where a path leads is a station of it. -/
theorem mem_stations_of_resolve {slash : Bool} (resolves : t.resolve path = .ok (.name l slash)) :
    l ∈ t.stations path := by
  unfold resolve at resolves
  split at resolves
  · cases resolves
  split at resolves
  · cases resolves
  split at resolves
  · cases resolves
  cases splits : splitLast path with
  | mk before others =>
      obtain ⟨last, slash'⟩ := others
      simp only [splits, bind, Except.bind] at resolves
      split at resolves
      · cases resolves
      · rename_i outer walks
        split at resolves
        · cases resolves
        · rename_i notHere
          split at resolves
          · cases resolves
          · rename_i notUp
            cases resolves
            rcases parts_of_splitLast splits with ⟨-, rfl⟩ | ⟨rest, parts⟩
            · exact absurd rfl notHere
            · rw [stations, parts, stationsFrom_append, ← walk_eq_ok walks]
              refine List.mem_append_right _ (List.mem_append_left _ ?_)
              unfold lookedUp
              simp_all

theorem mem_stations_of_writable (writes : t.writable path = .ok l) : l ∈ t.stations path :=
  mem_stations_of_resolve (writable_eq_ok.1 writes).1.resolves

namespace SameAlong

variable (same : SameAlong t t' path)

include same

theorem resolve_eq : t.resolve path = t'.resolve path := by
  unfold resolve
  cases splits : splitLast path with
  | mk before others =>
      obtain ⟨last, slash⟩ := others
      have walks : t.walk (if Path.isAbsolute path then [] else t.current) before =
          t'.walk (if Path.isAbsolute path then [] else t'.current) before := by
        rw [← same.current]
        refine walk_congr fun k mem => same.entry k ?_
        rcases parts_of_splitLast splits with ⟨rfl, -⟩ | ⟨rest, parts⟩
        · cases mem
        · rw [stations, parts, stationsFrom_append]
          exact List.mem_append_left _ mem
      simp only [walks]

theorem find_eq : t.find path = t'.find path := by
  unfold find
  rw [← same.resolve_eq]
  cases resolves : t.resolve path with
  | error cause => rfl
  | ok target =>
      cases target with
      | directory l => rfl
      | name l slash =>
          simp only [bind, Except.bind]
          rw [same.entry l (mem_stations_of_resolve resolves)]

theorem writable_eq : t.writable path = t'.writable path := by
  unfold writable
  rw [← same.resolve_eq]
  cases resolves : t.resolve path with
  | error cause => rfl
  | ok target =>
      cases target with
      | directory l => rfl
      | name l slash =>
          simp only [bind, Except.bind]
          rw [same.entry l (mem_stations_of_resolve resolves), same.refusal]

end SameAlong

/-- The path to a name in a directory does not pass the places of other names in it. -/
theorem not_mem_stations_join {dir name name' : String} (isName : Path.IsName name)
    (isName' : Path.IsName name') (ne : name ≠ name')
    (writes : t.writable (Path.join dir name) = .ok l) :
    l ∉ t.stations (Path.join dir name') := by
  intro mem
  obtain ⟨leads, free, -⟩ := writable_eq_ok.1 writes
  obtain ⟨outer, joined⟩ := Path.parts_join dir
  obtain ⟨place, walks, rfl⟩ := leads.of_parts isName.ne_empty (joined name isName)
  rw [Path.isAbsolute_join isName] at walks
  rw [stations, Path.isAbsolute_join isName', joined name' isName', stationsFrom_append,
    ← walk_eq_ok walks] at mem
  rcases List.mem_append.1 mem with before | last
  · exact free (directory_of_walk walks before)
  · unfold stationsFrom lookedUp stationsFrom at last
    split at last
    · cases last
    · exact ne (List.cons.inj (List.mem_singleton.1 last)).1

/-- A path does not depend on what lies where it does not pass. -/
theorem sameAlong_put (beside : l ∉ t.stations path) (e : Entry) :
    SameAlong t (t.put l e) path where
  entry k mem := (if_neg fun here : k = l => beside (here ▸ mem)).symm
  current := rfl
  refusal := rfl

end ReplicaDiff.FileTree
