/-
# ReplicaDiff.Proofs.Config.File — a file sets what it says, and nothing else

A document says something of a setting where it has a value for it: under the name
of the setting, or in the endpoint of a side, which may be a table of parts or a
list of them in order (`Setting.said?`).  A configuration that is loaded has these
values, and the default of every setting of which nothing is said
(`Config.File.said_or_default`).

A document is taken entry by entry, and each entry belongs to one setting.  As no
key stands twice, what comes before or after an entry does not matter to its
setting (`foldlM_slot`).
-/
import ReplicaDiff.Config.File
import ReplicaDiff.Proofs.Toml.Distinct

namespace ReplicaDiff

set_option autoImplicit false

open ReplicaDiff.Toml

/-- Entries are taken one after the other.  If only the entry with one key changes what is seen at
some place, and it puts there what is read of it, then this is seen in the end; without such an
entry nothing changes there. -/
theorem foldlM_slot {σ α : Type} (step : σ → String × Toml.Value → Option σ) (key : String)
    (read : Toml.Value → Option α) (view : σ → α)
    (own : ∀ c c' v, step c (key, v) = some c' → read v = some (view c'))
    (other : ∀ c c' name v, name ≠ key → step c (name, v) = some c' → view c' = view c)
    {entries : Entries} (keys : (entries.map Prod.fst).Nodup) {start result : σ}
    (folds : entries.foldlM step start = some result) :
    (∀ v, Entries.find? key entries = some v → read v = some (view result)) ∧
      (Entries.find? key entries = none → view result = view start) := by
  induction entries generalizing start with
  | nil =>
      cases folds
      exact ⟨by simp [Entries.find?], fun _ => rfl⟩
  | cons e entries ih =>
      obtain ⟨name, v⟩ := e
      rw [List.foldlM_cons] at folds
      obtain ⟨next, first, rest⟩ := Option.bind_eq_some_iff.1 folds
      rw [List.map_cons, List.nodup_cons] at keys
      obtain ⟨said, unsaid⟩ := ih keys.2 rest
      rw [Entries.find?]
      by_cases same : name = key
      · rw [if_pos same]
        subst same
        refine ⟨fun w found => ?_, by simp⟩
        cases found
        rw [unsaid (Entries.find_eq_none_iff.2 keys.1)]
        exact own start next v first
      · rw [if_neg same]
        exact ⟨said, fun none => (unsaid none).trans (other start next name v same first)⟩

/-! ## Endpoints -/

namespace Endpoint

/-- What the value of an endpoint says of its parts: the entries of a table, or the values of a list
in the order of the parts. -/
def said : Toml.Value → Entries
  | .table _ entries => entries
  | .list items => (Part.all.map Part.name).zip items
  | _ => []

variable {e e' : Endpoint} {v : Toml.Value}

theorem setToml_own {part : Part} (sets : e.setToml part.name v = some e') :
    v.text? = some (e'.get part) := by
  have find : ∀ p ∈ Part.all, Part.all.find? (·.name = p.name) = some p := by decide
  rw [setToml, find part (by cases part <;> decide)] at sets
  obtain ⟨s, text, rfl⟩ := Option.map_eq_some_iff.1 sets
  rw [text, get_set_self]

theorem setToml_other {part : Part} {name : String} (ne : name ≠ part.name)
    (sets : e.setToml name v = some e') : e'.get part = e.get part := by
  unfold setToml at sets
  split at sets
  · rename_i p found
    obtain ⟨s, -, rfl⟩ := Option.map_eq_some_iff.1 sets
    refine get_set_of_ne e s fun same => ne ?_
    have named := List.find?_some found
    rw [same]
    exact (of_decide_eq_true named).symm
  · cases sets
    rfl

theorem map_fst_zip_sublist {α β : Type} : ∀ (as : List α) (bs : List β),
    ((as.zip bs).map Prod.fst).Sublist as
  | [], _ => .slnil
  | _ :: _, [] => List.nil_sublist _
  | a :: as, _ :: bs => (map_fst_zip_sublist as bs).cons_cons a

/-- Every part of an endpoint is what its value says, or is left empty. -/
theorem said_of_ofToml (distinct : v.Distinct) (reads : ofToml? v = some e) (part : Part) :
    (∀ w, Entries.find? part.name (said v) = some w → w.text? = some (e.get part)) ∧
      (Entries.find? part.name (said v) = none → e.get part = ({} : Endpoint).get part) := by
  have slot {entries : Entries} (keys : (entries.map Prod.fst).Nodup)
      (folds : entries.foldlM (fun e entry => setToml e entry.1 entry.2) {} = some e) :=
    foldlM_slot (fun e entry => setToml e entry.1 entry.2) part.name Toml.Value.text? (·.get part)
      (fun _ _ _ sets => setToml_own sets) (fun _ _ _ _ ne sets => setToml_other ne sets) keys folds
  cases v with
  | table origin entries =>
      cases distinct with
      | table inner => exact slot inner.keys reads
  | list items =>
      have names : (Part.all.map Part.name).Nodup := by decide
      refine slot ((map_fst_zip_sublist _ items).nodup names) ?_
      rw [said, List.zip_map_left, List.foldlM_map]
      exact reads
  | moment =>
      cases reads
      exact ⟨nofun, fun _ => rfl⟩
  | _ => cases reads

end Endpoint

/-! ## Settings -/

/-- What a document says of a setting. -/
def Setting.said? (entries : Entries) : Setting → Option Toml.Value
  | .endpoint side part =>
      (Entries.find? side.name entries).bind fun v => Entries.find? part.name (Endpoint.said v)
  | s => Entries.find? s.key entries

namespace Config

variable {c c' : Config} {v : Toml.Value} {name : String}

theorem setToml_own_side {side : Side} (sets : c.setToml side.name v = some c') :
    Endpoint.ofToml? v = some (c'.endpoint side) := by
  have target : Side.target.name ≠ Side.source.name := by decide
  cases side with
  | source =>
      rw [setToml, if_pos rfl] at sets
      obtain ⟨e, reads, rfl⟩ := Option.map_eq_some_iff.1 sets
      exact reads
  | target =>
      rw [setToml, if_neg target, if_pos rfl] at sets
      obtain ⟨e, reads, rfl⟩ := Option.map_eq_some_iff.1 sets
      exact reads

theorem endpoint_setEndpoint_of_ne {side other : Side} (ne : other ≠ side) (e : Endpoint) :
    (c.setEndpoint other e).endpoint side = c.endpoint side := by
  cases side <;> cases other <;> first | rfl | exact absurd rfl ne

theorem endpoint_set_of_run {s : Setting} (known : s ∈ Setting.ofRun) (x : s.Value) (side : Side) :
    (c.set s x).endpoint side = c.endpoint side := by
  cases s with
  | endpoint side part => exact absurd known (Setting.endpoint_notMem_ofRun side part)
  | _ => cases side <;> rfl

/-- An entry decides the endpoint of one side, or one setting that goes by its name, or nothing. -/
theorem setToml_cases (sets : c.setToml name v = some c') :
    (∃ side e, name = side.name ∧ c' = c.setEndpoint side e) ∨
      (∃ s ∈ Setting.ofRun, ∃ x : s.Value, name = s.key ∧ c' = c.set s x) ∨ c' = c := by
  unfold setToml at sets
  split_ifs at sets with source target
  · obtain ⟨e, -, rfl⟩ := Option.map_eq_some_iff.1 sets
    exact .inl ⟨.source, e, source, rfl⟩
  · obtain ⟨e, -, rfl⟩ := Option.map_eq_some_iff.1 sets
    exact .inl ⟨.target, e, target, rfl⟩
  · split at sets
    · rename_i s found
      obtain ⟨x, -, rfl⟩ := Option.map_eq_some_iff.1 sets
      have named : s.key = name := by simpa using List.find?_some found
      exact .inr (.inl ⟨s, List.mem_of_find?_eq_some found, x, named.symm, rfl⟩)
    · exact .inr (.inr (Option.some.inj sets).symm)

theorem setToml_other_side {side : Side} (ne : name ≠ side.name) (sets : c.setToml name v = some c') :
    c'.endpoint side = c.endpoint side := by
  obtain ⟨other, e, named, rfl⟩ | ⟨s, known, x, -, rfl⟩ | rfl := setToml_cases sets
  · refine endpoint_setEndpoint_of_ne ?_ e
    rintro rfl
    exact ne named
  · exact endpoint_set_of_run known x side
  · rfl

theorem setToml_own_run {s : Setting} (known : s ∈ Setting.ofRun)
    (sets : c.setToml s.key v = some c') : s.kind.ofToml? v = some (c'.get s) := by
  have names : ∀ s ∈ Setting.ofRun, s.key ≠ Side.source.name ∧ s.key ≠ Side.target.name ∧
      Setting.ofRun.find? (·.key = s.key) = some s := by decide
  obtain ⟨source, target, find⟩ := names s known
  rw [setToml, if_neg source, if_neg target, find] at sets
  obtain ⟨x, reads, rfl⟩ := Option.map_eq_some_iff.1 sets
  rw [reads, get_set_self]

theorem setToml_other_run {s : Setting} (known : s ∈ Setting.ofRun) (ne : name ≠ s.key)
    (sets : c.setToml name v = some c') : c'.get s = c.get s := by
  obtain ⟨side, e, -, rfl⟩ | ⟨t, -, x, named, rfl⟩ | rfl := setToml_cases sets
  · exact get_setEndpoint_of_run known c side e
  · refine get_set_of_ne c x ?_
    rintro rfl
    exact ne named
  · rfl

/-- Every setting of a document is what it says, or the default. -/
theorem said_of_foldlM {entries : Entries} (distinct : entries.Distinct)
    (sets : entries.foldlM (fun c (name, v) => setToml c name v) {} = some c) (s : Setting) :
    (∀ v, s.said? entries = some v → s.kind.ofToml? v = some (c.get s)) ∧
      (s.said? entries = none → c.get s = ({} : Config).get s) := by
  by_cases known : s ∈ Setting.ofRun
  · have said : s.said? entries = Entries.find? s.key entries := by
      cases s with
      | endpoint side part => exact absurd known (Setting.endpoint_notMem_ofRun side part)
      | _ => rfl
    rw [said]
    exact foldlM_slot (fun c entry => setToml c entry.1 entry.2) s.key s.kind.ofToml? (·.get s)
      (fun _ _ _ sets => setToml_own_run known sets)
      (fun _ _ _ _ ne sets => setToml_other_run known ne sets) distinct.keys sets
  · cases s with
    | endpoint side part =>
        obtain ⟨present, absent⟩ := foldlM_slot (fun c entry => setToml c entry.1 entry.2) side.name
          Endpoint.ofToml? (·.endpoint side) (fun _ _ _ sets => setToml_own_side sets)
          (fun _ _ _ _ ne sets => setToml_other_side ne sets) distinct.keys sets
        cases found : Entries.find? side.name entries with
        | none =>
            have empty : c.endpoint side = {} := (absent found).trans (by cases side <;> rfl)
            have said : Setting.said? entries (.endpoint side part) = none := by
              simp [Setting.said?, found]
            rw [said, get, get, empty]
            exact ⟨by simp, fun _ => by cases side <;> rfl⟩
        | some v =>
            have said : Setting.said? entries (.endpoint side part) =
                Entries.find? part.name (Endpoint.said v) := by
              simp [Setting.said?, found]
            obtain ⟨given, missing⟩ :=
              Endpoint.said_of_ofToml (distinct.of_find found) (present v found) part
            rw [said]
            exact ⟨given, fun none => (missing none).trans (by cases side <;> rfl)⟩
    | _ => exact absurd (by decide) known

/-! ## Files -/

namespace File

/-- What the document in a file says; without a file nothing is said. -/
inductive Holds (files : Files) : Option String → Entries → Prop where
  | unnamed : Holds files none []
  | named {path text : String} {entries : Entries} (content : files path = .ok (Text.utf8 text))
      (parses : parse? text = some entries) : Holds files (some path) entries

theorem readText_eq_ok {files : Files} {path text : String} (reads : readText files path = .ok text) :
    files path = .ok (Text.utf8 text) := by
  unfold readText at reads
  cases content : files path with
  | error cause => rw [content] at reads; cases reads
  | ok bytes =>
      rw [content] at reads
      simp only [bind, Except.bind] at reads
      split at reads
      · rename_i found
        cases reads
        rw [Text.utf8_of_ofUtf8? found]
      · cases reads

theorem load_of_content {files : Files} {path text : String} {config : Config}
    (content : files path = .ok (Text.utf8 text)) (reads : Config.ofToml? text = some config) :
    load files (some path) = .ok config := by
  have read : readText files path = .ok text := by
    simp [readText, content, Text.ofUtf8?_utf8, bind, Except.bind]
  simp only [load, read, reads]

/-- Every setting of a configuration that has been loaded is what the file says, or the default. -/
theorem said_or_default {files : Files} {path? : Option String}
    (loads : load files path? = .ok c) :
    ∃ entries, Holds files path? entries ∧ ∀ s : Setting,
      (∀ v, s.said? entries = some v → s.kind.ofToml? v = some (c.get s)) ∧
        (s.said? entries = none → c.get s = ({} : Config).get s) := by
  cases path? with
  | none =>
      cases loads
      refine ⟨[], .unnamed, fun s => ⟨fun v said => ?_, fun _ => rfl⟩⟩
      cases s <;> cases said
  | some path =>
      simp only [load] at loads
      split at loads
      · cases loads
      · rename_i text reads
        split at loads
        · cases loads
        · rename_i config reads'
          cases loads
          obtain ⟨entries, parses, sets⟩ := Option.bind_eq_some_iff.1 reads'
          exact ⟨entries, .named (readText_eq_ok reads) parses,
            said_of_foldlM (distinct_of_parse parses) sets⟩

end File

end Config

end ReplicaDiff
