/-
# ReplicaDiff.Proofs.Config.Toml — settings written as TOML are read back

A setting can be written if TOML has an integer for it (`Setting.Kind.Fits`), and
what is written stands for a value that gives the setting back, where a span of
time is a number of milliseconds (`Setting.Kind.ofToml_value`).  The document of a
configuration is read line by line into one table with a table for each endpoint
(`parse_document`), and setting what it says makes the configuration again, since
every setting is named in it (`ofToml_toToml`).
-/
import ReplicaDiff.Config.File
import ReplicaDiff.Config.Overrides
import ReplicaDiff.Proofs.Toml.Reader

namespace ReplicaDiff

set_option autoImplicit false

open ReplicaDiff.Toml

/-- A span of time that is a number of milliseconds. -/
def Duration.InMillis (d : Duration) : Prop := ∃ ms : UInt64, d = .ofMillis ms

namespace Setting.Kind

/-- A value that TOML has room for. -/
def Fits : (k : Kind) → k.Value → Prop
  | .text, _ => True
  | .path, _ => True
  | .count, n => n.toNat ≤ maxInteger
  | .repeats, _ => True
  | .millis, d => d.millis.toNat ≤ maxInteger

instance : (k : Kind) → (x : k.Value) → Decidable (k.Fits x)
  | .text, _ => .isTrue trivial
  | .path, _ => .isTrue trivial
  | .count, n => inferInstanceAs (Decidable (n.toNat ≤ maxInteger))
  | .repeats, _ => .isTrue trivial
  | .millis, d => inferInstanceAs (Decidable (d.millis.toNat ≤ maxInteger))

/-- A value that is not rounded when it is written. -/
def Exact : (k : Kind) → k.Value → Prop
  | .millis, d => d.InMillis
  | _, _ => True

/-- How a value is written, if there is room for it. -/
def written : (k : Kind) → k.Value → String
  | .text, s => writeText s
  | .path, s => writeText s
  | .count, n => toString n.toNat
  | .repeats, n => toString n.toNat
  | .millis, d => toString d.millis.toNat

/-- What a written value stands for. -/
def value : (k : Kind) → k.Value → Toml.Value
  | .text, s => .text s
  | .path, s => .text s
  | .count, n => .integer n.toNat
  | .repeats, n => .integer n.toNat
  | .millis, d => .integer d.millis.toNat

variable {k : Kind} {x : k.Value}

theorem repeats_le (n : UInt32) : n.toNat ≤ maxInteger :=
  Nat.le_trans (Nat.le_of_lt n.toNat_lt) (by decide)

theorem toToml_of_fits (fits : k.Fits x) : k.toToml? x = some (k.written x) := by
  cases k with
  | text => rfl
  | path => rfl
  | count => exact if_pos fits
  | repeats => exact if_pos (repeats_le x)
  | millis => exact if_pos fits

theorem toToml_of_not_fits (large : ¬k.Fits x) : k.toToml? x = none := by
  cases k with
  | text => exact absurd trivial large
  | path => exact absurd trivial large
  | count => exact if_neg large
  | repeats => exact absurd trivial large
  | millis => exact if_neg large

theorem reads_written (fits : k.Fits x) : Reads (k.written x).toList (k.value x) := by
  cases k with
  | text => exact reads_text x
  | path => exact reads_text x
  | count => exact reads_integer fits
  | repeats => exact reads_integer (repeats_le x)
  | millis => exact reads_integer fits

theorem word_integer (n : UInt64) : (Toml.Value.integer n.toNat).word? = some n := by
  have small := n.toNat_lt
  simp only [Toml.Value.word?, Toml.Value.unsigned?]
  rw [if_pos (by omega)]
  simp

/-- A written value is got back from what it stands for. -/
theorem ofToml_value (exact : k.Exact x) : k.ofToml? (k.value x) = some x := by
  cases k with
  | text => rfl
  | path => rfl
  | count => exact word_integer x
  | repeats =>
      have small := UInt32.toNat_lt x
      simp only [ofToml?, value, Toml.Value.unsigned?]
      rw [if_pos (by omega)]
      simp
  | millis =>
      obtain ⟨ms, rfl⟩ := exact
      simp only [ofToml?, value, Duration.millis_ofMillis, word_integer, Option.map_some]

end Setting.Kind

/-! ## The document -/

namespace Endpoint

/-- The entries of an endpoint. -/
def entries (e : Endpoint) : List WrittenEntry :=
  Part.all.map fun part => ⟨part.name, writeText (e.get part), .text (e.get part)⟩

theorem entries_readBack (e : Endpoint) : ∀ entry ∈ e.entries, entry.ReadBack := by
  intro entry mem
  obtain ⟨part, known, rfl⟩ := List.mem_map.1 mem
  have bare : ∀ p ∈ Part.all, Bare p.name := by decide
  exact ⟨bare part known, reads_text _⟩

theorem keys_entries (e : Endpoint) : e.entries.map (·.key) = Part.all.map Part.name := by
  rw [entries, List.map_map]
  rfl

/-- An endpoint is read as a table of its parts. -/
theorem advances_toToml (e : Endpoint) {name : String} (bare : Bare name) {entries : Entries}
    {header : List String} (new : Entries.find? name entries = none) :
    Advances ⟨entries, header⟩ (e.toToml name).toList
      ⟨Entries.add name (.table .header (WrittenEntry.table e.entries)) entries, [name]⟩ := by
  have text : (e.toToml name).toList = ['\n'] ++
      ('[' :: (name.toList ++ [']', '\n']) ++ e.entries.flatMap (·.text.toList)) := by
    simp [toToml, Endpoint.entries, String.toList_join, List.flatMap_map, WrittenEntry.text]
  have nodup : (e.entries.map (·.key)).Nodup := by
    rw [keys_entries]
    decide
  rw [text]
  refine (advances_blank _).append ((advances_header bare (Entries.openTable_new new)).append ?_)
  exact advances_entries (place_table new) e.entries_readBack nodup fun _ _ => rfl

end Endpoint

namespace Config

/-- There is room in TOML for every setting. -/
def Fits (c : Config) : Prop := ∀ s : Setting, s.kind.Fits (c.get s)

instance (c : Config) : Decidable c.Fits :=
  decidable_of_iff (∀ s ∈ Setting.all, s.kind.Fits (c.get s))
    ⟨fun fits s => fits s (Setting.mem_all s), fun fits s _ => fits s⟩

/-- No setting is rounded when it is written. -/
def Exact (c : Config) : Prop := ∀ s : Setting, s.kind.Exact (c.get s)

/-- The entries of the settings that are not part of an endpoint. -/
def runEntries (c : Config) : List WrittenEntry :=
  Setting.ofRun.map fun s => ⟨s.key, s.kind.written (c.get s), s.kind.value (c.get s)⟩

/-- The document of a configuration. -/
def document (c : Config) : Entries :=
  ((WrittenEntry.table c.runEntries).add Side.source.name
    (.table .header (WrittenEntry.table c.source.entries))).add Side.target.name
      (.table .header (WrittenEntry.table c.target.entries))

variable {c : Config}

theorem runEntries_readBack (fits : c.Fits) : ∀ entry ∈ c.runEntries, entry.ReadBack := by
  intro entry mem
  obtain ⟨s, known, rfl⟩ := List.mem_map.1 mem
  have bare : ∀ s ∈ Setting.ofRun, Bare s.key := by decide
  exact ⟨bare s known, Setting.Kind.reads_written (fits s)⟩

theorem keys_runEntries (c : Config) : c.runEntries.map (·.key) = Setting.ofRun.map Setting.key := by
  rw [runEntries, List.map_map]
  rfl

/-- A configuration is written if there is room for each of its settings. -/
theorem toToml_of_fits (fits : c.Fits) : c.toToml? =
    some (String.join (c.runEntries.map (·.text)) ++ c.source.toToml Side.source.name ++
      c.target.toToml Side.target.name) := by
  have written (s : Setting) : (s.kind.toToml? (c.get s)).map (Toml.line s.key) =
      pure (Toml.line s.key (s.kind.written (c.get s))) := by
    rw [Setting.Kind.toToml_of_fits (fits s)]
    rfl
  have lines : c.runEntries.map (·.text) =
      Setting.ofRun.map fun s => Toml.line s.key (s.kind.written (c.get s)) := by
    rw [runEntries, List.map_map]
    rfl
  simp only [toToml?, written, List.mapM_pure, lines]
  rfl

theorem toToml_of_not_fits (large : ¬c.Fits) : c.toToml? = none := by
  obtain ⟨s, large⟩ := not_forall.1 large
  have known : s ∈ Setting.ofRun := by
    cases s with
    | endpoint side part => exact absurd trivial large
    | _ => decide
  obtain ⟨front, back, eq⟩ := List.append_of_mem known
  have missing : (s.kind.toToml? (c.get s)).map (Toml.line s.key) = none := by
    rw [Setting.Kind.toToml_of_not_fits large]
    rfl
  simp only [toToml?, eq, List.mapM_append, List.mapM_cons, missing]
  cases front.mapM fun s => (s.kind.toToml? (c.get s)).map (Toml.line s.key) <;> rfl

/-- The document of a configuration is read as its table. -/
theorem parse_toToml {text : String} (fits : c.Fits) (writes : c.toToml? = some text) :
    parse? (text ++ "\n") = some c.document := by
  rw [toToml_of_fits fits] at writes
  obtain rfl := Option.some.inj writes
  have nodup : (c.runEntries.map (·.key)).Nodup := by
    rw [keys_runEntries]
    decide
  have settings : Advances ⟨[], []⟩ (c.runEntries.flatMap (·.text.toList))
      ⟨WrittenEntry.table c.runEntries, []⟩ :=
    advances_entries place_top (runEntries_readBack fits) nodup fun _ _ => rfl
  have unlisted {name : String} (other : name ∉ Setting.ofRun.map Setting.key) :
      Entries.find? name (WrittenEntry.table c.runEntries) = none :=
    WrittenEntry.find_table (by rwa [keys_runEntries])
  have source : Entries.find? Side.source.name (WrittenEntry.table c.runEntries) = none :=
    unlisted (by decide)
  have target : Entries.find? Side.target.name ((WrittenEntry.table c.runEntries).add
      Side.source.name (.table .header (WrittenEntry.table c.source.entries))) = none := by
    rw [Entries.find_add_of_ne (by decide)]
    exact unlisted (by decide)
  have whole := ((settings.append (c.source.advances_toToml (by decide) source)).append
    (c.target.advances_toToml (by decide) target)).append (advances_blank _)
  have chars : (String.join (c.runEntries.map (·.text)) ++ c.source.toToml Side.source.name ++
      c.target.toToml Side.target.name ++ "\n").toList =
        c.runEntries.flatMap (·.text.toList) ++ (c.source.toToml Side.source.name).toList ++
          (c.target.toToml Side.target.name).toList ++ ['\n'] := by
    simp [String.toList_join, List.flatMap_map]
  rw [← chars] at whole
  refine parse_of_advances whole ?_
  rw [chars, List.append_assoc, List.append_assoc]
  have bare : Bare Setting.diffFileDir.key := by decide
  rw [runEntries, Setting.ofRun, List.map_cons, List.flatMap_cons, List.append_assoc]
  exact unmarked_line bare _ _

end Config

/-! ## Setting what a document says -/

theorem Endpoint.ofToml_entries (e : Endpoint) (origin : Origin) :
    Endpoint.ofToml? (.table origin (WrittenEntry.table e.entries)) = some e := by
  have find : ∀ p ∈ Part.all, Part.all.find? (·.name = p.name) = some p := by decide
  have named (part : Part) (d : Endpoint) (s : String) :
      setToml d part.name (.text s) = some (d.set part s) := by
    rw [setToml, find part (by cases part <;> decide)]
    rfl
  simp only [ofToml?, WrittenEntry.table, entries, Part.all, List.map_cons, List.map_nil,
    List.foldlM_cons, List.foldlM_nil, named, Option.bind_eq_bind, Option.bind_some]
  rfl

namespace Config

variable {c : Config}

/-- An entry with the name of a setting gives the setting its value. -/
theorem setToml_setting {s : Setting} (known : s ∈ Setting.ofRun) {x : s.Value}
    (exact : s.kind.Exact x) (d : Config) :
    setToml d s.key (s.kind.value x) = some (d.set s x) := by
  have names : ∀ s ∈ Setting.ofRun, s.key ≠ Side.source.name ∧ s.key ≠ Side.target.name ∧
      Setting.ofRun.find? (·.key = s.key) = some s := by decide
  obtain ⟨source, target, find⟩ := names s known
  simp only [setToml, if_neg source, if_neg target, find, Setting.Kind.ofToml_value exact,
    Option.map_some]

/-- A table with the name of a side gives the side its endpoint. -/
theorem setToml_endpoint (d : Config) (side : Side) (e : Endpoint) (origin : Origin) :
    setToml d side.name (.table origin (WrittenEntry.table e.entries)) =
      some (d.setEndpoint side e) := by
  have read := e.ofToml_entries origin
  cases side with
  | source => simp only [setToml, if_pos, read, Option.map_some]
  | target =>
      have other : Side.target.name ≠ Side.source.name := by decide
      simp only [setToml, if_neg other, if_pos, read, Option.map_some]

/-- Every setting of a configuration, given to another. -/
theorem foldlM_settings (exact : c.Exact) {ss : List Setting} (known : ∀ s ∈ ss, s ∈ Setting.ofRun)
    (d : Config) :
    (ss.map fun s => (s.key, s.kind.value (c.get s))).foldlM (fun d (name, v) => setToml d name v) d =
      some (ss.foldl (overrideOne fun s => some (c.get s)) d) := by
  induction ss generalizing d with
  | nil => rfl
  | cons s ss ih =>
      have first := setToml_setting (known s List.mem_cons_self) (exact s) d
      simp only [List.map_cons, List.foldlM_cons, first]
      exact ih (fun t mem => known t (List.mem_cons_of_mem _ mem)) _

/-- The settings and the endpoints of a configuration make it up. -/
theorem eq_of_parts (c : Config) :
    ((Setting.ofRun.foldl (overrideOne fun s => some (c.get s)) {}).setEndpoint .source
      c.source).setEndpoint .target c.target = c := by
  refine ext_get fun s => ?_
  by_cases known : s ∈ Setting.ofRun
  · rw [get_setEndpoint_of_run known, get_setEndpoint_of_run known, get_foldl_overrideOne,
      if_pos known]
    rfl
  · cases s with
    | endpoint side part => cases side <;> rfl
    | _ => exact absurd (by decide) known

/-- Setting what the document of a configuration says makes the configuration. -/
theorem foldlM_document (exact : c.Exact) :
    c.document.foldlM (fun d (name, v) => setToml d name v) {} = some c := by
  have settings := foldlM_settings exact (fun _ mem => mem) {}
  have table : WrittenEntry.table c.runEntries =
      Setting.ofRun.map fun s => (s.key, s.kind.value (c.get s)) := by
    rw [WrittenEntry.table, runEntries, List.map_map]
    rfl
  rw [← table] at settings
  rw [document, Entries.add, Entries.add, List.foldlM_append, List.foldlM_append, settings]
  simp only [List.foldlM_cons, List.foldlM_nil, Option.bind_eq_bind, Option.bind_some,
    setToml_endpoint]
  exact congrArg some c.eq_of_parts

/-- A written configuration is read back as it is printed, with an empty line at its end. -/
theorem ofToml_toToml {text : String} (fits : c.Fits) (exact : c.Exact)
    (writes : c.toToml? = some text) : ofToml? (text ++ "\n") = some c := by
  simp only [ofToml?, parse_toToml fits writes, Option.bind_eq_bind, Option.bind_some]
  exact foldlM_document exact

end Config

/-! ## Configurations that are not rounded -/

theorem Setting.Kind.exact_of_ofToml {k : Kind} {v : Toml.Value} {x : k.Value}
    (reads : k.ofToml? v = some x) : k.Exact x := by
  cases k with
  | millis =>
      obtain ⟨ms, -, same⟩ := Option.map_eq_some_iff.1 reads
      exact ⟨ms, same.symm⟩
  | _ => exact trivial

namespace Config

variable {c d : Config}

theorem exact_default : Config.Exact {} := by
  intro s
  cases s with
  | retryInterval => exact ⟨500, rfl⟩
  | maxBackoff => exact ⟨5000, rfl⟩
  | reportInterval => exact ⟨5000, rfl⟩
  | _ => exact trivial

theorem Exact.set (exact : c.Exact) {s : Setting} {x : s.Value} (exact' : s.kind.Exact x) :
    (c.set s x).Exact := by
  intro t
  by_cases same : t = s
  · subst same
    rwa [get_set_self]
  · rw [get_set_of_ne c x same]
    exact exact t

theorem Exact.setEndpoint (exact : c.Exact) (side : Side) (e : Endpoint) :
    (c.setEndpoint side e).Exact := by
  intro t
  by_cases known : t ∈ Setting.ofRun
  · rw [get_setEndpoint_of_run known]
    exact exact t
  · cases t with
    | endpoint => exact trivial
    | _ => exact absurd (by decide) known

theorem Exact.setToml (exact : c.Exact) {name : String} {v : Toml.Value}
    (sets : c.setToml name v = some d) : d.Exact := by
  unfold Config.setToml at sets
  split_ifs at sets
  · obtain ⟨e, -, rfl⟩ := Option.map_eq_some_iff.1 sets
    exact exact.setEndpoint _ e
  · obtain ⟨e, -, rfl⟩ := Option.map_eq_some_iff.1 sets
    exact exact.setEndpoint _ e
  · split at sets
    · obtain ⟨x, reads, rfl⟩ := Option.map_eq_some_iff.1 sets
      exact exact.set (Setting.Kind.exact_of_ofToml reads)
    · cases sets
      exact exact

theorem Exact.foldlM (exact : d.Exact) {entries : Entries}
    (sets : entries.foldlM (fun d (name, v) => Config.setToml d name v) d = some c) : c.Exact := by
  induction entries generalizing d with
  | nil =>
      cases sets
      exact exact
  | cons e entries ih =>
      rw [List.foldlM_cons] at sets
      obtain ⟨d', first, rest⟩ := Option.bind_eq_some_iff.1 sets
      exact ih (exact.setToml first) rest

/-- What is read from a document is not rounded. -/
theorem exact_of_ofToml {text : String} (reads : ofToml? text = some c) : c.Exact := by
  obtain ⟨entries, -, sets⟩ := Option.bind_eq_some_iff.1 reads
  exact exact_default.foldlM sets

theorem exact_of_load {files : Files} {path? : Option String}
    (loads : File.load files path? = .ok c) : c.Exact := by
  cases path? with
  | none =>
      cases loads
      exact exact_default
  | some path =>
      simp only [File.load] at loads
      repeat' split at loads
      all_goals cases loads
      exact exact_of_ofToml ‹_›

theorem Exact.override (exact : c.Exact) {o : Overrides}
    (exact' : ∀ s x, o s = some x → s.kind.Exact x) : (c.override o).Exact := by
  intro s
  rw [get_override]
  cases overridden : o s with
  | none => exact exact s
  | some x => exact exact' s x overridden

end Config

end ReplicaDiff
