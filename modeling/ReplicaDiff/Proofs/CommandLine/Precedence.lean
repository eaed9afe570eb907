/-
# ReplicaDiff.Proofs.CommandLine.Precedence — option, then file, then default

A configuration is made up in three layers: an option of the command line decides
its own setting, the configuration file decides the settings of which it says
something and for which there is no option, and all other settings have their
defaults (`Precedence`).  This determines every setting, so that the order of the
options does not matter (`settings_by_precedence`).
-/
import ReplicaDiff.CommandLine.Program
import ReplicaDiff.Proofs.CommandLine.Options
import ReplicaDiff.Proofs.Config.File

namespace ReplicaDiff.CommandLine

set_option autoImplicit false

/-- The configuration file that options name, if they name one. -/
def configFile? (given : List Given) : Option String :=
  (given.find? (·.choice = .configFile)).map (·.text)

/-- Where a setting comes from: from its own option, from the file or from the defaults. -/
structure Precedence (given : List Given) (entries : Toml.Entries) (config : Config) (s : Setting) :
    Prop where
  option : ∀ g ∈ given, g.choice = .setting s → Means g.text s.kind (config.get s)
  file : (∀ g ∈ given, g.choice ≠ .setting s) → ∀ v, s.said? entries = some v →
    s.kind.ofToml? v = some (config.get s)
  default : (∀ g ∈ given, g.choice ≠ .setting s) → s.said? entries = none →
    config.get s = ({} : Config).get s

/-- A text means one value at most. -/
theorem Means.unique {text : String} {k : Setting.Kind} {v w : k.Value} (means : Means text k v)
    (means' : Means text k w) : v = w := by
  have parses := parseValue_eq_ok_iff.2 means
  rw [parseValue_eq_ok_iff.2 means'] at parses
  exact (Except.ok.inj parses).symm

variable {given : List Given} {base : Config}

theorem configFile_of_read {a : Arguments}
    (values : ∀ g ∈ given, ∃ v, a.choices g.choice = some v ∧ Means g.text g.choice.kind v)
    (others : ∀ c ∉ given.map Given.choice, a.choices c = none) :
    a.choices .configFile = configFile? given := by
  unfold configFile?
  cases found : given.find? (·.choice = .configFile) with
  | none =>
      refine others _ fun mem => ?_
      obtain ⟨g, mem, named⟩ := List.mem_map.1 mem
      simpa [named] using List.find?_eq_none.1 found g mem
  | some g =>
      have named := List.find?_some found
      obtain ⟨choice, text, joined⟩ := g
      obtain rfl : choice = .configFile := of_decide_eq_true named
      obtain ⟨v, value, same, -⟩ := values _ (List.mem_of_find?_eq_some found)
      exact value.trans (congrArg some same)

/-- What options make of a configuration: an option decides its setting, and no other. -/
structure Decided (given : List Given) (base config : Config) : Prop where
  own : ∀ g ∈ given, ∀ s, g.choice = .setting s → Means g.text s.kind (config.get s)
  other : ∀ s, (∀ g ∈ given, g.choice ≠ .setting s) → config.get s = base.get s

theorem decided_of_read {a : Arguments}
    (values : ∀ g ∈ given, ∃ v, a.choices g.choice = some v ∧ Means g.text g.choice.kind v)
    (others : ∀ c ∉ given.map Given.choice, a.choices c = none) :
    Decided given base (a.config base) where
  own g mem s named := by
    obtain ⟨choice, text, joined⟩ := g
    subst named
    obtain ⟨v, value, means⟩ := values _ mem
    have own : (a.config base).get s = v := by
      rw [Arguments.config, Config.get_override, Choices.overrides, value]
      rfl
    exact own ▸ means
  other s none := by
    have absent : Choice.setting s ∉ given.map Given.choice := by
      intro mem
      obtain ⟨g, mem, named⟩ := List.mem_map.1 mem
      exact none g mem named
    rw [Arguments.config, Config.get_override, Choices.overrides, others _ absent]
    rfl

/-- The options decide the whole configuration. -/
theorem Decided.unique {config config' : Config} (h : Decided given base config)
    (h' : Decided given base config') : config' = config := by
  refine Config.ext_get fun s => ?_
  by_cases named : ∃ g ∈ given, g.choice = .setting s
  · obtain ⟨g, mem, named⟩ := named
    exact (h'.own g mem s named).unique (h.own g mem s named)
  · have none : ∀ g ∈ given, g.choice ≠ .setting s := fun g mem is => named ⟨g, mem, is⟩
    rw [h'.other s none, h.other s none]

/-- A command line of options resolves to what they make of the configuration of the file that they
name, in whatever order they stand. -/
theorem resolve_given (command : Command) (accepted : ∀ g ∈ given, g.Accepted)
    (distinct : (given.map Given.choice).Nodup) {files : Files}
    (loads : Config.File.load files (configFile? given) = .ok base) {given' : List Given}
    (perm : given'.Perm given) :
    ∃ a config, Arguments.read (command.name :: given'.flatMap Given.tokens) = .ok a ∧
      a.command = command ∧ resolve files a = .ok config ∧ Decided given base config := by
  obtain ⟨a, reads, asks, values', others'⟩ := read_given command
    (fun g mem => accepted g (perm.mem_iff.1 mem)) ((perm.map Given.choice).nodup_iff.2 distinct)
  have values : ∀ g ∈ given, ∃ v, a.choices g.choice = some v ∧ Means g.text g.choice.kind v :=
    fun g mem => values' g (perm.mem_iff.2 mem)
  have others : ∀ c ∉ given.map Given.choice, a.choices c = none :=
    fun c absent => others' c fun mem => absent ((perm.map Given.choice).mem_iff.1 mem)
  refine ⟨a, a.config base, reads, asks, ?_, decided_of_read values others⟩
  rw [resolve, configFile_of_read values others, loads]

/-- A command and options, each at most once, with texts that mean values, and with a configuration
file that can be loaded, if one is named: every setting is what its own option means, or else what
the file says of it, or else its default.  The same settings come of the options in any order. -/
theorem settings_by_precedence (command : Command) (accepted : ∀ g ∈ given, g.Accepted)
    (distinct : (given.map Given.choice).Nodup) {files : Files}
    (loads : Config.File.load files (configFile? given) = .ok base) :
    ∃ entries config, Config.File.Holds files (configFile? given) entries ∧
      (∀ s, Precedence given entries config s) ∧
      ∀ given' : List Given, given'.Perm given →
        ∃ a, Arguments.read (command.name :: given'.flatMap Given.tokens) = .ok a ∧
          a.command = command ∧ resolve files a = .ok config := by
  obtain ⟨entries, holds, file⟩ := Config.File.said_or_default loads
  obtain ⟨-, config, -, -, -, decided⟩ := resolve_given command accepted distinct loads (.refl _)
  refine ⟨entries, config, holds, fun s => ?_, fun given' perm => ?_⟩
  · obtain ⟨said, unsaid⟩ := file s
    refine ⟨fun g mem => decided.own g mem s, fun none v saying => ?_, fun none silent => ?_⟩
    · rw [decided.other s none]
      exact said v saying
    · rw [decided.other s none]
      exact unsaid silent
  · obtain ⟨a, config', reads, asks, resolves, decided'⟩ :=
      resolve_given command accepted distinct loads perm
    exact ⟨a, reads, asks, decided.unique decided' ▸ resolves⟩

/-- A file that says something of three settings. -/
def threeSettings : String :=
  "batch_size = 25\nsend_batch_retry_interval_ms = 200\n\n[source]\nbucket = \"default\"\n"

/-- That file and two options, for one of which it has a value. -/
def threeSettingsAndTwo : List Given :=
  [⟨.configFile, "xdiff.toml", false⟩, ⟨.setting .batchSize, "50", true⟩,
    ⟨.setting .maxBackoff, "+750", false⟩]

/-- The last options first: one option decides against the file, the other against a default. -/
theorem settings_by_precedence_file_and_two :
    ∃ a config, Arguments.read ["run", "--max-backoff-ms", "+750", "--batch-size=50", "--config",
        "xdiff.toml"] = .ok a ∧
      resolve (fun _ => .ok (Text.utf8 threeSettings)) a = .ok config ∧
      config.batchSize.toNat = 50 ∧ config.maxBackoff.toNanos = 750000000 ∧
      config.retryInterval = .ofMillis 200 ∧ config.numWorkers = 10 := by
  have accepted : ∀ g ∈ threeSettingsAndTwo, g.Accepted := by
    have plain : LooksPlain "xdiff.toml" ∧ LooksPlain "+750" :=
      ⟨fun _ dash => absurd dash (by simp), fun _ dash => absurd dash (by simp)⟩
    simp only [threeSettingsAndTwo, List.forall_mem_cons, List.not_mem_nil, false_implies,
      implies_true, and_true]
    exact ⟨⟨⟨_, rfl, by decide⟩, fun _ => plain.1⟩, ⟨⟨(50 : UInt64), rfl⟩, nofun⟩,
      ⟨⟨.ofMillis 750, 750, by decide, rfl, rfl⟩, fun _ => plain.2⟩⟩
  have loads : Config.File.load (fun _ => .ok (Text.utf8 threeSettings))
      (configFile? threeSettingsAndTwo) = .ok
        { source := { bucket := "default" }, batchSize := 25, retryInterval := .ofMillis 200 } :=
    Config.File.load_of_content rfl (by decide +kernel)
  obtain ⟨entries, config, holds, decides, anyOrder⟩ :=
    settings_by_precedence .run accepted (by decide) loads
  obtain ⟨a, reads, -, resolves⟩ := anyOrder threeSettingsAndTwo.reverse (List.reverse_perm _)
  have parses : Toml.parse? threeSettings = some entries := by
    cases holds with
    | named content parses =>
        have same := congrArg Text.ofUtf8? (Except.ok.inj content)
        rw [Text.ofUtf8?_utf8, Text.ofUtf8?_utf8, Option.some.injEq] at same
        exact same ▸ parses
  have interval : ((Toml.parse? threeSettings).bind fun entries =>
      (Setting.said? entries .retryInterval).bind Toml.Value.word?) = some 200 := by decide +kernel
  have workers : ((Toml.parse? threeSettings).map fun entries =>
      (Setting.said? entries .numWorkers).isNone) = some true := by decide +kernel
  rw [parses, Option.bind_some] at interval
  rw [parses, Option.map_some] at workers
  refine ⟨a, config, reads, resolves, ?_, ?_, ?_, ?_⟩
  · have means := (decides .batchSize).option ⟨.setting .batchSize, "50", true⟩ (by decide) rfl
    exact (Option.some.inj means).symm
  · obtain ⟨n, -, number, nanos⟩ :=
      (decides .maxBackoff).option ⟨.setting .maxBackoff, "+750", false⟩ (by decide) rfl
    cases Option.some.inj number
    exact nanos
  · obtain ⟨v, said, word⟩ := Option.bind_eq_some_iff.1 interval
    have value := (decides .retryInterval).file (by decide) v said
    rw [Setting.Kind.ofToml?, word] at value
    exact (Option.some.inj value).symm
  · exact (decides .numWorkers).default (by decide) (Option.isNone_iff_eq_none.1
      (Option.some.inj workers))

end ReplicaDiff.CommandLine
