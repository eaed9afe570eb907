/-
# ReplicaDiff.Proofs.CommandLine.Passwords — what nobody sees of a password

Of two configurations that differ in nothing but their passwords
(`Config.AlikeButPasswords`) one is the other with new passwords
(`Config.AlikeButPasswords.eq_withPasswords`), so that it is enough to see that no
step of a run looks at them.  Only a connector is handed an endpoint as a whole,
and none of the two looks at its password (`Connector.IgnoresPasswords`).

A check tells one thing more: whether there is a password on a side
(`Config.HideAlike`).
-/
import ReplicaDiff.Config.Shown
import ReplicaDiff.Proofs.CommandLine.CheckConfig

namespace ReplicaDiff

set_option autoImplicit false

namespace Config

/-- Two configurations that differ in nothing but their passwords. -/
def AlikeButPasswords (c c' : Config) : Prop :=
  ∀ s : Setting, (∀ side, s ≠ .endpoint side .password) → c.get s = c'.get s

/-- On each side both configurations have a password, or neither has. -/
def HideAlike (c c' : Config) : Prop :=
  ∀ side, (c.endpoint side).password = "" ↔ (c'.endpoint side).password = ""

/-- A configuration with new passwords. -/
def withPasswords (c : Config) (passwords : Side → String) : Config :=
  (c.set (.endpoint .source .password) (passwords .source)).set (.endpoint .target .password)
    (passwords .target)

variable {c c' : Config}

theorem AlikeButPasswords.eq_withPasswords (alike : c.AlikeButPasswords c') :
    c' = c.withPasswords fun side => (c'.endpoint side).password := by
  refine ext_get fun s => ?_
  by_cases secret : ∃ side, s = .endpoint side .password
  · obtain ⟨side, rfl⟩ := secret
    cases side <;> rfl
  · have plain : ∀ side, s ≠ .endpoint side .password := fun side same => secret ⟨side, same⟩
    rw [withPasswords, get_set_of_ne _ _ (plain .target), get_set_of_ne _ _ (plain .source)]
    exact (alike s plain).symm

theorem shown_withPasswords (c : Config) (passwords : Side → String) :
    (c.withPasswords passwords).shown = c.shown :=
  rfl

theorem endpoint_shown_withPasswords (c : Config) (passwords : Side → String) (side : Side) :
    ((c.withPasswords passwords).endpoint side).shown = (c.endpoint side).shown := by
  cases side <;> rfl

theorem validate_withPasswords (c : Config) (passwords : Side → String) :
    (c.withPasswords passwords).validate = c.validate :=
  rfl

theorem endpoint_withPasswords (c : Config) (passwords : Side → String) (side : Side) :
    (c.withPasswords passwords).endpoint side =
      { c.endpoint side with password := passwords side } := by
  cases side <;> rfl

end Config

/-! ## Runs -/

/-- A connector that opens the same store whatever the password. -/
def Connector.IgnoresPasswords (connector : Connector) : Prop :=
  ∀ files side endpoint password,
    connector files side { endpoint with password := password } = connector files side endpoint

theorem Connector.snapshots_ignoresPasswords : snapshots.IgnoresPasswords :=
  fun _ _ _ _ => rfl

theorem Connector.ofStores_ignoresPasswords (source target : Store) (refused : Option Side) :
    (ofStores source target refused).IgnoresPasswords :=
  fun _ _ _ _ => rfl

namespace Run

variable {connector : Connector} (ignores : connector.IgnoresPasswords) (c : Config)
  (passwords : Side → String)

include ignores

theorem connect_withPasswords (files : Files) (side : Side) :
    connect (c.withPasswords passwords) connector files side = connect c connector files side := by
  have opens := ignores files side (c.endpoint side) (passwords side)
  simp only [connect, Config.endpoint_withPasswords, opens]

theorem prepare_withPasswords (files : Files) :
    prepare (c.withPasswords passwords) connector files = prepare c connector files := by
  have path : (c.withPasswords passwords).inputKeysPath = c.inputKeysPath := rfl
  simp only [prepare, connect_withPasswords ignores, path]

omit ignores in
theorem verify_withPasswords (setup : Setup) :
    verify (c.withPasswords passwords) setup = verify c setup := by
  have team : workers (c.withPasswords passwords) setup.keys = workers c setup.keys := rfl
  have ends (team : List Worker) (world : World Worker.State WorkerEffect) :
      Verified.ofWorld (c.withPasswords passwords) setup.keys.length team world =
        Verified.ofWorld c setup.keys.length team world := rfl
  simp only [verify, team, ends]

theorem check_withPasswords (files : Files) :
    check (c.withPasswords passwords) connector files = check c connector files := by
  have shares (keys : List String) : shares? (c.withPasswords passwords) keys = shares? c keys := rfl
  simp only [check, prepare_withPasswords ignores, shares, verify_withPasswords]

/-- Nothing that a run leaves behind depends on the passwords. -/
theorem execute_withPasswords (tree : FileTree) :
    execute (c.withPasswords passwords) connector tree = execute c connector tree := by
  have layout : (c.withPasswords passwords).outputLayout = c.outputLayout := rfl
  unfold execute
  rw [check_withPasswords ignores, layout]
  -- Of a run that breaks off it is told with how many workers and in what batches it began.
  rcases check c connector tree.read with ⟨_ | _ | _, said⟩ <;> rfl

end Run

namespace CommandLine

/-! ## Command lines -/

variable {c c' : Config}

/-- With the passwords out of sight nothing is left but whether there are any. -/
theorem withoutPasswords_alike (alike : c.AlikeButPasswords c') (hide : c.HideAlike c') :
    withoutPasswords c = withoutPasswords c' := by
  have hidden := redacted_withoutPasswords c
  have hidden' := redacted_withoutPasswords c'
  refine Config.ext_get fun s => ?_
  by_cases secret : ∃ side, s = .endpoint side .password
  · obtain ⟨side, rfl⟩ := secret
    simp only [Config.get, Endpoint.get, hidden.password side, hidden'.password side, hide side]
  · have plain : ∀ side, s ≠ .endpoint side .password := fun side same => secret ⟨side, same⟩
    rw [hidden.other s plain, hidden'.other s plain, alike s plain]

/-- A command line asks for work with a configuration, to be told of as the flags have it. -/
def Asks (tokens : List String) (files : Files) (command : Command) (flags : Flags)
    (config : Config) : Prop :=
  ∃ a, Arguments.read tokens = .ok a ∧ a.command = command ∧ a.flags = flags ∧
    resolve files a = .ok config

variable {files files' : Files} {a a' : Arguments}

theorem validate_alike (alike : c.AlikeButPasswords c') : c'.validate = c.validate := by
  rw [alike.eq_withPasswords]
  exact c.validate_withPasswords _

theorem resolveValid_of_resolve (resolves : resolve files a = .ok c) :
    resolveValid files a =
      match c.validate with
      | .ok () => .ok c
      | .error reason => .error (.refused (.invalidConfig reason)) := by
  simp only [resolveValid, resolves, bind, Except.bind, Run.accept]
  cases c.validate <;> rfl

/-- A run does the same with both configurations. -/
theorem perform_alike (alike : c.AlikeButPasswords c') (tree : FileTree)
    (asks : a.command = .run) (asks' : a'.command = .run)
    (resolves : resolve tree.read a = .ok c) (resolves' : resolve tree.read a' = .ok c') :
    a'.perform tree = a.perform tree := by
  have valid := resolveValid_of_resolve resolves
  have valid' := resolveValid_of_resolve resolves'
  rw [validate_alike alike] at valid'
  cases accepts : c.validate with
  | error reason =>
      rw [accepts] at valid valid'
      rw [perform_of_unresolved asks valid, perform_of_unresolved asks' valid']
  | ok =>
      rw [accepts] at valid valid'
      rw [perform_of_resolved asks valid, perform_of_resolved asks' valid', alike.eq_withPasswords,
        Run.execute_withPasswords Connector.snapshots_ignoresPasswords]

/-- A check shows the same of both configurations, or fails for the same reason. -/
theorem showConfig_alike (alike : c.AlikeButPasswords c') (hide : c.HideAlike c')
    (resolves : resolve files a = .ok c) (resolves' : resolve files' a' = .ok c') :
    showConfig files' a' = showConfig files a := by
  have valid := resolveValid_of_resolve resolves
  have valid' := resolveValid_of_resolve resolves'
  rw [validate_alike alike] at valid'
  unfold showConfig
  rw [valid, valid']
  cases c.validate with
  | error reason => rfl
  | ok => simp only [bind, Except.bind, withoutPasswords_alike alike hide]

/-- Of two configurations that differ in nothing but their passwords everything shown is the same.
A run accepts both or refuses both for the same reason, and leaves the same behind: how it ended,
what it told, and the files; this holds for snapshots and for stores in memory, and for the program.
A check ends in the same way if it finds passwords on the same sides. -/
theorem passwords_unseen (alike : c.AlikeButPasswords c') :
    (c.shown = c'.shown ∧ Run.shown c = Run.shown c' ∧
      ∀ side, (c.endpoint side).shown = (c'.endpoint side).shown) ∧
    (∀ error, Run.accept c = .error error ↔ Run.accept c' = .error error) ∧
    (∀ tree, Run.execute c .snapshots tree = Run.execute c' .snapshots tree ∧
      ∀ source target refused, Run.execute c (.ofStores source target refused) tree =
        Run.execute c' (.ofStores source target refused) tree) ∧
    (∀ environment tree tokens tokens' flags, Asks tokens tree.read .run flags c →
      Asks tokens' tree.read .run flags c' →
      execute environment tree tokens = execute environment tree tokens') ∧
    (c.HideAlike c' → ∀ environment tree tree' tokens tokens' flags,
      Asks tokens tree.read .checkConfig flags c → Asks tokens' tree'.read .checkConfig flags c' →
      execute environment tree tokens =
        { execute environment tree' tokens' with tree := tree }) := by
  refine ⟨⟨?_, ?_, fun side => ?_⟩, fun error => ?_, fun tree => ⟨?_, fun source target refused => ?_⟩,
    fun environment tree tokens tokens' flags asks asks' => ?_,
    fun hide environment tree tree' tokens tokens' flags asks asks' => ?_⟩
  · rw [alike.eq_withPasswords, Config.shown_withPasswords]
  · rw [Run.shown, Run.shown, alike.eq_withPasswords, Config.shown_withPasswords]
  · rw [alike.eq_withPasswords, Config.endpoint_shown_withPasswords]
  · simp only [Run.accept, validate_alike alike]
    cases c.validate <;> simp
  · rw [alike.eq_withPasswords, Run.execute_withPasswords Connector.snapshots_ignoresPasswords]
  · rw [alike.eq_withPasswords,
      Run.execute_withPasswords (Connector.ofStores_ignoresPasswords source target refused)]
  · obtain ⟨a, reads, runs, rfl, resolves⟩ := asks
    obtain ⟨a', reads', runs', flags, resolves'⟩ := asks'
    simp only [execute, reads, reads', Arguments.filter, flags,
      perform_alike alike tree runs runs' resolves resolves']
  · obtain ⟨a, reads, checks, rfl, resolves⟩ := asks
    obtain ⟨a', reads', checks', flags, resolves'⟩ := asks'
    rw [execute_of_check environment tree reads checks,
      execute_of_check environment tree' reads' checks', Arguments.filter, Arguments.filter, flags,
      showConfig_alike alike hide resolves resolves']
    unfold Work.ending
    cases showConfig tree.read a <;> rfl

/-- A command line for two snapshots, with a password on one side. -/
def withSourcePassword (command : Command) (password : String) : List String :=
  [command.name, "--source-url", "file:///a", "--source-bucket", "b",
    "--source-password=" ++ password, "--target-url", "file:///c", "--target-bucket", "d"]

/-- The configuration that it asks for. -/
def sourcePasswordConfig (password : String) : Config where
  source := { url := "file:///a", bucket := "b", password := password }
  target := { url := "file:///c", bucket := "d" }

/-- A password that is also a url makes no more difference than one of characters that stand in
quotes in another way. -/
theorem passwords_unseen_url_or_quotes :
    execute (fun _ => none) (.bare []) (withSourcePassword .run "file:///c") =
      execute (fun _ => none) (.bare []) (withSourcePassword .run "\"\n\\") ∧
    (execute (fun _ => none) (.bare []) (withSourcePassword .checkConfig "file:///c")).output =
      (execute (fun _ => none) (.bare []) (withSourcePassword .checkConfig "\"\n\\")).output := by
  have alike : (sourcePasswordConfig "file:///c").AlikeButPasswords
      (sourcePasswordConfig "\"\n\\") := by
    intro s plain
    rcases s with ⟨_ | _, _ | _ | _ | _⟩ | _ | _ | _ | _ | _ | _ | _ | _ | _ | _
    all_goals first | rfl | exact absurd rfl (plain _)
  have hide : (sourcePasswordConfig "file:///c").HideAlike (sourcePasswordConfig "\"\n\\") := by
    intro side
    cases side <;> decide
  have asks (command : Command) : Asks (withSourcePassword command "file:///c")
      (FileTree.bare []).read command {} (sourcePasswordConfig "file:///c") := by
    cases command <;> exact ⟨_, rfl, rfl, rfl, rfl⟩
  have asks' (command : Command) : Asks (withSourcePassword command "\"\n\\")
      (FileTree.bare []).read command {} (sourcePasswordConfig "\"\n\\") := by
    cases command <;> exact ⟨_, rfl, rfl, rfl, rfl⟩
  obtain ⟨-, -, -, runs, checks⟩ := passwords_unseen alike
  exact ⟨runs _ _ _ _ _ (asks .run) (asks' .run),
    congrArg Ending.output (checks hide _ _ _ _ _ _ (asks .checkConfig) (asks' .checkConfig))⟩

end CommandLine

end ReplicaDiff
