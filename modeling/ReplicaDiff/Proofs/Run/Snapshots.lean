/-
# ReplicaDiff.Proofs.Run.Snapshots — what a run finds between two snapshots

The stores of two snapshots answer at once.  Whatever the size of the batches, the
deadline and the retries, and for as many workers as there can be shares: a run
reports the difference of two finite maps at the listed keys (`DiffSet.between`),
and no error keys (`snapshots_compared`).
-/
import ReplicaDiff.Proofs.Connector
import ReplicaDiff.Proofs.Run.Answers

namespace ReplicaDiff

set_option autoImplicit false

open ReplicaDiff.World

namespace DiffSet

/-- The difference of two maps at some keys. -/
def between (keys : List String) (source target : String → Option Document) : DiffSet where
  missingFromSource := .tabulate keys fun key =>
    match source key with
    | none => target key
    | some _ => none
  missingFromTarget := .tabulate keys fun key =>
    match target key with
    | none => source key
    | some _ => none
  mismatch := .tabulate keys fun key =>
    match source key, target key with
    | some s, some t =>
        if s.value ≠ t.value ∨ s.flags ≠ t.flags ∨ s.datatype ≠ t.datatype ∨ s.cas ≠ t.cas then
          some (s, t)
        else none
    | _, _ => none

/-- The difference of two buckets tells of its keys how the answers of the buckets compare. -/
theorem between_tells (keys : List String) (source target : Bucket) {key : String}
    (mem : key ∈ keys) :
    (between keys source.documents.find? target.documents.find?).Tells key
      (compareOutcomes (source.get key) (target.get key)) := by
  have absent : FetchError.notFound.isNotFound = true := rfl
  unfold Bucket.get
  cases held : source.documents.find? key with
  | none =>
      cases held' : target.documents.find? key <;> constructor <;>
        simp [between, KeyMap.find?_tabulate, mem, held, held', compareOutcomes, absent]
  | some s =>
      cases held' : target.documents.find? key with
      | none =>
          constructor <;>
            simp [between, KeyMap.find?_tabulate, mem, held, held', compareOutcomes, absent]
      | some t =>
          have differ : (s.value ≠ t.value ∨ s.flags ≠ t.flags ∨ s.datatype ≠ t.datatype ∨
              s.cas ≠ t.cas) ↔ s.agrees t = false := by
            simp only [Document.agrees, ne_eq, Bool.and_eq_false_iff, decide_eq_false_iff_not, or_assoc]
          cases agrees : s.agrees t <;> constructor <;>
            simp [between, KeyMap.find?_tabulate, mem, held, held', compareOutcomes, differ, agrees,
              -ne_eq]

/-- It tells nothing of another key. -/
theorem between_tells_none (keys : List String) (source target : String → Option Document)
    {key : String} (new : key ∉ keys) : (between keys source target).Tells key none := by
  constructor <;> simp [between, KeyMap.find?_tabulate, new]

end DiffSet

namespace Run

/-- The buckets of two snapshots. -/
def bucketsOf (source target : List (String × Document)) : Side → Bucket
  | .source => ⟨.ofList source⟩
  | .target => ⟨.ofList target⟩

/-- The run has counted every different key of a list, has no error keys, and reports the difference
of two maps at the keys of the list. -/
def Trace.Compares (trace : Trace) (listed : List String)
    (source target : String → Option Document) : Prop :=
  ∃ summary, trace.outcome = .ok summary ∧
    summary.totalKeys = listed.toFinset.card ∧
    summary.keysProcessed.toNat = listed.toFinset.card ∧
    summary.keysWithErrors = 0 ∧
    summary.results = ⟨.between listed source target, []⟩

theorem Unfolds.compares {config : Config} {tree : FileTree}
    {log : List (Stage Worker.State WorkerEffect)} {trace : Trace} {content : Text.Bytes}
    {listed : List String} {source target : List (String × Document)}
    (unfolds : Unfolds config Connector.snapshots tree log trace) (prompt : ∀ s ∈ log, s.Prompt)
    (valid : config.validate = .ok ()) (reads : tree.read config.inputKeysPath = .ok content)
    (parses : KeyList.parse content = .ok listed)
    (fits : config.batchSize.toNat + listed.toFinset.card < 2 ^ 64)
    (serves : Connector.Serves tree.read config.source source)
    (serves' : Connector.Serves tree.read config.target target)
    (room : config.numWorkers ≤ mostShares) :
    trace.Compares listed (KeyMap.last source) (KeyMap.last target) := by
  obtain ⟨said, opens⟩ := serves.opens .source
  obtain ⟨said', opens'⟩ := serves'.opens .target
  let buckets := bucketsOf source target
  have answered : Connector.snapshots.Answers config tree.read fun side => (buckets side).get := by
    intro side
    cases side
    · exact ⟨_, opens, Store.answersAtOnce_bare _⟩
    · exact ⟨_, opens', Store.answersAtOnce_bare _⟩
  obtain ⟨summary, ok, total, processed, errors, checked, tells⟩ :=
    unfolds.answered prompt valid reads parses fits answered room
  have diffs : summary.results.diffs =
      .between listed (KeyMap.last source) (KeyMap.last target) := by
    have lookups : ∀ entries : List (String × Document),
        KeyMap.last entries = (KeyMap.ofList entries).find? := fun entries =>
      funext fun key => (KeyMap.find?_ofList entries key).symm
    rw [lookups, lookups]
    -- Both tell of a listed key how the buckets answer, and nothing of another.
    refine DiffSet.ext_of_tells fun key => ⟨_, tells key, ?_⟩
    by_cases mem : key ∈ listed
    · rw [if_pos mem]
      exact DiffSet.between_tells listed (buckets .source) (buckets .target) mem
    · rw [if_neg mem]
      exact DiffSet.between_tells_none listed _ _ mem
  exact ⟨summary, ok, total, processed, errors, by rw [← diffs, ← checked]⟩

/-- With a valid configuration a run between two snapshots reports the difference of their maps at
the listed keys, whatever its batches, deadlines and retries, and whatever its workers as long as
there can be a share for each; and so does every run in which what is due is fired as soon as it is,
in whatever order.  With more workers it breaks off, and leaves the files alone. -/
theorem snapshots_compared {config : Config} {tree : FileTree} {content : Text.Bytes}
    {listed : List String} {source target : List (String × Document)}
    (valid : config.validate = .ok ()) (reads : tree.read config.inputKeysPath = .ok content)
    (parses : KeyList.parse content = .ok listed)
    (fits : config.batchSize.toNat + listed.toFinset.card < 2 ^ 64)
    (serves : Connector.Serves tree.read config.source source)
    (serves' : Connector.Serves tree.read config.target target) :
    (config.numWorkers ≤ mostShares →
      (execute config Connector.snapshots tree).Compares listed (KeyMap.last source)
          (KeyMap.last target) ∧
        ∀ log trace, Unfolds config Connector.snapshots tree log trace → (∀ s ∈ log, s.Prompt) →
          trace.Compares listed (KeyMap.last source) (KeyMap.last target)) ∧
    (mostShares < config.numWorkers →
      (execute config Connector.snapshots tree).outcome = .brokenOff ∧
        ∀ log trace, Unfolds config Connector.snapshots tree log trace →
          trace.outcome = .brokenOff ∧ trace.tree = tree) := by
  obtain ⟨log, executes, prompt⟩ := execute_unfolds config Connector.snapshots tree
  refine ⟨fun room => ?_, fun many => ?_⟩
  · refine ⟨executes.compares prompt valid reads parses fits serves serves' room, ?_⟩
    intro log trace unfolds prompt
    exact unfolds.compares prompt valid reads parses fits serves serves' room
  · obtain ⟨said, opens⟩ := serves.opens .source
    obtain ⟨said', opens'⟩ := serves'.opens .target
    have breaks : ∀ log trace, Unfolds config Connector.snapshots tree log trace →
        trace.outcome = .brokenOff ∧ trace.tree = tree := by
      intro log trace unfolds
      obtain ⟨-, outcome, -, files, -⟩ :=
        unfolds.exists_brokenOff reads parses opens opens' many
      exact ⟨outcome, files⟩
    exact ⟨(breaks log _ executes).1, breaks⟩

/-- A snapshot that has two members for `a`. -/
def twiceA : Text.Bytes :=
  [123, 34, 97, 34, 58, 91, 34, 98, 119, 61, 61, 34, 44, 48, 44, 48, 44, 48, 93, 44, 34, 97, 34,
   58, 91, 34, 98, 103, 61, 61, 34, 44, 49, 44, 50, 44, 51, 93, 125]

/-- A snapshot with members for `a` and `b`. -/
def bothAB : Text.Bytes :=
  [123, 34, 97, 34, 58, 91, 34, 98, 103, 61, 61, 34, 44, 49, 44, 50, 44, 52, 93, 44, 34, 98, 34,
   58, 91, 34, 98, 103, 61, 61, 34, 44, 48, 44, 48, 44, 48, 93, 125]

/-- A directory with a key list and the two snapshots. -/
def twoSnapshots : FileTree :=
  (threeKeysListed.put ["s.json"] (.file twiceA)).put ["t.json"] (.file bothAB)

/-- Settings for a run between them. -/
def betweenSnapshots : Config :=
  { Config.inMemory "" with
    source := { url := "file://", bucket := "s" }
    target := { url := "file://", bucket := "t" } }

theorem twoSnapshots_serves : Connector.Serves twoSnapshots.read betweenSnapshots.source
    [("a", ⟨[111], 0, 0, 0⟩), ("a", ⟨[110], 1, 2, 3⟩)] :=
  @Connector.Serves.intro _ _ _ "" twiceA rfl rfl rfl

theorem twoSnapshots_serves' : Connector.Serves twoSnapshots.read betweenSnapshots.target
    [("a", ⟨[110], 1, 2, 4⟩), ("b", ⟨[110], 0, 0, 0⟩)] :=
  @Connector.Serves.intro _ _ _ "" bothAB rfl rfl rfl

/-- A run between them compares the last of the two members for `a`. -/
theorem snapshots_compared_last_member :
    ∃ summary : Summary,
      (execute betweenSnapshots Connector.snapshots twoSnapshots).outcome = .ok summary ∧
      summary.keysProcessed.toNat = 2 ∧ summary.results.keysWithError = [] ∧
      summary.results.diffs.mismatch.find? "a" = some (⟨[110], 1, 2, 3⟩, ⟨[110], 1, 2, 4⟩) ∧
      summary.results.diffs.missingFromSource.find? "b" = some ⟨[110], 0, 0, 0⟩ := by
  obtain ⟨⟨summary, ok, -, processed, -, results⟩, -⟩ := (snapshots_compared
    (Config.inMemory_valid_of (by decide) (by decide)) rfl threeKeysListed_parses (by decide)
    twoSnapshots_serves twoSnapshots_serves').1 (by decide)
  have card : (["a", "b", "a"] : List String).toFinset.card = 2 := by decide
  refine ⟨summary, ok, processed.trans card, ?_, ?_, ?_⟩ <;> rw [results]
  · simp [DiffSet.between, KeyMap.find?_tabulate, KeyMap.last, KeyMap.look]
  · simp [DiffSet.between, KeyMap.find?_tabulate, KeyMap.last, KeyMap.look]

/-- Settings for a run between them with one worker more than there can be shares. -/
def crowdBetweenSnapshots : Config := { betweenSnapshots with numWorkers := 576460752303423488 }

/-- With valid settings a run between two snapshots breaks off, and compares nothing. -/
theorem snapshots_not_compared :
    crowdBetweenSnapshots.validate = .ok () ∧
      ¬(execute crowdBetweenSnapshots Connector.snapshots twoSnapshots).Compares ["a", "b", "a"]
        (KeyMap.last [("a", ⟨[111], 0, 0, 0⟩), ("a", ⟨[110], 1, 2, 3⟩)])
        (KeyMap.last [("a", ⟨[110], 1, 2, 4⟩), ("b", ⟨[110], 0, 0, 0⟩)]) := by
  refine ⟨Config.Valid.validate_eq
    ⟨⟨by decide, by decide, by decide, by decide, by decide, by decide, by decide⟩, by decide⟩, ?_⟩
  rintro ⟨summary, ok, -⟩
  obtain ⟨said, opens⟩ := twoSnapshots_serves.opens .source
  obtain ⟨said', opens'⟩ := twoSnapshots_serves'.opens .target
  obtain ⟨log, unfolds, -⟩ :=
    execute_unfolds crowdBetweenSnapshots Connector.snapshots twoSnapshots
  have breaks := (unfolds.exists_brokenOff rfl threeKeysListed_parses opens opens' (by decide)).2.1
  rw [ok] at breaks
  cases breaks

end Run

end ReplicaDiff
