/-
# ReplicaDiff.Proofs.Worker.Team — what workers add up to

When every worker of a schedule has stopped, the batches that are over
(`teamFinishes`) are the batches of all workers (`keys_teamFinishes`), and each
is over with something that a stage told a worker (`told_of_mem_finishes`).
What the workers have contributed adds up to what became of these batches: the
keys of those that failed (`keysWithError_perm`), the number of all keys
(`processed_eq`), and for each key the verdict of its batch (`diffs_tells`), if its
worker has not broken off.
-/
import ReplicaDiff.Proofs.Tally
import ReplicaDiff.Proofs.Worker.History

namespace ReplicaDiff.Worker

set_option autoImplicit false

open ReplicaDiff.World

/-- The keys that are unchecked when the batch is over. -/
def Finish.uncheckedKeys (f : Finish) : List String := if f.results?.isNone then f.keys else []

/-- The batches of the first `n` clients that are over, client by client. -/
def teamFinishes (n : Nat) (log : List (Stage State WorkerEffect)) : List Finish :=
  (List.range n).flatMap fun i => finishes (heard i log)

/-- What a worker has contributed in all, if these of its batches are over. -/
def allContributions (w : Worker) (finished : List Finish) : List Contribution :=
  finished.flatMap (·.contributions) ++
    if w.inBounds then [.merged (State.findings (kept .source finished) (kept .target finished))]
    else []

/-- What the workers of a team have contributed in all. -/
def teamContributions (team : List Worker) (log : List (Stage State WorkerEffect)) :
    List Contribution :=
  (List.range team.length).flatMap fun i =>
    (team[i]?).elim [] fun w => allContributions w (finishes (heard i log))

theorem flatMap_range_getElem? {α β : Type} (l : List α) (f : α → List β) :
    ((List.range l.length).flatMap fun i => (l[i]?).elim [] f) = l.flatMap f := by
  induction l with
  | nil => rfl
  | cons a l ih =>
      rw [List.length_cons, List.range_succ_eq_map, List.flatMap_cons, List.flatMap_map,
        List.flatMap_cons, ← ih]
      simp

/-- Of lists without common entries, an entry is in one only. -/
theorem index_eq_of_mem {α β : Type} {l : List α} {f : α → List β} (nodup : (l.flatMap f).Nodup)
    {i j : Nat} {a b : α} (ha : l[i]? = some a) (hb : l[j]? = some b) {x : β} (xa : x ∈ f a)
    (xb : x ∈ f b) : i = j := by
  obtain ⟨bound, rfl⟩ := List.getElem?_eq_some_iff.1 ha
  obtain ⟨bound', rfl⟩ := List.getElem?_eq_some_iff.1 hb
  have disjoint := List.pairwise_iff_getElem.1 (List.nodup_flatMap.1 nodup).2
  rcases Nat.lt_trichotomy i j with lt | same | lt
  · exact absurd xb (disjoint i j bound bound' lt xa)
  · exact same
  · exact absurd xa (disjoint j i bound' bound lt xb)

theorem flatMap_uncheckedKeys_contributions (finished : List Finish) :
    (finished.flatMap (·.contributions)).flatMap (·.uncheckedKeys) =
      finished.flatMap (·.uncheckedKeys) := by
  rw [List.flatMap_assoc]
  congr 1
  funext f
  unfold Finish.contributions Finish.uncheckedKeys
  split <;> simp [Contribution.uncheckedKeys]

theorem sum_count_contributions {finished : List Finish}
    (small : (finished.flatMap (·.keys)).length < 2 ^ 64) :
    ((finished.flatMap (·.contributions)).map (·.count)).sum = (finished.flatMap (·.keys)).length := by
  induction finished with
  | nil => rfl
  | cons f finished ih =>
      rw [List.flatMap_cons, List.length_append] at small
      have own : (f.contributions.map (·.count)).sum = f.keys.length := by
        have number : (UInt64.ofNat f.keys.length).toNat = f.keys.length := by
          rw [UInt64.toNat_ofNat', Nat.mod_eq_of_lt (by omega)]
        unfold Finish.contributions
        split <;> simp [Contribution.count, number]
      rw [List.flatMap_cons, List.map_append, List.sum_append, own, ih (by omega),
        List.flatMap_cons, List.length_append]

section Over

variable {source target : Store} {team : List Worker} {log : List (Stage State WorkerEffect)}
  {w : World State WorkerEffect}

/-- Where the workers stand when all of them have stopped. -/
theorem standing_of_over
    (h : Schedule State.react (initial source target (team.map State.initial)) log w)
    (finished : w.isOver = true) {i : Nat} {worker : Worker} (present : team[i]? = some worker) :
    ∃ s, Standing worker (heard i log) s .stopped := by
  obtain ⟨c, -, play⟩ := h.plays_to_end finished (begins_of_present present)
  exact ⟨c.state, standing_of_play play⟩

/-- The batches of a worker that are over are all of its batches. -/
theorem batches_of_over
    (h : Schedule State.react (initial source target (team.map State.initial)) log w)
    (finished : w.isOver = true) {i : Nat} {worker : Worker} (present : team[i]? = some worker) :
    (finishes (heard i log)).map (·.keys) = worker.batchKeys := by
  obtain ⟨s, standing⟩ := standing_of_over h finished present
  have batches := standing.batches
  rw [standing.waiting rfl] at batches
  simpa [underway] using batches

/-- The keys of the batches that are over are the keys of all batches. -/
theorem keys_teamFinishes
    (h : Schedule State.react (initial source target (team.map State.initial)) log w)
    (finished : w.isOver = true) :
    (teamFinishes team.length log).flatMap (·.keys) =
      team.flatMap fun worker => worker.batchKeys.flatten := by
  unfold teamFinishes
  rw [List.flatMap_assoc, ← flatMap_range_getElem? team]
  refine List.flatMap_congr fun i mem => ?_
  obtain ⟨worker, present⟩ : ∃ worker, team[i]? = some worker :=
    ⟨_, List.getElem?_eq_getElem (List.mem_range.1 mem)⟩
  rw [present, Option.elim_some, ← batches_of_over h finished present, List.flatMap_def]

/-- What is in the batches of one worker that are over is in those of all. -/
theorem mem_teamFinishes {n : Nat} {f : Finish} :
    f ∈ teamFinishes n log ↔ ∃ i, i < n ∧ f ∈ finishes (heard i log) := by
  unfold teamFinishes
  simp [List.mem_flatMap]

/-- A batch is over with something that a stage told the worker whose batch it was. -/
theorem told_of_mem_finishes {i : Nat} {f : Finish} (mem : f ∈ finishes (heard i log)) :
    ∃ s ∈ log, ∃ state signal, s.told? = some ⟨i, state, signal⟩ ∧
      Finish.of? state signal = some f := by
  obtain ⟨⟨state, signal⟩, mem, eq⟩ := List.mem_filterMap.1 mem
  obtain ⟨s, stage, tells⟩ := List.mem_filterMap.1 mem
  obtain ⟨t, told, own⟩ := Option.bind_eq_some_iff.1 tells
  split at own
  · rename_i same
    cases own
    subst same
    exact ⟨s, stage, _, _, told, eq⟩
  · cases own

/-- The contributions on a timeline are those among the effects of the stages. -/
theorem contributionsOf_timeline
    (h : Schedule State.react (initial source target (team.map State.initial)) log w) :
    (contributionsOf w.timeline).map (·.2) =
      contributed (log.flatMap (Stage.effects State.react)) := by
  rw [← h.map_timeline]
  unfold contributionsOf contributed
  rw [List.map_filterMap, List.filterMap_map]
  congr 1
  funext e
  rcases e with ⟨moment, event | contribution⟩ <;> rfl

/-- What a worker is told by which a batch is over is among what it has been told. -/
theorem mem_finishes_of_told {s : Stage State WorkerEffect} (mem : s ∈ log) {i : Nat}
    {state : State} {signal : Signal} (told : s.told? = some ⟨i, state, signal⟩) {f : Finish}
    (finished : Finish.of? state signal = some f) : f ∈ finishes (heard i log) := by
  refine List.mem_filterMap.2 ⟨(state, signal), List.mem_filterMap.2 ⟨s, mem, ?_⟩, finished⟩
  simp [Stage.tells, told]

/-- The results of a batch that succeeded answer its keys. -/
theorem answer_of_mem_teamFinishes
    (h : Schedule State.react (initial source target (team.map State.initial)) log w)
    (finished : w.isOver = true) {f : Finish} (mem : f ∈ teamFinishes team.length log)
    {r : Batch.Results} (brought : f.results? = some r) : r.Answer f.keys := by
  obtain ⟨i, bound, mem⟩ := mem_teamFinishes.1 mem
  obtain ⟨s, standing⟩ := standing_of_over h finished (List.getElem?_eq_getElem bound)
  exact standing.answer f mem r brought

/-- What has been contributed is, but for its order, what the workers contribute one by one. -/
theorem contributions_perm
    (h : Schedule State.react (initial source target (team.map State.initial)) log w)
    (finished : w.isOver = true) :
    ((contributionsOf w.timeline).map (·.2)).Perm
      (teamContributions team log) := by
  rw [contributionsOf_timeline h]
  have bound : ∀ s ∈ log, ∀ t, s.told? = some t → t.client < team.length := by
    intro s mem t told
    have := h.client_lt_of_told mem told
    rwa [List.length_map] at this
  refine ((effects_perm bound).filterMap _).trans ?_
  rw [List.filterMap_flatMap]
  refine List.Perm.of_eq (List.flatMap_congr fun i mem => ?_)
  obtain ⟨worker, present⟩ : ∃ worker, team[i]? = some worker :=
    ⟨_, List.getElem?_eq_getElem (List.mem_range.1 mem)⟩
  obtain ⟨s, standing⟩ := standing_of_over h finished present
  have contributions := standing.contributions
  unfold closing at contributions
  rw [standing.source, standing.target, standing.worker] at contributions
  rw [present]
  exact contributions

/-! ## The tally -/

/-- The keys with errors are those of the batches that failed. -/
theorem keysWithError_perm
    (h : Schedule State.react (initial source target (team.map State.initial)) log w)
    (finished : w.isOver = true) :
    (tallyOf w.timeline).results.keysWithError.Perm
      ((teamFinishes team.length log).flatMap (·.uncheckedKeys)) := by
  unfold tallyOf
  rw [Tally.addAll_keysWithError]
  refine ((contributions_perm h finished).flatMap_right _).trans (List.Perm.of_eq ?_)
  unfold teamFinishes teamContributions
  rw [List.flatMap_assoc, List.flatMap_assoc]
  refine List.flatMap_congr fun i mem => ?_
  rw [List.getElem?_eq_getElem (List.mem_range.1 mem), Option.elim_some]
  unfold allContributions
  rw [List.flatMap_append, flatMap_uncheckedKeys_contributions]
  split <;> simp [Contribution.uncheckedKeys]

/-- As many errors are counted as there are keys with errors. -/
theorem errors_eq (timeline : Array (Nat × WorkerEffect)) :
    (tallyOf timeline).errors =
      UInt64.ofNat (tallyOf timeline).results.keysWithError.length := by
  unfold tallyOf
  rw [Tally.addAll_errors, Tally.addAll_keysWithError]
  simp [Tally.empty]

/-- The keys of all batches are counted as processed. -/
theorem processed_eq
    (h : Schedule State.react (initial source target (team.map State.initial)) log w)
    (finished : w.isOver = true)
    (small : ((teamFinishes team.length log).flatMap (·.keys)).length < 2 ^ 64) :
    (tallyOf w.timeline).processed =
      UInt64.ofNat ((teamFinishes team.length log).flatMap (·.keys)).length := by
  unfold tallyOf
  rw [Tally.addAll_processed, (List.Perm.map _ (contributions_perm h finished)).sum_nat]
  have own : ∀ i ∈ List.range team.length,
      (((team[i]?).elim [] fun w => allContributions w (finishes (heard i log))).map (·.count)).sum =
        (((finishes (heard i log)).flatMap (·.contributions)).map (·.count)).sum := by
    intro i mem
    rw [List.getElem?_eq_getElem (List.mem_range.1 mem), Option.elim_some, allContributions]
    split <;> simp [Contribution.count]
  have total : ((teamContributions team log).map (·.count)).sum =
      (((teamFinishes team.length log).flatMap (·.contributions)).map (·.count)).sum := by
    unfold teamContributions teamFinishes
    rw [List.flatMap_assoc, List.map_flatMap, List.map_flatMap, List.flatMap_def, List.flatMap_def,
      List.sum_flatten, List.sum_flatten, List.map_map, List.map_map]
    exact congrArg List.sum (List.map_congr_left own)
  rw [total, sum_count_contributions small]
  simp [Tally.empty]

/-- The differences among the contributions are those that the workers bring that have not broken
off. -/
theorem diff_mem_contributions
    (h : Schedule State.react (initial source target (team.map State.initial)) log w)
    (finished : w.isOver = true) {c : Contribution} {d : DiffSet} (diff : c.diff? = some d) :
    c ∈ (contributionsOf w.timeline).map (·.2) ↔
      ∃ i worker, team[i]? = some worker ∧ worker.inBounds = true ∧
        d = State.findings (kept .source (finishes (heard i log)))
          (kept .target (finishes (heard i log))) := by
  have merged : c = .merged d := by
    cases c <;> simp_all [Contribution.diff?]
  subst merged
  have own : ∀ worker : Worker, ∀ finished : List Finish,
      Contribution.merged d ∈ allContributions worker finished ↔ worker.inBounds = true ∧
        d = State.findings (kept .source finished) (kept .target finished) := by
    intro worker finished
    unfold allContributions
    rw [List.mem_append]
    constructor
    · rintro (mem | mem)
      · obtain ⟨f, -, mem⟩ := List.mem_flatMap.1 mem
        unfold Finish.contributions at mem
        split at mem <;> simp at mem
      · split at mem
        · rename_i bounds
          exact ⟨bounds, by simpa using mem⟩
        · cases mem
    · rintro ⟨bounds, rfl⟩
      simp [bounds]
  rw [(contributions_perm h finished).mem_iff, teamContributions, List.mem_flatMap]
  constructor
  · rintro ⟨i, bound, mem⟩
    have present := List.getElem?_eq_getElem (List.mem_range.1 bound)
    rw [present, Option.elim_some, own] at mem
    exact ⟨i, _, present, mem⟩
  · rintro ⟨i, worker, present, mem⟩
    refine ⟨i, List.mem_range.2 (List.getElem?_eq_some_iff.1 present).1, ?_⟩
    rw [present, Option.elim_some, own]
    exact mem

/-- The differences found tell of the key of a batch the verdict of that batch. -/
theorem diffs_tells
    (h : Schedule State.react (initial source target (team.map State.initial)) log w)
    (finished : w.isOver = true) (bounds : ∀ worker ∈ team, worker.inBounds = true)
    (nodup : ((teamFinishes team.length log).flatMap (·.keys)).Nodup)
    {f : Finish} (mem : f ∈ teamFinishes team.length log) {key : String} (key_mem : key ∈ f.keys) :
    (tallyOf w.timeline).results.diffs.Tells key (f.verdict? key) := by
  obtain ⟨i, bound, mem⟩ := mem_teamFinishes.1 mem
  -- Another worker has no batch with the key, so that its findings tell nothing of it.
  unfold teamFinishes at nodup
  rw [List.flatMap_assoc] at nodup
  have apart : ∀ j, j < team.length → j ≠ i → ∀ f' ∈ finishes (heard j log), key ∉ f'.keys :=
    fun j bound' ne f' mem' key_mem' => ne (index_eq_of_mem nodup (List.getElem?_range bound')
      (List.getElem?_range bound) (List.mem_flatMap.2 ⟨f', mem', key_mem'⟩)
      (List.mem_flatMap.2 ⟨f, mem, key_mem⟩))
  have present : team[i]? = some team[i] := List.getElem?_eq_getElem bound
  obtain ⟨s, standing⟩ := standing_of_over h finished present
  have nodup' : ((finishes (heard i log)).flatMap (·.keys)).Nodup :=
    (List.nodup_flatMap.1 nodup).1 i (List.mem_range.2 bound)
  have told := findings_tells_verdict nodup' standing.answer mem key_mem
  have brings := (diff_mem_contributions h finished (c := .merged _) rfl).2
    ⟨i, _, present, bounds _ (List.getElem_mem bound), rfl⟩
  refine Tally.addAll_tells (.empty key) ?_ brings rfl told
  intro c mem' d diff
  obtain ⟨j, worker, present', -, rfl⟩ := (diff_mem_contributions h finished diff).1 mem'
  have bound' := (List.getElem?_eq_some_iff.1 present').1
  by_cases own : j = i
  · subst own
    exact .inr told
  · exact .inl (findings_tells_none fun f' mem' checked => apart j bound' own f' mem' checked.1)

/-- They tell nothing of a key that is in no batch. -/
theorem diffs_tells_none
    (h : Schedule State.react (initial source target (team.map State.initial)) log w)
    (finished : w.isOver = true) {key : String}
    (new : ∀ f ∈ teamFinishes team.length log, key ∉ f.keys) :
    (tallyOf w.timeline).results.diffs.Tells key none := by
  have silent : ∀ c ∈ (contributionsOf w.timeline).map (·.2), ∀ d, c.diff? = some d →
      d.Tells key none ∨ d.Tells key none := by
    intro c mem d diff
    obtain ⟨i, worker, present, -, rfl⟩ := (diff_mem_contributions h finished diff).1 mem
    refine .inl (findings_tells_none fun f mem' checked => new f ?_ checked.1)
    exact mem_teamFinishes.2 ⟨i, (List.getElem?_eq_some_iff.1 present).1, mem'⟩
  exact Tally.addAll_tells_keep (.empty key) silent

end Over

end ReplicaDiff.Worker
