/-
# ReplicaDiff.Proofs.Worker.Yields — what attempts bring when fates go by key

The fate of a fetch is given by its key and the number of earlier fetches of the
key on its side (`byKey`).  When workers share no key, those earlier fetches are
the earlier attempts at the batch of the key, so that what an attempt brings
follows from its number (`yieldOf`); fetches of earlier attempts that answer late
change nothing.  Every worker is told so (`honest_of_fated`), and each key of a
batch that is over has been fetched once for each attempt
(`callsFor_of_mem_finishes`).
-/
import ReplicaDiff.Proofs.Worker.Attempts
import ReplicaDiff.Proofs.Worker.Team
import ReplicaDiff.Proofs.World.Decision

namespace ReplicaDiff.Worker

set_option autoImplicit false

open ReplicaDiff.Batch ReplicaDiff.World

/-- The fate of a call for a key, from how many calls for the key came before it. -/
abbrev KeyFates := Side → String → Nat → Fate

/-- The rule by which one side deals fates that go by key. -/
def byKey (fates : KeyFates) (side : Side) : Rule := fun key earlier _ => fates side key earlier

/-- The fates of the fetches of one attempt at some keys. -/
def attemptFates (fates : KeyFates) (keys : List String) (attempt : Nat) : Fates :=
  fun side slot => fates side (keys[slot]?.getD "") (attempt - 1)

/-- What attempts bring under a deadline. -/
def yieldOf (fates : KeyFates) (timeout : Duration) : Yield := fun keys attempt =>
  gathered keys timeout.ticks (attemptFates fates keys attempt)

/-- Every fetch of an attempt at some keys is answered in time. -/
def Answered (fates : KeyFates) (timeout : Duration) (keys : List String) (attempt : Nat) : Prop :=
  ∀ side, ∀ key ∈ keys, ((fates side key (attempt - 1)).answerWithin timeout.ticks).isSome

/-- An attempt brings results exactly when every fetch is answered in time. -/
theorem yieldOf_isSome_iff {fates : KeyFates} {timeout : Duration} {keys : List String}
    {attempt : Nat} :
    (yieldOf fates timeout keys attempt).isSome ↔ Answered fates timeout keys attempt := by
  have slots : (attemptFates fates keys attempt).allAnswer keys.length timeout.ticks ↔
      Answered fates timeout keys attempt := by
    unfold Fates.allAnswer attemptFates Answered
    refine forall_congr' fun side => ⟨fun all key mem => ?_, fun all slot bound => ?_⟩
    · obtain ⟨slot, bound, rfl⟩ := List.getElem_of_mem mem
      have answer := all slot bound
      rwa [List.getElem?_eq_getElem bound, Option.getD_some] at answer
    · rw [List.getElem?_eq_getElem bound, Option.getD_some]
      exact all _ (List.getElem_mem bound)
  unfold yieldOf gathered
  split
  · rename_i all
    exact iff_of_true rfl (slots.1 all)
  · rename_i some
    exact iff_of_false (by simp) fun all => some (slots.2 all)

/-- What an attempt brings for a key is what the fetches of the key at this attempt answer. -/
theorem result_of_yieldOf {fates : KeyFates} {timeout : Duration} {keys : List String}
    {attempt : Nat} {results : Results} (brought : yieldOf fates timeout keys attempt = some results)
    {key : String} (mem : key ∈ keys) (side : Side) :
    (results.of side)[keys.idxOf key]? =
      some ⟨key, (fates side key (attempt - 1)).answerWithin timeout.ticks⟩ := by
  unfold yieldOf gathered at brought
  split at brought
  · cases brought
    have slot := List.idxOf_lt_length_of_mem mem
    have here : keys[keys.idxOf key]? = some key := by
      rw [List.getElem?_eq_getElem slot, List.getElem_idxOf]
    have of_slots : ((⟨slotsOf keys ((attemptFates fates keys attempt).answers timeout.ticks .source),
        slotsOf keys ((attemptFates fates keys attempt).answers timeout.ticks .target)⟩ :
          Results).of side) =
        slotsOf keys ((attemptFates fates keys attempt).answers timeout.ticks side) := by
      cases side <;> rfl
    rw [of_slots, getElem?_slotsOf, here]
    simp [Fates.answers, attemptFates, here]
  · cases brought

/-- The first of `total` attempts at some keys at which every fetch is answered in time. -/
structure FirstAnswered (fates : KeyFates) (timeout : Duration) (total : Nat) (keys : List String)
    (k : Nat) : Prop where
  one_le : 1 ≤ k
  le_total : k ≤ total
  answered : Answered fates timeout keys k
  least : ∀ a, 1 ≤ a → a < k → ¬Answered fates timeout keys a

/-- A batch is over with the first attempt at which every fetch is answered in time. -/
theorem Finish.First.attempts_eq {fates : KeyFates} {timeout : Duration} {total k : Nat} {f : Finish}
    (h : f.First (yieldOf fates timeout) total) (first : FirstAnswered fates timeout total f.keys k) :
    f.attempts.toNat = k ∧
      ∃ results, f.results? = some results ∧ yieldOf fates timeout f.keys k = some results := by
  obtain ⟨results, brought⟩ := Option.isSome_iff_exists.1 (yieldOf_isSome_iff.2 first.answered)
  have no_earlier : ¬f.attempts.toNat < k := by
    intro earlier
    have silent : f.results? = none := by
      rw [h.last, ← Option.not_isSome_iff_eq_none, yieldOf_isSome_iff]
      exact first.least _ h.one_le earlier
    have := h.failed silent
    have := first.le_total
    omega
  have no_later : ¬k < f.attempts.toNat := by
    intro later
    rw [h.earlier k first.one_le later] at brought
    cases brought
  have same : f.attempts.toNat = k := by omega
  exact ⟨same, results, by rw [h.last, same, brought], brought⟩

/-- A batch fails that has no such attempt. -/
theorem Finish.First.failed_of_not_answered {fates : KeyFates} {timeout : Duration} {total : Nat}
    {f : Finish} (h : f.First (yieldOf fates timeout) total)
    (never : ∀ a, 1 ≤ a → a ≤ total → ¬Answered fates timeout f.keys a) :
    f.attempts.toNat = total ∧ f.results? = none := by
  have silent : f.results? = none := by
    rw [h.last, ← Option.not_isSome_iff_eq_none, yieldOf_isSome_iff]
    exact never _ h.one_le h.le_total
  exact ⟨h.failed silent, silent⟩

/-! ## Counting the rounds with a key -/

theorem countP_sentFor_of_not_mem {key : String} {finished : List Finish}
    (new : ∀ f ∈ finished, key ∉ f.keys) : (sentFor finished).countP (fun keys => key ∈ keys) = 0 := by
  refine List.countP_eq_zero.2 fun keys mem => ?_
  obtain ⟨f, mem, same⟩ := List.mem_flatMap.1 mem
  rw [List.eq_of_mem_replicate same]
  simpa using new f mem

theorem countP_replicate_of_mem {key : String} {keys : List String} (mem : key ∈ keys) (n : Nat) :
    (List.replicate n keys).countP (fun keys => key ∈ keys) = n := by
  rw [List.countP_replicate]
  simp [mem]

/-- The rounds that were sent with a key are the attempts at its batch. -/
theorem countP_sentFor_of_mem {key : String} {finished : List Finish}
    (nodup : (finished.flatMap (·.keys)).Nodup) {f : Finish} (mem : f ∈ finished)
    (key_mem : key ∈ f.keys) :
    (sentFor finished).countP (fun keys => key ∈ keys) = f.attempts.toNat := by
  obtain ⟨before, after, rfl⟩ := List.append_of_mem mem
  rw [List.flatMap_append, List.flatMap_cons] at nodup
  obtain ⟨-, nodup, apart⟩ := List.nodup_append.1 nodup
  obtain ⟨-, -, apart'⟩ := List.nodup_append.1 nodup
  have earlier : ∀ f' ∈ before, key ∉ f'.keys := fun f' mem' key_mem' =>
    apart key (List.mem_flatMap.2 ⟨f', mem', key_mem'⟩) key (List.mem_append_left _ key_mem) rfl
  have later : ∀ f' ∈ after, key ∉ f'.keys := fun f' mem' key_mem' =>
    apart' key key_mem key (List.mem_flatMap.2 ⟨f', mem', key_mem'⟩) rfl
  have split : sentFor (before ++ f :: after) =
      sentFor before ++ (List.replicate f.attempts.toNat f.keys ++ sentFor after) := by
    simp [sentFor]
  rw [split, List.countP_append, List.countP_append, countP_sentFor_of_not_mem earlier,
    countP_sentFor_of_not_mem later, countP_replicate_of_mem key_mem]
  omega

/-- A worker sends the keys of its batches only. -/
theorem mem_batchKeys_of_sent {yields : Yield} {w : Worker} {history : List (State × Signal)}
    {s : State} {p : Phase} (standing : Standing w history s p) (trying : Trying yields w history s p)
    {keys : List String} (mem : keys ∈ sent State.react history) : keys ∈ w.batchKeys := by
  rw [← standing.batches]
  rw [trying.sent] at mem
  rcases List.mem_append.1 mem with mem | mem
  · obtain ⟨f, mem, same⟩ := List.mem_flatMap.1 mem
    rw [List.eq_of_mem_replicate same]
    exact List.mem_append_left _ (List.mem_append_left _ (List.mem_map_of_mem mem))
  · refine List.mem_append_left _ (List.mem_append_right _ ?_)
    rw [List.eq_of_mem_replicate mem]
    cases p with
    | fetching keys timeout => exact List.mem_cons_self
    | resting => exact List.mem_cons_self
    | fresh => simp [tries] at mem
    | stopped => simp [tries] at mem

/-- The keys of all batches of some workers. -/
def teamKeys (team : List Worker) : List String := team.flatMap fun w => w.batchKeys.flatten

theorem nodup_batchKeys {team : List Worker} (nodup : (teamKeys team).Nodup) {i : Nat} {w : Worker}
    (present : team[i]? = some w) : w.batchKeys.flatten.Nodup :=
  (List.nodup_flatMap.1 nodup).1 w (List.mem_of_getElem? present)

/-! ## What workers are told -/

section Fated

variable {fates : KeyFates} {timeout : Duration} {source target : Store} {team : List Worker}
  {log : List (Stage State WorkerEffect)} {w : World State WorkerEffect}

/-- Where a worker stands that has been told what its attempts bring. -/
theorem exists_trying {yields : Yield}
    (h : Schedule State.react (initial source target (team.map State.initial)) log w) {i : Nat}
    {worker : Worker} (present : team[i]? = some worker) (honest : Honest yields (heard i log)) :
    ∃ c p, w.clients[i]? = some c ∧ Stands w i c p ∧
      Play State.react (State.initial worker) (heard i log) c.state p ∧
      Standing worker (heard i log) c.state p ∧ Trying yields worker (heard i log) c.state p := by
  obtain ⟨c, p, present', play, stands⟩ := h.plays (begins_of_present present)
  exact ⟨c, p, present', stands, play, standing_of_play play, trying_of_play play honest⟩

/-- Only the worker of a batch asks for its keys, and for each once in a round. -/
theorem alone_of_honest {yields : Yield}
    (h : Schedule State.react (initial source target (team.map State.initial)) log w)
    (nodup : (teamKeys team).Nodup)
    (honest : ∀ i worker, team[i]? = some worker → Honest yields (heard i log)) {i : Nat}
    {worker : Worker} (present : team[i]? = some worker) {key : String}
    (mem : key ∈ worker.batchKeys.flatten) : Alone State.react log i key where
  others j ne keys sent key_mem := by
    cases present' : team[j]? with
    | none =>
        have beyond := List.getElem?_eq_none_iff.1 present'
        rw [h.heard_eq_nil (by rwa [List.length_map])] at sent
        cases sent
    | some worker' =>
        obtain ⟨c, p, -, -, -, standing, trying⟩ :=
          exists_trying h present' (honest j worker' present')
        have batch := mem_batchKeys_of_sent standing trying sent
        exact ne (index_eq_of_mem nodup present' present
          (List.mem_flatten.2 ⟨keys, batch, key_mem⟩) mem)
  nodup keys sent := by
    obtain ⟨c, p, -, -, -, standing, trying⟩ := exists_trying h present (honest i worker present)
    have batch := mem_batchKeys_of_sent standing trying sent
    exact (List.nodup_flatten.1 (nodup_batchKeys nodup present)).1 keys batch

/-- The fate of a fetch of an attempt is the one that its key has for the number of the attempt. -/
theorem fate_of_attempt {yields : Yield} {i : Nat} {worker : Worker} {c : Client State}
    {keys : List String} {opened moment : Nat} {verdict : Except Batch.Error Results} {p : Places}
    (called : Called State.react log w) (present : w.clients[i]? = some c)
    (nodup : worker.batchKeys.flatten.Nodup)
    (standing : Standing worker (heard i log) c.state (.fetching keys timeout))
    (trying : Trying yields worker (heard i log) c.state (.fetching keys timeout))
    (alone : ∀ key ∈ keys, Alone State.react log i key)
    (settled : Settled (byKey fates) i c.serial opened keys timeout (callsIn log) moment verdict p)
    (side : Side) {slot : Nat} (bound : slot < keys.length) :
    (p side slot).fate? =
      some (attemptFates fates keys c.state.course.attempt.toNat side slot) := by
  obtain ⟨rfl, -⟩ := standing.sends keys timeout rfl
  have key_mem : c.state.current[slot] ∈ c.state.current := List.getElem_mem bound
  have last : ∃ earlier, sent State.react (heard i log) = earlier ++ [c.state.current] := by
    have ongoing := trying.ongoing rfl
    refine ⟨sentFor (finishes (heard i log)) ++
      List.replicate (c.state.course.attempt.toNat - 1) c.state.current, ?_⟩
    rw [trying.sent, List.append_assoc, replicate_snoc ongoing.one_le]
    rfl
  have own : Ticket.IsOf ⟨i, c.serial, side, slot, c.state.current[slot]⟩ i c.serial
    c.state.current := ⟨rfl, rfl, List.getElem?_eq_getElem bound⟩
  obtain ⟨f, fate⟩ := (settled.current side slot bound).exists_fate
  obtain ⟨earlier, later, split, dealt⟩ := settled.dealt _ f own fate
  have before := called.callsFor_earlier split (alone _ key_mem) (called.serials i c present)
    fun t sent own => called.once_of_settled present settled last sent own
  -- Of the batches of the worker, only the one under way has the key.
  rw [← standing.batches, List.flatten_append, List.flatten_append] at nodup
  obtain ⟨nodup, -, -⟩ := List.nodup_append.1 nodup
  obtain ⟨-, -, apart⟩ := List.nodup_append.1 nodup
  have elsewhere : ∀ f ∈ finishes (heard i log), c.state.current[slot] ∉ f.keys := by
    intro f mem key_mem'
    refine apart _ (List.mem_flatten.2 ⟨f.keys, List.mem_map_of_mem mem, key_mem'⟩) _ ?_ rfl
    simp [underway]
  dsimp only at before
  rw [trying.sent, List.countP_append, countP_sentFor_of_not_mem elsewhere,
    countP_replicate_of_mem key_mem] at before
  have number : callsFor earlier side c.state.current[slot] =
      c.state.course.attempt.toNat - 1 := by
    simp only [tries] at before
    omega
  rw [fate, dealt]
  unfold fateOf byKey attemptFates
  dsimp only
  rw [number, List.getElem?_eq_getElem bound, Option.getD_some]

/-- A worker is told of an attempt what it brings. -/
theorem toOption_of_told {s : Stage State WorkerEffect}
    (h : Fated State.react (byKey fates) source target (team.map State.initial) log s.world)
    (prompt : s.Prompt) (nodup : (teamKeys team).Nodup)
    (off : ∀ side key n outcome, fates side key n ≠ .ends (some outcome) timeout.ticks)
    (honest : ∀ i worker, team[i]? = some worker → Honest (yieldOf fates timeout) (heard i log))
    {i : Nat} {worker : Worker} (present : team[i]? = some worker)
    (limit : worker.settings.batchTimeout = timeout) {state : State}
    {verdict : Except Batch.Error Results} (told : s.told? = some ⟨i, state, .settled verdict⟩) :
    verdict.toOption = yieldOf fates timeout state.current state.course.attempt.toNat := by
  obtain ⟨c, phase, present', stands, play, standing, trying⟩ :=
    exists_trying h.schedule present (honest i worker present)
  obtain ⟨c', present'', rfl⟩ := client_of_news told
  rw [present'] at present''
  cases present''
  have admits := (admits_of_told ((news?_taken s).trans told) present' stands).1
  cases phase with
  | fetching keys timeout' =>
      obtain ⟨own, limit'⟩ := standing.sends keys timeout' rfl
      subst own
      obtain rfl : timeout' = timeout := limit'.trans limit
      obtain ⟨p, settled⟩ := h.timed.settled prompt told present' stands
        (h.positive (begins_of_present present) play)
      have batch : c.state.current ∈ worker.batchKeys := by
        rw [← standing.batches]
        simp [underway]
      refine settled.gathered (fun side slot bound => ?_) fun side slot bound => off side _ _
      refine fate_of_attempt h.called present' (nodup_batchKeys nodup present) standing trying
        (fun key mem => ?_) settled side bound
      exact alone_of_honest h.schedule nodup honest present (List.mem_flatten.2 ⟨_, batch, mem⟩)
  | fresh => cases admits
  | resting => cases admits
  | stopped => cases admits

/-- Every worker is told of its attempts what they bring, from the first to the last. -/
theorem honest_of_fated
    (h : Fated State.react (byKey fates) source target (team.map State.initial) log w)
    (nodup : (teamKeys team).Nodup) (limit : ∀ w ∈ team, w.settings.batchTimeout = timeout)
    (off : ∀ side key n outcome, fates side key n ≠ .ends (some outcome) timeout.ticks) :
    ∀ i worker, team[i]? = some worker → Honest (yieldOf fates timeout) (heard i log) := by
  -- By induction on the stages: that all workers were told so before decides how often the keys of
  -- this batch have been fetched, and with that the fates of its fetches.
  obtain ⟨schedule, prompt, source', target', timely⟩ := h
  induction schedule with
  | refl =>
      intro i worker _ s verdict mem
      cases mem
  | @snoc log s earlier ih =>
      have prompt' : ∀ s' ∈ log, s'.Prompt := fun s' mem => prompt s' (List.mem_append_left _ mem)
      have honest := ih prompt'
      intro i worker present state verdict mem
      rw [heard_snoc] at mem
      rcases List.mem_append.1 mem with mem | mem
      · exact honest i worker present state verdict mem
      · have tells := Option.mem_toList.1 mem
        obtain ⟨⟨client, state', signal⟩, told, eq⟩ := Option.bind_eq_some_iff.1 tells
        dsimp only at eq
        split at eq
        · rename_i own
          subst own
          cases eq
          exact toOption_of_told ⟨earlier, prompt', source', target', timely⟩ (prompt s (by simp))
            nodup off honest present (limit worker (List.mem_of_getElem? present)) told
        · cases eq

/-- When all workers have stopped, each key of a batch has been fetched once for each attempt at
the batch. -/
theorem callsFor_of_mem_finishes
    (h : Fated State.react (byKey fates) source target (team.map State.initial) log w)
    (nodup : (teamKeys team).Nodup) (limit : ∀ w ∈ team, w.settings.batchTimeout = timeout)
    (off : ∀ side key n outcome, fates side key n ≠ .ends (some outcome) timeout.ticks)
    (finished : w.isOver = true) {i : Nat} {worker : Worker} (present : team[i]? = some worker)
    {f : Finish} (mem : f ∈ finishes (heard i log)) {key : String} (key_mem : key ∈ f.keys)
    (side : Side) : callsFor (callsIn log) side key = f.attempts.toNat := by
  have honest := honest_of_fated h nodup limit off
  obtain ⟨c, phase, present', stands, -, standing, trying⟩ :=
    exists_trying h.schedule present (honest i worker present)
  have stopped : c.stopped = true := List.all_eq_true.1 finished c (List.mem_of_getElem? present')
  obtain rfl := stands.stopped.1 stopped
  have batches : (finishes (heard i log)).map (·.keys) = worker.batchKeys :=
    batches_of_over h.schedule finished present
  have batch : f.keys ∈ worker.batchKeys := batches ▸ List.mem_map_of_mem mem
  have alone := alone_of_honest h.schedule nodup honest present
    (List.mem_flatten.2 ⟨f.keys, batch, key_mem⟩)
  rw [h.called.callsFor_eq alone, trying.sent, List.countP_append, countP_sentFor_of_mem ?_ mem key_mem]
  · simp [tries]
  · rw [List.flatMap_def, batches]
    exact nodup_batchKeys nodup present
  · intro t sent own
    refine h.called.once t sent ?_
    rw [own]
    unfold underWay?
    rw [present']
    dsimp only
    split
    · exact stands.rounds
    · rfl

end Fated

end ReplicaDiff.Worker
