/-
# ReplicaDiff.Proofs.Config.Partial — settings may be left out

The JSON of a configuration may lose any of its fields, whole endpoints and parts of
endpoints included, may be put in any order and may be given members of other names
(`Config.Edited`).  It is still read: what was left out has its default, and every
other setting is what it was, apart from what JSON does not keep of a span of time
(`Config.partial_read`).

Each setting is read from the member that holds it (`Setting.member`), so that a
configuration is settled by the names of the members that have been read
(`Config.partly`).  What JSON keeps of a configuration is `Config.truncated`, which is
what is read if nothing is left out (`Config.eq_truncated`).
-/
import ReplicaDiff.Config.Json
import ReplicaDiff.Config.Overrides
import ReplicaDiff.Proofs.Json.Members

namespace ReplicaDiff

set_option autoImplicit false

open ReplicaDiff.Json

/-! ## The values of the settings in JSON -/

namespace Duration

/-- The span cut off to whole milliseconds. -/
def truncated (d : Duration) : Duration := .ofMillis d.millis

theorem toNanos_truncated (d : Duration) :
    d.truncated.toNanos = min (d.toNanos / 1000000) maxSeconds * 1000000 := by
  have parts := d.nanos_lt
  simp only [truncated, millis, ofMillis, toNanos, nanosPerSecond, maxSeconds,
    UInt64.toNat_ofNat'] at parts ⊢
  omega

end Duration

namespace Config

theorem reads_word (n : UInt64) : Reads readWord (writeNat n.toNat) n := by
  have read := (reads_unsigned (Nat.le_of_lt_succ n.toNat_lt) (Nat.le_refl maxWord)).map UInt64.ofNat
  rwa [UInt64.ofNat_toNat] at read

theorem reads_halfWord (n : UInt32) : Reads readHalfWord (writeNat n.toNat) n := by
  have read := (reads_unsigned (Nat.le_of_lt_succ n.toNat_lt) (show 4294967295 ≤ maxWord by decide)).map
    UInt32.ofNat
  rwa [UInt32.ofNat_toNat] at read

theorem reads_millis (d : Duration) : Reads readMillis (writeNat d.millis.toNat) d.truncated :=
  (reads_word d.millis).map Duration.ofMillis

/-- The settings with their spans of time cut off to whole milliseconds. -/
def truncated (c : Config) : Config where
  __ := c
  retryInterval := c.retryInterval.truncated
  maxBackoff := c.maxBackoff.truncated
  reportInterval := c.reportInterval.truncated

end Config

namespace Setting.Kind

/-- A value in JSON. -/
def json : (k : Kind) → k.Value → Json.Value
  | .text, s => .text s
  | .path, s => .text s
  | .count, n => .integer n.toNat
  | .repeats, n => .integer n.toNat
  | .millis, d => .integer d.millis.toNat

/-- Read a value. -/
def read : (k : Kind) → Reader k.Value
  | .text => readText
  | .path => readText
  | .count => Config.readWord
  | .repeats => Config.readHalfWord
  | .millis => Config.readMillis

/-- What is left of a value in JSON. -/
def truncated : (k : Kind) → k.Value → k.Value
  | .text, s => s
  | .path, s => s
  | .count, n => n
  | .repeats, n => n
  | .millis, d => d.truncated

/-- The second value is the first one, where of a span of time only the whole milliseconds count, and
2^64 - 1 of these at the most. -/
def Keeps : (k : Kind) → k.Value → k.Value → Prop
  | .text, s, s' => s' = s
  | .path, s, s' => s' = s
  | .count, n, n' => n' = n
  | .repeats, n, n' => n' = n
  | .millis, d, d' => d'.toNanos = min (d.toNanos / 1000000) (UInt64.size - 1) * 1000000

variable {k : Kind}

theorem reads_json (x : k.Value) : Reads k.read (k.json x).write (k.truncated x) := by
  cases k with
  | text => exact reads_text x
  | path => exact reads_text x
  | count => exact write_ofNat x.toNat ▸ Config.reads_word x
  | repeats => exact write_ofNat x.toNat ▸ Config.reads_halfWord x
  | millis => exact write_ofNat x.millis.toNat ▸ Config.reads_millis x

theorem keeps_truncated (x : k.Value) : k.Keeps x (k.truncated x) := by
  cases k with
  | millis => exact Duration.toNanos_truncated x
  | _ => rfl

end Setting.Kind

/-! ## Fields that are left out -/

/-- A field of the JSON of a configuration: a whole endpoint, or a single setting. -/
inductive Config.Field where
  | endpoint (side : Side)
  | setting (s : Setting)
deriving DecidableEq

/-- The fields that hold a setting. -/
def Setting.holders : Setting → List Config.Field
  | .endpoint side part => [.endpoint side, .setting (.endpoint side part)]
  | s => [.setting s]

/-- A field that holds the setting is left out. -/
def Setting.LeftOut (dropped : List Config.Field) (s : Setting) : Prop := ∃ f ∈ s.holders, f ∈ dropped

instance (dropped : List Config.Field) (s : Setting) : Decidable (s.LeftOut dropped) :=
  inferInstanceAs (Decidable (∃ f ∈ s.holders, f ∈ dropped))

namespace Setting

theorem leftOut_of_run {dropped : List Config.Field} {s : Setting} (known : s ∈ ofRun) :
    s.LeftOut dropped ↔ .setting s ∈ dropped := by
  cases s with
  | endpoint side part => exact absurd known (endpoint_notMem_ofRun side part)
  | _ => simp [LeftOut, holders]

theorem leftOut_endpoint {dropped : List Config.Field} {side : Side} {part : Endpoint.Part} :
    (endpoint side part).LeftOut dropped ↔
      .endpoint side ∈ dropped ∨ .setting (.endpoint side part) ∈ dropped := by
  simp [LeftOut, holders]

end Setting

namespace Config

/-- The members of the JSON of an endpoint without what is left out. -/
def partsLeft (c : Config) (dropped : List Field) (side : Side) : List (String × Value) :=
  (Endpoint.Part.all.filter fun part => .setting (.endpoint side part) ∉ dropped).map fun part =>
    (part.name, .text ((c.endpoint side).get part))

/-- The members of the JSON of a configuration without what is left out, where the endpoints are the
given objects. -/
def membersLeft (c : Config) (dropped : List Field) (parts : Side → List (String × Value)) :
    List (String × Value) :=
  ([Side.source, .target].filter fun side => .endpoint side ∉ dropped).map
      (fun side => (side.name, .object (parts side))) ++
    (Setting.ofRun.filter fun s => .setting s ∉ dropped).map fun s => (s.key, s.kind.json (c.get s))

/-- The members are those of the JSON of a configuration without what is left out; they, and those of
the endpoints, may come in any order and with others among them. -/
def Edited (c : Config) (dropped : List Field) (members : List (String × Value)) : Prop :=
  ∃ parts : Side → List (String × Value),
    (∀ side, Among (Endpoint.fields.map RecordField.name) (c.partsLeft dropped side) (parts side)) ∧
      Among (Config.fields.map RecordField.name) (c.membersLeft dropped parts) members

/-- With nothing left out, the members are those of the JSON of the configuration. -/
theorem write_members (c : Config) :
    (Value.object (c.membersLeft [] (c.partsLeft []))).write = c.write := by
  have endpoint (side : Side) : (Value.object (c.partsLeft [] side)).write = (c.endpoint side).write := by
    rw [Value.write_object]
    rfl
  rw [Value.write_object, write]
  congr 1
  simp only [membersLeft, Setting.ofRun, List.not_mem_nil, not_false_eq_true, decide_true,
    List.filter_true, List.map_cons, List.map_nil, List.cons_append, List.nil_append, endpoint,
    Setting.Kind.json, write_ofNat]
  rfl

end Config

/-! ## Reading an endpoint -/

namespace Endpoint

/-- What is known of an endpoint when the members of some names have been read. -/
def partly (e : Endpoint) (seen : List String) : Endpoint where
  url := if Part.url.name ∈ seen then e.url else ""
  bucket := if Part.bucket.name ∈ seen then e.bucket else ""
  username := if Part.username.name ∈ seen then e.username else ""
  password := if Part.password.name ∈ seen then e.password else ""

theorem get_partly (e : Endpoint) (seen : List String) (p : Part) :
    (e.partly seen).get p = if p.name ∈ seen then e.get p else ({} : Endpoint).get p := by
  cases p <;> rfl

theorem name_inj {p q : Part} (same : p.name = q.name) : p = q := by
  revert same
  cases p <;> cases q <;> decide

theorem takes_part (e : Endpoint) (p : Part) :
    Takes Endpoint.fields e.partly (p.name, .text (e.get p)) := by
  refine takes_field (reads_text (e.get p)) (fun e text => e.set p text) (by cases p <;> rfl)
    fun seen => ext_get fun q => ?_
  rw [get_partly]
  by_cases same : q = p
  · subst same
    rw [get_set_self, if_pos List.mem_cons_self]
  · rw [get_set_of_ne _ _ same, get_partly]
    have other : q.name ≠ p.name := fun names => same (name_inj names)
    exact if_congr (by simp [other]) rfl rfl

/-- An endpoint is read from some of its parts, the others being empty. -/
theorem reads_parts (e : Endpoint) {left : List Part} (nodup : left.Nodup)
    {members : List (String × Value)}
    (among : Among (Endpoint.fields.map RecordField.name)
      (left.map fun p => (p.name, .text (e.get p))) members) :
    ∃ e', Reads Endpoint.read (Value.object members).write e' ∧
      ∀ p, e'.get p = if p ∈ left then e.get p else ({} : Endpoint).get p := by
  have names : (left.map fun p => (p.name, Value.text (e.get p))).map Prod.fst =
      left.map Part.name := by
    rw [List.map_map]
    rfl
  have named (p : Part) : p.name ∈ Endpoint.fields.map RecordField.name := by
    cases p <;> decide
  obtain ⟨seen, same, reads⟩ := reads_among false e.partly
    (by rw [names]; exact nodup.map fun _ _ => name_inj)
    (List.forall_mem_map.2 fun p _ => named p) (List.forall_mem_map.2 fun p _ => e.takes_part p)
    nofun among
  refine ⟨_, reads, fun p => ?_⟩
  have there : p.name ∈ seen ↔ p ∈ left := by
    rw [same, names, List.mem_map_of_injective fun _ _ => name_inj]
  rw [get_partly]
  exact if_congr there rfl rfl

end Endpoint

/-! ## Reading the settings -/

theorem Side.name_inj {a b : Side} (same : a.name = b.name) : a = b := by
  revert same
  cases a <;> cases b <;> decide

namespace Setting

/-- The member of the JSON of a configuration that holds a setting. -/
def member : Setting → String
  | .endpoint side _ => side.name
  | s => s.key

/-- A setting that is not part of an endpoint has a member of its own. -/
theorem eq_of_member {s t : Setting} (known : t ∈ ofRun) (same : s.member = t.key) : s = t := by
  have all : ∀ s ∈ all, ∀ t ∈ ofRun, s.member = t.key → s = t := by decide
  exact all s (mem_all s) t known same

/-- The member of an endpoint holds its parts and nothing else. -/
theorem eq_endpoint_of_member {s : Setting} {side : Side} (same : s.member = side.name) :
    ∃ part, s = .endpoint side part := by
  cases s with
  | endpoint side' part =>
      obtain rfl := Side.name_inj same
      exact ⟨part, rfl⟩
  | _ => exact absurd same (by cases side <;> decide)

theorem endpoint_of_not_run {s : Setting} (other : s ∉ ofRun) :
    ∃ side part, s = .endpoint side part := by
  cases s with
  | endpoint side part => exact ⟨side, part, rfl⟩
  | _ => exact absurd (by decide) other

theorem member_of_run {s : Setting} (known : s ∈ ofRun) : s.member = s.key := by
  cases s with
  | endpoint side part => exact absurd known (endpoint_notMem_ofRun side part)
  | _ => rfl

end Setting

namespace Config

/-- What is known of a configuration when the members of some names have been read. -/
def partly (c : Config) (seen : List String) : Config :=
  ({} : Config).override fun s => if s.member ∈ seen then some (c.get s) else none

theorem get_partly (c : Config) (seen : List String) (s : Setting) :
    (c.partly seen).get s = if s.member ∈ seen then c.get s else ({} : Config).get s := by
  rw [partly, get_override]
  split <;> rfl

/-- The settings of one more member. -/
theorem eq_partly_cons {c d : Config} {name : String} {seen : List String}
    (own : ∀ s : Setting, s.member = name → d.get s = c.get s)
    (other : ∀ s : Setting, s.member ≠ name → d.get s = (c.partly seen).get s) :
    d = c.partly (name :: seen) := by
  refine ext_get fun s => ?_
  rw [get_partly]
  by_cases same : s.member = name
  · rw [own s same, if_pos (same ▸ List.mem_cons_self)]
  · rw [other s same, get_partly]
    exact if_congr (by simp [same]) rfl rfl

theorem takes_setting (c : Config) {s : Setting} (known : s ∈ Setting.ofRun) {v : Value}
    (reads : Reads s.kind.read v.write (c.get s)) : Takes Config.fields c.partly (s.key, v) := by
  refine takes_field reads (fun c x => c.set s x) ?_ fun seen => ?_
  · cases s with
    | endpoint side part => exact absurd known (Setting.endpoint_notMem_ofRun side part)
    | _ => rfl
  · refine eq_partly_cons (fun t same => ?_) fun t other => ?_
    · obtain rfl := Setting.eq_of_member known same
      exact get_set_self _ _ _
    · refine get_set_of_ne _ _ fun same => other ?_
      rw [same, Setting.member_of_run known]

theorem takes_endpoint (c : Config) (side : Side) {v : Value}
    (reads : Reads Endpoint.read v.write (c.endpoint side)) :
    Takes Config.fields c.partly (side.name, v) := by
  refine takes_field reads (fun c e => c.setEndpoint side e) (by cases side <;> rfl) fun seen => ?_
  refine eq_partly_cons (fun s own => ?_) fun s other => ?_
  · obtain ⟨part, rfl⟩ := Setting.eq_endpoint_of_member own
    cases side <;> rfl
  · cases s with
    | endpoint side' part => cases side <;> cases side' <;> first | rfl | exact absurd rfl other
    | _ => exact get_setEndpoint_of_run (by decide) _ _ _

/-- The configuration that is read where the endpoints are the given ones. -/
def withEndpoints (c : Config) (e : Side → Endpoint) : Config :=
  (c.truncated.setEndpoint .source (e .source)).setEndpoint .target (e .target)

theorem endpoint_withEndpoints (c : Config) (e : Side → Endpoint) (side : Side) :
    (c.withEndpoints e).endpoint side = e side := by
  cases side <;> rfl

theorem get_withEndpoints {s : Setting} (known : s ∈ Setting.ofRun) (c : Config)
    (e : Side → Endpoint) : (c.withEndpoints e).get s = s.kind.truncated (c.get s) := by
  rw [withEndpoints, get_setEndpoint_of_run known, get_setEndpoint_of_run known]
  cases s <;> rfl

theorem get_partly_endpoint (c : Config) (e : Side → Endpoint) (seen : List String) (side : Side)
    (part : Endpoint.Part) :
    ((c.withEndpoints e).partly seen).get (.endpoint side part) =
      if side.name ∈ seen then (e side).get part else ({} : Endpoint).get part := by
  rw [get_partly]
  cases side <;> rfl

theorem get_partly_run {s : Setting} (known : s ∈ Setting.ofRun) (c : Config) (e : Side → Endpoint)
    (seen : List String) :
    ((c.withEndpoints e).partly seen).get s =
      if s.key ∈ seen then s.kind.truncated (c.get s) else ({} : Config).get s := by
  rw [get_partly, Setting.member_of_run known, get_withEndpoints known]

/-- The names of the members that are left. -/
def namesLeft (dropped : List Field) : List String :=
  ([Side.source, .target].filter fun side => .endpoint side ∉ dropped).map Side.name ++
    (Setting.ofRun.filter fun s => .setting s ∉ dropped).map Setting.key

theorem map_fst_membersLeft (c : Config) (dropped : List Field)
    (parts : Side → List (String × Value)) :
    (c.membersLeft dropped parts).map Prod.fst = namesLeft dropped := by
  rw [membersLeft, List.map_append, List.map_map, List.map_map]
  rfl

theorem namesLeft_sublist (dropped : List Field) :
    (namesLeft dropped).Sublist (Config.fields.map RecordField.name) :=
  (List.filter_sublist.map _).append (List.filter_sublist.map _)

theorem nodup_namesLeft (dropped : List Field) : (namesLeft dropped).Nodup :=
  (show (Config.fields.map RecordField.name).Nodup by decide).sublist (namesLeft_sublist dropped)

theorem key_ne_name {s : Setting} (known : s ∈ Setting.ofRun) (side : Side) : s.key ≠ side.name := by
  intro same
  obtain ⟨part, rfl⟩ := Setting.eq_endpoint_of_member ((Setting.member_of_run known).trans same)
  exact Setting.endpoint_notMem_ofRun side part known

theorem name_mem_namesLeft {dropped : List Field} {side : Side} :
    side.name ∈ namesLeft dropped ↔ .endpoint side ∉ dropped := by
  have other : side.name ∉ (Setting.ofRun.filter fun s => .setting s ∉ dropped).map Setting.key := by
    intro mem
    obtain ⟨s, left, same⟩ := List.mem_map.1 mem
    exact key_ne_name (List.mem_of_mem_filter left) side same
  rw [namesLeft, List.mem_append, List.mem_map_of_injective fun _ _ => Side.name_inj,
    or_iff_left other, List.mem_filter]
  cases side <;> simp

theorem key_mem_namesLeft {dropped : List Field} {s : Setting} (known : s ∈ Setting.ofRun) :
    s.key ∈ namesLeft dropped ↔ .setting s ∉ dropped := by
  rw [namesLeft, List.mem_append]
  have other : s.key ∉
      ([Side.source, .target].filter fun side => .endpoint side ∉ dropped).map Side.name := by
    intro mem
    obtain ⟨side, -, same⟩ := List.mem_map.1 mem
    exact key_ne_name known side same.symm
  constructor
  · rintro (mem | mem)
    · exact absurd mem other
    · obtain ⟨t, left, same⟩ := List.mem_map.1 mem
      obtain ⟨there, kept⟩ := List.mem_filter.1 left
      obtain rfl := Setting.eq_of_member known ((Setting.member_of_run there).trans same)
      exact of_decide_eq_true kept
  · exact fun kept => .inr (List.mem_map_of_mem (List.mem_filter.2 ⟨known, decide_eq_true kept⟩))

variable {c : Config} {dropped : List Field} {members : List (String × Value)}

section Left

variable {e : Side → Endpoint} {seen : List String}
  (same : ∀ name, name ∈ seen ↔ name ∈ namesLeft dropped)
  (gets : ∀ side part, (e side).get part =
    if part ∈ Endpoint.Part.all.filter (fun part => .setting (.endpoint side part) ∉ dropped) then
      (c.endpoint side).get part
    else ({} : Endpoint).get part)
include same gets

/-- A part of an endpoint is read if neither it nor its endpoint is left out. -/
theorem get_partly_part (side : Side) (part : Endpoint.Part) :
    ((c.withEndpoints e).partly seen).get (.endpoint side part) =
      if (Setting.endpoint side part).LeftOut dropped then ({} : Endpoint).get part
      else (c.endpoint side).get part := by
  have there : side.name ∈ seen ↔ .endpoint side ∉ dropped := (same _).trans name_mem_namesLeft
  have own : part ∈ Endpoint.Part.all.filter (fun part => .setting (.endpoint side part) ∉ dropped) ↔
      .setting (.endpoint side part) ∉ dropped := by
    cases part <;> simp [Endpoint.Part.all]
  rw [get_partly_endpoint, gets]
  by_cases left : (Setting.endpoint side part).LeftOut dropped
  · rw [if_pos left]
    rcases Setting.leftOut_endpoint.1 left with whole | single
    · rw [if_neg fun mem => there.1 mem whole]
    · rw [if_neg fun mem => own.1 mem single, ite_self]
  · obtain ⟨whole, single⟩ := not_or.1 (mt Setting.leftOut_endpoint.2 left)
    rw [if_neg left, if_pos (there.2 whole), if_pos (own.2 single)]

/-- The settings that are left are read, and the others have their defaults. -/
theorem get_partly_left (s : Setting) : ((c.withEndpoints e).partly seen).get s =
    if s.LeftOut dropped then ({} : Config).get s else s.kind.truncated (c.get s) := by
  by_cases known : s ∈ Setting.ofRun
  · have there : s.key ∈ seen ↔ ¬s.LeftOut dropped := by
      rw [same, key_mem_namesLeft known, Setting.leftOut_of_run known]
    rw [get_partly_run known]
    by_cases left : s.LeftOut dropped
    · rw [if_neg (mt there.1 (not_not.2 left)), if_pos left]
    · rw [if_pos (there.2 left), if_neg left]
  · obtain ⟨side, part, rfl⟩ := Setting.endpoint_of_not_run known
    refine (get_partly_part same gets side part).trans (if_congr .rfl ?_ rfl)
    cases side <;> rfl

end Left

/-- What is left of a configuration is read, with what JSON keeps of it, and what was left out has its
default. -/
theorem reads_edited (edited : c.Edited dropped members) :
    ∃ c', Reads Config.read (Value.object members).write c' ∧ ∀ s : Setting, c'.get s =
      if s.LeftOut dropped then ({} : Config).get s else s.kind.truncated (c.get s) := by
  obtain ⟨parts, inside, among⟩ := edited
  have nodup : Endpoint.Part.all.Nodup := by decide
  choose e reads gets using fun side =>
    (c.endpoint side).reads_parts (nodup.filter _) (inside side)
  have takes : ∀ m ∈ c.membersLeft dropped parts,
      Takes Config.fields (c.withEndpoints e).partly m := by
    rw [membersLeft, List.forall_mem_append, List.forall_mem_map, List.forall_mem_map]
    constructor
    · intro side _
      exact takes_endpoint _ side (endpoint_withEndpoints c e side ▸ reads side)
    · intro s left
      have known := List.mem_of_mem_filter left
      exact takes_setting _ known (get_withEndpoints known c e ▸ Setting.Kind.reads_json _)
  obtain ⟨seen, same, whole⟩ := reads_among false _
    (by rw [map_fst_membersLeft]; exact nodup_namesLeft dropped)
    (fun m mem => (namesLeft_sublist dropped).subset
      (map_fst_membersLeft c dropped parts ▸ List.mem_map_of_mem mem)) takes nofun among
  rw [map_fst_membersLeft] at same
  exact ⟨_, whole, get_partly_left same gets⟩

theorem get_truncated (c : Config) (s : Setting) :
    c.truncated.get s = s.kind.truncated (c.get s) := by
  cases s with
  | endpoint side part => cases side <;> rfl
  | _ => rfl

/-- If nothing is left out, all that is lost is what JSON does not keep. -/
theorem eq_truncated {c c' : Config} (gets : ∀ s : Setting, c'.get s =
    if s.LeftOut [] then ({} : Config).get s else s.kind.truncated (c.get s)) : c' = c.truncated := by
  refine ext_get fun s => ?_
  have there : ¬s.LeftOut [] := fun ⟨_, _, never⟩ => List.not_mem_nil never
  rw [gets s, if_neg there, get_truncated]

/-- What JSON does not keep of a configuration is not in its JSON. -/
theorem write_truncated (c : Config) : c.truncated.write = c.write := by
  have millis (d : Duration) : d.truncated.millis = d.millis := Duration.millis_ofMillis d.millis
  simp only [write, Config.members, truncated, millis]

/-- Whatever is left out of the JSON of a configuration, and whatever other members are put into it, it
is read: every setting that is not left out is kept, and every setting that is left out has its
default.  With nothing left out, what is read has the same JSON again. -/
theorem partial_read (edited : c.Edited dropped members) :
    (Value.object (c.membersLeft [] (c.partsLeft []))).write = c.write ∧
      ∃ c', readAll Config.read (Value.object members).write = .ok c' ∧
        (∀ s : Setting, ¬s.LeftOut dropped → s.kind.Keeps (c.get s) (c'.get s)) ∧
        (∀ s : Setting, s.LeftOut dropped → c'.get s = ({} : Config).get s) ∧
        (dropped = [] → c'.write = c.write) := by
  obtain ⟨c', reads, gets⟩ := reads_edited edited
  refine ⟨c.write_members, c', reads.readAll, fun s there => ?_, fun s left => ?_, ?_⟩
  · rw [gets s, if_neg there]
    exact Setting.Kind.keeps_truncated _
  · rw [gets s, if_pos left]
  · rintro rfl
    rw [eq_truncated gets, write_truncated]

/-- A configuration without its target, the password of its source and its report interval, with other
members in both objects and the members of the whole in reverse order. -/
theorem partial_read_without_target :
    let c : Config := { inMemory "data" with
      source := { url := "mem://source", bucket := "b", username := "me", password := "\"secret\"" }
      retryInterval := ⟨0, 1999999, by decide, by decide⟩
      maxBackoff := .longest }
    let dropped : List Field :=
      [.endpoint .target, .setting (.endpoint .source .password), .setting .reportInterval]
    let parts (side : Side) := ("note", Value.list []) :: c.partsLeft dropped side
    ∃ c', readAll Config.read
        (Value.object (("note", .null) :: (c.membersLeft dropped parts).reverse)).write = .ok c' ∧
      c'.source.username = "me" ∧ c'.source.password = "" ∧ c'.target.url = "" ∧
      c'.retryInterval = .ofMillis 1 ∧ c'.maxBackoff = .ofMillis 18446744073709551615 ∧
      c'.reportInterval = .ofMillis 5000 := by
  intro c dropped parts
  have edited : c.Edited dropped (("note", .null) :: (c.membersLeft dropped parts).reverse) :=
    ⟨parts, fun side => ⟨[("note", .list [])], by simp [Endpoint.fields, Endpoint.textField],
        (List.perm_append_singleton _ _).symm⟩,
      [("note", .null)], by simp [Config.fields, Config.field],
      ((List.reverse_perm _).cons _).trans (List.perm_append_singleton _ _).symm⟩
  obtain ⟨-, c', reads, kept, left, -⟩ := partial_read edited
  have retry : c'.retryInterval.toNanos = _ := kept .retryInterval (by decide)
  have backoff : c'.maxBackoff.toNanos = _ := kept .maxBackoff (by decide)
  exact ⟨c', reads, kept (.endpoint .source .username) (by decide),
    left (.endpoint .source .password) (by decide), left (.endpoint .target .url) (by decide),
    Duration.toNanos_inj (retry.trans (by decide)), Duration.toNanos_inj (backoff.trans (by decide)),
    left .reportInterval (by decide)⟩

end Config

end ReplicaDiff
