/-
# ReplicaDiff.Proofs.Toml.Reader — the lines of a document are read one by one

A bare key is read as a key without a path (`dottedKey_bare`), and a value is read
back if its line ends after it (`Reads`), as written strings and integers are
(`reads_text`, `reads_integer`).  What a text does to the reader is said for every
text that may follow (`Advances`), so that the lines of a document compose: an
entry with a new key adds it to the table of the header that holds
(`advances_entries`), and a header with a new name opens a table
(`advances_header`).
-/
import ReplicaDiff.Proofs.Toml.Number
import ReplicaDiff.Proofs.Toml.Text
import ReplicaDiff.Toml.Reader

namespace ReplicaDiff.Toml

set_option autoImplicit false

/-! ## Keys -/

/-- A key that needs no quotation marks. -/
def Bare (key : String) : Prop := key ≠ "" ∧ key.toList.all isBareKeyChar = true

instance (key : String) : Decidable (Bare key) := inferInstanceAs (Decidable (_ ∧ _))

theorem ne_of_bareKeyChar {c other : Char} (bare : isBareKeyChar c = true)
    (none : isBareKeyChar other = false) : c ≠ other := by
  rintro rfl
  rw [bare] at none
  cases none

theorem isSpace_of_bareKeyChar {c : Char} (bare : isBareKeyChar c = true) : isSpace c = false := by
  have blank : c ≠ ' ' := ne_of_bareKeyChar bare (by decide)
  have tab : c ≠ '\t' := ne_of_bareKeyChar bare (by decide)
  simp [isSpace, blank, tab]

theorem dropSpace_cons {c : Char} (solid : isSpace c = false) (tail : List Char) :
    dropSpace (c :: tail) = c :: tail := by
  simp [dropSpace, solid]

theorem Bare.chars {key : String} (bare : Bare key) :
    ∀ c ∈ key.toList, isBareKeyChar c = true := List.all_eq_true.1 bare.2

theorem Bare.exists_cons {key : String} (bare : Bare key) :
    ∃ c cs, key.toList = c :: cs ∧ isBareKeyChar c = true := by
  cases eq : key.toList with
  | nil => exact absurd (String.toList_eq_nil_iff.1 eq) bare.1
  | cons c cs => exact ⟨c, cs, rfl, bare.chars c (eq ▸ List.mem_cons_self)⟩

/-- A bare key ends before what is no part of it. -/
theorem keyPart_bare {key : String} (bare : Bare key) {mark : Char}
    (stops : isBareKeyChar mark = false) (tail : List Char) :
    keyPart (key.toList ++ mark :: tail) = some (key, mark :: tail) := by
  obtain ⟨c, cs, eq, first⟩ := bare.exists_cons
  have taken : (key.toList ++ mark :: tail).takeWhile isBareKeyChar = key.toList := by
    rw [List.takeWhile_append_of_pos bare.chars, List.takeWhile_cons_of_neg (by simp [stops]),
      List.append_nil]
  have left : (key.toList ++ mark :: tail).dropWhile isBareKeyChar = mark :: tail := by
    rw [List.dropWhile_append_of_pos bare.chars, List.dropWhile_cons_of_neg (by simp [stops])]
  have back : String.ofList key.toList = key := String.ofList_toList
  have quote : c ≠ '"' := ne_of_bareKeyChar first (by decide)
  have apostrophe : c ≠ '\x27' := ne_of_bareKeyChar first (by decide)
  rw [eq] at taken left back ⊢
  unfold keyPart
  split
  · simp_all
  · simp_all
  · rw [taken, left]
    exact congrArg (fun k => some (k, mark :: tail)) back

/-- A bare key leads nowhere, if no dot follows. -/
theorem dottedKey_bare {key : String} (bare : Bare key) {mark : Char}
    (stops : isBareKeyChar mark = false) {tail rest : List Char}
    (follows : dropSpace (mark :: tail) = rest) (dot : rest.head? ≠ some '.') :
    dottedKey (key.toList ++ mark :: tail) = some (⟨[], key⟩, rest) := by
  obtain ⟨c, cs, eq, first⟩ := bare.exists_cons
  have solid : dropSpace (key.toList ++ mark :: tail) = key.toList ++ mark :: tail := by
    rw [eq]
    exact dropSpace_cons (isSpace_of_bareKeyChar first) _
  have parts (fuel : Nat) : keyParts (fuel + 1) (key.toList ++ mark :: tail) = some ([key], rest) := by
    simp only [keyParts, solid, keyPart_bare bare stops, follows, bind, Option.bind]
    split
    · simp at dot
    · rfl
  simp [dottedKey, parts, nestingLimit]

/-! ## Values -/

/-- Characters that are read as a value, if their line ends after them. -/
structure Reads (written : List Char) (v : Value) : Prop where
  solid : ∀ c ∈ written.head?, isSpace c = false
  reads : ∀ fuel depth rest,
    readValue (fuel + 1) depth (written ++ '\n' :: rest) = some (v, '\n' :: rest)

theorem exists_mark (s : String) :
    ∃ mark tail, (writeText s).toList = mark :: tail ∧ (mark = '"' ∨ mark = '\x27') := by
  unfold writeText
  simp only [String.toList_ofList]
  split_ifs
  · exact ⟨_, _, rfl, .inr rfl⟩
  · exact ⟨_, _, rfl, .inr rfl⟩
  · exact ⟨_, _, rfl, .inr rfl⟩
  · exact ⟨_, _, rfl, .inl rfl⟩
  · exact ⟨_, _, rfl, .inl rfl⟩

theorem reads_text (s : String) : Reads (writeText s).toList (.text s) := by
  obtain ⟨mark, tail, eq, quotes⟩ := exists_mark s
  refine ⟨fun c first => ?_, fun fuel depth rest => ?_⟩
  · rw [eq] at first
    obtain rfl := Option.some.inj first
    rcases quotes with rfl | rfl <;> rfl
  · have read := anyText_writeText s rest
    rw [eq, List.cons_append] at read ⊢
    simp only [readValue, if_pos quotes, read, Option.map_some]

theorem reads_integer {n : Nat} (fits : n ≤ maxInteger) :
    Reads (toString n).toList (.integer n) := by
  obtain ⟨d, ds, all, -⟩ := exists_digits n
  cases eq : (toString n).toList with
  | nil => rw [eq] at all; cases all
  | cons c cs =>
      rw [eq] at all
      have digit : digit? 10 c = some d := (List.forall₂_cons.1 all).1
      have other (mark : Char) (none : isDigit mark = false) : c ≠ mark := ne_of_digit digit none
      refine ⟨fun first same => ?_, fun fuel depth rest => ?_⟩
      · obtain rfl := Option.some.inj same
        simp [isSpace, other ' ' rfl, other '\t' rfl]
      · have read := numberOrMoment_toString fits rest
        rw [eq, List.cons_append] at read
        rw [List.cons_append]
        simp [readValue, read, other '"' rfl, other '\x27' rfl, other '[' rfl, other '\x7b' rfl,
          other 't' rfl, other 'f' rfl]

theorem Reads.dropSpace {written : List Char} {v : Value} (reads : Reads written v)
    (rest : List Char) :
    dropSpace (' ' :: (written ++ '\n' :: rest)) = written ++ '\n' :: rest := by
  cases written with
  | nil => rfl
  | cons c tail => exact dropSpace_cons (reads.solid c rfl) _

/-! ## Lines -/

/-- What a text does to the reader, whatever follows it. -/
def Advances (s : State) (text : List Char) (s' : State) : Prop :=
  ∀ rest fuel, (text ++ rest).length < fuel →
    ∃ fuel', rest.length < fuel' ∧ readLines fuel s (text ++ rest) = readLines fuel' s' rest

theorem Advances.nil (s : State) : Advances s [] s := fun _ fuel enough => ⟨fuel, enough, rfl⟩

theorem Advances.append {s s' s'' : State} {text more : List Char} (first : Advances s text s')
    (second : Advances s' more s'') : Advances s (text ++ more) s'' := by
  intro rest fuel enough
  rw [List.append_assoc] at enough ⊢
  obtain ⟨fuel', enough', eq⟩ := first _ fuel enough
  obtain ⟨fuel'', enough'', eq'⟩ := second rest fuel' enough'
  exact ⟨fuel'', enough'', eq.trans eq'⟩

/-- A line that the reader takes in one step. -/
theorem Advances.of_line {s s' : State} {line : List Char} (nonempty : line ≠ [])
    (reads : ∀ rest fuel, readLines (fuel + 1) s (line ++ rest) = readLines fuel s' rest) :
    Advances s line s' := by
  intro rest fuel enough
  have one : 0 < line.length := List.length_pos_iff.2 nonempty
  rw [List.length_append] at enough
  obtain ⟨fuel, rfl⟩ := Nat.exists_eq_succ_of_ne_zero (Nat.ne_zero_of_lt enough)
  exact ⟨fuel, by omega, reads rest fuel⟩

theorem advances_blank (s : State) : Advances s ['\n'] s :=
  .of_line (List.cons_ne_nil _ _) fun _ _ => rfl

theorem endOfLine_newline (rest : List Char) : endOfLine ('\n' :: rest) = some rest := rfl

theorem readEntry_line {s : State} {key : String} {written : List Char} {v : Value}
    {entries : Entries} (bare : Bare key) (reads : Reads written v)
    (puts : Entries.putBelow s.header [] key v s.entries = some entries) (rest : List Char) :
    readEntry s (key.toList ++ ' ' :: '=' :: ' ' :: (written ++ '\n' :: rest)) =
      some ({ s with entries }, rest) := by
  have keyed : dottedKey (key.toList ++ ' ' :: '=' :: ' ' :: (written ++ '\n' :: rest)) =
      some (⟨[], key⟩, '=' :: ' ' :: (written ++ '\n' :: rest)) :=
    dottedKey_bare bare (by decide) rfl (by simp)
  simp [readEntry, keyed, expect, reads.dropSpace, reads.reads, puts, endOfLine_newline]

/-- An entry is read in one step. -/
theorem advances_entry {s : State} {key written : String} {v : Value} {entries : Entries}
    (bare : Bare key) (reads : Reads written.toList v)
    (puts : Entries.putBelow s.header [] key v s.entries = some entries) :
    Advances s (line key written).toList { s with entries } := by
  have text : (line key written).toList =
      key.toList ++ ' ' :: '=' :: ' ' :: (written.toList ++ ['\n']) := by
    simp [line]
  obtain ⟨c, cs, eq, first⟩ := bare.exists_cons
  have solid := isSpace_of_bareKeyChar first
  have other (mark : Char) (none : isBareKeyChar mark = false) : c ≠ mark :=
    ne_of_bareKeyChar first none
  rw [text]
  refine .of_line (by simp) fun rest fuel => ?_
  have read := readEntry_line bare reads puts rest
  rw [eq] at read
  simp only [eq, List.cons_append, List.append_assoc, List.nil_append] at read ⊢
  simp [readLines, dropSpace_cons solid, other '[' (by decide), other '#' (by decide),
    other '\n' (by decide), other '\r' (by decide), read]

theorem advances_header {s : State} {name : String} {entries : Entries} (bare : Bare name)
    (opens : Entries.openTable [] name s.entries = some entries) :
    Advances s ('[' :: (name.toList ++ [']', '\n'])) ⟨entries, [name]⟩ := by
  refine .of_line (by simp) fun rest fuel => ?_
  have keyed : dottedKey (name.toList ++ ']' :: '\n' :: rest) =
      some (⟨[], name⟩, ']' :: '\n' :: rest) :=
    dottedKey_bare bare (by decide) rfl (by simp)
  obtain ⟨c, cs, eq, first⟩ := bare.exists_cons
  have bracket : c ≠ '[' := ne_of_bareKeyChar first (by decide)
  have read : readHeader s (name.toList ++ ']' :: '\n' :: rest) = some (⟨entries, [name]⟩, rest) := by
    rw [eq, List.cons_append] at keyed ⊢
    unfold readHeader
    split
    · simp_all
    · simp [keyed, expect, opens, endOfLine_newline]
  simp only [List.cons_append, List.append_assoc, List.nil_append]
  simp [readLines, dropSpace_cons, isSpace, read]

/-- No mark stands before a bare key. -/
theorem unmarked_line {key : String} (bare : Bare key) (written : String) (rest : List Char) :
    ∀ c ∈ ((line key written).toList ++ rest).head?, c ≠ byteOrderMark := by
  obtain ⟨c, cs, eq, first⟩ := bare.exists_cons
  simp only [line, String.toList_append, eq]
  rintro d ⟨⟩
  exact ne_of_bareKeyChar first (by decide)

/-! ## Tables -/

namespace Entries

variable {key : String} {entries : Entries}

theorem find_add_of_ne {other : String} (ne : key ≠ other) (v : Value) (entries : Entries) :
    find? other (add key v entries) = find? other entries := by
  induction entries with
  | nil => simp [add, find?, ne]
  | cons e entries ih =>
      simp only [add] at ih
      simp only [add, List.cons_append, find?, ih]

theorem find_add_self (v : Value) (new : find? key entries = none) :
    find? key (add key v entries) = some v := by
  induction entries with
  | nil => simp [add, find?]
  | cons e entries ih =>
      obtain ⟨other, value⟩ := e
      simp only [find?] at new
      split at new
      · cases new
      · rename_i ne
        simp only [add] at ih
        simp only [add, List.cons_append, find?, if_neg ne, ih new]

theorem replace_add (v v' : Value) (new : find? key entries = none) :
    replace key v' (add key v entries) = add key v' entries := by
  induction entries with
  | nil => simp [add, replace]
  | cons e entries ih =>
      obtain ⟨other, value⟩ := e
      simp only [find?] at new
      split at new
      · cases new
      · rename_i ne
        simp only [add] at ih
        simp only [add, List.cons_append, replace, if_neg ne, ih new]

theorem openTable_new (new : find? key entries = none) :
    openTable [] key entries = some (add key (.table .header []) entries) := by
  simp [openTable, changeAt, new]

end Entries

/-- Where the entries below a header go: how the document is made up around their table. -/
structure Place (header : List String) (around : Entries → Entries) : Prop where
  puts : ∀ key v inner, Entries.find? key inner = none →
    Entries.putBelow header [] key v (around inner) = some (around (Entries.add key v inner))

theorem place_top : Place [] id where
  puts key v inner new := by
    simp [Entries.putBelow, Entries.putDotted, Entries.changeAt, new]

theorem place_table {name : String} {entries : Entries} (new : Entries.find? name entries = none) :
    Place [name] fun inner => Entries.add name (.table .header inner) entries where
  puts key v inner fresh := by
    simp [Entries.putBelow, Entries.putDotted, Entries.changeAt, fresh, Entries.find_add_self _ new,
      Entries.replace_add _ _ new]

/-- An entry of a table as it is written, and its value. -/
structure WrittenEntry where
  key : String
  written : String
  value : Value

namespace WrittenEntry

/-- The line of an entry. -/
def text (e : WrittenEntry) : String := line e.key e.written

/-- The table of some entries. -/
def table (es : List WrittenEntry) : Entries := es.map fun e => (e.key, e.value)

theorem find_table {name : String} {es : List WrittenEntry} (new : name ∉ es.map (·.key)) :
    Entries.find? name (table es) = none := by
  induction es with
  | nil => rfl
  | cons e es ih =>
      rw [List.map_cons, List.mem_cons, not_or] at new
      rw [table, List.map_cons, Entries.find?, if_neg (Ne.symm new.1)]
      exact ih new.2

/-- An entry is read back. -/
structure ReadBack (e : WrittenEntry) : Prop where
  bare : Bare e.key
  reads : Reads e.written.toList e.value

end WrittenEntry

/-- The entries of a table are read one by one, if no key comes twice. -/
theorem advances_entries {header : List String} {around : Entries → Entries}
    (place : Place header around) {es : List WrittenEntry} (readBack : ∀ e ∈ es, e.ReadBack)
    (nodup : (es.map (·.key)).Nodup) {inner : Entries}
    (new : ∀ e ∈ es, Entries.find? e.key inner = none) :
    Advances ⟨around inner, header⟩ (es.flatMap (·.text.toList))
      ⟨around (inner ++ WrittenEntry.table es), header⟩ := by
  induction es generalizing inner with
  | nil => simpa [WrittenEntry.table] using Advances.nil _
  | cons e es ih =>
      rw [List.map_cons, List.nodup_cons, List.mem_map] at nodup
      have ⟨bare, reads⟩ := readBack e List.mem_cons_self
      have first : Advances ⟨around inner, header⟩ e.text.toList
          ⟨around (Entries.add e.key e.value inner), header⟩ :=
        advances_entry bare reads (place.puts _ _ _ (new e List.mem_cons_self))
      have onward : Advances ⟨around (Entries.add e.key e.value inner), header⟩
          (es.flatMap (·.text.toList))
          ⟨around (Entries.add e.key e.value inner ++ WrittenEntry.table es), header⟩ := by
        refine ih (fun f mem => readBack f (List.mem_cons_of_mem _ mem)) nodup.2 fun f mem => ?_
        rw [Entries.find_add_of_ne fun same => nodup.1 ⟨f, mem, same.symm⟩]
        exact new f (List.mem_cons_of_mem _ mem)
      have one : inner ++ WrittenEntry.table (e :: es) =
          Entries.add e.key e.value inner ++ WrittenEntry.table es := by
        rw [Entries.add, List.append_assoc]
        rfl
      rw [List.flatMap_cons, one]
      exact first.append onward

/-- A document is what the reader has when it has taken the whole text. -/
theorem parse_of_advances {text : String} {s : State} (advances : Advances ⟨[], []⟩ text.toList s)
    (unmarked : ∀ c ∈ text.toList.head?, c ≠ byteOrderMark) : parse? text = some s.entries := by
  obtain ⟨fuel, enough, eq⟩ := advances [] (text.toList.length + 1) (by simp)
  rw [List.append_nil] at eq
  obtain ⟨fuel, rfl⟩ := Nat.exists_eq_succ_of_ne_zero (Nat.ne_zero_of_lt enough)
  have read : readLines (text.toList.length + 1) ⟨[], []⟩ text.toList = some s := eq
  unfold parse?
  cases first : text.toList with
  | nil =>
      rw [first] at read
      exact congrArg (Option.map (·.entries)) read
  | cons c rest =>
      rw [first] at read unmarked
      simp only [if_neg (unmarked c rfl)]
      exact congrArg (Option.map (·.entries)) read

end ReplicaDiff.Toml
