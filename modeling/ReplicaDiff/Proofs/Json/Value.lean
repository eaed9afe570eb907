/-
# ReplicaDiff.Proofs.Json.Value — values of any shape

`Value` is what JSON can write: words, numbers, strings, and lists and objects of
values, to any depth.  `skipValue` passes over the written form of every value and
stops behind it (`skipValue_write`).  An integer is read where it is in the range
(`reads_integer`), and refused where it is not (`refuses_integer`).

For the nesting, the fuel exceeds twice the bytes that are left before each look at
the end of a bracket (`GoesOn`): looking costs one unit and passing over a byte gives
back two.
-/
import ReplicaDiff.Proofs.Json.Shape

namespace ReplicaDiff.Json

set_option autoImplicit false

open ReplicaDiff.Text (Bytes utf8)

/-! ## Values -/

/-- The exponent of a number: its letter, its sign if there is one, and its digits. -/
structure Exponent where
  capital : Bool := false
  negative? : Option Bool := none
  first : Fin 10
  more : List (Fin 10) := []

/-- A number as it is written: the digits of a fraction and an exponent may follow the integer. -/
structure Numeral where
  negative : Bool := false
  whole : Nat
  fraction? : Option (Fin 10 × List (Fin 10)) := none
  exponent? : Option Exponent := none

/-- A JSON value. -/
inductive Value where
  | null
  | truth (b : Bool)
  | number (n : Numeral)
  | text (s : String)
  | list (items : List Value)
  | object (members : List (String × Value))

/-- The digits of a number. -/
def writeDigits (digits : List (Fin 10)) : Bytes := digits.map fun d : Fin 10 => UInt8.ofNat (48 + d.val)

namespace Exponent

/-- The sign of an exponent. -/
def writeSign : Option Bool → Bytes
  | none => []
  | some negative => [if negative then 45 else 43]

/-- An exponent after its letter. -/
def write (e : Exponent) : Bytes :=
  (if e.capital then 69 else 101) :: (writeSign e.negative? ++ writeDigits (e.first :: e.more))

end Exponent

namespace Numeral

/-- An integer without fraction or exponent. -/
def ofInt (n : Int) : Numeral where
  negative := n < 0
  whole := n.natAbs

/-- The fraction of a number with its point. -/
def writeFraction : Option (Fin 10 × List (Fin 10)) → Bytes
  | none => []
  | some (first, more) => 46 :: writeDigits (first :: more)

/-- The exponent of a number, if it has one. -/
def writeExponent : Option Exponent → Bytes
  | none => []
  | some e => e.write

/-- A number after its sign. -/
def writeMagnitude (n : Numeral) : Bytes :=
  writeNat n.whole ++ (writeFraction n.fraction? ++ writeExponent n.exponent?)

/-- A number. -/
def write (n : Numeral) : Bytes := if n.negative then 45 :: n.writeMagnitude else n.writeMagnitude

end Numeral

namespace Value

/-- An integer. -/
def integer (n : Int) : Value := .number (.ofInt n)

mutual

/-- The compact form of a value. -/
def write : Value → Bytes
  | .null => [110, 117, 108, 108]
  | .truth true => [116, 114, 117, 101]
  | .truth false => [102, 97, 108, 115, 101]
  | .number n => n.write
  | .text s => writeText s
  | .list items => 91 :: (writeItems true items ++ [93])
  | .object members => 123 :: (writeMembers true members ++ [125])

/-- The elements of a list, each with what separates it from the element before it. -/
def writeItems : Bool → List Value → Bytes
  | _, [] => []
  | first, item :: items => separated first item.write ++ writeItems false items

/-- The members of an object, each with what separates it from the member before it. -/
def writeMembers : Bool → List (String × Value) → Bytes
  | _, [] => []
  | first, (key, value) :: members =>
      separated first (writeMember key value.write) ++ writeMembers false members

end

theorem writeMembers_eq_listed (first : Bool) (members : List (String × Value)) :
    writeMembers first members =
      listed first (writtenMembers (members.map fun m => (m.1, m.2.write))) := by
  induction members generalizing first with
  | nil => rfl
  | cons m members ih => rw [writeMembers, ih]; rfl

/-- An object of values is the object of their written forms. -/
theorem write_object (members : List (String × Value)) :
    (Value.object members).write = writeObject (members.map fun m => (m.1, m.2.write)) := by
  rw [write, writeMembers_eq_listed, writeObject, commaSeparated_eq_listed]
  rfl

end Value

/-! ## Strings -/

theorem skipQuoted_quote (rest : Bytes) : skipQuoted (quoteByte :: rest) = .ok rest := by
  rw [skipQuoted.eq_def]
  simp

/-- Whatever a byte is written as is passed over. -/
theorem skipQuoted_escapeByte (b : UInt8) (rest : Bytes) :
    skipQuoted (escapeByte b ++ rest) = skipQuoted rest := by
  rcases escapeByte_cases b with ⟨e, eq, letter, short⟩ | ⟨h₁, h₂, h₃, h₄, eq, unit, -⟩ |
    ⟨eq, quote, backslash, control⟩
  · rw [eq, List.cons_append, skipQuoted.eq_def]
    simp [quoteByte, backslashByte, letter, short]
  · rw [eq, List.cons_append, skipQuoted.eq_def]
    simp [quoteByte, backslashByte, unit]
  · rw [eq, List.cons_append, skipQuoted.eq_def]
    simp [quote, backslash, control]

theorem skipQuoted_escaped (bytes rest : Bytes) :
    skipQuoted (bytes.flatMap escapeByte ++ quoteByte :: rest) = .ok rest := by
  induction bytes with
  | nil => exact skipQuoted_quote rest
  | cons b bytes ih => rw [List.flatMap_cons, List.append_assoc, skipQuoted_escapeByte, ih]

/-! ## Numbers -/

/-- No more digits come. -/
def DigitsEnd (rest : Bytes) : Prop := ∀ b ∈ rest.head?, isDigit b = false

theorem isDigit_of_mem_writeDigits {digits : List (Fin 10)} :
    ∀ b ∈ writeDigits digits, isDigit b = true := by
  intro b mem
  obtain ⟨d, -, rfl⟩ := List.mem_map.1 mem
  exact isDigit_ofNat d d.isLt

theorem skipDigits_append {digits rest : Bytes} (some : digits ≠ [])
    (all : ∀ b ∈ digits, isDigit b = true) (ended : DigitsEnd rest) :
    skipDigits (digits ++ rest) = .ok rest := by
  obtain ⟨b, digits, rfl⟩ := List.exists_cons_of_ne_nil some
  have first : isDigit b = true := all b List.mem_cons_self
  have stop : rest.dropWhile isDigit = rest := by
    cases rest with
    | nil => rfl
    | cons c rest => exact List.dropWhile_cons_of_neg (by simp [ended c rfl])
  rw [List.cons_append, skipDigits, if_pos first,
    List.dropWhile_append_of_pos fun c mem => all c (List.mem_cons_of_mem _ mem), stop]

theorem skipDigits_writeDigits (first : Fin 10) (more : List (Fin 10)) {rest : Bytes}
    (ended : DigitsEnd rest) : skipDigits (writeDigits (first :: more) ++ rest) = .ok rest :=
  skipDigits_append (List.cons_ne_nil _ _) isDigit_of_mem_writeDigits ended

theorem Follows.digitsEnd {rest : Bytes} (follows : Follows rest) : DigitsEnd rest := by
  intro b head
  rcases follows b head with rfl | rfl | rfl <;> rfl

theorem digitsEnd_exponent (e? : Option Exponent) {rest : Bytes} (follows : Follows rest) :
    DigitsEnd (Numeral.writeExponent e? ++ rest) := by
  cases e? with
  | none => exact follows.digitsEnd
  | some e =>
      intro b head
      obtain rfl := Option.mem_some.1 head
      cases e.capital <;> rfl

theorem digitsEnd_fraction (fraction? : Option (Fin 10 × List (Fin 10))) {rest : Bytes}
    (ended : DigitsEnd rest) : DigitsEnd (Numeral.writeFraction fraction? ++ rest) := by
  cases fraction? with
  | none => exact ended
  | some digits =>
      intro b head
      obtain rfl := Option.mem_some.1 head
      rfl

theorem skipExponent_writeExponent (e? : Option Exponent) {rest : Bytes} (follows : Follows rest) :
    skipExponent (Numeral.writeExponent e? ++ rest) = .ok rest := by
  cases e? with
  | none =>
      cases rest with
      | nil => rfl
      | cons b rest =>
          obtain ⟨-, -, small, capital⟩ := follows.head
          simp [Numeral.writeExponent, skipExponent, small, capital]
  | some e =>
      obtain ⟨capital, negative?, first, more⟩ := e
      have digits := skipDigits_writeDigits first more follows.digitsEnd
      cases negative? with
      | none =>
          have unsigned : ∀ d : Fin 10,
              ¬(UInt8.ofNat (48 + d.val) = 43 ∨ UInt8.ofNat (48 + d.val) = 45) := by
            decide
          cases capital <;> exact (if_neg (unsigned first)).trans digits
      | some negative =>
          cases capital <;> cases negative <;> exact digits

/-- Pass over the integer in front of a number. -/
def skipWhole (input : Bytes) : Except Fault Bytes :=
  match input with
  | [] => .error .malformed
  | b :: rest =>
      if b = 48 then
        match rest with
        | c :: _ => if isDigit c then .error .malformed else .ok rest
        | [] => .ok rest
      else skipDigits input

/-- Pass over what follows the integer of a number. -/
def skipFraction (input : Bytes) : Except Fault Bytes :=
  match input with
  | b :: tail =>
      if b = 46 then do
        let rest ← skipDigits tail
        skipExponent rest
      else skipExponent input
  | [] => .ok []

theorem skipNumber_eq (input : Bytes) : skipNumber input = skipWhole input >>= skipFraction := by
  cases input with
  | nil => rfl
  | cons b rest =>
      unfold skipNumber skipWhole
      by_cases zero : b = 48
      · cases rest with
        | nil => simp only [zero, ↓reduceIte]; rfl
        | cons c rest => by_cases digit : isDigit c <;> simp only [zero, digit, ↓reduceIte] <;> rfl
      · simp only [zero, ↓reduceIte]
        rfl

theorem skipWhole_writeNat (n : Nat) {rest : Bytes} (ended : DigitsEnd rest) :
    skipWhole (writeNat n ++ rest) = .ok rest := by
  obtain ⟨b, tail, eq, -, zero⟩ := writeNat_eq_cons n
  have digits := skipDigits_append (eq ▸ List.cons_ne_nil b tail) isDigit_of_mem_writeNat ended
  rw [eq, List.cons_append] at digits ⊢
  by_cases leading : b = 48
  · have nothing : writeNat n = [48] := by
      rw [zero leading]
      decide
    obtain ⟨rfl, rfl⟩ := List.cons.inj (eq.symm.trans nothing)
    cases rest with
    | nil => rfl
    | cons c rest => simp [skipWhole, ended c rfl]
  · simpa only [skipWhole, leading, ↓reduceIte] using digits

theorem skipFraction_writeFraction (fraction? : Option (Fin 10 × List (Fin 10)))
    (e? : Option Exponent) {rest : Bytes} (follows : Follows rest) :
    skipFraction (Numeral.writeFraction fraction? ++ (Numeral.writeExponent e? ++ rest)) =
      .ok rest := by
  have exponent := skipExponent_writeExponent e? follows
  cases fraction? with
  | none =>
      have point : ∀ b ∈ (Numeral.writeExponent e? ++ rest).head?, b ≠ 46 := by
        cases e? with
        | none =>
            intro b head
            rcases follows b head with rfl | rfl | rfl <;> decide
        | some e =>
            intro b head
            obtain rfl := Option.mem_some.1 head
            cases e.capital <;> decide
      rw [Numeral.writeFraction, List.nil_append]
      unfold skipFraction
      split
      · rename_i b tail eq
        rw [if_neg (point b (by rw [eq]; rfl)), exponent]
      · rename_i eq
        rw [← exponent, eq]
        rfl
  | some digits =>
      obtain ⟨first, more⟩ := digits
      rw [Numeral.writeFraction, List.cons_append, skipFraction, if_pos rfl,
        skipDigits_writeDigits first more (digitsEnd_exponent e? follows)]
      exact exponent

theorem skipNumber_writeMagnitude (n : Numeral) {rest : Bytes} (follows : Follows rest) :
    skipNumber (n.writeMagnitude ++ rest) = .ok rest := by
  have ended := digitsEnd_fraction n.fraction? (digitsEnd_exponent n.exponent? follows)
  rw [skipNumber_eq, Numeral.writeMagnitude, List.append_assoc, List.append_assoc,
    skipWhole_writeNat n.whole ended]
  exact skipFraction_writeFraction n.fraction? n.exponent? follows

/-! ## Nesting -/

/-- Pass over a value that is neither a list nor an object, after its first byte. -/
def skipPlain (b : UInt8) (rest : Bytes) : Except Fault Bytes :=
  if b = 110 then expectWord [117, 108, 108] rest
  else if b = 116 then expectWord [114, 117, 101] rest
  else if b = 102 then expectWord [97, 108, 115, 101] rest
  else if b = 45 then skipNumber rest
  else if isDigit b then skipNumber (b :: rest)
  else if b = quoteByte then skipQuoted rest
  else .error .malformed

/-- The written form of a value that is neither a list nor an object. -/
def Plain (written : Bytes) : Prop :=
  ∃ b tail, written = b :: tail ∧ isBlankByte b = false ∧ b ∉ [91, 93, 123] ∧
    ∀ rest, Follows rest → skipPlain b (tail ++ rest) = .ok rest

theorem skipPlain_digit {b : UInt8} (digit : isDigit b = true) (rest : Bytes) :
    skipPlain b rest = skipNumber (b :: rest) := by
  have other : ∀ c, isDigit c = false → b ≠ c := by
    rintro c letter rfl
    exact absurd digit (by simp [letter])
  unfold skipPlain
  rw [if_neg (other 110 rfl), if_neg (other 116 rfl), if_neg (other 102 rfl),
    if_neg (other 45 rfl), if_pos digit]

theorem plain_number (n : Numeral) : Plain n.write := by
  by_cases negative : n.negative
  · refine ⟨45, n.writeMagnitude, if_pos negative, rfl, by decide, fun rest follows => ?_⟩
    exact skipNumber_writeMagnitude n follows
  · obtain ⟨b, tail, eq, digit, -⟩ := writeNat_eq_cons n.whole
    have whole : n.writeMagnitude =
        b :: (tail ++ (Numeral.writeFraction n.fraction? ++ Numeral.writeExponent n.exponent?)) := by
      rw [Numeral.writeMagnitude, eq, List.cons_append]
    refine ⟨b, _, (if_neg negative).trans whole, isBlankByte_of_isDigit digit, fun bracket => ?_,
      fun rest follows => ?_⟩
    · simp only [List.mem_cons, List.not_mem_nil, or_false] at bracket
      rcases bracket with rfl | rfl | rfl <;> cases digit
    · rw [skipPlain_digit digit, ← List.cons_append, ← whole]
      exact skipNumber_writeMagnitude n follows

theorem plain_text (s : String) : Plain (writeText s) := by
  refine ⟨quoteByte, _, rfl, rfl, by decide, fun rest _ => ?_⟩
  rw [List.append_assoc]
  exact skipQuoted_escaped (utf8 s) rest

/-- The byte that closes a bracket. -/
def Bracket.closing : Bracket → UInt8
  | .list => 93
  | .object => 125

/-- What begins inside a bracket where it does not end. -/
def Bracket.inside : Bracket → Wanted
  | .list => .value
  | .object => .key

/-- What is looked for inside a bracket before its first part, or after a part. -/
def looking (first : Bool) : Wanted := if first then .first else .more

/-- The input is passed over from behind a value on, with fuel for what is left. -/
def GoesOn (opened : List Bracket) (rest : Bytes) (result : Except Fault Bytes) : Prop :=
  ∃ fuel, 2 * rest.length < fuel ∧ result = skipNested fuel opened .more rest

theorem skipNested_plain {b : UInt8} {tail rest : Bytes} (solid : isBlankByte b = false)
    (plain : b ∉ [91, 93, 123]) (skips : skipPlain b tail = .ok rest) (fuel : Nat)
    (opened : List Bracket) :
    skipNested (fuel + 2) opened .value (b :: tail) = skipNested (fuel + 1) opened .more rest := by
  simp only [List.mem_cons, List.not_mem_nil, or_false, not_or] at plain
  rw [skipNested]
  simp only [skipBlank_of_solid solid, plain, ↓reduceIte]
  unfold skipPlain at skips
  split_ifs at skips ⊢ <;> rw [skips] <;> cases opened <;> rfl

theorem skipNested_close (bracket : Bracket) (first : Bool) (fuel : Nat) (opened : List Bracket)
    (rest : Bytes) :
    skipNested (fuel + 2) (bracket :: opened) (looking first) (bracket.closing :: rest) =
      skipNested (fuel + 1) opened .more rest := by
  cases bracket <;> cases first <;> cases opened <;> rfl

theorem skipNested_part {b : UInt8} (solid : isBlankByte b = false) (bracket : Bracket)
    (more : b ≠ bracket.closing) (first : Bool) (fuel : Nat) (opened : List Bracket) (tail : Bytes) :
    skipNested (fuel + 1) (bracket :: opened) (looking first) (separated first (b :: tail)) =
      skipNested fuel (bracket :: opened) bracket.inside (b :: tail) := by
  have start := skipBlank_of_solid solid tail
  have comma : skipBlank (44 :: b :: tail) = 44 :: b :: tail := skipBlank_of_solid rfl _
  cases bracket <;> cases first <;>
    simp_all [skipNested, looking, separated, Bracket.closing, Bracket.inside]

theorem GoesOn.plain {written : Bytes} (plain : Plain written) {opened : List Bracket} {rest : Bytes}
    {fuel : Nat} (follows : Follows rest) (enough : 2 * (written ++ rest).length ≤ fuel) :
    GoesOn opened rest (skipNested fuel opened .value (written ++ rest)) := by
  obtain ⟨b, tail, rfl, solid, plain, skips⟩ := plain
  simp only [List.length_append, List.length_cons] at enough
  obtain ⟨fuel, rfl⟩ : ∃ n, fuel = n + 2 := ⟨fuel - 2, by omega⟩
  exact ⟨fuel + 1, by omega, skipNested_plain solid plain (skips rest follows) fuel opened⟩

theorem GoesOn.close (bracket : Bracket) (first : Bool) {opened : List Bracket} {rest : Bytes}
    {fuel : Nat} (enough : 2 * (bracket.closing :: rest).length < fuel) :
    GoesOn opened rest
      (skipNested fuel (bracket :: opened) (looking first) (bracket.closing :: rest)) := by
  rw [List.length_cons] at enough
  obtain ⟨fuel, rfl⟩ : ∃ n, fuel = n + 2 := ⟨fuel - 2, by omega⟩
  exact ⟨fuel + 1, by omega, skipNested_close bracket first fuel opened rest⟩

/-- The key of a member is passed over with the colon behind it. -/
theorem skipNested_key (key : String) (fuel : Nat) (opened : List Bracket) (value : Bytes) :
    skipNested (fuel + 1) opened .key (writeMember key value) =
      skipNested fuel opened .value value := by
  have start := skipBlank_of_solid (b := quoteByte) (by decide)
  rw [writeMember, writeText, skipNested]
  simp only [start, List.cons_append, List.append_assoc, List.nil_append, ↓reduceIte,
    skipQuoted_escaped, afterColon_colon, bind, Except.bind]

theorem length_lt_writeMember (key : String) (value : Bytes) :
    value.length + 1 < (writeMember key value).length := by
  simp only [writeMember, writeText, List.length_append, List.length_cons]
  omega

/-- A value begins with a byte that is neither blank nor the end of a list. -/
theorem solid_write (v : Value) :
    ∃ b tail, v.write = b :: tail ∧ isBlankByte b = false ∧ b ≠ 93 := by
  have plain {written : Bytes} (h : Plain written) :
      ∃ b tail, written = b :: tail ∧ isBlankByte b = false ∧ b ≠ 93 := by
    obtain ⟨b, tail, eq, solid, other, -⟩ := h
    exact ⟨b, tail, eq, solid, fun close => other (by simp [close])⟩
  cases v with
  | null => exact ⟨_, _, rfl, rfl, by decide⟩
  | truth b => cases b <;> exact ⟨_, _, rfl, rfl, by decide⟩
  | number n => exact plain (plain_number n)
  | text s => exact plain (plain_text s)
  | list items => exact ⟨_, _, rfl, rfl, by decide⟩
  | object members => exact ⟨_, _, rfl, rfl, by decide⟩

mutual

/-- A value inside any brackets is passed over. -/
theorem goesOn_value : ∀ (v : Value) (opened : List Bracket) {rest : Bytes} (fuel : Nat),
    Follows rest → 2 * (v.write ++ rest).length ≤ fuel →
      GoesOn opened rest (skipNested fuel opened .value (v.write ++ rest))
  | .null, _, _, _, follows, enough =>
      GoesOn.plain ⟨_, _, rfl, rfl, by decide, fun _ _ => rfl⟩ follows enough
  | .truth true, _, _, _, follows, enough =>
      GoesOn.plain ⟨_, _, rfl, rfl, by decide, fun _ _ => rfl⟩ follows enough
  | .truth false, _, _, _, follows, enough =>
      GoesOn.plain ⟨_, _, rfl, rfl, by decide, fun _ _ => rfl⟩ follows enough
  | .number n, _, _, _, follows, enough => GoesOn.plain (plain_number n) follows enough
  | .text s, _, _, _, follows, enough => GoesOn.plain (plain_text s) follows enough
  | .list items, opened, rest, fuel, _, enough => by
      rw [Value.write, List.cons_append, List.append_assoc] at enough ⊢
      rw [List.length_cons] at enough
      obtain ⟨fuel, rfl⟩ : ∃ n, fuel = n + 1 := ⟨fuel - 1, by omega⟩
      exact goesOn_items true items (by simp only [List.singleton_append] at enough; omega)
  | .object members, opened, rest, fuel, _, enough => by
      rw [Value.write, List.cons_append, List.append_assoc] at enough ⊢
      rw [List.length_cons] at enough
      obtain ⟨fuel, rfl⟩ : ∃ n, fuel = n + 1 := ⟨fuel - 1, by omega⟩
      exact goesOn_members true members (by simp only [List.singleton_append] at enough; omega)

/-- The elements of a list are passed over up to its end. -/
theorem goesOn_items : ∀ (first : Bool) (items : List Value) {opened : List Bracket} {rest : Bytes}
    {fuel : Nat}, 2 * (Value.writeItems first items ++ 93 :: rest).length < fuel →
      GoesOn opened rest (skipNested fuel (.list :: opened) (looking first)
        (Value.writeItems first items ++ 93 :: rest))
  | first, [], _, _, _, enough => GoesOn.close .list first enough
  | first, item :: items, opened, rest, fuel, enough => by
      obtain ⟨b, tail, eq, solid, more⟩ := solid_write item
      rw [Value.writeItems, List.append_assoc, separated_append] at enough ⊢
      have own := length_le_separated first (item.write ++ (Value.writeItems false items ++ 93 :: rest))
      obtain ⟨fuel, rfl⟩ : ∃ n, fuel = n + 1 := ⟨fuel - 1, by omega⟩
      have next := skipNested_part solid .list more first fuel opened
        (tail ++ (Value.writeItems false items ++ 93 :: rest))
      rw [← List.cons_append, ← eq] at next
      have follows : Follows (Value.writeItems false items ++ 93 :: rest) := by
        cases items with
        | nil => exact follows_bracket rest
        | cons => exact follows_comma _
      obtain ⟨fuel', enough', onward⟩ :=
        goesOn_value item (.list :: opened) fuel follows (by omega)
      rw [next]
      exact onward ▸ goesOn_items false items enough'

/-- The members of an object are passed over up to its end. -/
theorem goesOn_members : ∀ (first : Bool) (members : List (String × Value)) {opened : List Bracket}
    {rest : Bytes} {fuel : Nat},
    2 * (Value.writeMembers first members ++ 125 :: rest).length < fuel →
      GoesOn opened rest (skipNested fuel (.object :: opened) (looking first)
        (Value.writeMembers first members ++ 125 :: rest))
  | first, [], _, _, _, enough => GoesOn.close .object first enough
  | first, (key, value) :: members, opened, rest, fuel, enough => by
      have whole : writeMember key value.write ++ (Value.writeMembers false members ++ 125 :: rest) =
          writeMember key (value.write ++ (Value.writeMembers false members ++ 125 :: rest)) := by
        simp [writeMember]
      rw [Value.writeMembers, List.append_assoc, separated_append, whole] at enough ⊢
      have own := length_le_separated first
        (writeMember key (value.write ++ (Value.writeMembers false members ++ 125 :: rest)))
      have shorter := length_lt_writeMember key
        (value.write ++ (Value.writeMembers false members ++ 125 :: rest))
      obtain ⟨fuel, rfl⟩ : ∃ n, fuel = n + 2 := ⟨fuel - 2, by omega⟩
      have next : skipNested (fuel + 2) (.object :: opened) (looking first) (separated first
          (writeMember key (value.write ++ (Value.writeMembers false members ++ 125 :: rest)))) =
            skipNested fuel (.object :: opened) .value
              (value.write ++ (Value.writeMembers false members ++ 125 :: rest)) :=
        (skipNested_part (by decide) .object (by decide) first (fuel + 1) opened
          _).trans (skipNested_key key fuel _ _)
      have follows : Follows (Value.writeMembers false members ++ 125 :: rest) := by
        cases members with
        | nil => exact follows_brace rest
        | cons => exact follows_comma _
      obtain ⟨fuel', enough', onward⟩ :=
        goesOn_value value (.object :: opened) fuel follows (by omega)
      rw [next]
      exact onward ▸ goesOn_members false members enough'

end

/-- A value of any shape is passed over. -/
theorem skipValue_write (v : Value) {rest : Bytes} (follows : Follows rest) :
    skipValue (v.write ++ rest) = .ok rest := by
  obtain ⟨fuel, enough, onward⟩ :=
    goesOn_value v [] (2 * (v.write ++ rest).length + 2) follows (by omega)
  obtain ⟨fuel, rfl⟩ : ∃ n, fuel = n + 1 := ⟨fuel - 1, by omega⟩
  exact onward

/-! ## Integers -/

theorem write_ofNat (n : Nat) : (Value.integer n).write = writeNat n := by
  have sign : ¬(n : Int) < 0 := Int.not_lt.2 (Int.natCast_nonneg n)
  simp [Value.integer, Value.write, Numeral.write, Numeral.ofInt, Numeral.writeMagnitude,
    Numeral.writeFraction, Numeral.writeExponent, sign]

theorem write_neg {n : Int} (negative : n < 0) :
    ∃ tail, (Value.integer n).write = 45 :: tail := by
  simp [Value.integer, Value.write, Numeral.write, Numeral.ofInt, negative]

/-- An integer in the range is read as it is. -/
theorem reads_integer {n bound : Nat} (le : n ≤ bound) (fits : bound ≤ maxWord) :
    Reads (readUnsigned bound) (Value.integer n).write n :=
  write_ofNat n ▸ reads_unsigned le fits

/-- An integer out of the range is refused. -/
theorem refuses_integer {n : Int} {bound : Nat} (out : n < 0 ∨ bound < n) :
    Refuses (readUnsigned bound) (Value.integer n).write := by
  intro rest follows
  rcases out with negative | large
  · obtain ⟨tail, eq⟩ := write_neg negative
    rw [eq, List.cons_append]
    exact ⟨_, rfl⟩
  · obtain ⟨m, rfl⟩ := Int.eq_ofNat_of_zero_le (Int.le_trans (Int.natCast_nonneg bound) (Int.le_of_lt large))
    rw [write_ofNat]
    exact readUnsigned_of_gt (Int.ofNat_lt.1 large) follows

end ReplicaDiff.Json
