/-
# ReplicaDiff.Proofs.Json.Spelling — every way to write a list of strings

A string can be written in many ways: each of its characters as it is, by an escape
of one letter, or by one or two code units (`Spells`); and between the parts of a
list there may be any blanks (`SpellsList`).  The reader takes exactly these texts and
gives back the strings that they stand for (`readText_eq_ok_iff`,
`readAll_readList_eq_ok_iff`).
-/
import Mathlib.Data.List.TakeWhile
import ReplicaDiff.Proofs.Json.Shape

namespace ReplicaDiff.Json

set_option autoImplicit false

open ReplicaDiff.Text (Bytes ofUtf8? utf8)

/-! ## Strings -/

/-- What stands between two quotation marks, and the bytes that it stands for. -/
inductive Spells : Bytes → Bytes → Prop where
  | nil : Spells [] []
  /-- A byte that stands for itself. -/
  | plain {b : UInt8} {written meant : Bytes} (quote : b ≠ quoteByte)
      (backslash : b ≠ backslashByte) (control : ¬b < 32) (onward : Spells written meant) :
      Spells (b :: written) (b :: meant)
  | short {e c : UInt8} {written meant : Bytes} (letter : shortEscape? e = some c)
      (onward : Spells written meant) : Spells (backslashByte :: e :: written) (c :: meant)
  /-- A character by its code unit. -/
  | unit {h₁ h₂ h₃ h₄ : UInt8} {u : Nat} {written meant : Bytes}
      (unit : codeUnit? h₁ h₂ h₃ h₄ = some u) (leading : isLeading u = false)
      (trailing : isTrailing u = false) (onward : Spells written meant) :
      Spells (backslashByte :: 117 :: h₁ :: h₂ :: h₃ :: h₄ :: written) (codePoint u ++ meant)
  /-- A character by the code units of a surrogate pair. -/
  | pair {h₁ h₂ h₃ h₄ k₁ k₂ k₃ k₄ : UInt8} {u t : Nat} {written meant : Bytes}
      (first : codeUnit? h₁ h₂ h₃ h₄ = some u) (leading : isLeading u = true)
      (second : codeUnit? k₁ k₂ k₃ k₄ = some t) (trailing : isTrailing t = true)
      (onward : Spells written meant) :
      Spells (backslashByte :: 117 :: h₁ :: h₂ :: h₃ :: h₄ ::
        backslashByte :: 117 :: k₁ :: k₂ :: k₃ :: k₄ :: written)
        (codePoint (joinPair u t) ++ meant)

theorem before_eq_ok {bytes read rest : Bytes} {result : Except Fault (Bytes × Bytes)}
    (h : before bytes result = .ok (read, rest)) :
    ∃ more, result = .ok (more, rest) ∧ read = bytes ++ more := by
  cases result with
  | error fault => cases h
  | ok pair =>
      obtain ⟨more, rest'⟩ := pair
      obtain ⟨rfl, rfl⟩ := Prod.mk.inj (Except.ok.inj h)
      exact ⟨more, rfl, rfl⟩

theorem isTrailing_of_isLeading {u : Nat} (leading : isLeading u = true) :
    isTrailing u = false := by
  simp only [isLeading, isTrailing, Bool.and_eq_true, decide_eq_true_eq, Bool.and_eq_false_iff,
    decide_eq_false_iff_not] at leading ⊢
  omega

theorem scanQuoted_pair {h₁ h₂ h₃ h₄ k₁ k₂ k₃ k₄ : UInt8} {u t : Nat}
    (first : codeUnit? h₁ h₂ h₃ h₄ = some u) (leading : isLeading u = true)
    (second : codeUnit? k₁ k₂ k₃ k₄ = some t) (trailing : isTrailing t = true) (rest : Bytes) :
    scanQuoted (backslashByte :: 117 :: h₁ :: h₂ :: h₃ :: h₄ ::
      backslashByte :: 117 :: k₁ :: k₂ :: k₃ :: k₄ :: rest) =
        before (codePoint (joinPair u t)) (scanQuoted rest) := by
  rw [scanQuoted.eq_def]
  refine (if_neg (by decide)).trans ((if_pos rfl).trans ((if_pos rfl).trans ?_))
  simp only [first, leading, isTrailing_of_isLeading leading, second, trailing, ne_eq,
    not_true_eq_false, ↓reduceIte, Bool.false_eq_true]

/-- A string is scanned up to its closing quotation mark, however it is written. -/
theorem Spells.scanned {written meant : Bytes} (h : Spells written meant) (rest : Bytes) :
    scanQuoted (written ++ quoteByte :: rest) = .ok (meant, rest) := by
  induction h with
  | nil => exact scanQuoted_quote rest
  | plain quote backslash control _ ih =>
      rw [List.cons_append, scanQuoted_plain quote backslash control, ih]
      rfl
  | short letter _ ih =>
      have short : ∀ {e c : UInt8}, shortEscape? e = some c → e ≠ 117 := by
        rintro e c known rfl
        cases known
      rw [List.cons_append, List.cons_append, scanQuoted_short (short letter) letter, ih]
      rfl
  | unit unit leading trailing _ ih =>
      simp only [List.cons_append]
      rw [scanQuoted_unit unit leading trailing, ih]
      rfl
  | pair first leading second trailing _ ih =>
      simp only [List.cons_append]
      rw [scanQuoted_pair first leading second trailing, ih]
      rfl

/-- A way to write some bytes in front of anything else. -/
def SpellsFirst (front char : Bytes) : Prop :=
  ∀ {written meant : Bytes}, Spells written meant → Spells (front ++ written) (char ++ meant)

/-- What is scanned begins with the closing quotation mark, or with a way to write a character. -/
theorem scanQuoted_eq_ok {input meant rest : Bytes}
    (scanned : scanQuoted input = .ok (meant, rest)) :
    input = quoteByte :: rest ∧ meant = [] ∨
    ∃ front char back more, SpellsFirst front char ∧ scanQuoted back = .ok (more, rest) ∧
      front ≠ [] ∧ input = front ++ back ∧ meant = char ++ more := by
  rw [scanQuoted.eq_def] at scanned
  -- One of the cases of `scanQuoted` is the closing quotation mark, and four go on behind a
  -- character; the others are faults.
  repeat' split at scanned
  all_goals try cases scanned
  next quote => exact .inl ⟨by rw [quote], rfl⟩
  next opens _ _ letter _ h₁ h₂ h₃ h₄ _ u first _ leading _ _ reopens _ _ letter' _ k₁ k₂ k₃ k₄ _ _ t
      second trailing =>
    have way : SpellsFirst [backslashByte, 117, h₁, h₂, h₃, h₄, backslashByte, 117, k₁, k₂, k₃, k₄]
        (codePoint (joinPair u t)) := .pair first leading second trailing
    obtain ⟨more, onward, eq⟩ := before_eq_ok scanned
    rw [opens, letter, not_ne_iff.1 reopens, not_ne_iff.1 letter']
    exact .inr ⟨_, _, _, more, way, onward, List.cons_ne_nil _ _, rfl, eq⟩
  next opens _ _ letter _ h₁ h₂ h₃ h₄ _ _ u unit trailing leading =>
    have way : SpellsFirst [backslashByte, 117, h₁, h₂, h₃, h₄] (codePoint u) :=
      .unit unit (by simpa using leading) (by simpa using trailing)
    obtain ⟨more, onward, eq⟩ := before_eq_ok scanned
    rw [opens, letter]
    exact .inr ⟨_, _, _, more, way, onward, List.cons_ne_nil _ _, rfl, eq⟩
  next opens _ e _ _ _ c short =>
    have way : SpellsFirst [backslashByte, e] [c] := .short short
    obtain ⟨more, onward, eq⟩ := before_eq_ok scanned
    rw [opens]
    exact .inr ⟨_, _, _, more, way, onward, List.cons_ne_nil _ _, rfl, eq⟩
  next b _ quote backslash control =>
    have way : SpellsFirst [b] [b] := .plain quote backslash control
    obtain ⟨more, onward, eq⟩ := before_eq_ok scanned
    exact .inr ⟨_, _, _, more, way, onward, List.cons_ne_nil _ _, rfl, eq⟩

/-- What has been scanned is written in one of the ways. -/
theorem spells_of_scanned {input meant rest : Bytes}
    (scanned : scanQuoted input = .ok (meant, rest)) :
    ∃ written, input = written ++ quoteByte :: rest ∧ Spells written meant := by
  induction length : input.length using Nat.strongRecOn generalizing input meant with
  | _ n ih =>
      rcases scanQuoted_eq_ok scanned with
        ⟨rfl, rfl⟩ | ⟨front, char, back, more, first, onward, some, rfl, rfl⟩
      · exact ⟨[], rfl, .nil⟩
      · have shorter : back.length < n := by
          have := List.length_pos_iff.2 some
          rw [List.length_append] at length
          omega
        obtain ⟨written, rfl, spells⟩ := ih _ shorter onward rfl
        exact ⟨front ++ written, (List.append_assoc _ _ _).symm, first spells⟩

/-- A string between quotation marks. -/
def SpellsText (written : Bytes) (s : String) : Prop :=
  ∃ body, written = quoteByte :: (body ++ [quoteByte]) ∧ Spells body (utf8 s)

/-- After an opening quotation mark a string is read in every way in which it can be written. -/
theorem quotedText_eq_ok_iff {input rest : Bytes} {s : String} :
    quotedText input = .ok (s, rest) ↔
      ∃ body, input = body ++ quoteByte :: rest ∧ Spells body (utf8 s) := by
  constructor
  · intro read
    unfold quotedText at read
    cases scanned : scanQuoted input with
    | error fault => rw [scanned] at read; cases read
    | ok pair =>
        obtain ⟨meant, rest'⟩ := pair
        rw [scanned] at read
        simp only [bind, Except.bind] at read
        split at read
        · rename_i s' text
          obtain ⟨rfl, rfl⟩ := Prod.mk.inj (Except.ok.inj read)
          rw [Text.utf8_of_ofUtf8? text]
          exact spells_of_scanned scanned
        · cases read
  · rintro ⟨body, rfl, spells⟩
    unfold quotedText
    rw [spells.scanned]
    simp only [bind, Except.bind, Text.ofUtf8?_utf8]

/-! ## Blanks -/

/-- Nothing but blank bytes. -/
def Blank (bytes : Bytes) : Prop := ∀ b ∈ bytes, isBlankByte b = true

theorem Blank.append {front back : Bytes} (h : Blank front) (h' : Blank back) :
    Blank (front ++ back) := by
  intro b mem
  exact (List.mem_append.1 mem).elim (h b) (h' b)

theorem blank_nil : Blank [] := nofun

theorem skipBlank_append {lead : Bytes} (blank : Blank lead) (rest : Bytes) :
    skipBlank (lead ++ rest) = skipBlank rest := List.dropWhile_append_of_pos blank

/-- Blanks stand before what is left when they are passed over. -/
theorem exists_blank (input : Bytes) : ∃ lead, Blank lead ∧ input = lead ++ skipBlank input :=
  ⟨input.takeWhile isBlankByte, fun _ mem => List.mem_takeWhile_imp mem,
    List.takeWhile_append_dropWhile.symm⟩

theorem skipBlank_eq_nil_iff {input : Bytes} : skipBlank input = [] ↔ Blank input :=
  List.dropWhile_eq_nil_iff

theorem readText_eq_ok_iff {input rest : Bytes} {s : String} :
    readText input = .ok (s, rest) ↔
      ∃ lead written, Blank lead ∧ SpellsText written s ∧ input = lead ++ (written ++ rest) := by
  obtain ⟨lead, blank, whole⟩ := exists_blank input
  constructor
  · intro read
    unfold readText at read
    split at read
    · cases read
    · rename_i b tail solid
      split at read
      · rename_i quote
        obtain ⟨body, eq, spells⟩ := quotedText_eq_ok_iff.1 read
        refine ⟨lead, _, blank, ⟨body, rfl, spells⟩, ?_⟩
        rw [whole, solid, quote, eq]
        simp
      · cases read
  · rintro ⟨lead, -, blank, ⟨body, rfl, spells⟩, rfl⟩
    unfold readText
    rw [skipBlank_append blank, List.cons_append, skipBlank_of_solid (by decide), List.append_assoc]
    simp only [↓reduceIte]
    exact quotedText_eq_ok_iff.2 ⟨body, rfl, spells⟩

/-! ## Lists of strings -/

/-- A string with the blanks around it. -/
def SpellsItem (part : Bytes) (s : String) : Prop :=
  ∃ lead written trail, Blank lead ∧ Blank trail ∧ SpellsText written s ∧
    part = lead ++ (written ++ trail)

/-- A text that is a list of strings: brackets, strings with commas between them, and blanks. -/
def SpellsList (content : Bytes) (strings : List String) : Prop :=
  ∃ lead front parts back trail, Blank lead ∧ Blank front ∧ Blank back ∧ Blank trail ∧
    List.Forall₂ SpellsItem parts strings ∧
    content = lead ++ 91 :: (front ++ (commaSeparated parts ++ (back ++ 93 :: trail)))

/-- Before the end of a list stand blanks. -/
theorem blank_of_close {first : Bool} {input rest : Bytes}
    (next : nextElement first input = .ok (.close rest)) :
    ∃ inside, Blank inside ∧ input = inside ++ 93 :: rest := by
  obtain ⟨lead, blank, whole⟩ := exists_blank input
  unfold nextElement at next
  split at next
  · cases next
  · rename_i b tail solid
    split at next
    · rename_i close
      cases next
      exact ⟨lead, blank, by rw [whole, solid, close]⟩
    · repeat' split at next
      all_goals cases next

/-- Before an element stand blanks, and a comma unless it is the first one. -/
theorem blank_of_element {first : Bool} {input element : Bytes}
    (next : nextElement first input = .ok (.element element)) :
    ∃ lead inside, Blank lead ∧ Blank inside ∧
      input = lead ++ separated first (inside ++ element) := by
  obtain ⟨lead, blank, whole⟩ := exists_blank input
  unfold nextElement at next
  split at next
  · cases next
  · rename_i b tail solid
    split at next
    · cases next
    · split at next
      · rename_i isFirst
        cases next
        exact ⟨lead, [], blank, blank_nil, by rw [whole, solid, isFirst]; rfl⟩
      · rename_i later
        split at next
        · rename_i comma
          obtain ⟨inside, blank', whole'⟩ := exists_blank tail
          split at next
          · cases next
          · rename_i c tail' solid'
            split at next
            · cases next
            · cases next
              refine ⟨lead, inside, blank, blank', ?_⟩
              rw [whole, solid, comma, whole', solid', separated, if_neg later]
        · cases next

theorem nextElement_blank {lead inside : Bytes} (blank : Blank lead) (blank' : Blank inside)
    {b : UInt8} (solid : isBlankByte b = false) (more : b ≠ 93) (first : Bool) (tail : Bytes) :
    nextElement first (lead ++ separated first (inside ++ b :: tail)) =
      .ok (.element (b :: tail)) := by
  have start : skipBlank (inside ++ b :: tail) = b :: tail := by
    rw [skipBlank_append blank', skipBlank_of_solid solid]
  unfold nextElement
  rw [skipBlank_append blank]
  cases first with
  | true => simp [separated, start, more]
  | false =>
      have comma : ∀ rest : Bytes, skipBlank (44 :: rest) = 44 :: rest := skipBlank_of_solid rfl
      simp [separated, comma, start, more]

/-- Elements are read up to the end of the list, whatever blanks there are. -/
theorem readElements_spelt {parts : List Bytes} {strings : List String}
    (each : List.Forall₂ SpellsItem parts strings) {fuel : Nat} (enough : parts.length < fuel)
    (first : Bool) {lead inside : Bytes} (blank : Blank lead) (blank' : Blank inside)
    (rest : Bytes) :
    readElements readText fuel first (lead ++ (listed first parts ++ (inside ++ 93 :: rest))) =
      .ok (strings, rest) := by
  induction each generalizing fuel first lead with
  | nil =>
      obtain ⟨fuel, rfl⟩ := Nat.exists_eq_succ_of_ne_zero (Nat.ne_of_gt enough)
      have close : nextElement first (lead ++ (inside ++ 93 :: rest)) = .ok (.close rest) := by
        unfold nextElement
        rw [skipBlank_append blank, skipBlank_append blank', skipBlank_of_solid rfl]
        rfl
      rw [listed, List.nil_append, readElements, close]
      rfl
  | @cons part s parts strings own _ ih =>
      obtain ⟨fuel, rfl⟩ := Nat.exists_eq_succ_of_ne_zero (Nat.ne_of_gt (Nat.zero_lt_of_lt enough))
      obtain ⟨front, _, back, blankFront, blankBack, ⟨body, rfl, spells⟩, rfl⟩ := own
      have onward := ih (Nat.lt_of_succ_lt_succ enough) false blankBack
      have next := nextElement_blank blank blankFront (b := quoteByte) rfl (by decide) first
        (body ++ quoteByte :: (back ++ (listed false parts ++ (inside ++ 93 :: rest))))
      have whole :
          listed first ((front ++ (quoteByte :: (body ++ [quoteByte]) ++ back)) :: parts) ++
              (inside ++ 93 :: rest) =
            separated first (front ++ quoteByte :: (body ++
              quoteByte :: (back ++ (listed false parts ++ (inside ++ 93 :: rest))))) := by
        rw [listed, List.append_assoc, separated_append]
        simp
      have read : readText (quoteByte :: (body ++
          quoteByte :: (back ++ (listed false parts ++ (inside ++ 93 :: rest))))) =
            .ok (s, back ++ (listed false parts ++ (inside ++ 93 :: rest))) :=
        readText_eq_ok_iff.2 ⟨[], _, blank_nil, ⟨body, rfl, spells⟩, by simp⟩
      rw [whole, readElements, next]
      simp only [bind, Except.bind, read, onward]

/-- The elements that have been read are written in one of the ways. -/
theorem spells_of_readElements {fuel : Nat} {first : Bool} {input rest : Bytes}
    {strings : List String} (read : readElements readText fuel first input = .ok (strings, rest)) :
    ∃ lead parts inside, Blank lead ∧ Blank inside ∧ List.Forall₂ SpellsItem parts strings ∧
      input = lead ++ (listed first parts ++ (inside ++ 93 :: rest)) := by
  induction fuel generalizing first input strings with
  | zero => cases read
  | succ fuel ih =>
      rw [readElements] at read
      cases next : nextElement first input with
      | error fault => rw [next] at read; cases read
      | ok separator =>
          rw [next] at read
          cases separator with
          | close rest' =>
              obtain ⟨rfl, rfl⟩ := Prod.mk.inj (Except.ok.inj read)
              obtain ⟨inside, blank, rfl⟩ := blank_of_close next
              exact ⟨[], [], inside, blank_nil, blank, .nil, rfl⟩
          | element element =>
              obtain ⟨lead, front, blank, blankFront, rfl⟩ := blank_of_element next
              simp only [bind, Except.bind] at read
              cases own : readText element with
              | error fault => rw [own] at read; cases read
              | ok pair =>
                  obtain ⟨s, onward⟩ := pair
                  rw [own] at read
                  simp only at read
                  cases others : readElements readText fuel false onward with
                  | error fault => rw [others] at read; cases read
                  | ok pair =>
                      obtain ⟨strings', rest'⟩ := pair
                      rw [others] at read
                      obtain ⟨rfl, rfl⟩ := Prod.mk.inj (Except.ok.inj read)
                      obtain ⟨front', written, blankFront', text, rfl⟩ := readText_eq_ok_iff.1 own
                      obtain ⟨back, parts, inside, blankBack, blankInside, each, rfl⟩ := ih others
                      have item : SpellsItem ((front ++ front') ++ (written ++ back)) s :=
                        ⟨_, _, _, blankFront.append blankFront', blankBack, text, rfl⟩
                      refine ⟨lead, _ :: parts, inside, blank, blankInside, .cons item each, ?_⟩
                      rw [listed, List.append_assoc, separated_append]
                      simp

/-- A text is read as a list of strings exactly if it is one way to write it. -/
theorem readAll_readList_eq_ok_iff {content : Bytes} {strings : List String} :
    readAll (readList readText) content = .ok strings ↔ SpellsList content strings := by
  obtain ⟨lead, blank, whole⟩ := exists_blank content
  constructor
  · intro read
    unfold readAll readList at read
    split at read
    · cases read
    · rename_i b tail solid
      split at read
      · rename_i opened
        cases elements : readElements readText (tail.length + 1) true tail with
        | error fault => rw [elements] at read; cases read
        | ok pair =>
            obtain ⟨strings', trail⟩ := pair
            rw [elements] at read
            simp only [bind, Except.bind, atEnd] at read
            split at read
            · rename_i ended
              cases read
              obtain ⟨front, parts, back, blankFront, blankBack, each, rfl⟩ :=
                spells_of_readElements elements
              refine ⟨lead, front, parts, back, trail, blank, blankFront, blankBack,
                skipBlank_eq_nil_iff.1 ended, each, ?_⟩
              rw [whole, solid, opened, commaSeparated_eq_listed]
            · cases read
      · cases read
  · rintro ⟨lead, front, parts, back, trail, blank, blankFront, blankBack, blankTrail, each, rfl⟩
    have some : ∀ part ∈ parts, part ≠ [] := by
      intro part mem
      obtain ⟨i, bound, rfl⟩ := List.mem_iff_getElem.1 mem
      obtain ⟨lead, _, trail, -, -, ⟨body, rfl, -⟩, eq⟩ := each.get bound (each.length_eq ▸ bound)
      simp only [List.get_eq_getElem] at eq
      simp [eq]
    have enough : parts.length <
        (front ++ (commaSeparated parts ++ (back ++ 93 :: trail))).length + 1 := by
      have le := length_le_listed some true
      rw [commaSeparated_eq_listed]
      simp only [List.length_append]
      omega
    have elements := readElements_spelt each enough true blankFront blankBack trail
    rw [← commaSeparated_eq_listed] at elements
    unfold readAll readList
    rw [skipBlank_append blank, skipBlank_of_solid (by decide)]
    simp only [↓reduceIte, elements, bind, Except.bind, atEnd, skipBlank_eq_nil_iff.2 blankTrail]

end ReplicaDiff.Json
