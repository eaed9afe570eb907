/-
# ReplicaDiff.Proofs.Base64 — letters are read back as the bytes they stand for

Each letter has its value (`letterValue?_letter`) and is not the padding, so that
a group of four letters gives back its bytes, and `decode?` undoes `encode`
(`decode?_encode`).  It accepts nothing else: what has a value is the letter of that
value (`letter_of_letterValue?`), and the bits of a group that stand for no byte are
zero, so that a text that is accepted is the written form of its bytes
(`decode?_eq_some_iff`).
-/
import ReplicaDiff.Base64

namespace ReplicaDiff.Base64

set_option autoImplicit false

open ReplicaDiff.Text (Bytes)

theorem letterValue?_letter : ∀ n < 64, letterValue? (letter n) = some n := by decide

theorem letter_ne_padding : ∀ n < 64, letter n ≠ padding := by decide

/-! ## The parts of a byte -/

theorem ofNat_eq_of_toNat {b : UInt8} {n : Nat} (eq : n = b.toNat) : UInt8.ofNat n = b := by
  rw [eq, UInt8.ofNat_toNat]

section Group

variable (a b c : UInt8)

/-- The first byte of a group, from the values of the first two letters. -/
theorem first_byte (low : Nat) (small : low < 16) :
    UInt8.ofNat (a.toNat / 4 * 4 + (a.toNat % 4 * 16 + low) / 16) = a :=
  ofNat_eq_of_toNat (by omega)

/-- The second byte of a group, from the values of the second and the third letter. -/
theorem second_byte (low : Nat) (small : low < 4) :
    UInt8.ofNat ((a.toNat % 4 * 16 + b.toNat / 16) % 16 * 16 + (b.toNat % 16 * 4 + low) / 4) = b :=
  ofNat_eq_of_toNat (by have := b.toNat_lt; omega)

/-- The third byte of a group, from the values of the third and the last letter. -/
theorem third_byte :
    UInt8.ofNat ((b.toNat % 16 * 4 + c.toNat / 64) % 4 * 64 + c.toNat % 64) = c :=
  ofNat_eq_of_toNat (by have := c.toNat_lt; omega)

theorem first_value : a.toNat / 4 < 64 := by
  have := a.toNat_lt
  omega

theorem second_value : a.toNat % 4 * 16 + b.toNat / 16 < 64 := by
  have := b.toNat_lt
  omega

theorem third_value : b.toNat % 16 * 4 + c.toNat / 64 < 64 := by
  have := c.toNat_lt
  omega

/-! ## Groups of four letters -/

theorem decodeLast?_one :
    decodeLast? (letter (a.toNat / 4)) (letter (a.toNat % 4 * 16)) padding padding = some [a] := by
  have byte := first_byte a 0 (by decide)
  unfold decodeLast?
  rw [letterValue?_letter _ (first_value a), letterValue?_letter _ (by omega)]
  simp only [Option.bind_eq_bind, Option.bind_some, ↓reduceIte, true_and]
  rw [if_pos (Nat.mul_mod_left _ _)]
  exact congrArg (fun x => some [x]) byte

theorem decodeLast?_two :
    decodeLast? (letter (a.toNat / 4)) (letter (a.toNat % 4 * 16 + b.toNat / 16))
      (letter (b.toNat % 16 * 4)) padding = some [a, b] := by
  have third : b.toNat % 16 * 4 < 64 := by omega
  have byte := first_byte a (b.toNat / 16) (by have := b.toNat_lt; omega)
  have byte' := second_byte a b 0 (by decide)
  unfold decodeLast?
  rw [letterValue?_letter _ (first_value a), letterValue?_letter _ (second_value a b),
    letterValue?_letter _ third]
  simp only [Option.bind_eq_bind, Option.bind_some, ↓reduceIte, letter_ne_padding _ third]
  rw [if_pos (Nat.mul_mod_left _ _)]
  rw [Nat.add_zero] at byte'
  rw [byte, byte']
  rfl

theorem decodeLast?_three :
    decodeLast? (letter (a.toNat / 4)) (letter (a.toNat % 4 * 16 + b.toNat / 16))
      (letter (b.toNat % 16 * 4 + c.toNat / 64)) (letter (c.toNat % 64)) = some [a, b, c] := by
  have last : c.toNat % 64 < 64 := Nat.mod_lt _ (by decide)
  have byte := first_byte a (b.toNat / 16) (by have := b.toNat_lt; omega)
  have byte' := second_byte a b (c.toNat / 64) (by have := c.toNat_lt; omega)
  unfold decodeLast?
  rw [letterValue?_letter _ (first_value a), letterValue?_letter _ (second_value a b),
    letterValue?_letter _ (third_value b c), letterValue?_letter _ last]
  simp only [Option.bind_eq_bind, Option.bind_some, letter_ne_padding _ (third_value b c),
    letter_ne_padding _ last, ↓reduceIte]
  rw [byte, byte', third_byte]
  rfl

theorem decodeInner?_three :
    decodeInner? (letter (a.toNat / 4)) (letter (a.toNat % 4 * 16 + b.toNat / 16))
      (letter (b.toNat % 16 * 4 + c.toNat / 64)) (letter (c.toNat % 64)) = some [a, b, c] := by
  have last : c.toNat % 64 < 64 := Nat.mod_lt _ (by decide)
  have byte := first_byte a (b.toNat / 16) (by have := b.toNat_lt; omega)
  have byte' := second_byte a b (c.toNat / 64) (by have := c.toNat_lt; omega)
  unfold decodeInner?
  rw [letterValue?_letter _ (first_value a), letterValue?_letter _ (second_value a b),
    letterValue?_letter _ (third_value b c), letterValue?_letter _ last]
  simp only [Option.bind_eq_bind, Option.bind_some]
  rw [byte, byte', third_byte]
  rfl

end Group

/-! ## Whole texts -/

theorem encode_ne_nil : ∀ {bytes : Bytes}, bytes ≠ [] → encode bytes ≠ []
  | [], more => absurd rfl more
  | [_], _ => List.cons_ne_nil _ _
  | [_, _], _ => List.cons_ne_nil _ _
  | _ :: _ :: _ :: _, _ => List.cons_ne_nil _ _

theorem decode?_encode : ∀ bytes : Bytes, decode? (encode bytes) = some bytes
  | [] => rfl
  | [a] => decodeLast?_one a
  | [a, b] => decodeLast?_two a b
  | [a, b, c] => decodeLast?_three a b c
  | a :: b :: c :: d :: rest => by
      have onward := decode?_encode (d :: rest)
      rw [encode, decode?, decodeInner?_three, onward]
      · rfl
      · exact encode_ne_nil (List.cons_ne_nil d rest)

/-! ## Accepted texts -/

/-- Whatever has a value is the letter of that value. -/
theorem letter_of_letterValue? {b : UInt8} {n : Nat} (value : letterValue? b = some n) :
    n < 64 ∧ letter n = b := by
  -- The cases are the stretches of the alphabet.
  simp only [letterValue?] at value
  repeat' split at value
  all_goals cases value
  all_goals exact ⟨by omega, ofNat_eq_of_toNat (by grind)⟩

section Values

variable {x y z w : Nat}

/-- The first letter of a group, from its first byte. -/
theorem first_letter (hx : x < 64) (hy : y < 64) : (UInt8.ofNat (x * 4 + y / 16)).toNat / 4 = x := by
  rw [UInt8.toNat_ofNat']
  omega

/-- The second letter of a group, from its first two bytes. -/
theorem second_letter (hy : y < 64) (hz : z < 64) :
    (UInt8.ofNat (x * 4 + y / 16)).toNat % 4 * 16 + (UInt8.ofNat (y % 16 * 16 + z / 4)).toNat / 16 =
      y := by
  rw [UInt8.toNat_ofNat', UInt8.toNat_ofNat']
  omega

/-- The third letter of a group, from its last two bytes. -/
theorem third_letter (hz : z < 64) (hw : w < 64) :
    (UInt8.ofNat (y % 16 * 16 + z / 4)).toNat % 16 * 4 + (UInt8.ofNat (z % 4 * 64 + w)).toNat / 64 =
      z := by
  rw [UInt8.toNat_ofNat', UInt8.toNat_ofNat']
  omega

/-- The last letter of a group, from its last byte. -/
theorem last_letter (hw : w < 64) : (UInt8.ofNat (z % 4 * 64 + w)).toNat % 64 = w := by
  rw [UInt8.toNat_ofNat']
  omega

/-- The three bytes of four values are written as the letters of these values. -/
theorem encode_values (hx : x < 64) (hy : y < 64) (hz : z < 64) (hw : w < 64) (rest : Bytes) :
    encode (UInt8.ofNat (x * 4 + y / 16) :: UInt8.ofNat (y % 16 * 16 + z / 4) ::
      UInt8.ofNat (z % 4 * 64 + w) :: rest) =
        letter x :: letter y :: letter z :: letter w :: encode rest := by
  rw [encode, first_letter hx hy, second_letter hy hz, third_letter hz hw, last_letter hw]

end Values

theorem encode_of_decodeInner? {a b c d : UInt8} {bytes : Bytes}
    (accepts : decodeInner? a b c d = some bytes) (rest : Bytes) :
    encode (bytes ++ rest) = a :: b :: c :: d :: encode rest := by
  simp only [decodeInner?, Option.bind_eq_bind, Option.bind_eq_some_iff] at accepts
  obtain ⟨x, hx, y, hy, z, hz, w, hw, same⟩ := accepts
  obtain rfl := Option.some.inj same
  obtain ⟨xs, rfl⟩ := letter_of_letterValue? hx
  obtain ⟨ys, rfl⟩ := letter_of_letterValue? hy
  obtain ⟨zs, rfl⟩ := letter_of_letterValue? hz
  obtain ⟨ws, rfl⟩ := letter_of_letterValue? hw
  exact encode_values xs ys zs ws rest

theorem encode_of_decodeLast? {a b c d : UInt8} {bytes : Bytes}
    (accepts : decodeLast? a b c d = some bytes) : encode bytes = [a, b, c, d] := by
  simp only [decodeLast?, Option.bind_eq_bind, Option.bind_eq_some_iff] at accepts
  obtain ⟨x, hx, y, hy, accepts⟩ := accepts
  obtain ⟨xs, rfl⟩ := letter_of_letterValue? hx
  obtain ⟨ys, rfl⟩ := letter_of_letterValue? hy
  split at accepts
  · -- Two letters stand for one byte; the lower bits of the second one are zero.
    rename_i padded
    split at accepts
    · rename_i spare
      obtain ⟨rfl, zero⟩ := spare
      obtain rfl := Option.some.inj accepts
      have second : (UInt8.ofNat (x * 4 + y / 16)).toNat % 4 * 16 = y := by
        rw [UInt8.toNat_ofNat']
        omega
      rw [encode, first_letter xs ys, second, padded]
    · cases accepts
  · simp only [Option.bind_eq_some_iff] at accepts
    obtain ⟨z, hz, accepts⟩ := accepts
    obtain ⟨zs, rfl⟩ := letter_of_letterValue? hz
    split at accepts
    · -- Three letters stand for two bytes; the lower bits of the third one are zero.
      rename_i padded
      split at accepts
      · rename_i zero
        obtain rfl := Option.some.inj accepts
        have third : (UInt8.ofNat (y % 16 * 16 + z / 4)).toNat % 16 * 4 = z := by
          rw [UInt8.toNat_ofNat']
          omega
        rw [encode, first_letter xs ys, second_letter ys zs, third, padded]
      · cases accepts
    · simp only [Option.bind_eq_some_iff] at accepts
      obtain ⟨w, hw, same⟩ := accepts
      obtain rfl := Option.some.inj same
      obtain ⟨ws, rfl⟩ := letter_of_letterValue? hw
      exact encode_values xs ys zs ws []

theorem encode_of_decode? {text bytes : Bytes} (accepts : decode? text = some bytes) :
    encode bytes = text := by
  fun_induction decode? text generalizing bytes with
  | case1 =>
      cases accepts
      rfl
  | case2 a b c d => exact encode_of_decodeLast? accepts
  | case3 a b c d rest _ ih =>
      simp only [Option.bind_eq_bind, Option.bind_eq_some_iff] at accepts
      obtain ⟨head, inner, tail, onward, same⟩ := accepts
      obtain rfl := Option.some.inj same
      rw [encode_of_decodeInner? inner, ih onward]
  | case4 => cases accepts

/-- Each list of bytes has one text that is accepted for it: its written form. -/
theorem decode?_eq_some_iff {text bytes : Bytes} :
    decode? text = some bytes ↔ text = encode bytes := by
  constructor
  · exact fun accepts => (encode_of_decode? accepts).symm
  · rintro rfl
    exact decode?_encode bytes

/-! ## Letters -/

/-- Every byte of a written form is a letter or the padding. -/
theorem mem_encode : ∀ {bytes : Bytes} {x : UInt8}, x ∈ encode bytes →
    x = padding ∨ ∃ n < 64, x = letter n
  | [], _, mem => absurd mem List.not_mem_nil
  | [a], x, mem => by
      have second : a.toNat % 4 * 16 < 64 := by omega
      simp only [encode, List.mem_cons, List.not_mem_nil, or_false] at mem
      rcases mem with eq | eq | eq | eq
      · exact .inr ⟨_, first_value a, eq⟩
      · exact .inr ⟨_, second, eq⟩
      · exact .inl eq
      · exact .inl eq
  | [a, b], x, mem => by
      have third : b.toNat % 16 * 4 < 64 := by omega
      simp only [encode, List.mem_cons, List.not_mem_nil, or_false] at mem
      rcases mem with eq | eq | eq | eq
      · exact .inr ⟨_, first_value a, eq⟩
      · exact .inr ⟨_, second_value a b, eq⟩
      · exact .inr ⟨_, third, eq⟩
      · exact .inl eq
  | a :: b :: c :: rest, x, mem => by
      simp only [encode, List.mem_cons] at mem
      rcases mem with eq | eq | eq | eq | mem
      · exact .inr ⟨_, first_value a, eq⟩
      · exact .inr ⟨_, second_value a b, eq⟩
      · exact .inr ⟨_, third_value b c, eq⟩
      · exact .inr ⟨_, Nat.mod_lt _ (by decide), eq⟩
      · exact mem_encode mem

end ReplicaDiff.Base64
