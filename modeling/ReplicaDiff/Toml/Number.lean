/-
# ReplicaDiff.Toml.Number — numbers, dates and times of TOML

Digits may be grouped by single underscores.  Decimal integers have no leading
zero, and all integers have 64 bits with a sign.  Of other numbers, and of dates
and times, only the form is checked, and that no number is greater than every
double.
-/
import ReplicaDiff.Toml.Text
import ReplicaDiff.Toml.Value

namespace ReplicaDiff.Toml

set_option autoImplicit false

/-- The decimal digits. -/
def isDigit (c : Char) : Bool := '0' ≤ c && c ≤ '9'

/-- The value of a digit in some base. -/
def digit? (base : Nat) (c : Char) : Option Nat := (hexValue? c).filter (· < base)

/-- Read the digits that follow a digit: single underscores may stand between digits, and nowhere
else. -/
def moreDigits (base : Nat) : Scan (List Nat)
  | [] => some ([], [])
  | c :: rest =>
      if c = '_' then
        match rest with
        | [] => none
        | d :: rest => do
            let n ← digit? base d
            let (ns, rest) ← moreDigits base rest
            some (n :: ns, rest)
      else
        match digit? base c with
        | none => some ([], c :: rest)
        | some n => do
            let (ns, rest) ← moreDigits base rest
            some (n :: ns, rest)

/-- Read digits, of which there must be one. -/
def digits (base : Nat) : Scan (List Nat)
  | [] => none
  | c :: rest => do
      let n ← digit? base c
      let (ns, rest) ← moreDigits base rest
      some (n :: ns, rest)

/-- The number that digits stand for. -/
def ofDigits (base : Nat) (ds : List Nat) : Nat := ds.foldl (fun acc d => acc * base + d) 0

/-- Read the digits of a decimal integer: a zero stands alone. -/
def wholeDigits : Scan (List Nat)
  | '0' :: rest => some ([0], rest)
  | input => digits 10 input

/-- An integer, if 64 bits with a sign hold it. -/
def integer? (n : Int) : Option Value :=
  if -9223372036854775808 ≤ n ∧ n ≤ 9223372036854775807 then some (.integer n) else none

/-- From here on a positive number rounds to infinity as a double. -/
def doubleRange : Nat := Nat.pow 2 1024 - Nat.pow 2 970

/-- Whether the decimal number of some digits and an exponent rounds to infinity as a double. -/
def exceedsDoubles (ds : List Nat) (exponent : Int) : Bool :=
  let n := ofDigits 10 ds
  if n = 0 then false
  else if 0 ≤ exponent then
    400 < exponent || doubleRange ≤ n * Nat.pow 10 exponent.toNat
  else if ds.length < (-exponent).toNat then false
  else doubleRange * Nat.pow 10 (-exponent).toNat ≤ n

/-- Read the exponent of a number, after its letter. -/
def exponent (input : List Char) : Option (Int × List Char) :=
  match input with
  | '+' :: rest => (digits 10 rest).map fun (ds, rest) => ((ofDigits 10 ds : Int), rest)
  | '-' :: rest => (digits 10 rest).map fun (ds, rest) => (-(ofDigits 10 ds : Int), rest)
  | rest => (digits 10 rest).map fun (ds, rest) => ((ofDigits 10 ds : Int), rest)

/-- A number with a fraction or an exponent, if it is not too great. -/
def float? (negative : Bool) (ds : List Nat) (e : Int) : Option Value :=
  if !negative && exceedsDoubles ds e then none else some .float

/-- Read what follows the digits of a decimal number. -/
def afterWhole (negative : Bool) (ds : List Nat) (input : List Char) :
    Option (Value × List Char) :=
  let finish (ds : List Nat) (places : Nat) (input : List Char) : Option (Value × List Char) :=
    match input with
    | c :: rest =>
        if c = 'e' ∨ c = 'E' then do
          let (e, rest) ← exponent rest
          let v ← float? negative ds (e - places)
          some (v, rest)
        else do
          let v ← float? negative ds (-(places : Int))
          some (v, input)
    | [] => (float? negative ds (-(places : Int))).map fun v => (v, [])
  match input with
  | '.' :: rest => do
      let (fs, rest) ← digits 10 rest
      finish (ds ++ fs) fs.length rest
  | 'e' :: _ => finish ds 0 input
  | 'E' :: _ => finish ds 0 input
  | _ => do
      let n : Int := ofDigits 10 ds
      let v ← integer? (if negative then -n else n)
      some (v, input)

/-- Read a decimal number after its sign. -/
def afterSign (negative : Bool) (input : List Char) : Option (Value × List Char) :=
  match input with
  | 'i' :: 'n' :: 'f' :: rest => some (.float, rest)
  | 'n' :: 'a' :: 'n' :: rest => some (.float, rest)
  | _ => do
      let (ds, rest) ← wholeDigits input
      afterWhole negative ds rest

/-- Read an integer in another base, after the letter of its base. -/
def inBase (base : Nat) (input : List Char) : Option (Value × List Char) := do
  let (ds, rest) ← digits base input
  let v ← integer? (ofDigits base ds)
  some (v, rest)

/-- Read a number. -/
def number (input : List Char) : Option (Value × List Char) :=
  match input with
  | '0' :: 'x' :: rest => inBase 16 rest
  | '0' :: 'o' :: rest => inBase 8 rest
  | '0' :: 'b' :: rest => inBase 2 rest
  | '+' :: rest => afterSign false rest
  | '-' :: rest => afterSign true rest
  | _ => afterSign false input

/-! ## Dates and times -/

/-- Read a fixed number of decimal digits. -/
def fixed : Nat → Nat → Scan Nat
  | 0, acc, input => some (acc, input)
  | _ + 1, _, [] => none
  | n + 1, acc, c :: rest =>
      if isDigit c then fixed n (acc * 10 + (c.toNat - 48)) rest else none

/-- Read one character. -/
def expect (c : Char) : List Char → Option (List Char)
  | [] => none
  | d :: rest => if d = c then some rest else none

/-- The days of a month. -/
def daysIn (year month : Nat) : Nat :=
  if month = 2 then
    if year % 4 = 0 ∧ (year % 100 ≠ 0 ∨ year % 400 = 0) then 29 else 28
  else if month = 4 ∨ month = 6 ∨ month = 9 ∨ month = 11 then 30
  else 31

/-- Read a date. -/
def date (input : List Char) : Option (List Char) := do
  let (year, rest) ← fixed 4 0 input
  let rest ← expect '-' rest
  let (month, rest) ← fixed 2 0 rest
  let rest ← expect '-' rest
  let (day, rest) ← fixed 2 0 rest
  if 1 ≤ month ∧ month ≤ 12 ∧ 1 ≤ day ∧ day ≤ daysIn year month then some rest else none

/-- Read hours and minutes. -/
def hoursAndMinutes (input : List Char) : Option (List Char) := do
  let (hour, rest) ← fixed 2 0 input
  let rest ← expect ':' rest
  let (minute, rest) ← fixed 2 0 rest
  if hour ≤ 23 ∧ minute ≤ 59 then some rest else none

/-- Read a time of day. -/
def time (input : List Char) : Option (List Char) := do
  let rest ← hoursAndMinutes input
  let rest ← expect ':' rest
  let (second, rest) ← fixed 2 0 rest
  if second ≤ 60 then
    match rest with
    | '.' :: d :: rest' => if isDigit d then some (rest'.dropWhile isDigit) else some rest
    | _ => some rest
  else none

/-- Read how far a time is from universal time, if that is said. -/
def offset (input : List Char) : Option (List Char) :=
  match input with
  | 'Z' :: rest => some rest
  | 'z' :: rest => some rest
  | '+' :: rest => hoursAndMinutes rest
  | '-' :: rest => hoursAndMinutes rest
  | _ => some input

/-- Whether a time seems to begin. -/
def startsTime : List Char → Bool
  | a :: b :: ':' :: _ => isDigit a && isDigit b
  | _ => false

/-- Whether a date seems to begin. -/
def startsDate : List Char → Bool
  | a :: b :: c :: d :: '-' :: _ => isDigit a && isDigit b && isDigit c && isDigit d
  | _ => false

/-- Read a date, with a time of day if one follows. -/
def dateAndTime (input : List Char) : Option (List Char) := do
  let rest ← date input
  match rest with
  | c :: tail =>
      if (c = 'T' ∨ c = 't' ∨ c = ' ') ∧ startsTime tail = true then do
        let rest ← time tail
        offset rest
      else some rest
  | [] => some []

/-- Read a number, or a date or time. -/
def numberOrMoment (input : List Char) : Option (Value × List Char) :=
  if startsDate input then (dateAndTime input).map fun rest => (.moment, rest)
  else if startsTime input then (time input).map fun rest => (.moment, rest)
  else number input

end ReplicaDiff.Toml
