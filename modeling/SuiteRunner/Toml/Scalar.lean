import SuiteRunner.Text.Basic
import SuiteRunner.Toml.Value

/-!
# Numbers, booleans and dates

A reader takes the characters from the beginning of its input and returns what they
denote together with the rest, or nothing if the input does not begin that way.
-/

namespace SuiteRunner.Toml

abbrev Reader (α : Type) := List Char → Option (α × List Char)

/-! ### Digits -/

def isDigit (c : Char) : Bool := '0' ≤ c && c ≤ '9'

/-- The value of a digit in a base up to sixteen. -/
def digit? (base : Nat) (c : Char) : Option Nat :=
  let value? :=
    if '0' ≤ c && c ≤ '9' then some (c.toNat - '0'.toNat)
    else if 'a' ≤ c && c ≤ 'f' then some (c.toNat - 'a'.toNat + 10)
    else if 'A' ≤ c && c ≤ 'F' then some (c.toNat - 'A'.toNat + 10)
    else none
  value?.filter (· < base)

/-- The digits that follow, each of which may have one underscore in front of it. An
underscore without a digit behind it is malformed. -/
def moreDigits (base : Nat) : Reader (List Nat)
  | [] => some ([], [])
  | '_' :: c :: rest =>
    match digit? base c with
    | some d => (moreDigits base rest).map fun (ds, rest) => (d :: ds, rest)
    | none => none
  | ['_'] => none
  | c :: rest =>
    match digit? base c with
    | some d => (moreDigits base rest).map fun (ds, rest) => (d :: ds, rest)
    | none => some ([], c :: rest)

/-- One digit or more, zeros in front allowed. -/
def digits (base : Nat) : Reader (List Nat)
  | [] => none
  | c :: rest => do
    let d ← digit? base c
    let (ds, rest) ← moreDigits base rest
    return (d :: ds, rest)

def valueOf (base : Nat) (ds : List Nat) : Nat := ds.foldl (fun value d => value * base + d) 0

/-- Whether a sign stands here, and whether it is a minus. -/
def sign : List Char → Bool × List Char
  | '+' :: rest => (false, rest)
  | '-' :: rest => (true, rest)
  | rest => (false, rest)

/-- Decimal digits of a whole number: no zero in front of another digit. -/
def wholeDigits : Reader (List Nat)
  | '0' :: rest => some ([0], rest)
  | cs => digits 10 cs

/-! ### Integers -/

/-- The range of signed words of 64 bits. -/
def inRange (value : Int) : Bool := -(Int.pow 2 63) ≤ value && value < Int.pow 2 63

def based (base : Nat) : Reader Value := fun cs => do
  let (ds, rest) ← digits base cs
  let value : Int := valueOf base ds
  if inRange value then some (.integer value, rest) else none

def integer : Reader Value
  | '0' :: 'x' :: rest => based 16 rest
  | '0' :: 'o' :: rest => based 8 rest
  | '0' :: 'b' :: rest => based 2 rest
  | cs => do
    let (negative, rest) := sign cs
    let (ds, rest) ← wholeDigits rest
    let magnitude : Int := valueOf 10 ds
    let value := if negative then -magnitude else magnitude
    if inRange value then some (.integer value, rest) else none

/-! ### Floats -/

/-- The double nearest to `digits * 10 ^ power`; far too large a power is not computed. -/
def ofDecimal (negative : Bool) (ds : List Nat) (power : Int) : Real :=
  let value := valueOf 10 ds
  if value = 0 then .finite negative ⟨0, Decimal.Binary64.smallestExponent⟩
  else if 400 < power then .infinite negative
  else if power + ds.length < -400 then .finite negative ⟨0, Decimal.Binary64.smallestExponent⟩
  else
    match Decimal.Binary64.nearest? (value * Nat.pow 10 power.toNat) (Nat.pow 10 (-power).toNat) with
    | some magnitude => .finite negative magnitude
    | none => .infinite negative

def exponent? : List Char → Option (Option (Int × List Char))
  | c :: rest =>
    if c = 'e' ∨ c = 'E' then do
      let (negative, rest) := sign rest
      let (ds, rest) ← digits 10 rest
      let power : Int := valueOf 10 ds
      return some (if negative then -power else power, rest)
    else some none
  | [] => some none

/-- A number with a fraction or an exponent. The outer `none` stands for a malformed float,
the inner one for input that is no float at all. -/
def plainFloat? (cs : List Char) : Option (Option (Real × List Char)) :=
  let (negative, rest) := sign cs
  match wholeDigits rest with
  | none => some none
  | some (whole, '.' :: rest) => do
    let (fraction, rest) ← digits 10 rest
    let (power, rest) := (← exponent? rest).getD (0, rest)
    return some (ofDecimal negative (whole ++ fraction) (power - fraction.length), rest)
  | some (whole, rest) => do
    match ← exponent? rest with
    | some (power, rest) => return some (ofDecimal negative whole power, rest)
    | none => return none

def specialFloat : Reader Value := fun cs =>
  match sign cs with
  | (negative, 'i' :: 'n' :: 'f' :: rest) => some (.float (.infinite negative), rest)
  | (_, 'n' :: 'a' :: 'n' :: rest) => some (.float .nan, rest)
  | _ => none

/-! ### Dates and times -/

/-- Exactly `count` decimal digits. -/
def fixedDigits : (count : Nat) → Reader (List Nat)
  | 0, cs => some ([], cs)
  | _ + 1, [] => none
  | count + 1, c :: rest => do
    let d ← digit? 10 c
    let (ds, rest) ← fixedDigits count rest
    return (d :: ds, rest)

/-- A two-digit number within bounds. -/
def pair (low high : Nat) : Reader Nat := fun cs => do
  let (ds, rest) ← fixedDigits 2 cs
  let value := valueOf 10 ds
  if low ≤ value ∧ value ≤ high then some (value, rest) else none

def expect (c : Char) : List Char → Option (List Char)
  | [] => none
  | d :: rest => if d = c then some rest else none

def isLeapYear (year : Nat) : Bool :=
  year % 4 == 0 && (year % 100 != 0 || year % 400 == 0)

def daysIn (year month : Nat) : Nat :=
  if month = 2 then (if isLeapYear year then 29 else 28)
  else if month ∈ [4, 6, 9, 11] then 30
  else 31

open Decimal.Binary64 (padded)

def date : Reader String := fun cs => do
  let (ds, rest) ← fixedDigits 4 cs
  let year := valueOf 10 ds
  let (month, rest) ← pair 1 12 (← expect '-' rest)
  let (day, rest) ← pair 1 (daysIn year month) (← expect '-' rest)
  return (padded 4 year ++ "-" ++ padded 2 month ++ "-" ++ padded 2 day, rest)

/-- A fraction of a second in nanoseconds; further digits are cut off. -/
def nanoseconds (ds : List Nat) : Nat :=
  valueOf 10 (ds.take 9) * Nat.pow 10 (9 - min 9 ds.length)

def fractionText (nanos : Nat) : String :=
  if nanos = 0 then ""
  else "." ++ String.ofList ((padded 9 nanos).toList.reverse.dropWhile (· == '0')).reverse

def time : Reader String := fun cs => do
  let (hour, rest) ← pair 0 23 cs
  let (minute, rest) ← pair 0 59 (← expect ':' rest)
  let (second, rest) ← pair 0 60 (← expect ':' rest)
  let whole := padded 2 hour ++ ":" ++ padded 2 minute ++ ":" ++ padded 2 second
  match rest with
  | '.' :: behind =>
    match behind.takeWhile isDigit with
    | [] => none
    | fraction =>
      let ds := fraction.filterMap (digit? 10)
      return (whole ++ fractionText (nanoseconds ds), behind.dropWhile isDigit)
  | rest => return (whole, rest)

def offset? : List Char → Option (Option (String × List Char))
  | c :: rest =>
    if c = 'Z' ∨ c = 'z' then some (some ("Z", rest))
    else if c = '+' ∨ c = '-' then do
      let (hour, rest) ← pair 0 23 rest
      let (minute, rest) ← pair 0 59 (← expect ':' rest)
      let shown := if hour = 0 ∧ minute = 0 then '+' else c
      return some (shown.toString ++ padded 2 hour ++ ":" ++ padded 2 minute, rest)
    else some none
  | [] => some none

/-- Whether the input begins like a date, with four digits and a dash. -/
def looksLikeDate (cs : List Char) : Bool :=
  match fixedDigits 4 cs with
  | some (_, '-' :: _) => true
  | _ => false

def looksLikeTime (cs : List Char) : Bool :=
  match fixedDigits 2 cs with
  | some (_, ':' :: _) => true
  | _ => false

def isTimeDelimiter (c : Char) : Bool := c == 'T' || c == 't' || c == ' '

/-- A date, a time, or both with an optional offset. -/
def dateTime : Reader Value := fun cs =>
  if looksLikeDate cs then do
    let (day, rest) ← date cs
    match rest with
    | c :: behind =>
      if isTimeDelimiter c && looksLikeTime behind then
        let (clock, rest) ← time behind
        let (zone, rest) := (← offset? rest).getD ("", rest)
        return (.dateTime (day ++ "T" ++ clock ++ zone), rest)
      else return (.dateTime day, rest)
    | [] => return (.dateTime day, [])
  else (time cs).map fun (clock, rest) => (.dateTime clock, rest)

/-! ### Any scalar that begins with a sign or digit -/

/-- A float may not be too large; only a negative one may round to infinity. -/
def acceptFloat (value : Real) (rest : List Char) : Option (Value × List Char) :=
  match value with
  | .infinite false => none
  | value => some (.float value, rest)

def number : Reader Value := fun cs =>
  if looksLikeDate cs || looksLikeTime cs then dateTime cs
  else
    match plainFloat? cs with
    | none => none
    | some (some (value, rest)) => acceptFloat value rest
    | some none => (specialFloat cs).orElse fun _ => integer cs

def boolean : Reader Value
  | 't' :: 'r' :: 'u' :: 'e' :: rest => some (.boolean true, rest)
  | 'f' :: 'a' :: 'l' :: 's' :: 'e' :: rest => some (.boolean false, rest)
  | _ => none

end SuiteRunner.Toml
