/-!
# Double precision numbers, exactly

A finite non-negative double is `mantissa * 2 ^ exponent`. Rounding a quotient of
naturals to the nearest double, writing a double with two decimals and writing the
fewest digits that still denote it are done in exact integer arithmetic, so every
digit that is printed is accounted for.
-/

namespace SuiteRunner.Decimal

/-! ### Rounding a quotient -/

/-- The natural number nearest to `num / den`; halfway between two, the even one. -/
def roundHalfEven (num den : Nat) : Nat :=
  let quotient := num / den
  let rest := num % den
  if 2 * rest < den then quotient
  else if den < 2 * rest then quotient + 1
  else quotient + quotient % 2

/-! ### Doubles -/

structure Binary64 where
  mantissa : Nat
  exponent : Int
  deriving DecidableEq, Repr

namespace Binary64

def smallestExponent : Int := -1074

def largestExponent : Int := 971

/-- The value as a quotient of naturals. -/
def numerator (x : Binary64) : Nat := x.mantissa * Nat.pow 2 x.exponent.toNat

def denominator (x : Binary64) : Nat := Nat.pow 2 (-x.exponent).toNat

/-- `num / den` in units of `2 ^ exponent`, as a quotient again. -/
def inUnits (num den : Nat) (exponent : Int) : Nat × Nat :=
  (num * Nat.pow 2 (-exponent).toNat, den * Nat.pow 2 exponent.toNat)

/-- The double nearest to `num / den`, if that is below the largest one. -/
def nearest? (num den : Nat) : Option Binary64 :=
  if num = 0 then some ⟨0, smallestExponent⟩
  else
    let guess := max ((num.log2 : Int) - den.log2 - 53) smallestExponent
    let (n, d) := inUnits num den guess
    let exponent := if n / d < Nat.pow 2 53 then guess else guess + 1
    let (n, d) := inUnits num den exponent
    let mantissa := roundHalfEven n d
    let rounded : Binary64 :=
      if mantissa = Nat.pow 2 53 then ⟨Nat.pow 2 52, exponent + 1⟩ else ⟨mantissa, exponent⟩
    if rounded.exponent ≤ largestExponent then some rounded else none

/-! ### Two decimals -/

/-- The digits of `n`, with zeros in front up to `width`. -/
def padded (width n : Nat) : String :=
  let digits := toString n
  "".pushn '0' (width - digits.length) ++ digits

/-- The value with two decimals; a tie goes to the even digit. -/
def twoPlaces (x : Binary64) : String :=
  let hundredths := roundHalfEven (x.numerator * 100) x.denominator
  toString (hundredths / 100) ++ "." ++ padded 2 (hundredths % 100)

/-! ### Fewest digits -/

/-- The least power of ten above `num / den`, searched from `power` on. -/
def tenPowerAbove (num den : Nat) : Nat → Int → Int
  | 0, power => power
  | fuel + 1, power =>
    if num * Nat.pow 10 (-power).toNat < den * Nat.pow 10 power.toNat then power
    else tenPowerAbove num den fuel (power + 1)

/-- The decimal `digits * 10 ^ power`. -/
structure Digits where
  digits : Nat
  power : Int
  deriving DecidableEq, Repr

/-- Four times the value and the two ends of the interval that rounds to it, in quarters of
the last mantissa bit. The gap below a power of two is half as wide. -/
def quarters (x : Binary64) : Nat × Nat × Nat :=
  let value := 4 * x.mantissa
  let low :=
    if x.mantissa = Nat.pow 2 52 ∧ smallestExponent < x.exponent then value - 1 else value - 2
  (low, value, value + 2)

/-- Whether the decimal lies in the interval that rounds to `x`; its ends belong to it when
the mantissa is even. -/
def reads (x : Binary64) (decimal : Digits) : Bool :=
  let (low, _, high) := x.quarters
  let unit := x.exponent - 2
  let scale (n : Nat) : Nat := n * Nat.pow 2 unit.toNat * Nat.pow 10 (-decimal.power).toNat
  let point := decimal.digits * Nat.pow 10 decimal.power.toNat * Nat.pow 2 (-unit).toNat
  if x.mantissa % 2 = 0 then scale low ≤ point && point ≤ scale high
  else scale low < point && point < scale high

/-- The decimal nearest to `x` whose last digit counts `10 ^ power`, among the two
neighbours that read back as `x`. -/
def onGrid? (x : Binary64) (power : Int) : Option Digits :=
  let n := x.numerator * Nat.pow 10 (-power).toNat
  let d := x.denominator * Nat.pow 10 power.toNat
  let near : Digits := ⟨roundHalfEven n d, power⟩
  let down : Digits := ⟨n / d, power⟩
  let up : Digits := ⟨n / d + 1, power⟩
  [near, down, up].find? x.reads

def firstGrid? (x : Binary64) : Nat → Int → Option Digits
  | 0, _ => none
  | fuel + 1, power =>
    match x.onGrid? power with
    | some found => some found
    | none => firstGrid? x fuel (power - 1)

/-- The same decimal without zeros at its end, at most `count` of them. -/
def Digits.dropZeros (decimal : Digits) : (count : Nat) → Digits
  | 0 => decimal
  | count + 1 =>
    if decimal.digits % 10 = 0 then
      (⟨decimal.digits / 10, decimal.power + 1⟩ : Digits).dropZeros count
    else decimal

/-- The fewest digits that denote `x`. Seventeen are always enough. -/
def shortest (x : Binary64) : Digits :=
  if x.mantissa = 0 then ⟨0, 0⟩
  else
    let above := tenPowerAbove x.numerator x.denominator 700 (-330)
    ((x.firstGrid? 17 (above - 1)).getD ⟨x.mantissa, 0⟩).dropZeros 17

/-- The decimal in positional notation. -/
def Digits.positional (decimal : Digits) : String :=
  if 0 ≤ decimal.power then
    toString decimal.digits ++ (if decimal.digits = 0 then "" else "".pushn '0' decimal.power.toNat)
  else
    let places := (-decimal.power).toNat
    let one := Nat.pow 10 places
    toString (decimal.digits / one) ++ "." ++ padded places (decimal.digits % one)

end Binary64

end SuiteRunner.Decimal
