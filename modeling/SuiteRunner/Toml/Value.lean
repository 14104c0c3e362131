import SuiteRunner.Decimal.Binary64

/-!
# TOML values

A document is a table: its keys in the order in which they first appear, each with a
value. Dates and times are kept as their normal text, and a float as the double that
its text denotes.
-/

namespace SuiteRunner.Toml

inductive Real where
  | nan
  | infinite (negative : Bool)
  | finite (negative : Bool) (magnitude : Decimal.Binary64)
  deriving DecidableEq, Repr

inductive Value where
  | string (text : String)
  | integer (value : Int)
  | float (value : Real)
  | boolean (value : Bool)
  | dateTime (text : String)
  | array (items : List Value)
  | table (entries : List (String × Value))
  deriving Repr

/-- A float as it is spoken of in messages: positional, always with a decimal point. -/
def Real.text : Real → String
  | nan => "NaN"
  | infinite negative => if negative then "-inf" else "inf"
  | finite negative magnitude =>
    let digits := magnitude.shortest.positional
    (if negative then "-" else "") ++ digits ++ (if digits.contains '.' then "" else ".0")

end SuiteRunner.Toml
