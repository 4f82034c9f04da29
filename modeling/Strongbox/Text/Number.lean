/-! Decimal numbers in text: unsigned integers by value, other numbers by shape. -/

namespace Strongbox.Text

def isDigit (c : Char) : Bool := '0' ≤ c && c ≤ '9'

/-- The value of decimal digits, the highest first. -/
def decimal (digits : List Char) : Nat :=
  digits.foldl (fun n c => 10 * n + (c.toNat - 48)) 0

/-- Numbers from this one on are refused. -/
def numberLimit : Nat := Nat.pow 2 64

/-- Digits below the limit, after an optional plus sign. -/
def parseNumber? (text : String) : Option Nat :=
  let digits := match text.toList with
    | '+' :: rest => rest
    | cs => cs
  if digits ≠ [] ∧ digits.all isDigit ∧ decimal digits < numberLimit then some (decimal digits)
  else none

/-- The text behind a sign, if there is one. -/
def unsigned : List Char → List Char
  | '+' :: rest => rest
  | '-' :: rest => rest
  | cs => cs

/-- At least one digit, and nothing else. -/
def isDigits (cs : List Char) : Bool := cs ≠ [] && cs.all isDigit

/-- Nothing, or an exponent of ten. -/
def isExponent : List Char → Bool
  | [] => true
  | c :: cs => (c = 'e' || c = 'E') && isDigits (unsigned cs)

/-- Digits with an optional point before, among or behind them, and an optional exponent. -/
def isDecimal (cs : List Char) : Bool :=
  let whole := cs.takeWhile isDigit
  match cs.dropWhile isDigit with
  | '.' :: rest =>
    isDigits (whole ++ rest.takeWhile isDigit) && isExponent (rest.dropWhile isDigit)
  | rest => isDigits whole && isExponent rest

/-- The words for what is no finite number. -/
def nonFinite : List String := ["inf", "infinity", "nan"]

def isNumber (cs : List Char) : Bool :=
  let cs := unsigned cs
  isDecimal cs || nonFinite.contains (String.ofList (cs.map Char.toLower))

end Strongbox.Text
