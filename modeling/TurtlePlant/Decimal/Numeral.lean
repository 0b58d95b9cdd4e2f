import TurtlePlant.Text.Digit

/-!
# Reading numerals

Numbers as they are typed: blanks around them, a sign, decimal digits of any script, single underscores between digits.

- `int?` reads an integer;
- `float?` reads a decimal with an optional point and power of ten, or one of the words for infinity and NaN, to the
  nearest machine number.
-/

namespace TurtlePlant.Decimal

open Text (isDigit digitValue? strip)

/-- A text without the underscores between two digits; `none` if an underscore stands elsewhere. The flag tells whether
the character before was a digit. -/
def ungroup : Bool → List Char → Option (List Char)
  | _, [] => some []
  | afterDigit, '_' :: rest =>
    if afterDigit && rest.head?.any isDigit then ungroup false rest else none
  | _, c :: rest => (ungroup (isDigit c) rest).map (c :: ·)

/-- The sign of a numeral (whether it is negative) and what follows it. -/
def splitSign : List Char → Bool × List Char
  | '-' :: rest => (true, rest)
  | '+' :: rest => (false, rest)
  | s => (false, s)

/-- The value of a run of digits after `acc`; other characters count as zero. -/
def digitsValue (acc : Nat) (ds : List Char) : Nat :=
  ds.foldl (fun n c => 10 * n + (digitValue? c).getD 0) acc

/-- The value of a nonempty text of digits. -/
def natural? (s : List Char) : Option Nat :=
  if s.isEmpty || !s.all isDigit then none else some (digitsValue 0 s)

/-- The most digits an integer may be typed with. -/
def maxDigits : Nat := 4300

/-- An integer numeral. -/
def int? (text : String) : Option Int := do
  let (negative, digits) := splitSign (← ungroup false (strip text.toList))
  if maxDigits < digits.length then none
  let n ← natural? digits
  return if negative then -(n : Int) else n

/-- The machine number nearest `± n · 10 ^ e`. Beyond four hundred places on either side the result is an infinity or a
zero, whatever the digits. -/
def nearest (negative : Bool) (n : Nat) (e : Int) : Float :=
  let magnitude : Int := e + (Nat.toDigits 10 n).length
  let x :=
    if n = 0 ∨ magnitude < -400 then 0.0
    else if 400 < magnitude then 1.0 / 0.0
    else if 0 ≤ e then Float.ofScientific (n * Nat.pow 10 e.toNat) false 0
    else Float.ofScientific n true (-e).toNat
  if negative then -x else x

/-- What may follow the digits: nothing, or a power of ten. -/
def powerOfTen? : List Char → Option Int
  | [] => some 0
  | c :: rest =>
    if c = 'e' ∨ c = 'E' then
      let (negative, digits) := splitSign rest
      (natural? digits).map fun n => if negative then -(n : Int) else n
    else none

/-- The digits after a point, and what follows them. -/
def splitFraction : List Char → List Char × List Char
  | '.' :: rest => rest.span isDigit
  | s => ([], s)

/-- A decimal numeral, with a word for infinity or NaN in any case of letters, as a machine number. -/
def float? (text : String) : Option Float := do
  let (negative, body) := splitSign (← ungroup false (strip text.toList))
  let word := String.ofList (body.map Char.toLower)
  if word = "inf" ∨ word = "infinity" then return if negative then -(1.0 / 0.0) else 1.0 / 0.0
  if word = "nan" then return 0.0 / 0.0
  let (whole, rest) := body.span isDigit
  let (fraction, rest) := splitFraction rest
  if whole.isEmpty && fraction.isEmpty then none
  let e ← powerOfTen? rest
  return nearest negative (digitsValue (digitsValue 0 whole) fraction) (e - fraction.length)

end TurtlePlant.Decimal
