import TurtlePlant.Text.Hidden

/-!
# Quoted text

A text shown inside a message stands in single quotes, or in double quotes when it holds a single quote and no double
one. `quote` escapes the backslash, the quote in use and the characters that could not be seen, so what is shown stays
on one line.
-/

namespace TurtlePlant.Text

/-- The single quote. -/
def singleQuote : Char := '\x27'

/-- The double quote. -/
def doubleQuote : Char := '\x22'

/-- The quote that a text is shown in. -/
def quoteFor (s : List Char) : Char :=
  if singleQuote ∈ s ∧ doubleQuote ∉ s then doubleQuote else singleQuote

/-- The last `width` hexadecimal digits of a number, in lower case. -/
def hexDigits (n : Nat) : Nat → List Char
  | 0 => []
  | width + 1 => hexDigits (n / 16) width ++ [Nat.digitChar (n % 16)]

/-- A character by its number: two, four or eight hexadecimal digits behind a letter that tells how many. -/
def escapeNumber (n : Nat) : List Char :=
  if n < 0x100 then '\\' :: 'x' :: hexDigits n 2
  else if n < 0x10000 then '\\' :: 'u' :: hexDigits n 4
  else '\\' :: 'U' :: hexDigits n 8

/-- One character as shown between quotes `q`. -/
def escape (q c : Char) : List Char :=
  if c = '\\' then ['\\', '\\']
  else if c = q then ['\\', q]
  else if c = '\n' then ['\\', 'n']
  else if c = '\r' then ['\\', 'r']
  else if c = '\t' then ['\\', 't']
  else if isHidden c then escapeNumber c.toNat
  else [c]

/-- A text in quotes, with its backslashes, quotes and hidden characters escaped. -/
def quote (s : String) : String :=
  let q := quoteFor s.toList
  String.ofList (q :: s.toList.flatMap (escape q) ++ [q])

end TurtlePlant.Text
