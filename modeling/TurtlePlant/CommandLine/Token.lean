import TurtlePlant.CommandLine.Switch
import TurtlePlant.Text.Digit

/-!
# Words of a command line

Each word of a command line is a switch, perhaps with a value after `=`, or an operand, or a name that no switch has.
After `--` everything is an operand.

- `Token.ofWord`: the token of one word, refused when it shortens more than one switch;
- `Token.scan`: the tokens of a command line.
-/

namespace TurtlePlant

/-- What is wrong with a command line. -/
inductive UsageFault where
  | ambiguous (word : String) (names : List String)
  | missingValue (s : Switch)
  | ignoredValue (s : Switch) (value : String)
  | notInt (s : Switch) (value : String)
  | notFloat (s : Switch) (value : String)
  | notChoice (s : Switch) (value : String) (choices : List String)
  | unrecognized (words : List String)
  deriving DecidableEq, Repr

/-- The wording of what is wrong with a command line. -/
def UsageFault.message : UsageFault → String
  | ambiguous word names => "ambiguous option: " ++ word ++ " could match " ++ ", ".intercalate names
  | missingValue s => "argument " ++ s.display ++ ": expected one argument"
  | ignoredValue s value => "argument " ++ s.display ++ ": ignored explicit argument " ++ Text.quote value
  | notInt s value => "argument " ++ s.display ++ ": invalid int value: " ++ Text.quote value
  | notFloat s value => "argument " ++ s.display ++ ": invalid float value: " ++ Text.quote value
  | notChoice s value choices =>
    "argument " ++ s.display ++ ": invalid choice: " ++ Text.quote value ++ " (choose from " ++
      ", ".intercalate (choices.map Text.quote) ++ ")"
  | unrecognized words => "unrecognized arguments: " ++ " ".intercalate words

/-- A word of a command line. -/
inductive Token where
  /-- A switch, with the value written behind it if there is one. -/
  | switch (s : Switch) (value : Option String)
  | operand (word : String)
  /-- A word that looks like a switch and is none. -/
  | stranger (word : String)
  | separator
  deriving DecidableEq, Repr

namespace Token

/-- What is left of short switches in a row, once every `h` is taken; help takes no value, so it should be nothing. -/
def afterHelp? : List Char → Option (List Char)
  | [] => none
  | 'h' :: rest => afterHelp? rest
  | rest => some rest

/-- The value that stands behind the letter of the short help switch, perhaps after `=`, if it is one: further letters `h`
are the same switch again. -/
def helpValue? : List Char → Option (List Char)
  | ['='] => some []
  | '=' :: value => afterHelp? value
  | rest => afterHelp? rest

/-- Whether a word is a negative number without a power of ten: digits, or a point with digits after it, behind a dash.
A line break may end it. -/
def isNegativeNumber : List Char → Bool
  | '-' :: body =>
    let body := if body.getLast? = some '\n' then body.dropLast else body
    let (whole, rest) := body.span Text.isDigit
    match rest with
    | [] => !whole.isEmpty
    | '.' :: fraction => !fraction.isEmpty && fraction.all Text.isDigit
    | _ => false
  | _ => false

/-- A word at its first `=`: what stands before it, and what stands behind it if there is one. -/
def splitValue (word : String) : String × Option String :=
  let (name, rest) := word.toList.span (· != '=')
  (String.ofList name, match rest with
    | [] => none
    | _ :: value => some (String.ofList value))

/-- The token of a word that starts with a dash and is not the name of a switch. -/
def ofDashed (word : String) : Except UsageFault Token :=
  let (name, value) := splitValue word
  let plain := if isNegativeNumber word.toList || word.toList.contains ' ' then operand word else stranger word
  match word.toList with
  | '-' :: '-' :: _ =>
    match value.bind fun _ => Switch.ofName? name with
    | some s => .ok (switch s value)
    | none =>
      match Switch.startingWith name with
      | [] => .ok plain
      | [(_, s)] => .ok (switch s value)
      | many => .error (.ambiguous word (many.map Prod.fst))
  | '-' :: 'h' :: rest => .ok (switch .help ((helpValue? rest).map String.ofList))
  | _ => .ok plain

/-- The token of a word other than `--`. -/
def ofWord (word : String) : Except UsageFault Token :=
  match word.toList with
  | '-' :: _ :: _ =>
    match Switch.ofName? word with
    | some s => .ok (switch s none)
    | none => ofDashed word
  | _ => .ok (operand word)

/-- The tokens of a command line. -/
def scan : List String → Except UsageFault (List Token)
  | [] => .ok []
  | word :: rest =>
    if word = "--" then .ok (separator :: rest.map operand)
    else do
      let t ← ofWord word
      return t :: (← scan rest)

/-- The word of a token that means nothing by itself. -/
def leftover? : Token → Option String
  | operand word | stranger word => some word
  | separator => some "--"
  | switch .. => none

end Token

end TurtlePlant
