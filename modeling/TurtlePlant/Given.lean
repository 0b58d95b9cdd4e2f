/-!
# Things given

Something may be asked for and yet not be there: on a command line a switch may be followed by a sign that no value
comes. `Given` tells such a blank from a value.
-/

namespace TurtlePlant

/-- What was given where something was asked for. -/
inductive Given (α : Type) where
  | value (a : α)
  | blank
  deriving DecidableEq, Repr

namespace Given

variable {α β : Type}

/-- The value, if there is one. -/
def value? : Given α → Option α
  | value a => some a
  | blank => none

/-- The value changed, if there is one. -/
def map (f : α → β) : Given α → Given β
  | value a => value (f a)
  | blank => blank

/-- Whether there is no value. -/
def isBlank : Given α → Bool
  | value _ => false
  | blank => true

/-- A text as a message shows it: a blank is an empty list. -/
def text : Given String → String
  | value s => s
  | blank => "[]"

end Given

end TurtlePlant
