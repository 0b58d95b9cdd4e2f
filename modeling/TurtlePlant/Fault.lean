import TurtlePlant.Archive.Field
import TurtlePlant.Archive.Path
import TurtlePlant.Grammar
import TurtlePlant.Preset
import TurtlePlant.Space.Rotation

/-!
# Faults

Why something that was asked for cannot be done. `Fault.message` gives the wording.
-/

namespace TurtlePlant

/-- A reason why something cannot be done. -/
inductive Fault where
  | numeric (fault : NumericFault)
  | draft (fault : DraftFault Number)
  | unknownPreset (name : String)
  | negativeSeed
  | rotation (fault : RotationFault)
  | file (fault : PathFault) (path : String)
  | noBranches (path : String)
  /-- An array has other fields than branches have, or none at all. -/
  | wrongFields (found : Option (List String))
  | repeatedField (field : String)
  | wrongShape (field : String)
  | unknownBackend (name : String)
  | nothingGiven

/-- Names in parentheses, with a comma after a single one. -/
def tupleText : List String → String
  | [] => "()"
  | [s] => "(" ++ Text.quote s ++ ",)"
  | ss => "(" ++ ", ".intercalate (ss.map Text.quote) ++ ")"

/-- The wording of a refused calculation. -/
def NumericFault.message : NumericFault → String
  | infiniteAngle => "math domain error"
  | divisionByZero => "division by zero"
  | wholePartOfNaN => "cannot convert float NaN to integer"
  | wholePartOfInfinity => "cannot convert float infinity to integer"
  | integerTooLarge => "int too large to convert to float"
  | integerTooWide => "an integer has too many bits to be rounded"
  | notInteger => "'float' object cannot be interpreted as an integer"
  | lengths first second =>
    "operands could not be broadcast together with shapes (" ++ toString first ++ ",) (" ++ toString second ++ ",) "

/-- The wording of a quaternion that is no rotation. -/
def RotationFault.message : RotationFault → String
  | zeroLength => "Found zero norm quaternions in \x60quat\x60."
  | mixedParts => "Buffer dtype mismatch, expected 'const double' but got Python object"

/-- The wording of a path that cannot be used. -/
def PathFault.message (path : String) : PathFault → String
  | nullCharacter => "embedded null byte"
  | missing => "[Errno 2] No such file or directory: " ++ Text.quote path
  | notDirectory => "[Errno 20] Not a directory: " ++ Text.quote path
  | isDirectory => "[Errno 21] Is a directory: " ++ Text.quote path
  | occupied => "[Errno 17] File exists: " ++ Text.quote path
  | tooLong => "[Errno 36] File name too long: " ++ Text.quote path
  | tooDeep => "too many directories are missing for " ++ Text.quote path

/-- The wording of a fault. -/
def Fault.message : Fault → String
  | numeric fault => fault.message
  | draft fault => fault.message Number.text
  | unknownPreset name =>
    "Unknown preset '" ++ name ++ "'. Available: " ++ ", ".intercalate Preset.sortedNames
  | negativeSeed => "expected non-negative integer"
  | rotation fault => fault.message
  | file fault path => fault.message path
  | noBranches path => path ++ " has no 'branches' array"
  | wrongFields found =>
    "Expected fields " ++ tupleText Field.names ++ ", got " ++ (found.map tupleText).getD "None"
  | repeatedField field => "field " ++ Text.quote field ++ " occurs more than once"
  | wrongShape field => "Field " ++ Text.quote field ++ " has values of the wrong shape"
  | unknownBackend name => "Unknown backend '" ++ name ++ "'"
  | nothingGiven => "a value is missing"

/-- Whether a refused calculation counts as a wrong value. Divisions by zero, numbers out of all bounds and numbers of the
wrong kind do not. -/
def NumericFault.isOfValue : NumericFault → Bool
  | infiniteAngle | wholePartOfNaN | lengths .. => true
  | divisionByZero | wholePartOfInfinity | integerTooLarge | integerTooWide | notInteger => false

/-- Whether a fault is to be complained about as something asked for amiss. The others come from what stands in the way on
the disk and from values of a kind that nothing can be done with. -/
def Fault.isComplaint : Fault → Bool
  | numeric fault => fault.isOfValue
  | file fault _ => fault == .nullCharacter
  | nothingGiven => false
  | _ => true

/-- The grammar that a draft asks for, or why it is not accepted. -/
def Draft.accept (d : Draft Number) : Except Fault (Grammar Number) := d.check.mapError .draft

/-- The grammar of a preset under some settings, or why there is none. An unknown name counts before any setting. -/
def Preset.accept (name : String) (s : Settings Number) : Except Fault (Grammar Number) :=
  match Preset.find? name with
  | none => .error (.unknownPreset name)
  | some p => (s.over p.draft).accept

end TurtlePlant
