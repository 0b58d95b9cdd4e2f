/-!
# Fields of a branch

Branches are kept in tables with one column for each of eight fields. `Field.all` is the usual order of the columns,
`Field.names` their names.
-/

namespace TurtlePlant

/-- What is kept of a branch. -/
inductive Field where
  | start | stop | orientation | length | radiusStart | radiusEnd | colour | depth
  deriving DecidableEq, Repr

namespace Field

/-- The name of the column that holds a field. -/
def name : Field → String
  | start => "start"
  | stop => "end"
  | orientation => "orientation"
  | length => "length"
  | radiusStart => "radius_start"
  | radiusEnd => "radius_end"
  | colour => "color"
  | depth => "depth"

/-- The fields in their usual order. -/
def all : List Field := [start, stop, orientation, length, radiusStart, radiusEnd, colour, depth]

/-- The names of the columns in their usual order. -/
def names : List String := all.map name

theorem mem_all (f : Field) : f ∈ all := by cases f <;> decide

end Field

end TurtlePlant
