import TurtlePlant.Archive.Store

/-!
# Archives as text

An archive is written as one block for each of its arrays: the name of the array, the names of its columns, and its
rows. Columns are separated by tabs and the numbers of a cell by blanks.
-/

namespace TurtlePlant

variable {R : Type}

/-- The numbers of a cell in order. -/
def Cell.numbers : Cell R → List R
  | number x => [x]
  | triple x y z => [x, y, z]
  | quadruple x y z w => [x, y, z, w]

/-- The lines of a table: its columns, then its rows, with numbers written by `write`. -/
def Table.lines (t : Table R) (write : R → String) : List String :=
  let line := "\t".intercalate
  line t.header :: t.rows.map fun row => line (row.map fun c => " ".intercalate (c.numbers.map write))

/-- The lines of an array. -/
def Dataset.lines (write : R → String) : Dataset R → List String
  | plain => []
  | table t => t.lines write

/-- The text of an archive. -/
def Archive.text (a : Archive R) (write : R → String) : String :=
  String.join ((a.flatMap fun (name, d) => name :: d.lines write).map (· ++ "\n"))

end TurtlePlant
