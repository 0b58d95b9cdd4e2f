import TurtlePlant.Archive.Field
import TurtlePlant.Fault
import TurtlePlant.Turtle.Branch

/-!
# Tables of branches

A `Table` has named columns and rows of cells, a cell being a number or three or four of them. Branches are packed into
a table with one column for each `Field`, and come back from any table with those columns, in whatever order.

- `Table.pack`: the table of some branches, each a row of its own (`Branch.row`), and `Table.pack?` that of branches in their
  stored form;
- `Table.select?`: the columns of the given names, with zeros under a name that the table does not have;
- `Dataset.unpack`: the branches of a table, refused when its columns are not those of branches.
-/

namespace TurtlePlant

/-- What stands in one row under one name. -/
inductive Cell (R : Type) where
  | number (x : R)
  | triple (x y z : R)
  | quadruple (x y z w : R)
  deriving DecidableEq, Repr

/-- A field of a branch as a cell. -/
def Branch.cell {R : Type} (b : Branch R) : Field → Cell R
  | .start => .triple b.start.x b.start.y b.start.z
  | .stop => .triple b.stop.x b.stop.y b.stop.z
  | .orientation => .quadruple b.orientation.x b.orientation.y b.orientation.z b.orientation.w
  | .length => .number b.length
  | .radiusStart => .number b.radiusStart
  | .radiusEnd => .number b.radiusEnd
  | .colour => .triple b.colour.red b.colour.green b.colour.blue
  | .depth => .number b.depth

/-- The cells of a branch in the order in which they are written. -/
def Branch.row {R : Type} (b : Branch R) : List (Cell R) :=
  [.triple b.start.x b.start.y b.start.z, .triple b.stop.x b.stop.y b.stop.z,
    .quadruple b.orientation.x b.orientation.y b.orientation.z b.orientation.w,
    .number b.length, .number b.radiusStart, .number b.radiusEnd,
    .triple b.colour.red b.colour.green b.colour.blue, .number b.depth]

/-- Each cell is written in the column of its field. -/
theorem Branch.row_eq {R : Type} (b : Branch R) : b.row = Field.all.map b.cell := rfl

/-- Rows of cells under named columns. -/
structure Table (R : Type) where
  header : List String
  /-- The rows, each with its cells in the order of the columns. -/
  rows : List (List (Cell R))
  aligned : ∀ row ∈ rows, row.length = header.length

/-- An array: without columns, or a table. -/
inductive Dataset (R : Type) where
  | plain
  | table (t : Table R)

variable {R : Type}

namespace Table

/-- The table of some branches. -/
def pack (bs : List (Branch R)) : Table R where
  header := Field.names
  rows := bs.map Branch.row
  aligned := by simp [Branch.row_eq, Field.names]

/-- The table of some branches in their stored form, refused when one of them has none. -/
def pack? [Arith R] (bs : List (Branch R)) : Except NumericFault (Table R) := (bs.mapM Branch.settled?).map pack

/-- The cell of a row under a name. -/
def cell? (t : Table R) (row : List (Cell R)) (name : String) : Option (Cell R) := (t.header.zip row).lookup name

/-- The names of columns that are asked for by some names: a column without a name gets `f` and its position. -/
def columnNames (names : List String) : List String :=
  names.zipIdx.map fun (name, i) => if name.isEmpty then "f" ++ toString i else name

/-- The first name that stands for a second time after the names `seen`. -/
def repeated? (seen : List String) : List String → Option String
  | [] => none
  | name :: rest => if seen.contains name then some name else repeated? (name :: seen) rest

/-- The columns of the given names in the order given. A name that the table does not have gets a column of zeros, and no
name can be given twice. -/
def select? [Arith R] (t : Table R) (names : List String) : Except Fault (Table R) :=
  let header := columnNames names
  match repeated? [] header with
  | some name => .error (.repeatedField name)
  | none => .ok {
      header
      rows := t.rows.map fun row => header.map fun name => (t.cell? row name).getD (.number 0.0)
      aligned := by simp }

/-- Whether the columns are those of branches, in any order. -/
def holdsBranches (t : Table R) : Bool :=
  Field.names.all (fun name => t.header.contains name) && t.header.all (fun name => Field.names.contains name)

/-- The number of a row in the column of a field. -/
def number (t : Table R) (row : List (Cell R)) (f : Field) : Except Fault R :=
  match t.cell? row f.name with
  | some (.number x) => .ok x
  | _ => .error (.wrongShape f.name)

/-- The three numbers of a row in the column of a field. -/
def triple (t : Table R) (row : List (Cell R)) (f : Field) : Except Fault (R × R × R) :=
  match t.cell? row f.name with
  | some (.triple x y z) => .ok (x, y, z)
  | _ => .error (.wrongShape f.name)

/-- The four numbers of a row in the column of a field. -/
def quadruple (t : Table R) (row : List (Cell R)) (f : Field) : Except Fault (R × R × R × R) :=
  match t.cell? row f.name with
  | some (.quadruple x y z w) => .ok (x, y, z, w)
  | _ => .error (.wrongShape f.name)

/-- The branch of a row. -/
def branch (t : Table R) (row : List (Cell R)) : Except Fault (Branch R) := do
  let (x, y, z) ← t.triple row .start
  let start : Vec3 R := ⟨x, y, z⟩
  let (x, y, z) ← t.triple row .stop
  let stop : Vec3 R := ⟨x, y, z⟩
  let (x, y, z, w) ← t.quadruple row .orientation
  let orientation : Quaternion R := ⟨x, y, z, w⟩
  let length ← t.number row .length
  let radiusStart ← t.number row .radiusStart
  let radiusEnd ← t.number row .radiusEnd
  let (r, g, b) ← t.triple row .colour
  let depth ← t.number row .depth
  return { start, stop, orientation, length, radiusStart, radiusEnd, colour := ⟨r, g, b⟩, depth }

/-- The row of a packed branch gives the branch back. -/
theorem branch_pack (bs : List (Branch R)) (b : Branch R) : (pack bs).branch b.row = .ok b := rfl

end Table

/-- The branches of an array. -/
def Dataset.unpack : Dataset R → Except Fault (List (Branch R))
  | plain => .error (.wrongFields none)
  | table t => if t.holdsBranches then t.rows.mapM t.branch else .error (.wrongFields (some t.header))

end TurtlePlant
