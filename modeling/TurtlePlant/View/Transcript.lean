import TurtlePlant.View.Display

/-!
# Drawing calls as text

A transcript has one line for each drawing call: its name, and in parentheses its arguments, those by name with their
names in front. Of a mesh it shows the number of points.
-/

namespace TurtlePlant

variable {R : Type}

/-- The text of an argument, with numbers written by `write`. -/
def Arg.display (write : R → String) : Arg R → String
  | flag b => if b then "yes" else "no"
  | text s => Text.quote s
  | number x => write x
  | list xs => "[" ++ ", ".intercalate (xs.map fun x => x.display write) ++ "]"
  | mesh m => "mesh of " ++ toString m.skeleton.points.length ++ " points"

/-- The line of a drawing call. -/
def Call.line (c : Call R) (write : R → String) : String :=
  let named := c.named.map fun (name, x) => name ++ "=" ++ x.display write
  c.name ++ "(" ++ ", ".intercalate (c.args.map (Arg.display write) ++ named) ++ ")"

end TurtlePlant
