import TurtlePlant.Archive.Table
import TurtlePlant.Task

/-!
# Files of branches

A `Store` is a tree of directories with archives as its files, and an archive holds arrays under names. Branches are
saved as the array `branches` of an archive whose path ends in `.npz`, in directories that are made where they are
missing; they are loaded from the path exactly as given.

- `Store.locate`: the place that a path leads to;
- `Store.makeWay`: the directories that a path names something in, made where they are missing;
- `Store.target`: the path that is written when a path is given;
- `Store.save`, `Store.put`: writing branches, or any archive, over what was there;
- `Store.load`: the branches under a path;
- `get?_set`: what stands at a place is what was put there last.
-/

namespace TurtlePlant

/-- Arrays under names. -/
abbrev Archive (R : Type) := List (String × Dataset R)

/-- The ending of the path of an archive. -/
def archiveEnding : String := ".npz"

/-- The name under which branches are kept in an archive. -/
def branchesName : String := "branches"

/-- What stands at a place. -/
inductive Entry (R : Type) where
  | directory
  | file (a : Archive R)

/-- A tree of directories and files. -/
structure Store (R : Type) where
  /-- What stands where, the entry set last coming first. The root is always a directory and not among them. -/
  entries : List (Place × Entry R) := []
  nodup : (entries.map Prod.fst).Nodup := by simp
  /-- The directory where paths start that do not start at the root. -/
  here : Place := .root

namespace Store

variable {R : Type}

/-- What stands at a place. -/
def get? (s : Store R) (place : Place) : Option (Entry R) :=
  if place = .root then some .directory else s.entries.lookup place

/-- An entry set at a place, over what was there. -/
def set (s : Store R) (place : Place) (e : Entry R) : Store R where
  entries := (place, e) :: s.entries.filter fun entry => entry.1 != place
  nodup := by
    simp only [List.map_cons, List.nodup_cons, List.mem_map, List.mem_filter, bne_iff_ne, not_exists, not_and]
    exact ⟨fun _ h => h.2, s.nodup.sublist (List.filter_sublist.map _)⟩
  here := s.here

/-- A directory made at a place where nothing stands. -/
def makeDirectory (s : Store R) (place : Place) : Store R :=
  match s.get? place with
  | none => s.set place .directory
  | some _ => s

/-- A directory made at the place that some names lead to, the innermost first, and at all places around it. -/
def withDirectory (s : Store R) : List String → Store R
  | [] => s
  | name :: around => (s.withDirectory around).makeDirectory (.ofNames (name :: around))

/-! ## Following paths -/

/-- Where a path starts. -/
def start (s : Store R) (path : String) : Place := if Path.isAbsolute path then .root else s.here

/-- Where one part of a path leads from a place, which has to be a directory. What it leads to need not be there. -/
def step (s : Store R) (place : Place) (part : String) : Except PathFault Place :=
  if part.toList.contains Path.nullCharacter then .error .nullCharacter
  else match s.get? place with
    | none => .error .missing
    | some (.file _) => .error .notDirectory
    | some .directory =>
      if part = "" ∨ part = "." then .ok place
      else if part = ".." then .ok place.outer
      else if Path.maxNameBytes < part.utf8ByteSize then .error .tooLong
      else .ok (place.inner part)

/-- Where parts of a path lead from a place. -/
def follow (s : Store R) (place : Place) : List String → Except PathFault Place
  | [] => .ok place
  | part :: rest => do s.follow (← s.step place part) rest

/-- The place that a path leads to. -/
def locate (s : Store R) (path : String) : Except PathFault Place := do
  Path.check path
  s.follow (s.start path) (Path.parts path)

/-- Whether something stands where a path leads. -/
def stands (s : Store R) (path : String) : Bool :=
  match s.locate path with
  | .error _ => false
  | .ok place => (s.get? place).isSome

/-! ## Making directories -/

/-- How far the making of directories, each in the one before, has come. -/
structure Way (R : Type) where
  store : Store R
  place : Place
  made : Except PathFault Unit

/-- The directory at a place made unless there is one, and no directory at the place that was not found. -/
def Way.arrive (w : Way R) : Except PathFault Place → Way R
  | .error fault => { w with made := .error fault }
  | .ok place =>
    match w.store.get? place with
    | none => ⟨w.store.set place .directory, place, .ok ()⟩
    | some .directory => { w with place, made := .ok () }
    | some (.file _) => { w with place, made := .error .occupied }

/-- The directory of a path made in the one before. That there is a file in the place of that one is found out here, and
a point at the end of the path is for a directory that is there already. -/
def Way.next (w : Way R) (path : String) : Way R :=
  match w.made with
  | .ok () | .error .occupied =>
    if Path.lastPart path = "." then { w with made := .ok () }
    else w.arrive (do
      Path.check path
      w.store.step w.place (Path.lastPart path))
  | .error _ => w

/-- Of directories that are each in the next, the first one and those around it up to the first that stands. -/
def missing (s : Store R) : List String → List String
  | [] => []
  | path :: around => path :: around.takeWhile fun outer => !s.stands outer

/-- Makes the directories that a path names something in, from the outermost one that is missing to the innermost. What
was made before a failure stays. -/
def makeWay (s : Store R) (path : String) : Store R × Except PathFault Unit :=
  match (s.missing (Path.directories path)).reverse with
  | [] => (s, .ok ())
  | outermost :: rest =>
    if Path.maxNesting ≤ rest.length then (s, .error .tooDeep)
    else
      let way := rest.foldl Way.next ((Way.mk s s.here (.ok ())).arrive (s.locate outermost))
      (way.store, way.made)

/-! ## Reading and writing -/

/-- The archive under a path. -/
def read (s : Store R) (path : String) : Except PathFault (Archive R) := do
  match s.get? (← s.locate path) with
  | none => .error .missing
  | some .directory => .error .isDirectory
  | some (.file a) => .ok a

/-- An archive written under a path, over what was there. -/
def write (s : Store R) (path : String) (a : Archive R) : Except PathFault (Store R) := do
  let place ← s.locate path
  match s.get? place with
  | some .directory => .error .isDirectory
  | _ => .ok (s.set place (.file a))

/-- The path that is written when `path` is given: `path` with the ending of archives. -/
def target (path : String) : String :=
  if archiveEnding.toList.isSuffixOf path.toList then path else path ++ archiveEnding

/-- Makes the directory that a path names something in. -/
def prepare (path : String) : Task (Store R) Unit := do
  let s ← Task.get
  let (s, made) := s.makeWay path
  Task.modify fun _ => s
  Task.ofExcept (made.mapError fun fault => .file fault path)

/-- Writes an archive under the target of a path. -/
def put (path : String) (a : Archive R) : Task (Store R) Unit := do
  let s ← Task.get
  let s ← Task.ofExcept ((s.write (target path) a).mapError fun fault => .file fault (target path))
  Task.modify fun _ => s

/-- Saves branches under the target of a path. -/
def save [Arith R] (path : String) (bs : List (Branch R)) : Task (Store R) Unit := do
  prepare path
  let table ← Task.ofExcept ((Table.pack? bs).mapError .numeric)
  put path [(branchesName, .table table)]
  Task.tell [.saved bs.length path]

/-- The branches of an archive, which came from a path. -/
def branches (path : String) (a : Archive R) : Except Fault (List (Branch R)) :=
  match a.lookup branchesName with
  | none => .error (.noBranches path)
  | some d => d.unpack

/-- The branches under a path. -/
def load (s : Store R) (path : String) : Except Fault (List (Branch R)) := do
  branches path (← (s.read path).mapError fun fault => .file fault path)

/-- The files with their places. -/
def files (s : Store R) : List (Place × Archive R) :=
  s.entries.filterMap fun
    | (place, .file a) => some (place, a)
    | (_, .directory) => none

/-- The paths from a directory to all files in it, in alphabetical order. -/
def pathsFrom (s : Store R) (directory : Place) : List String :=
  (s.files.filterMap fun file => Place.textFrom? directory file.1).mergeSort fun a b => decide (a ≤ b)

/-! ## What stands where -/

theorem lookup_filter_ne {β : Type} {p q : Place} (h : q ≠ p) (entries : List (Place × β)) :
    (entries.filter fun entry => entry.1 != p).lookup q = entries.lookup q := by
  induction entries with
  | nil => rfl
  | cons entry rest ih =>
    by_cases hp : entry.1 = p
    · have hq : (q == entry.1) = false := by simp [hp, h]
      rw [List.filter_cons_of_neg (by simp [hp]), ih, List.lookup_cons, hq]
    · rw [List.filter_cons_of_pos (by simp [hp]), List.lookup_cons, List.lookup_cons, ih]

/-- The root is a directory. -/
@[simp] theorem get?_root (s : Store R) : s.get? .root = some .directory := by simp [get?]

/-- A place set has what was set there, every other place what it had. -/
theorem get?_set (s : Store R) {p : Place} (hp : p ≠ .root) (q : Place) (e : Entry R) :
    (s.set p e).get? q = if q = p then some e else s.get? q := by
  by_cases h : q = p
  · simp [set, get?, h, hp]
  · by_cases hq : q = .root
    · simp [get?, hq, Ne.symm hp]
    · simp [set, get?, h, hq, List.lookup_cons, lookup_filter_ne h, show (q == p) = false by simp [h]]

end Store

end TurtlePlant
