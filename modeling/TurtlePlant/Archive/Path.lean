/-!
# Paths

A path is a text of parts with slashes between them. A part is the name of what stands in a directory, or nothing or a
point for the directory itself, or two points for the directory around it. Where the parts lead depends on which
directories there are, so a path is followed part by part in a `Store`; here is what can be said of the text alone.

- `Path.parts`: the parts of a path, in order;
- `Path.directories`: the paths of the directories that a path names something in;
- `Place`: where a path leads to.
-/

namespace TurtlePlant

/-- A place in the tree of directories. Places are told apart by their depths first. -/
structure Place where
  depth : Nat
  /-- The names that lead to it, the innermost first. -/
  names : List String
  length_names : names.length = depth
  deriving DecidableEq

/-- Why a path cannot be used. -/
inductive PathFault where
  | nullCharacter
  | missing
  /-- Something that is no directory stands where the path goes on. -/
  | notDirectory
  | isDirectory
  /-- Something that is no directory stands where a directory has to be. -/
  | occupied
  | tooLong
  /-- Too many directories are missing one around the other. -/
  | tooDeep
  deriving DecidableEq, Repr

namespace Path

/-- The null character, which no path may hold. -/
def nullCharacter : Char := '\x00'

/-- A name may have this many bytes. -/
def maxNameBytes : Nat := 255

/-- A path has fewer bytes than this. -/
def maxBytes : Nat := 4096

/-- At most this many directories are made one in the other at a time. -/
def maxNesting : Nat := 990

/-- The parts of a text between its slashes. -/
def split : List Char → List (List Char)
  | [] => [[]]
  | c :: rest =>
    if c = '/' then [] :: split rest
    else match split rest with
      | [] => [[c]]
      | part :: parts => (c :: part) :: parts

/-- The parts of a path, in order. -/
def parts (path : String) : List String := (split path.toList).map String.ofList

/-- Whether a path starts at the root. -/
def isAbsolute (path : String) : Bool := path.toList.head? = some '/'

/-- The paths that end in one of the given parts, the last part coming first, and go through all parts before it. -/
def endingIn : List String → List String
  | [] => []
  | part :: before =>
    if part.isEmpty then endingIn before else "/".intercalate (part :: before).reverse :: endingIn before

/-- The paths of the directories that a path names something in, each one in the next: what is before the last slash
with a part in front of it, and so on. -/
def directories (path : String) : List String := endingIn (parts path).dropLast.reverse

/-- The last part of a path. -/
def lastPart (path : String) : String := (parts path).getLast?.getD ""

/-- What is wrong with the text of a path, wherever it leads. -/
def check (path : String) : Except PathFault Unit :=
  if path.toList.contains nullCharacter then .error .nullCharacter
  else if path.isEmpty then .error .missing
  else if maxBytes ≤ path.utf8ByteSize then .error .tooLong
  else .ok ()

/-- There is at least one part. -/
theorem split_ne_nil (s : List Char) : split s ≠ [] := by
  cases s with
  | nil => simp [split]
  | cons c rest =>
    by_cases h : c = '/'
    · simp [split, h]
    · cases hs : split rest <;> simp [split, h, hs]

/-- The parts with slashes between them are the text. -/
theorem intercalate_split (s : List Char) : ['/'].intercalate (split s) = s := by
  induction s with
  | nil => rfl
  | cons c rest ih =>
    rw [split]
    cases hs : split rest with
    | nil => exact absurd hs (split_ne_nil rest)
    | cons part parts =>
      rw [hs] at ih
      by_cases h : c = '/'
      · rw [if_pos h, h, ← ih]
        rfl
      · rw [if_neg h, ← ih]
        cases parts <;> rfl

/-- A text without slashes is one part. -/
theorem split_eq_singleton {s : List Char} (h : '/' ∉ s) : split s = [s] := by
  induction s with
  | nil => rfl
  | cons c rest ih =>
    simp only [List.mem_cons, not_or] at h
    simp [split, Ne.symm h.1, ih h.2]

end Path

namespace Place

/-- The place that some names lead to, the innermost first. -/
def ofNames (names : List String) : Place := ⟨names.length, names, rfl⟩

/-- The place around all others. -/
def root : Place := ofNames []

/-- The place of a name in the directory at a place. -/
def inner (place : Place) (name : String) : Place :=
  ⟨place.depth + 1, name :: place.names, by simp [place.length_names]⟩

/-- The directory around a place; the root is around itself. -/
def outer (place : Place) : Place := ⟨place.depth - 1, place.names.tail, by simp [place.length_names]⟩

/-- The names from a directory to a place in it, with slashes between them; `none` for a place elsewhere. -/
def textFrom? (directory place : Place) : Option String :=
  if directory.names.isSuffixOf place.names then
    some ("/".intercalate (place.names.take (place.depth - directory.depth)).reverse)
  else none

/-- The path of a place from the root. -/
def path (place : Place) : String := "/" ++ "/".intercalate place.names.reverse

end Place

end TurtlePlant
