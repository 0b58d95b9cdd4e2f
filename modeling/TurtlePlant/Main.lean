import TurtlePlant.Archive.Listing
import TurtlePlant.CommandLine.Session
import TurtlePlant.View.Transcript

/-!
# The command line

Runs a session on the words given: what is told and complained about goes to the error stream, what is printed and the
drawing calls go to the output, and archives are written as text at their places.
-/

namespace TurtlePlant

/-- A generator for every build without a seed, from sixteen random bytes. -/
def freshGreenhouse : IO (Greenhouse Float) := do
  let bytes ← IO.getRandomBytes 16
  let start := bytes.toList.foldl (fun n b => 256 * n + b.toNat) 0
  return ⟨fun n => .ofSeed (start + n), Number.toFloat⟩

/-- Milliseconds as seconds with three places. -/
def secondsText (milliseconds : Nat) : String :=
  let places := toString (milliseconds % 1000)
  toString (milliseconds / 1000) ++ "." ++ String.ofList (zeros (3 - places.length)) ++ places

/-- A machine number as it is shown. -/
def floatText (x : Float) : String := (Number.float x).text

/-- An archive written as text at a place. -/
def writeArchive (place : Place) (a : Archive Float) : IO Unit := do
  IO.FS.createDirAll (Place.path place.outer)
  IO.FS.writeFile (Place.path place) (Archive.text a floatText)

/-- No files, in the directory that the program is run in. -/
def currentStore : IO (Store Float) := do
  let here := ((Path.parts (← IO.currentDir).toString).filter fun part => !part.isEmpty).reverse
  return { ({} : Store Float).withDirectory here with here := .ofNames here }

end TurtlePlant

open TurtlePlant in
/-- Does what a command line asks for. -/
def main (words : List String) : IO UInt32 := do
  let house ← freshGreenhouse
  let start ← IO.monoMsNow
  let s := Session.ofWords words house (← currentStore)
  let elapsed := secondsText ((← IO.monoMsNow) - start)
  for e in s.events do IO.eprintln (e.line elapsed)
  for (place, a) in s.desk.store.files do writeArchive place a
  IO.print s.output
  for c in s.desk.calls do IO.println (c.line floatText)
  if let some complaint := s.complaint then IO.eprintln ("error: " ++ complaint)
  if let some fault := s.breakdown then IO.eprintln fault.message
  return s.exitCode.toUInt32
