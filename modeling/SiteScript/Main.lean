import SiteScript.CommandLine.Run
import SiteScript.Text.Hex

/-!
# The program

Reads the files that the command line names, runs it, and prints or writes the
result.  Recovered steps get identifiers that begin with random digits and end with
the place of the step, so they differ within a plan and from those of other plans.
-/

namespace SiteScript.Program

open CommandLine

/-- A number in base sixteen, filled up with leading zeros to a length. -/
def padded (length n : Nat) : String :=
  let digits := Text.Hex.digits n
  .ofList (List.replicate (length - digits.length) '0' ++ digits)

/-- The identifiers of steps that begin with the given random numbers. -/
def stepId (first second third fourth : Nat) (place : Nat) : String :=
  "-".intercalate [padded 8 first, padded 4 second, "4" ++ padded 3 third,
    "8" ++ padded 3 fourth, padded 12 place]

/-- A fresh supply of identifiers. -/
def freshIds : IO Recovery.Ids := do
  return stepId (← IO.rand 0 0xFFFFFFFF) (← IO.rand 0 0xFFFF) (← IO.rand 0 0xFFF)
    (← IO.rand 0 0xFFF)

/-- The text of the file at a path, if there is one that can be read. -/
def readFile? (path : String) : IO (Option ByteArray) := do
  try return some (← IO.FS.readBinFile path)
  catch _ => return none

/-- The given paths as names of the files that are there. -/
def readFiles (paths : List String) : IO (List (String × List UInt8)) := do
  let mut files := []
  for path in paths do
    if let some bytes ← readFile? path then
      files := (path, bytes.toList) :: files
  return files

/-- Writes a text to a file, and says whether that was possible. -/
def writeFile (path text : String) : IO Bool := do
  try
    IO.FS.writeFile path text
    return true
  catch _ => return false

/-- Reports a failure. -/
def fail (failure : Failure) : IO UInt32 := do
  IO.eprintln ("Error: " ++ failure.message)
  return 1

/-- What is said about arguments that cannot be read. -/
def usage : String :=
  "Usage: compile|share|decompile --file <FILE> [OPTIONS]"

/-- Runs the program. -/
def run (arguments : List String) : IO UInt32 := do
  match parse? arguments with
  | none =>
    IO.eprintln usage
    return 2
  | some invocation =>
    let files ← readFiles invocation.inputs
    match invocation.run (← freshIds) files with
    | .error failure => fail failure
    | .ok (.print text) =>
      IO.println text
      return 0
    | .ok (.write path text) =>
      if ← writeFile path text then return 0 else fail (.unwritable path)

end SiteScript.Program

def main (arguments : List String) : IO UInt32 :=
  SiteScript.Program.run arguments
