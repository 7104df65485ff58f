import RingRouting.CommandLine.Program

/-!
# The executable

Reads the file that the arguments name, draws what is left to chance, and prints.
-/

namespace RingRouting.CommandLine

/-- The text of a file, if it can be read. -/
def readText? (path : String) : IO (Option String) := do
  try
    return some (← IO.FS.readFile path)
  catch _ =>
    return none

/-- The file that the arguments name, and its text. -/
def namedFile? (arguments : List String) : IO (Option (String × String)) := do
  match parse arguments with
  | .ok ⟨_, .route path ..⟩ => return (← readText? path).map (path, ·)
  | _ => return none

/-- A random number of 61 bits. -/
def randomBits : IO Nat :=
  IO.rand 0 0x1fffffffffffffff

/-- A random identity. -/
def randomId : IO String := do
  let low ← randomBits
  let high ← randomBits
  return Text.hexPadded 16 high ++ Text.hexPadded 16 low

/-- Run the program in the real world. -/
def execute (arguments : List String) : IO UInt32 := do
  let file ← namedFile? arguments
  let base ← randomId
  let seed ← randomBits
  let surroundings := {
    fileText := fun path => file.toList.lookup path
    freshId := fun i => s!"{base}-{i}"
    chance := fun i => ⟨s!"{seed}/{i}".toUTF8, seed + i⟩ }
  let exit := run surroundings arguments
  IO.print exit.stdout
  IO.eprint exit.stderr
  return exit.code.toUInt32

end RingRouting.CommandLine

/-- The entry point. -/
def main (arguments : List String) : IO UInt32 :=
  RingRouting.CommandLine.execute arguments
