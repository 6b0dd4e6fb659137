import Sapling.Command.Program
/-!
The program on a real command line and a real disk.
-/
open Sapling.Command

instance : FileStore IO where
  read? path := do
    try return some (← IO.FS.readFile (String.ofList path))
    catch _ => return none
  write path text := do
    try
      IO.FS.writeFile (String.ofList path) text
      return true
    catch _ => return false

/-- A seed from the randomness of the machine. -/
def randomSeed : IO UInt64 := do
  let bytes ← IO.getRandomBytes 8
  return bytes.toList.foldl (fun seed byte => seed * 256 + byte.toUInt64) 0

/-- The program with the words, the files and the output of the system. -/
def main (args : List String) : IO UInt32 := do
  let ending ← program (args.map String.toList) (← randomSeed)
  IO.print ending.printed
  if let some complaint := ending.complaint? then IO.eprintln complaint
  return ending.code
