import MacroDoc.Command.Perform

/-!
# The command line

Answers what commands ask from the files of the system, and writes what they have to say.
-/

namespace MacroDoc.Command

/-- Why the system could not read a file. -/
def readErrorOf : IO.Error → ReadError
  | .noFileOrDirectory _ _ _ => .notFound
  | .invalidArgument _ 36 _ => .nameTooLong
  | e => .other e.toString

def readSystem (location : String) : IO (Except ReadError String) := do
  if let some e := locationError? location then return .error e
  let path := (← IO.currentDir) / location
  if ← path.isDir then return .error .isFolder
  try
    let bytes ← IO.FS.readBinFile path
    return match String.fromUTF8? bytes with
      | some text => .ok text
      | none => .error .notText
  catch e => return .error (readErrorOf e)

partial def lookSystem (location : String) : IO (Option (Tree Unit)) := do
  let path := (← IO.currentDir) / location
  if (locationError? location).isSome || !(← path.pathExists) then return none
  if !(← path.isDir) then return some (.file ())
  let mut entries := #[]
  for entry in ← path.readDir do
    if let some tree ← lookSystem entry.path.toString then entries := entries.push (entry.fileName, tree)
  return some (.folder entries.toList)

/-- The files of the system. -/
def systemStorage : Storage IO := ⟨readSystem, lookSystem⟩

end MacroDoc.Command

open MacroDoc.Command in
/-- Do what the arguments ask, and end with the status of that. -/
def main (arguments : List String) : IO UInt32 := do
  let outcome ← runProgram systemStorage arguments
  IO.print outcome.output
  IO.eprint outcome.messages
  return outcome.status.toUInt32
