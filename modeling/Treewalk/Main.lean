import Treewalk.CommandLine

/-! # The program

Collects what a command needs, its file and the standard input, and carries out its answer. Nothing
is decided here. -/

namespace Treewalk.Command

/-- Bound on the nesting of a run, out of reach for every run that fits into memory. -/
def unreachableFuel : Nat := 1000000000000000

/-- The bytes of a file, if it can be read. -/
def readFile? (name : String) : IO (Option (List UInt8)) := do
  try
    let bytes ← IO.FS.readBinFile name
    return some bytes.toList
  catch _ => return none

/-- The bytes of a stream behind those that have been read. -/
partial def readAll (stream : IO.FS.Stream) (read : ByteArray) : IO ByteArray := do
  let chunk ← stream.read 65536
  if chunk.isEmpty then return read else readAll stream (read ++ chunk)

/-- Carries out a command and gives its exit code. -/
def perform (command : Command) : IO UInt32 := do
  let contents ← match command.file? with
    | some name => readFile? name
    | none => pure none
  let input ← if command.readsInput then readAll (← IO.getStdin) .empty else pure .empty
  let answer := command.answer unreachableFuel contents input.toList
  IO.print answer.output
  return answer.exit.toUInt32

end Treewalk.Command

/-- Carries out the command that the arguments ask for. -/
def main (args : List String) : IO UInt32 :=
  match Treewalk.Command.ofArgs? args with
  | some command => command.perform
  | none => return Treewalk.Answer.usage.exit.toUInt32
