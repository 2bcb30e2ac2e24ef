import Mips32.Outcome

/-! The program itself: it reads files and input, writes the transcripts of the library, and
exits. -/
namespace Mips32.Main

def readFile (path : String) : IO FileContents := do
  try return .ok (← IO.FS.readBinFile path)
  catch
    | .noFileOrDirectory .. => return .error .missing
    | .inappropriateType _ 21 _ => return .error .directory
    | e => return .error (.other (toString e))

def write (out err : String) : IO Unit := do
  (← IO.getStderr).putStr err
  let stdout ← IO.getStdout
  stdout.putStr out
  stdout.flush

def finish (o : Outcome) : IO UInt32 := do
  write o.output o.diagnostics
  return o.exitCode.toUInt32

/-- The bytes up to the next line feed, or to the end of the input. -/
partial def readLine (input : IO.FS.Stream) (line : Array UInt8) : IO (List UInt8) := do
  let bytes ← input.read 1
  if bytes.isEmpty then return line.toList
  let line := line ++ bytes.data
  if bytes.data.contains Session.lineFeed then return line.toList else readLine input line

/-- Answers one line after the other. Whether the input was text. -/
partial def converse (c : Config) (input : IO.FS.Stream) : IO Bool := do
  write (Session.prompt c) ""
  let line ← readLine input #[]
  if line.isEmpty then return true
  let (reply, more) := Session.respond c (.ofLine line)
  write reply.output (logText c.logLimit reply.events)
  if more then converse c input else return reply.succeeded

def decodeWords (i : Invocation) (c : Config) : IO UInt32 := do
  if i.words.isEmpty then
    write (Session.banner c) ""
    return if ← converse c (← IO.getStdin) then 0 else 1
  else finish (.answered c.logLimit (.batch c.report i.words))

end Mips32.Main

open Mips32 in
def main (arguments : List String) : IO UInt32 := do
  match Command.ofArguments arguments with
  | .error e => Main.finish (.misused e)
  | .ok (.help long) => Main.finish (.help long)
  | .ok .version => Main.finish .version
  | .ok (.decode i) =>
    let contents ← match i.configPath with
      | some path => Main.readFile path
      | none => pure (.error .missing)
    match i.config fun _ => contents with
    | .error e => Main.finish (.misconfigured e)
    | .ok c => Main.decodeWords i c
