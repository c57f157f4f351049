import CommandLog.Files.Replacement
import CommandLog.Hosting

/-!
The programs. The server serves the one client that is at its standard streams and reports its events
on standard error. Under the name of the writing command the same program writes a file.
-/

namespace CommandLog.Program

open CommandLog.CommandLine

def toBytes (text : String) : Bytes := Text.Utf8.encode text.toList

def answerUsage (error : UsageError) : IO UInt32 := do
  if error.isRequest then
    IO.print error.message
    return 0
  else
    IO.eprintln error.message
    return 2

def valueText : Value → String
  | .number value => value.repr
  | .text value => value
  | .flag value => if value then "true" else "false"

def eventLine (event : Event) : String :=
  let session := event.session?.toList.map fun identity => " session=" ++ identity.id.repr
  let fields := event.fields.map fun (name, value) => " " ++ name ++ "=" ++ valueText value
  event.level.name ++ " " ++ event.message ++ String.join (session ++ fields)

def readChunk (input : IO.FS.Stream) : (limit : Nat) → IO Bytes
  | 0 => return []
  | limit + 1 => do
      match (← input.read 1).toList with
      | [] => return []
      | byte :: _ =>
          if byte = lineFeed then return [byte]
          else return byte :: (← readChunk input limit)

def clientName : String := "standard streams"

def outputOf (hosting : Hosting) : Bytes :=
  match Table.find? clientName hosting.clients with
  | none => []
  | some key => ((hosting.server.world.worker? key).map (·.stream.output)).getD []

def present (before after : Hosting) : IO Unit := do
  for event in after.server.world.journal.drop before.server.world.journal.length do
    IO.eprintln (eventLine event)
  let output ← IO.getStdout
  output.write ⟨((outputOf after).drop (outputOf before).length).toArray⟩
  output.flush

def advance (before : Hosting) (next : Except ClientFault Hosting) : IO Hosting := do
  match next with
  | .error _ => return before
  | .ok after =>
      present before after
      return after

partial def serveClient (hosting : Hosting) : IO Hosting := do
  let chunk ← readChunk (← IO.getStdin) hosting.server.world.registry.readBuffer
  if chunk.isEmpty then advance hosting (hosting.closeWrite clientName)
  else serveClient (← advance hosting (hosting.send clientName chunk))

def serve (settings : Settings) : IO UInt32 := do
  match Server.ofSettings settings with
  | .error error =>
      IO.eprintln error.message
      return 1
  | .ok server =>
      let start : Hosting := { server, network := .connected, sweeps := true, listens := false }
      let (hosting, _) := start.connect clientName
      present start hosting
      let hosting ← serveClient hosting
      let (stopped, _) := hosting.trigger .handle
      present hosting stopped
      if stopped.server.status == .failed then
        IO.eprintln Clock.overflow
        return 101
      return 0

def runServer (arguments : List Bytes) : IO UInt32 :=
  match Options.parse arguments with
  | .error error => answerUsage error
  | .ok options => serve options.settings

def complaint (error : IO.Error) : String :=
  match error with
  | .noFileOrDirectory .. => Files.FileError.notFound.message
  | .inappropriateType _ 20 _ => Files.FileError.notDirectory.message
  | .inappropriateType _ 21 _ => Files.FileError.isDirectory.message
  | .invalidArgument _ 36 _ => Files.FileError.nameTooLong.message
  | .resourceExhausted _ 28 _ => Files.FileError.noSpace.message
  | _ => toString error

def writeAll (file : IO.FS.Handle) (bytes : Bytes) : IO Unit := do
  file.write ⟨bytes.toArray⟩
  file.flush

def replaceFile (replacement : Files.Replacement) : IO UInt32 := do
  let fail := fun (path : Option Bytes) (error : IO.Error) => do
    IO.eprint (Files.Replacement.complaintOf path (complaint error))
    return 1
  match ← (IO.FS.Handle.mk (Files.Replacement.printed replacement.path) .write).toBaseIO with
  | .error error => fail (some replacement.path) error
  | .ok file =>
      match ← (writeAll file replacement.text).toBaseIO with
      | .error error => fail none error
      | .ok () => return 0

def runWriter (arguments : List Bytes) : IO UInt32 :=
  match Files.Replacement.parse arguments with
  | .error error => answerUsage error
  | .ok replacement => replaceFile replacement

end CommandLog.Program

def main (arguments : List String) : IO UInt32 := do
  let arguments := arguments.map CommandLog.Program.toBytes
  let name := (← IO.appPath).fileName
  if name = some "writer" then CommandLog.Program.runWriter arguments
  else CommandLog.Program.runServer arguments
