import CommandLog.CommandLine.Matching
import CommandLog.Files.Tree

/-!
The command that replaces the content of one file, or creates it. It ends with code 0 when the file
has its new content, with 1 when it could not be written, and with 2 when its arguments say neither
which file nor which text. Only an end with 0 leaves the tree changed, and only in that one place.
-/

namespace CommandLog.Files

open CommandLog.CommandLine

structure Replacement where
  path : Bytes
  text : Bytes
deriving DecidableEq, Repr

structure Outcome where
  code : Nat
  output : String
  complaint : String
  tree : Tree
deriving DecidableEq, Repr

namespace Replacement

def readPath (raw : Bytes) : Except ValueFault Bytes :=
  if raw = [] then .error .missing else .ok raw

def readText (raw : Bytes) : Except ValueFault Bytes :=
  match Text.Utf8.decode? raw with
  | some _ => .ok raw
  | none => .error .notUtf8

def grammar : Grammar Replacement where
  about := "Writes a string to a file, creating the file or replacing its contents"
  usage := "writer <WRITEFILE> <WRITESTR>"
  version := "file-writer 0.1.0\n"
  flags := []
  stacksHelp := false
  positionals := [
    ⟨"<WRITEFILE>", "Path of the file to write",
      fun raw => (readPath raw).map fun path replacement => { replacement with path }⟩,
    ⟨"<WRITESTR>", "Text written to the file as-is",
      fun raw => (readText raw).map fun text replacement => { replacement with text }⟩]

def parse (arguments : List Bytes) : Except UsageError Replacement :=
  grammar.parse ⟨[], []⟩ arguments

def printed (bytes : Bytes) : String := String.ofList (Text.Utf8.lossy bytes)

def complaintOf (path : Option Bytes) (reason : String) : String :=
  match path with
  | some path => "Error: failed to open " ++ printed path ++ "\n\nCaused by:\n    " ++ reason ++ "\n"
  | none => "Error: " ++ reason ++ "\n"

def write (tree : Tree) (place : Place) (text : Bytes) : Outcome :=
  match tree.find? place with
  | some (.device .full) =>
      if text = [] then ⟨0, "", "", tree⟩
      else ⟨1, "", complaintOf none FileError.noSpace.message, tree⟩
  | some (.device .null) => ⟨0, "", "", tree⟩
  | some (.device .standardOutput) => ⟨0, printed text, "", tree⟩
  | some (.device .standardError) => ⟨0, "", printed text, tree⟩
  | _ => ⟨0, "", "", tree.put place (.file text)⟩

def perform (replacement : Replacement) (tree : Tree) (here : Place) : Outcome :=
  match tree.openForWriting here replacement.path with
  | .error error => ⟨1, "", complaintOf (some replacement.path) error.message, tree⟩
  | .ok place => write tree place replacement.text

def run (tree : Tree) (here : Place) (arguments : List Bytes) : Outcome :=
  match parse arguments with
  | .ok replacement => replacement.perform tree here
  | .error error =>
      if error.isRequest then ⟨0, error.message, "", tree⟩
      else ⟨2, "", error.message ++ "\n", tree⟩

end Replacement

end CommandLog.Files
