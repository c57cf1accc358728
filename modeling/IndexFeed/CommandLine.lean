import IndexFeed.CommandLine.Act
import IndexFeed.CommandLine.Request
import IndexFeed.Inspection

/-!
The commands. Each one reads at most one file and answers with a text; encoding also stores files in
a directory, which is made first if need be, and tells what happens. A request that fails ends with
code 1, arguments that do not fit with code 2.
-/

namespace IndexFeed.CommandLine

structure Outcome where
  code : Nat := 0
  shown : String := ""
  complaint : String := ""
  /-- What is done before the text is shown. If one of the acts fails, those behind it are not done,
  nothing more is shown, and the code is 1. -/
  acts : List Act := []
  deriving Repr, DecidableEq

def Outcome.failed (message : String) : Outcome :=
  { code := 1, complaint := "Error: " ++ message ++ "\n" }

def Outcome.ofStop : Stop → Outcome
  | .shown text => { shown := text }
  | .misuse =>
    { code := 2
      complaint := "error: unexpected arguments\n\nFor more information, try '--help'.\n" }

def Request.path? : Request → Option String
  | .encode r => some r.input
  | .inspect path _ => some path
  | .version => none

def encode (r : EncodeRequest) (input : Except InputFailure (List UInt8)) (ids : FeedIds) :
    Outcome :=
  match input with
  | .error failure => .failed (BatchFault.unopened r.input failure).message
  | .ok bytes =>
    match BatchDocument.readAll bytes with
    | .error e => .failed e.message
    | .ok batch =>
      match BatchReport.ofBatch r.options ids batch with
      | .error e => { Outcome.failed e.message with acts := [.makeDirectory r.output] }
      | .ok report =>
        { shown :=
            if r.format = "json" then (report.json r.output).pretty ++ "\n"
            else report.text r.output
          acts := report.acts r.options r.output r.verbose }

def inspect (path format : String) (input : Except InputFailure (List UInt8)) : Outcome :=
  match input with
  | .error failure => .failed failure.message
  | .ok bytes =>
    match Utf8.decode? bytes with
    | none => .failed "stream did not contain valid UTF-8"
    | some text =>
      let found := { Inspection.ofText text with path, size := bytes.length }
      { shown := if format = "json" then found.json.pretty ++ "\n" else found.text }

def versionText : String :=
  "docfeed CLI v" ++ versionNumber ++ "\ndocfeed core v" ++ versionNumber ++ "\n"

def Request.run (r : Request) (input : Except InputFailure (List UInt8)) (ids : FeedIds) :
    Outcome :=
  match r with
  | .encode r => CommandLine.encode r input ids
  | .inspect path format => CommandLine.inspect path format input
  | .version => { shown := versionText }

end IndexFeed.CommandLine
