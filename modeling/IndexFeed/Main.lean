import IndexFeed.CommandLine
import Std.Time.DateTime.Timestamp

/-!
The program: it reads the file that its arguments name, and prints and stores what the request comes
to.
-/

namespace IndexFeed.CommandLine

def randomSeed : IO Nat := do
  let bytes ← IO.getRandomBytes 16
  return bytes.data.foldl (fun n b => n * 256 + b.toNat) 0

def readFile (path : String) : IO (Except InputFailure (List UInt8)) := do
  try
    return .ok (← IO.FS.readBinFile path).data.toList
  catch e =>
    return .error ⟨toString e⟩

def stamp : IO String := do
  let now ← Std.Time.Timestamp.now
  let seconds := now.toSecondsSinceUnixEpoch.val
  return (Calendar.Timestamp.mk seconds 0).text

/-- Makes one directory. If that fails there has to be one already. -/
def makeOne (path : String) : IO Unit := do
  try
    IO.FS.createDir path
  catch _ =>
    discard (IO.FS.realPath (path ++ "/."))

def perform : Act → IO Unit
  | .tell n => do IO.print (n.line (← stamp))
  | .makeDirectory path => (directorySteps path).forM makeOne
  | .store path bytes => IO.FS.writeBinFile path ⟨bytes.toArray⟩

def finish (o : Outcome) : IO UInt32 := do
  try
    o.acts.forM perform
    IO.print o.shown
    IO.eprint o.complaint
    return UInt32.ofNat o.code
  catch e =>
    IO.eprintln ("Error: " ++ toString e)
    return 1

def carryOut (args : List String) : IO UInt32 := do
  match Request.read args with
  | .error stop => finish (.ofStop stop)
  | .ok request =>
    let input ← match request.path? with
      | some path => readFile path
      | none => pure (.ok [])
    finish (request.run input (.random (← randomSeed)))

end IndexFeed.CommandLine

def main (args : List String) : IO UInt32 :=
  IndexFeed.CommandLine.carryOut args
