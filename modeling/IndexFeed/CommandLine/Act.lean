import IndexFeed.Batch.Notices

/-!
What a run does, one act after the other. The history of a batch is told in notices, and its feeds
are stored in between, so that everything told before a feed that cannot be stored has been told.
-/

namespace IndexFeed

/-- The directories that have to be there for a path to be one, from the outermost on. The last one
is the path itself as it is written; in front of it, a dot behind a name is no step of its own.
Nothing can be made by the name of a dot, so a path that ends in one has to be there already. -/
def directorySteps (path : String) : List String :=
  let parts := path.splitOn "/"
  let steps := parts.zipIdx.filter fun (part, i) => part != "" && (part != "." || i == 0)
  steps.dropLast.map (fun (_, i) => "/".intercalate (parts.take (i + 1))) ++ [path]

inductive Act where
  | tell (n : Notice)
  /-- Makes a directory, and those above it first, as `directorySteps` has them. -/
  | makeDirectory (path : String)
  | store (path : String) (bytes : List UInt8)
  deriving Repr, DecidableEq

def Act.isDoneFor (verbose : Bool) : Act → Bool
  | tell n => n.isToldTo verbose
  | makeDirectory _ | store _ _ => true

def BatchEvent.acts (o : FeedOptions) (directory : String) (verbose : Bool) :
    BatchEvent → List Act
  | opened id => [.tell (.agreed o.rules.content), .tell (.opened o id)]
  | added t size total =>
    if verbose then (Notice.onDocument o.rules t.toDocument size total).map .tell else []
  | unreadable position fault => [.tell (.skipped position fault.message)]
  | discarded position e => [.tell (.discarded e), .tell (.skipped position e.message)]
  | stored f =>
    .tell (.closed f) :: f.stored.map (fun (name, bytes) => .store (pathIn directory name) bytes)
      ++ [.tell (.stored directory f)]

def BatchReport.acts (r : BatchReport) (o : FeedOptions) (directory : String) (verbose : Bool) :
    List Act :=
  .makeDirectory directory
    :: (r.history.flatMap (BatchEvent.acts o directory verbose)).filter (Act.isDoneFor verbose)

end IndexFeed
