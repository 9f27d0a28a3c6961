import DeltaRing.Checkpoint
import DeltaRing.Error
import DeltaRing.Snapshot.Files

/-!
Keeping the last checkpoint in a file.

A checkpoint is written to a file beside the one that holds the last, which then takes its name,
so a reader finds the old checkpoint or the new one and never a part.
-/

namespace DeltaRing.Snapshot

/-- A name without what follows its last dot; a name that only starts with a dot is kept. -/
def stem (name : String) : String :=
  match (name.splitOn ".").dropLast with
  | [] | [""] => name
  | parts => ".".intercalate parts

/-- Where a checkpoint is written before it takes its place at `path`: beside it, with another end
of the name. A path that leads to no name stands for itself. The old end is cut off first, and where
that leaves `..`, nothing is put on. -/
def draftPath (path : Path) : Path :=
  match path.trimmed.getLast? with
  | none | some ".." => path
  | some name =>
    path.trimmed.dropLast
      ++ [if stem name = "." ∧ path.getLast? = some name then ".." else stem name ++ ".json.tmp"]

def fileFailure (path : Path) (e : FileError) : ClusterError :=
  .snapshot <| path.text ++ match e with
    | .missing => ": nothing there"
    | .isDirectory => ": is a directory"
    | .notDirectory => ": not a directory"
    | .invalidName => ": not a path"
    | .tooLong => ": too long"

/-- The checkpoint at a path; nothing if there is no file. -/
def load (fs : Files) (path : Path) : Except ClusterError (Option Checkpoint) :=
  match fs.read path with
  | .ok content => some <$> Wire.decode content
  | .error .missing => .ok none
  | .error e => .error (fileFailure path e)

/-- Puts a checkpoint to its path. The files are also given back when that fails. -/
def save (fs : Files) (path : Path) (c : Checkpoint) : Files × Except ClusterError Unit :=
  match fs.makeDirectories path.parent with
  | (fs, .error e) => (fs, .error (fileFailure path.parent e))
  | (fs, .ok ()) =>
    match fs.write (draftPath path) (Wire.encode c) with
    | .error e => (fs, .error (fileFailure (draftPath path) e))
    | .ok fs =>
      match fs.rename (draftPath path) path with
      | .error e => (fs, .error (fileFailure path e))
      | .ok fs => (fs, .ok ())

end DeltaRing.Snapshot
