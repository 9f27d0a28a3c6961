import DeltaRing.Wire

/-!
Files and directories, found by their paths.

A path is walked from the root, step by step, and a step can only be taken in a directory. An empty
step and `.` stay where they are, `..` goes up, and any other step is a name. A place is known by
the names that lead straight to it, so however a place is reached, it is the same place.
-/

namespace DeltaRing.Snapshot

/-- What stands between the slashes of a path. -/
abbrev Path := List String

namespace Path

def ofText (s : String) : Path := s.splitOn "/"

def text (p : Path) : String := "/".intercalate p

/-- The step stays where it is. -/
def stays (step : String) : Bool := step = "" || step = "."

/-- The path up to its last move. -/
def trimmed (p : Path) : Path := (p.reverse.dropWhile stays).reverse

/-- The directory that the end of a path lies in. -/
def parent (p : Path) : Path := trimmed p.trimmed.dropLast

end Path

/-- Files and directories by the names that lead to them, with slashes between. -/
structure Files where
  contents : SortedMap String Payload
  directories : SortedSet String
deriving DecidableEq

/-- Why a file operation failed. -/
inductive FileError where
  /-- There is nothing at the path. -/
  | missing
  /-- A directory stands where a file is wanted. -/
  | isDirectory
  /-- A file stands where a directory is wanted. -/
  | notDirectory
  /-- The path holds a character that no name may hold. -/
  | invalidName
  /-- The path, or a name in it, is longer than is allowed. -/
  | tooLong
deriving DecidableEq

namespace Files

def empty : Files := ⟨.empty, .empty⟩

/-- How many bytes a name may have. -/
def maxName : Nat := 255

/-- How many bytes a path may have. -/
def maxPath : Nat := 4095

variable (fs : Files)

def isFile (place : Path) : Bool := fs.contents.contains place.text

def isDirectory (place : Path) : Bool := place.isEmpty || fs.directories.contains place.text

/-! ### Walking -/

/-- Where a step from a place leads. -/
def step (place : Path) (s : String) : Except FileError Path :=
  if fs.isFile place then .error .notDirectory
  else if !fs.isDirectory place then .error .missing
  else if Path.stays s then .ok place
  else if s = ".." then .ok place.dropLast
  else if maxName < s.utf8ByteSize then .error .tooLong
  else .ok (place ++ [s])

/-- What is wrong with a path wherever it leads. -/
def fault? (p : Path) : Option FileError :=
  if p.any fun s => s.contains '\x00' then some .invalidName
  else if maxPath < p.text.utf8ByteSize then some .tooLong
  else none

/-- The place that a path leads to. There need not be anything at it. -/
def find (p : Path) : Except FileError Path :=
  match fault? p with
  | some e => .error e
  | none => if p.text = "" then .error .missing else p.foldlM fs.step []

/-! ### Operations -/

def read (p : Path) : Except FileError Payload := do
  let place ← fs.find p
  match fs.contents.get? place.text with
  | some content => return content
  | none => throw (if fs.isDirectory place then .isDirectory else .missing)

/-- Makes the directories on a walk from a place, up to the first that cannot be made. -/
def makeOnWay (fs : Files) (place : Path) : Path → Files × Except FileError Unit
  | [] => (fs, .ok ())
  | s :: rest =>
    match fs.step place s with
    | .error e => (fs, .error e)
    | .ok next =>
      if fs.isFile next then (fs, .error .notDirectory)
      else if fs.isDirectory next then fs.makeOnWay next rest
      else makeOnWay { fs with directories := fs.directories.insert next.text } next rest

/-- Makes a directory and those on the way to it. The files are also given back when that fails,
because some may have been made. -/
def makeDirectories (p : Path) : Files × Except FileError Unit :=
  match fault? p with
  | some e => (fs, .error e)
  | none => fs.makeOnWay [] p

/-- Writes a file, over the one that is there. -/
def write (p : Path) (content : Payload) : Except FileError Files := do
  let place ← fs.find p
  if fs.isDirectory place then throw .isDirectory
  return { fs with contents := fs.contents.insert place.text content }

/-- Moves a file to another path, over the file that is there. -/
def rename (source target : Path) : Except FileError Files := do
  let content ← fs.read source
  let start ← fs.find source
  let goal ← fs.find target
  let fs ← fs.write target content
  return if goal = start then fs else { fs with contents := fs.contents.erase start.text }

/-- The paths of all files below a place, from there and in order. -/
def below (place : Path) : List String :=
  ((fs.contents.keys.map Path.ofText).filter place.isPrefixOf).map fun p =>
    Path.text (p.drop place.length)

end Files

end DeltaRing.Snapshot
