/-!
# Files

A disk is a tree of directories and files with a working directory. Paths are walked component by
component, and each operation fails for the first reason it meets on the way.
-/

namespace Widgetry

namespace Disk

/-- Why an operation fails. -/
inductive Fault where
  | notFound
  | occupied
  | notDirectory
  | isDirectory
  | nameTooLong
  | notText
  | nulByte
  | forbidden
  deriving DecidableEq, Repr

def Fault.message : Fault → String
  | .notFound => "No such file or directory (os error 2)"
  | .occupied => "File exists (os error 17)"
  | .notDirectory => "Not a directory (os error 20)"
  | .isDirectory => "Is a directory (os error 21)"
  | .nameTooLong => "File name too long (os error 36)"
  | .notText => "stream did not contain valid UTF-8"
  | .nulByte => "file name contained an unexpected NUL byte"
  | .forbidden => "Permission denied (os error 13)"

inductive Entry where
  | directory
  | file (contents : ByteArray)

/-- The names from the root to an entry. -/
abbrev Location : Type := List String

end Disk

/-- The entries below the root, each at its location, and the working directory. -/
structure Disk where
  entries : List (Disk.Location × Disk.Entry)
  working : Disk.Location

namespace Disk

/-- A disk with nothing but a working directory. -/
def empty (working : Location) : Disk where
  entries := (List.range working.length).map fun i => (working.take (i + 1), .directory)
  working

/-- What is at a location; the root is a directory. -/
def at? (d : Disk) (l : Location) : Option Entry :=
  if l.isEmpty then some .directory else (d.entries.find? (·.1 = l)).map (·.2)

/-- Puts an entry at a location, in place of what was there. -/
def put (d : Disk) (l : Location) (e : Entry) : Disk :=
  { d with entries := d.entries.filter (·.1 ≠ l) ++ [(l, e)] }

/-- The pieces of a path between its slashes. -/
def pieces (path : String) : List String := (path.toList.splitOn '/').map String.ofList

/-- Whether a path starts at the root. -/
def isAbsolute (path : String) : Bool := path.toList.head? = some '/'

/-- The pieces of a path that name something. -/
def names (path : String) : List String := (pieces path).filter fun n => n ≠ "" && n ≠ "."

/-- Where the walk of a path starts. -/
def start (d : Disk) (path : String) : Location := if isAbsolute path then [] else d.working

/-- One step of a walk, from a directory. -/
def step (d : Disk) (l : Location) (name : String) : Except Fault Location :=
  match d.at? l with
  | some .directory =>
    if name = ".." then .ok l.dropLast
    else if 255 < name.utf8ByteSize then .error .nameTooLong
    else
      match d.at? (l ++ [name]) with
      | some _ => .ok (l ++ [name])
      | none => .error .notFound
  | _ => .error .notDirectory

/-- Walks along names. -/
def walk (d : Disk) (l : Location) : List String → Except Fault Location
  | [] => .ok l
  | name :: rest => do walk d (← d.step l name) rest

/-- Whether a path asks for a directory by its last piece. -/
def endsInDirectory (path : String) : Bool :=
  match (pieces path).getLast? with
  | some last => last = "" || last = "." || last = ".."
  | none => false

/-- Refuses paths that cannot be walked at all. -/
def check (path : String) : Except Fault Unit :=
  if path.toList.contains '\x00' then .error .nulByte
  else if path = "" then .error .notFound
  else if 4096 ≤ path.utf8ByteSize then .error .nameTooLong
  else .ok ()

/-- The location of what a path names. -/
def resolve (d : Disk) (path : String) : Except Fault Location := do
  check path
  let l ← d.walk (d.start path) (names path)
  match d.at? l with
  | some (.file _) => if endsInDirectory path then .error .notDirectory else .ok l
  | _ => .ok l

/-- Whether a path names something. -/
def has (d : Disk) (path : String) : Bool := (d.resolve path).isOk

/-- The text of a file. -/
def readText (d : Disk) (path : String) : Except Fault String := do
  match d.at? (← d.resolve path) with
  | some (.file contents) =>
    match String.fromUTF8? contents with
    | some text => .ok text
    | none => .error .notText
  | some .directory => .error .isDirectory
  | none => .error .notFound

/-- Makes a directory at the end of a walk, whose last name comes first. -/
def makeDirectory (d : Disk) (l : Location) : List String → Except Fault Disk
  | [] => .error .occupied
  | name :: parents => do
    let parent ← d.walk l parents.reverse
    match d.step parent name with
    | .ok _ => .error .occupied
    | .error .notFound => .ok (d.put (parent ++ [name]) .directory)
    | .error f => .error f

/-- Whether a walk, whose last name comes first, ends at a directory. -/
def endsAtDirectory (d : Disk) (l : Location) (names : List String) : Bool :=
  match d.walk l names.reverse with
  | .ok l =>
    match d.at? l with
    | some .directory => true
    | _ => false
  | .error _ => false

/-- Makes a directory at the end of a walk, unless there is one already. -/
def ensureDirectory (d : Disk) (l : Location) (names : List String) : Disk × Except Fault Unit :=
  match d.makeDirectory l names with
  | .ok made => (made, .ok ())
  | .error f => if d.endsAtDirectory l names then (d, .ok ()) else (d, .error f)

/-- Makes the directories of a walk that are not there, whose last name comes first. What was made
before a failure stays. -/
def makeDirectories (l : Location) : List String → Disk → Disk × Except Fault Unit
  | [], d => (d, .ok ())
  | name :: parents, d =>
    match d.ensureDirectory l (name :: parents) with
    | (d, .error .notFound) =>
      match makeDirectories l parents d with
      | (d, .ok ()) => d.ensureDirectory l (name :: parents)
      | failed => failed
    | result => result

/-- Makes the directories that a file needs. -/
def makeParents (d : Disk) (path : String) : Disk × Except Fault Unit :=
  match (names path).reverse with
  | [] => (d, .ok ())
  | _ :: parents =>
    if parents.any fun name => name.toList.contains '\x00' then (d, .error .nulByte)
    else makeDirectories (d.start path) parents d

/-- Writes a file, in place of one that is there. -/
def write (d : Disk) (path : String) (contents : ByteArray) : Except Fault Disk := do
  check path
  match (names path).reverse with
  | [] => .error .isDirectory
  | name :: parents =>
    let parent ← d.walk (d.start path) parents.reverse
    if endsInDirectory path then
      match d.at? parent with
      | some .directory => .error .isDirectory
      | _ => .error .notDirectory
    else
      match d.step parent name with
      | .ok l =>
        match d.at? l with
        | some .directory => .error .isDirectory
        | _ => .ok (d.put l (.file contents))
      | .error .notFound => .ok (d.put (parent ++ [name]) (.file contents))
      | .error f => .error f

end Disk

end Widgetry
