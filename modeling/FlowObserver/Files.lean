import FlowObserver.Bytes

/-!
# Files

What can be read under a working directory. A directory is there as soon as something lies below it.
-/

namespace FlowObserver

inductive FileEntry where
  | file (content : Bytes)
  | directory
  deriving DecidableEq, Repr

abbrev Files := List (List String × FileEntry)

namespace Files

/-- The steps of a path. A step back takes the one before it away, if there is one; the first step of
an absolute path is the root. -/
def steps (path : String) : List String :=
  let parts := (path.splitOn "/").foldl (fun out part =>
    if part = "" || part = "." then out
    else if part = ".." && out.any (· ≠ "..") then out.dropLast
    else out ++ [part]) []
  if path.startsWith "/" then "/" :: parts.filter (· ≠ "..") else parts

def shown (path : String) : String :=
  (if path.startsWith "/" then "/" else "") ++
    "/".intercalate ((path.splitOn "/").filter fun part => part ≠ "" ∧ part ≠ ".")

def ofList (entries : List (String × FileEntry)) : Files :=
  entries.map fun (path, entry) => (steps path, entry)

/-- Whether there is a directory: the root, the working directory and those that it lies in, and
whatever holds something or is listed as one. -/
def isDirectory (files : Files) (path : List String) : Bool :=
  path = ["/"] || path.all (· = "..") || files.any fun (other, entry) =>
    (path.isPrefixOf other && other.length ≠ path.length) || (other = path && entry = .directory)

/-- What lies at a path. Only a directory may be named with a slash at the end. -/
def entryAt? (files : Files) (path : String) : Option FileEntry :=
  let place := steps path
  if path.isEmpty then none
  else if files.isDirectory place then some .directory
  else if path.endsWith "/" || path.endsWith "/." then none
  else (files.find? fun entry => entry.1 = place).map (·.2)

inductive ReadFailure where
  | missing
  | isDirectory
  /-- The path leads through a file. -/
  | notDirectory
  deriving DecidableEq, Repr

def ReadFailure.message : ReadFailure → String
  | missing => "No such file or directory (os error 2)"
  | isDirectory => "Is a directory (os error 21)"
  | notDirectory => "Not a directory (os error 20)"

def leadsThroughFile (files : Files) (path : String) : Bool :=
  files.any fun (other, entry) => entry ≠ .directory && other.isPrefixOf (steps path)

def read (files : Files) (path : String) : Except ReadFailure Bytes :=
  match files.entryAt? path with
  | some (.file content) => .ok content
  | some .directory => .error .isDirectory
  | none => .error (if files.leadsThroughFile path then .notDirectory else .missing)

/-- The part of a file's name after its last point, unless the name has no other part. -/
def extension? (path : String) : Option String :=
  match ((steps path).getLastD "").splitOn "." with
  | [] | [_] => none
  | ["", _] => none
  | parts => parts.getLast?

end Files

def Bytes.ofText (s : String) : Bytes := s.toUTF8.data.toList

def Bytes.text? (b : Bytes) : Option String := String.fromUTF8? ⟨b.toArray⟩

end FlowObserver
