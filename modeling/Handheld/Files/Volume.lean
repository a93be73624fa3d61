import Handheld.Files.Basic

/-!
# A volume in memory

Directories and files without a disk. Paths follow the usual rules: every part but the last names a
directory, empty parts say nothing, and single dots stay where they are.
-/

namespace Handheld

/-- A place in a volume: the names that lead there from the working directory. Paths from the root
begin with the name `/`. -/
abbrev Place := List String

structure Volume where
  directories : List Place := [[], ["/"], [".."]]
  files : List (Place × ByteArray) := []

namespace Volume

/-- A volume with one more directory. -/
def withDirectory (v : Volume) (p : Place) : Volume :=
  { v with directories := p :: v.directories }

/-- A volume with one more file, or with another content of a file. -/
def withFile (v : Volume) (p : Place) (content : ByteArray) : Volume :=
  { v with files := (p, content) :: v.files.filter (·.1 != p) }

def file? (v : Volume) (p : Place) : Option ByteArray :=
  (v.files.find? (·.1 == p)).map (·.2)

def isDirectory (v : Volume) (p : Place) : Bool := v.directories.contains p

/-- The longest name, and one more than the longest path, in bytes. -/
def maxName : Nat := 255
def pathLimit : Nat := 4096

/-- One step down, or up for a double dot. -/
def child (p : Place) (name : String) : Place :=
  if name = "." then p
  else if name = ".." then
    match p with
    | [] => [".."]
    | ["/"] => p
    | ".." :: _ => p
    | _ => p.dropLast
  else p ++ [name]

/-- Follows names down from a directory. All but the last name a directory. -/
def follow (v : Volume) (p : Place) : List String → Except OsError Place
  | [] => .ok p
  | name :: rest =>
    let next := child p name
    if maxName < name.utf8ByteSize then .error .nameTooLong
    else if rest.isEmpty then .ok next
    else if v.isDirectory next then follow v next rest
    else if (v.file? next).isSome then .error .notADirectory
    else .error .notFound

/-- Why a path is refused as it stands, if it is. -/
def refusal? (path : String) : Option OsError :=
  if path.contains '\x00' then some .nulInPath
  else if path.isEmpty then some .notFound
  else if pathLimit ≤ path.utf8ByteSize then some .nameTooLong
  else none

/-- The names in a path. -/
def names (path : String) : List String := (path.splitOn "/").filter (· != "")

/-- The place that names lead to from the start of a path. It may be empty, but all before it is
there. -/
def locate (v : Volume) (path : String) (names : List String) : Except OsError Place :=
  match refusal? path with
  | some e => .error e
  | none => v.follow (if path.startsWith "/" then ["/"] else []) names

/-- A slash at the end stands for the directory itself. -/
def read (v : Volume) (path : String) : Except OsError ByteArray := do
  let p ← v.locate path (if path.endsWith "/" then names path ++ ["."] else names path)
  if v.isDirectory p then .error .isADirectory
  else
    match v.file? p with
    | some content => .ok content
    | none => .error .notFound

/-- A new file cannot have a name that ends with a slash, whatever the name is. -/
def write (v : Volume) (path : String) (content : ByteArray) : Except OsError Volume := do
  if path.endsWith "/" then
    let _ ← v.locate path ((names path).dropLast ++ ["."])
    .error .isADirectory
  else
    let p ← v.locate path (names path)
    if v.isDirectory p then .error .isADirectory else .ok (v.withFile p content)

/-- Reading and writing in a volume that is the state. -/
def access : Files (StateM Volume) where
  read path := do return (← get).read path
  write path content := do
    match (← get).write path content with
    | .ok v =>
      set v
      return .ok ()
    | .error e => return .error e

end Volume

end Handheld
