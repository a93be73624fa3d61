/-!
# Files

The two things a program does with files, in whatever setting it runs, and why the operating system
refuses them.
-/

namespace Handheld

/-- Why the operating system refused to read or write a file. -/
inductive OsError where
  | notFound
  | permissionDenied
  | notADirectory
  | isADirectory
  | noSpaceLeft
  | readOnlySystem
  | nameTooLong
  /-- The path holds a NUL character, so it never reaches the system. -/
  | nulInPath
  | other (code : Nat) (text : String)
deriving Repr, DecidableEq, Inhabited

namespace OsError

/-- The system's text followed by its number. -/
def numbered (text : String) (code : Nat) : String := s!"{text} (os error {code})"

def message : OsError → String
  | notFound => numbered "No such file or directory" 2
  | permissionDenied => numbered "Permission denied" 13
  | notADirectory => numbered "Not a directory" 20
  | isADirectory => numbered "Is a directory" 21
  | noSpaceLeft => numbered "No space left on device" 28
  | readOnlySystem => numbered "Read-only file system" 30
  | nameTooLong => numbered "File name too long" 36
  | nulInPath => "file name contained an unexpected NUL byte"
  | other code text => numbered text code

/-- The refusal with a number of the system and the system's text for it. -/
def ofCode (code : Nat) (text : String) : OsError :=
  match code with
  | 2 => notFound
  | 13 => permissionDenied
  | 20 => notADirectory
  | 21 => isADirectory
  | 28 => noSpaceLeft
  | 30 => readOnlySystem
  | 36 => nameTooLong
  | _ => other code text

end OsError

structure Files (m : Type → Type) where
  read : String → m (Except OsError ByteArray)
  /-- Makes a file with this content, in place of an earlier one. -/
  write : String → ByteArray → m (Except OsError Unit)

end Handheld
