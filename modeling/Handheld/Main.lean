import Handheld.Cli.Entry
import Handheld.Cli.Session

/-!
# The program

Reads and writes real files, prints the log while the emulation runs, and ends with its status.
-/

namespace Handheld.Main

/-- The refusal behind a system error. -/
def osError : IO.Error → OsError
  | .noFileOrDirectory _ code text | .noSuchThing _ code text | .permissionDenied _ code text
  | .inappropriateType _ code text | .resourceExhausted _ code text
  | .invalidArgument _ code text | .alreadyExists _ code text => .ofCode code.toNat text
  | .otherError code text | .resourceBusy code text | .unsupportedOperation code text
  | .hardwareFault code text | .illegalOperation code text => .ofCode code.toNat text
  | e => .other 0 (toString e)

/-- Runs a file operation and catches its refusal. -/
def caught {α : Type} (x : IO α) : IO (Except OsError α) := do
  match ← x.toBaseIO with
  | .ok a => return .ok a
  | .error e => return .error (osError e)

def files : Files IO where
  read path := caught (IO.FS.readBinFile path)
  write path content := caught (IO.FS.writeBinFile path content)

def printEvents (events : Array Event) : IO Unit :=
  events.forM fun e => IO.eprintln (Cli.entry e)

/-- Brings an emulation to its end, if it has one. -/
partial def finish (e : Cli.Emulation) : IO Cli.Emulation := do
  let (events, e) := e.advance.drain
  printEvents events
  if e.ended then return e else finish e

end Handheld.Main

open Handheld in
def main (args : List String) : IO UInt32 := do
  let report ← Cli.run Main.files Main.finish args
  report.greeting.forM IO.println
  if let some refusal := report.refusal then IO.eprintln refusal.message
  Main.printEvents report.log.entries
  return report.exit
