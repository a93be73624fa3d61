import Handheld.Cartridge.Kind
import Handheld.Files.Basic
import Handheld.Word

/-!
# Faults

Everything that can go wrong while a cartridge is loaded, run or dumped.
-/

namespace Handheld

/-- Why a machine could not be built, run or dumped. -/
inductive Fault where
  | file (path : String) (cause : OsError)
  | imageTooSmall (size : Nat)
  | unsupportedKind (code : UInt8)
  | romSize (code : UInt8)
  | ramSize (code : UInt8)
  /-- No instruction has this opcode. -/
  | illegalOpcode (opcode : UInt8) (pc : UInt16)
deriving Repr, DecidableEq, Inhabited

namespace Fault

def message : Fault → String
  | file path cause => s!"error reading ROM image {path}: {cause.message}"
  | imageTooSmall size => s!"ROM image is {size} bytes, too small to hold a cartridge header"
  | unsupportedKind code =>
    s!"unsupported cartridge type 0x{Hex.byte code} ({Cartridge.Kind.nameOfCode code})"
  | romSize code => s!"unrecognized ROM size code 0x{Hex.byte code}"
  | ramSize code => s!"unrecognized RAM size code 0x{Hex.byte code}"
  | illegalOpcode opcode pc => s!"illegal opcode 0x{Hex.byte opcode} at pc=0x{Hex.word pc}"

/-- What lies behind the fault, where it has a cause of its own. -/
def cause? : Fault → Option OsError
  | file _ cause => some cause
  | _ => none

/-- The fault and its causes, in one line. -/
def chain (f : Fault) : String :=
  match f.cause? with
  | some cause => s!"{f.message}: {cause.message}"
  | none => f.message

end Fault

end Handheld
