import Handheld.Cpu.Instruction

/-!
# Opcodes

The top two bits of an opcode tell four blocks apart. In each block the other bits name operands,
register words, conditions or operations. Eleven opcodes have no instruction.
-/

namespace Handheld.Cpu

/-- Bits 3 to 5, where many opcodes name an operand or operation. -/
def upperCode (opcode : UInt8) : UInt8 := opcode >>> 3 &&& 7

/-- Bits 0 to 2. -/
def lowerCode (opcode : UInt8) : UInt8 := opcode &&& 7

/-- Bits 4 and 5, where opcodes name a register word. -/
def pairCode (opcode : UInt8) : UInt8 := opcode >>> 4 &&& 3

/-- Bits 3 to 5 as a number. -/
def indexCode (opcode : UInt8) : Fin 8 :=
  ⟨(opcode >>> 3).toNat % 8, Nat.mod_lt _ (by decide)⟩

namespace Extended

def decode (opcode : UInt8) : Extended :=
  let o := Operand.ofCode (lowerCode opcode)
  match opcode >>> 6 with
  | 0 => shift (.ofCode (upperCode opcode)) o
  | 1 => bit (indexCode opcode) o
  | 2 => res (indexCode opcode) o
  | _ => set (indexCode opcode) o

end Extended

namespace Instruction

/-- The opcodes 0x00 to 0x3f. -/
def decodeFirst (opcode : UInt8) : Instruction :=
  let odd := opcode &&& 0x08 != 0
  let pair := Pair.ofCode (pairCode opcode)
  let pointer := Pointer.ofCode (pairCode opcode)
  let operand := Operand.ofCode (upperCode opcode)
  match lowerCode opcode with
  | 0 =>
    match upperCode opcode with
    | 0 => nop
    | 1 => storeSp
    | 2 => stop
    | 3 => jr none
    | k => jr (some (.ofCode k))
  | 1 => if odd then addHl pair else loadPair pair
  | 2 => if odd then loadFrom pointer else storeAt pointer
  | 3 => if odd then decPair pair else incPair pair
  | 4 => inc operand
  | 5 => dec operand
  | 6 => loadImmediate operand
  | _ =>
    match upperCode opcode with
    | 0 => rlca
    | 1 => rrca
    | 2 => rla
    | 3 => rra
    | 4 => daa
    | 5 => cpl
    | 6 => scf
    | _ => ccf

/-- The opcodes 0xc0 to 0xff. -/
def decodeLast? (opcode : UInt8) : Option Instruction :=
  match opcode with
  | 0xc3 => some (jp none)
  | 0xc9 => some (ret none)
  | 0xcb => some extended
  | 0xcd => some (call none)
  | 0xd9 => some reti
  | 0xe0 => some storeHigh
  | 0xe2 => some storeHighC
  | 0xe8 => some addSp
  | 0xe9 => some jpHl
  | 0xea => some storeAbsolute
  | 0xf0 => some loadHigh
  | 0xf2 => some loadHighC
  | 0xf3 => some di
  | 0xf8 => some loadHlSp
  | 0xf9 => some loadSpHl
  | 0xfa => some loadAbsolute
  | 0xfb => some ei
  | 0xd3 | 0xdb | 0xdd | 0xe3 | 0xe4 | 0xeb | 0xec | 0xed | 0xf4 | 0xfc | 0xfd => none
  | _ =>
    let condition := Condition.ofCode (upperCode opcode)
    match lowerCode opcode with
    | 0 => some (ret (some condition))
    | 1 => some (pop (.ofCode (pairCode opcode)))
    | 2 => some (jp (some condition))
    | 4 => some (call (some condition))
    | 5 => some (push (.ofCode (pairCode opcode)))
    | 6 => some (aluImmediate (.ofCode (upperCode opcode)))
    | _ => some (rst (indexCode opcode))

/-- The instruction of an opcode, if it has one. -/
def decode? (opcode : UInt8) : Option Instruction :=
  match opcode >>> 6 with
  | 0 => some (decodeFirst opcode)
  | 1 =>
    if opcode = 0x76 then some halt
    else some (load (.ofCode (upperCode opcode)) (.ofCode (lowerCode opcode)))
  | 2 => some (alu (.ofCode (upperCode opcode)) (.ofCode (lowerCode opcode)))
  | _ => decodeLast? opcode

end Instruction

end Handheld.Cpu
