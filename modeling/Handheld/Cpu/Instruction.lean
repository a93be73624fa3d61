import Handheld.Cpu.Alu

/-!
# Instructions

What the opcodes mean, with the name and the cost of each instruction. A byte behind the
`extended` opcode selects an instruction of a second table.
-/

namespace Handheld.Cpu

/-- A byte that an opcode can name: a register or the cell at HL. -/
inductive Operand where
  | b
  | c
  | d
  | e
  | h
  | l
  | atHl
  | a
deriving Repr, DecidableEq, Inhabited

namespace Operand

def ofCode (code : UInt8) : Operand :=
  match code &&& 7 with
  | 0 => b
  | 1 => c
  | 2 => d
  | 3 => e
  | 4 => h
  | 5 => l
  | 6 => atHl
  | _ => a

def name : Operand → String
  | b => "B"
  | c => "C"
  | d => "D"
  | e => "E"
  | h => "H"
  | l => "L"
  | atHl => "(HL)"
  | a => "A"

end Operand

def Pair.name : Pair → String
  | bc => "BC"
  | de => "DE"
  | hl => "HL"
  | sp => "SP"

/-- The words that can be pushed and popped. -/
inductive StackPair where
  | bc
  | de
  | hl
  | af
deriving Repr, DecidableEq, Inhabited

namespace StackPair

def ofCode (code : UInt8) : StackPair :=
  match code &&& 3 with
  | 0 => bc
  | 1 => de
  | 2 => hl
  | _ => af

def name : StackPair → String
  | bc => "BC"
  | de => "DE"
  | hl => "HL"
  | af => "AF"

end StackPair

/-- An address held in registers. The last two move HL on. -/
inductive Pointer where
  | bc
  | de
  | hlUp
  | hlDown
deriving Repr, DecidableEq, Inhabited

namespace Pointer

def ofCode (code : UInt8) : Pointer :=
  match code &&& 3 with
  | 0 => bc
  | 1 => de
  | 2 => hlUp
  | _ => hlDown

def name : Pointer → String
  | bc => "(BC)"
  | de => "(DE)"
  | hlUp => "(HL+)"
  | hlDown => "(HL-)"

end Pointer

/-- What a transfer of control can depend on. -/
inductive Condition where
  | nz
  | z
  | nc
  | c
deriving Repr, DecidableEq, Inhabited

namespace Condition

def ofCode (code : UInt8) : Condition :=
  match code &&& 3 with
  | 0 => nz
  | 1 => z
  | 2 => nc
  | _ => c

def name : Condition → String
  | nz => "NZ"
  | z => "Z"
  | nc => "NC"
  | c => "C"

def holds (k : Condition) (f : Flags) : Bool :=
  match k with
  | nz => !f.z
  | z => f.z
  | nc => !f.c
  | c => f.c

end Condition

namespace Alu

/-- The operation with what comes before its operand. -/
def Op.name : Op → String
  | add => "ADD A,"
  | adc => "ADC A,"
  | sub => "SUB "
  | sbc => "SBC A,"
  | and => "AND "
  | xor => "XOR "
  | or => "OR "
  | cp => "CP "

def Shift.name : Shift → String
  | rlc => "RLC"
  | rrc => "RRC"
  | rl => "RL"
  | rr => "RR"
  | sla => "SLA"
  | sra => "SRA"
  | swap => "SWAP"
  | srl => "SRL"

end Alu

inductive Extended where
  | shift (s : Alu.Shift) (o : Operand)
  | bit (i : Fin 8) (o : Operand)
  | res (i : Fin 8) (o : Operand)
  | set (i : Fin 8) (o : Operand)
deriving Repr, DecidableEq, Inhabited

namespace Extended

def name : Extended → String
  | shift s o => s!"{s.name} {o.name}"
  | bit i o => s!"BIT {i.val},{o.name}"
  | res i o => s!"RES {i.val},{o.name}"
  | set i o => s!"SET {i.val},{o.name}"

/-- Cycles on top of those of the opcode that leads here. Only `bit` does not write back. -/
def cost : Extended → Nat
  | bit _ .atHl => 8
  | shift _ .atHl | res _ .atHl | set _ .atHl => 12
  | _ => 4

end Extended

/-- An instruction. Where a condition is an `Option`, `none` means always. -/
inductive Instruction where
  | nop
  | stop
  | halt
  | di
  | ei
  /-- The next byte selects an instruction of the second table. -/
  | extended
  | rlca
  | rrca
  | rla
  | rra
  | daa
  | cpl
  | scf
  | ccf
  | load (dst src : Operand)
  | loadImmediate (dst : Operand)
  | storeAt (p : Pointer)
  | loadFrom (p : Pointer)
  /-- The address is 0xff00 plus the next byte. -/
  | storeHigh
  | loadHigh
  /-- The address is 0xff00 plus C. -/
  | storeHighC
  | loadHighC
  /-- The address is the next word. -/
  | storeAbsolute
  | loadAbsolute
  | inc (o : Operand)
  | dec (o : Operand)
  | alu (op : Alu.Op) (o : Operand)
  | aluImmediate (op : Alu.Op)
  | loadPair (p : Pair)
  | incPair (p : Pair)
  | decPair (p : Pair)
  | addHl (p : Pair)
  | push (p : StackPair)
  | pop (p : StackPair)
  | storeSp
  | addSp
  | loadHlSp
  | loadSpHl
  | jr (k : Option Condition)
  | jp (k : Option Condition)
  | jpHl
  | call (k : Option Condition)
  | ret (k : Option Condition)
  | reti
  /-- A call of the address `8 * n`. -/
  | rst (n : Fin 8)
deriving Repr, DecidableEq, Inhabited

namespace Instruction

/-- The names of the eight calls with a fixed target. -/
def rstName (n : Fin 8) : String :=
  match n with
  | 0 => "RST 00H"
  | 1 => "RST 08H"
  | 2 => "RST 10H"
  | 3 => "RST 18H"
  | 4 => "RST 20H"
  | 5 => "RST 28H"
  | 6 => "RST 30H"
  | 7 => "RST 38H"

/-- The usual notation: `d8`, `d16`, `a8`, `a16` and `r8` stand for what follows the opcode. -/
def name : Instruction → String
  | nop => "NOP"
  | stop => "STOP"
  | halt => "HALT"
  | di => "DI"
  | ei => "EI"
  | extended => "PREFIX CB"
  | rlca => "RLCA"
  | rrca => "RRCA"
  | rla => "RLA"
  | rra => "RRA"
  | daa => "DAA"
  | cpl => "CPL"
  | scf => "SCF"
  | ccf => "CCF"
  | load dst src => s!"LD {dst.name},{src.name}"
  | loadImmediate dst => s!"LD {dst.name},d8"
  | storeAt p => s!"LD {p.name},A"
  | loadFrom p => s!"LD A,{p.name}"
  | storeHigh => "LDH (a8),A"
  | loadHigh => "LDH A,(a8)"
  | storeHighC => "LD (C),A"
  | loadHighC => "LD A,(C)"
  | storeAbsolute => "LD (a16),A"
  | loadAbsolute => "LD A,(a16)"
  | inc o => s!"INC {o.name}"
  | dec o => s!"DEC {o.name}"
  | alu op o => s!"{op.name}{o.name}"
  | aluImmediate op => s!"{op.name}d8"
  | loadPair p => s!"LD {p.name},d16"
  | incPair p => s!"INC {p.name}"
  | decPair p => s!"DEC {p.name}"
  | addHl p => s!"ADD HL,{p.name}"
  | push p => s!"PUSH {p.name}"
  | pop p => s!"POP {p.name}"
  | storeSp => "LD (a16),SP"
  | addSp => "ADD SP,r8"
  | loadHlSp => "LD HL,SP+r8"
  | loadSpHl => "LD SP,HL"
  | jr none => "JR r8"
  | jr (some k) => s!"JR {k.name},r8"
  | jp none => "JP a16"
  | jp (some k) => s!"JP {k.name},a16"
  | jpHl => "JP (HL)"
  | call none => "CALL a16"
  | call (some k) => s!"CALL {k.name},a16"
  | ret none => "RET"
  | ret (some k) => s!"RET {k.name}"
  | reti => "RETI"
  | rst n => rstName n

/-- Cycles of the instruction. A conditional transfer costs more when it is taken, and an
instruction of the second table has a cost of its own. -/
def cost : Instruction → Nat
  | nop | stop | halt | di | ei | extended => 4
  | rlca | rrca | rla | rra | daa | cpl | scf | ccf => 4
  | load dst src => if dst = .atHl ∨ src = .atHl then 8 else 4
  | loadImmediate dst => if dst = .atHl then 12 else 8
  | storeAt _ | loadFrom _ => 8
  | storeHigh | loadHigh => 12
  | storeHighC | loadHighC => 8
  | storeAbsolute | loadAbsolute => 16
  | inc o | dec o => if o = .atHl then 12 else 4
  | alu _ o => if o = .atHl then 8 else 4
  | aluImmediate _ => 8
  | loadPair _ => 12
  | incPair _ | decPair _ | addHl _ => 8
  | push _ => 16
  | pop _ => 12
  | storeSp => 20
  | addSp => 16
  | loadHlSp => 12
  | loadSpHl => 8
  | jr none => 12
  | jr (some _) => 8
  | jp none => 16
  | jp (some _) => 12
  | jpHl => 4
  | call none => 24
  | call (some _) => 12
  | ret none => 16
  | ret (some _) => 8
  | reti => 16
  | rst _ => 16

theorem four_le_cost (i : Instruction) : 4 ≤ i.cost := by
  unfold cost
  split <;> first | decide | (split <;> decide)

end Instruction

end Handheld.Cpu
