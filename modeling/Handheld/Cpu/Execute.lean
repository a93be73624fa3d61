import Handheld.Cpu.Basic
import Handheld.Cpu.Decode
import Handheld.Word

/-!
# Executing an instruction

An instruction reads the address space first and writes it last. So its effect is a new processor,
the bytes it stores in their order, and the cycles it takes beyond its own cost; and it depends
only on what the address space reads before it.
-/

namespace Handheld.Cpu

structure Store where
  address : UInt16
  value : UInt8
deriving Repr, DecidableEq, Inhabited

/-- The two stores of a word, low byte first. -/
def Store.word (address : UInt16) (w : UInt16) : List Store :=
  [⟨address, Word.low w⟩, ⟨address + 1, Word.high w⟩]

structure Effect where
  cpu : Cpu
  stores : List Store := []
  /-- Cycles beyond the cost of the instruction. -/
  extra : Nat := 0
deriving Repr, DecidableEq, Inhabited

namespace Effect

def ofCpu (cpu : Cpu) : Effect := { cpu }

end Effect

/-! ## Operands -/

def operand (cpu : Cpu) (view : View) : Operand → UInt8
  | .b => cpu.regs.b
  | .c => cpu.regs.c
  | .d => cpu.regs.d
  | .e => cpu.regs.e
  | .h => cpu.regs.h
  | .l => cpu.regs.l
  | .atHl => view cpu.regs.hl
  | .a => cpu.regs.a

/-- The effect of putting a byte where an operand says. -/
def put (cpu : Cpu) (o : Operand) (v : UInt8) : Effect :=
  match o with
  | .b => .ofCpu (cpu.mapRegs ({ · with b := v }))
  | .c => .ofCpu (cpu.mapRegs ({ · with c := v }))
  | .d => .ofCpu (cpu.mapRegs ({ · with d := v }))
  | .e => .ofCpu (cpu.mapRegs ({ · with e := v }))
  | .h => .ofCpu (cpu.mapRegs ({ · with h := v }))
  | .l => .ofCpu (cpu.mapRegs ({ · with l := v }))
  | .atHl => { cpu, stores := [⟨cpu.regs.hl, v⟩] }
  | .a => .ofCpu (cpu.setA v)

def immediate (cpu : Cpu) (view : View) : UInt8 := view cpu.regs.pc

def immediateWord (cpu : Cpu) (view : View) : UInt16 := view.word cpu.regs.pc

/-- The address that the byte after the opcode stands for. -/
def highAddress (cpu : Cpu) (view : View) : UInt16 := 0xff00 + (cpu.immediate view).toUInt16

def highAddressC (cpu : Cpu) : UInt16 := 0xff00 + cpu.regs.c.toUInt16

def pointer (cpu : Cpu) : Pointer → UInt16
  | .bc => cpu.regs.bc
  | .de => cpu.regs.de
  | .hlUp | .hlDown => cpu.regs.hl

/-- After its use a pointer through HL moves it on. -/
def movePointer (cpu : Cpu) : Pointer → Cpu
  | .bc | .de => cpu
  | .hlUp => cpu.mapRegs Registers.incHl
  | .hlDown => cpu.mapRegs Registers.decHl

def stackPair (cpu : Cpu) : StackPair → UInt16
  | .bc => cpu.regs.bc
  | .de => cpu.regs.de
  | .hl => cpu.regs.hl
  | .af => cpu.regs.af

def setStackPair (cpu : Cpu) (p : StackPair) (w : UInt16) : Cpu :=
  match p with
  | .bc => cpu.mapRegs (·.setBc w)
  | .de => cpu.mapRegs (·.setDe w)
  | .hl => cpu.mapRegs (·.setHl w)
  | .af => cpu.mapRegs (·.setAf w)

/-! ## The stack -/

/-- The effect of pushing a word: it ends up below the old top. -/
def pushWord (cpu : Cpu) (w : UInt16) : Effect :=
  let sp := cpu.regs.sp - 2
  { cpu := cpu.mapRegs ({ · with sp }), stores := Store.word sp w }

def top (cpu : Cpu) (view : View) : UInt16 := view.word cpu.regs.sp

def popped (cpu : Cpu) : Cpu := cpu.mapRegs fun r => { r with sp := r.sp + 2 }

/-- The effect of a call: the program counter is pushed. -/
def callTo (cpu : Cpu) (target : UInt16) : Effect :=
  let pushed := cpu.pushWord cpu.regs.pc
  { pushed with cpu := pushed.cpu.jump target }

def returnFrom (cpu : Cpu) (view : View) : Cpu := cpu.popped.jump (cpu.top view)

/-! ## Transfers of control -/

def takes (cpu : Cpu) : Option Condition → Bool
  | none => true
  | some k => k.holds cpu.regs.flags

/-- The extra cycles of a transfer that is taken: none if that is its only way. -/
def takenExtra (k : Option Condition) (cycles : Nat) : Nat := if k.isSome then cycles else 0

/-! ## Instructions -/

/-- The effect of an operation on the accumulator. -/
def accumulate (cpu : Cpu) (op : Alu.Op) (n : UInt8) : Effect :=
  let (a, f) := op.apply cpu.regs.a n cpu.regs.flags
  .ofCpu ((cpu.setA a).setFlags f)

/-- The effect of a rotation of the accumulator, which never sets the zero flag. -/
def rotateA (cpu : Cpu) (s : Alu.Shift) : Effect :=
  let (a, f) := s.apply cpu.regs.a cpu.regs.flags
  .ofCpu ((cpu.setA a).setFlags { f with z := false })

/-- The effect of an instruction of the second table, whose opcode has been read. -/
def executeExtended (cpu : Cpu) (view : View) (i : Extended) : Effect :=
  match i with
  | .shift s o =>
    let (v, f) := s.apply (cpu.operand view o) cpu.regs.flags
    (cpu.setFlags f).put o v
  | .bit i o => .ofCpu (cpu.setFlags (Alu.testBit i (cpu.operand view o) cpu.regs.flags))
  | .res i o => cpu.put o (cpu.operand view o &&& ~~~Alu.bitMask i)
  | .set i o => cpu.put o (cpu.operand view o ||| Alu.bitMask i)

/-- The instruction of the second table that the next byte selects. -/
def nextExtended (cpu : Cpu) (view : View) : Extended := Extended.decode (cpu.immediate view)

/-- The effect of an instruction whose opcode has been read. -/
def execute (cpu : Cpu) (view : View) (i : Instruction) : Effect :=
  match i with
  | .nop => .ofCpu cpu
  | .stop => .ofCpu { cpu.skip 1 with halted := true }
  | .halt => .ofCpu { cpu with halted := true }
  | .di => .ofCpu { cpu with ime := false, eiPending := false }
  | .ei => .ofCpu { cpu with eiPending := true }
  | .extended =>
    let i := cpu.nextExtended view
    let effect := (cpu.skip 1).executeExtended view i
    { effect with extra := i.cost }
  | .rlca => cpu.rotateA .rlc
  | .rrca => cpu.rotateA .rrc
  | .rla => cpu.rotateA .rl
  | .rra => cpu.rotateA .rr
  | .daa =>
    let (a, f) := Alu.decimalAdjust cpu.regs.a cpu.regs.flags
    .ofCpu ((cpu.setA a).setFlags f)
  | .cpl =>
    .ofCpu ((cpu.setA (~~~cpu.regs.a)).setFlags { cpu.regs.flags with n := true, h := true })
  | .scf => .ofCpu (cpu.setFlags { cpu.regs.flags with n := false, h := false, c := true })
  | .ccf =>
    let f := cpu.regs.flags
    .ofCpu (cpu.setFlags { f with n := false, h := false, c := !f.c })
  | .load dst src => cpu.put dst (cpu.operand view src)
  | .loadImmediate dst => (cpu.skip 1).put dst (cpu.immediate view)
  | .storeAt p => { cpu := cpu.movePointer p, stores := [⟨cpu.pointer p, cpu.regs.a⟩] }
  | .loadFrom p => .ofCpu ((cpu.setA (view (cpu.pointer p))).movePointer p)
  | .storeHigh => { cpu := cpu.skip 1, stores := [⟨cpu.highAddress view, cpu.regs.a⟩] }
  | .loadHigh => .ofCpu ((cpu.skip 1).setA (view (cpu.highAddress view)))
  | .storeHighC => { cpu, stores := [⟨cpu.highAddressC, cpu.regs.a⟩] }
  | .loadHighC => .ofCpu (cpu.setA (view cpu.highAddressC))
  | .storeAbsolute => { cpu := cpu.skip 2, stores := [⟨cpu.immediateWord view, cpu.regs.a⟩] }
  | .loadAbsolute => .ofCpu ((cpu.skip 2).setA (view (cpu.immediateWord view)))
  | .inc o =>
    let (v, f) := Alu.inc (cpu.operand view o) cpu.regs.flags
    (cpu.setFlags f).put o v
  | .dec o =>
    let (v, f) := Alu.dec (cpu.operand view o) cpu.regs.flags
    (cpu.setFlags f).put o v
  | .alu op o => cpu.accumulate op (cpu.operand view o)
  | .aluImmediate op => (cpu.skip 1).accumulate op (cpu.immediate view)
  | .loadPair p => .ofCpu ((cpu.skip 2).mapRegs (·.setPair p (cpu.immediateWord view)))
  | .incPair p => .ofCpu (cpu.mapRegs fun r => r.setPair p (r.pair p + 1))
  | .decPair p => .ofCpu (cpu.mapRegs fun r => r.setPair p (r.pair p - 1))
  | .addHl p =>
    let (w, f) := Alu.addWord cpu.regs.hl (cpu.regs.pair p) cpu.regs.flags
    .ofCpu ((cpu.mapRegs (·.setHl w)).setFlags f)
  | .push p => cpu.pushWord (cpu.stackPair p)
  | .pop p => .ofCpu (cpu.popped.setStackPair p (cpu.top view))
  | .storeSp => { cpu := cpu.skip 2, stores := Store.word (cpu.immediateWord view) cpu.regs.sp }
  | .addSp =>
    let (w, f) := Alu.addOffset cpu.regs.sp (cpu.immediate view)
    .ofCpu (((cpu.skip 1).mapRegs ({ · with sp := w })).setFlags f)
  | .loadHlSp =>
    let (w, f) := Alu.addOffset cpu.regs.sp (cpu.immediate view)
    .ofCpu (((cpu.skip 1).mapRegs (·.setHl w)).setFlags f)
  | .loadSpHl => .ofCpu (cpu.mapRegs fun r => { r with sp := r.hl })
  | .jr k =>
    let next := cpu.skip 1
    if cpu.takes k then
      { cpu := next.skip (signExtend (cpu.immediate view)), extra := takenExtra k 4 }
    else .ofCpu next
  | .jp k =>
    if cpu.takes k then
      { cpu := cpu.jump (cpu.immediateWord view), extra := takenExtra k 4 }
    else .ofCpu (cpu.skip 2)
  | .jpHl => .ofCpu (cpu.jump cpu.regs.hl)
  | .call k =>
    let next := cpu.skip 2
    if cpu.takes k then
      { next.callTo (cpu.immediateWord view) with extra := takenExtra k 12 }
    else .ofCpu next
  | .ret k =>
    if cpu.takes k then { cpu := cpu.returnFrom view, extra := takenExtra k 12 } else .ofCpu cpu
  | .reti => .ofCpu { cpu.returnFrom view with ime := true }
  | .rst n => cpu.callTo (UInt16.ofNat (8 * n.val))

end Handheld.Cpu
