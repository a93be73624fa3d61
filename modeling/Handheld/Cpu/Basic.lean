import Handheld.Cpu.Registers

/-!
# The processor

Its registers and the three switches that are not in registers.
-/

namespace Handheld

structure Cpu where
  regs : Cpu.Registers := .powerOn
  halted : Bool := false
  ime : Bool := false
  /-- Interrupts will be entered after the next instruction. -/
  eiPending : Bool := false
deriving Repr, DecidableEq, Inhabited

namespace Cpu

def powerOn : Cpu := {}

def mapRegs (cpu : Cpu) (f : Registers → Registers) : Cpu := { cpu with regs := f cpu.regs }

/-- The program counter moves on by `n` bytes. -/
def skip (cpu : Cpu) (n : UInt16) : Cpu := cpu.mapRegs (·.skip n)

def jump (cpu : Cpu) (address : UInt16) : Cpu := cpu.mapRegs ({ · with pc := address })

def setA (cpu : Cpu) (v : UInt8) : Cpu := cpu.mapRegs ({ · with a := v })

def setFlags (cpu : Cpu) (f : Flags) : Cpu := cpu.mapRegs (·.setFlags f)

def text (cpu : Cpu) : String :=
  let f := cpu.regs.flags
  let z := if f.z then 'Z' else '-'
  let n := if f.n then 'N' else '-'
  let h := if f.h then 'H' else '-'
  let c := if f.c then 'C' else '-'
  let ime := if cpu.ime then '1' else '0'
  let halted := if cpu.halted then '1' else '0'
  s!"{cpu.regs.text} [{z}{n}{h}{c}] IME={ime} HALT={halted}"

end Cpu

end Handheld
