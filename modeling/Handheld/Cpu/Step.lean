import Handheld.Bus.Basic
import Handheld.Cpu.Execute

/-!
# Running the processor on the bus

One instruction at a time, and the entry into interrupt handlers between them.
-/

namespace Handheld

namespace Bus

/-- Writes bytes in order. -/
def storeAll (b : Bus) (stores : List Cpu.Store) : Bus :=
  stores.foldl (fun b s => b.write s.address s.value) b

end Bus

namespace Cpu

/-- The cycles of a step while the processor waits. -/
def haltCycles : Nat := 4

/-- The cycles of the entry into a handler. -/
def interruptCycles : Nat := 20

/-- The opcode that the processor is about to read. -/
def opcode (cpu : Cpu) (view : View) : UInt8 := view cpu.regs.pc

/-- What is reported of an instruction: its opcode, and the one of the second table if it leads
there. -/
def executedEvents (cpu : Cpu) (view : View) (i : Instruction) : List Event :=
  let next := cpu.skip 1
  let first := Event.executed cpu.regs.pc (cpu.opcode view) i.name next.regs
  match i with
  | .extended => [first, .executedExtended (next.immediate view) (next.nextExtended view).name]
  | _ => [first]

/-- Reports an instruction, if instructions are reported at all. -/
def trace (cpu : Cpu) (bus : Bus) (i : Instruction) : Bus :=
  if bus.log.instructions then bus.reportAll (cpu.executedEvents bus.read i) else bus

structure Core where
  cpu : Cpu
  bus : Bus

/-- Runs one instruction and gives the cycles it took. An opcode without an instruction is read
and nothing else happens. -/
def step (cpu : Cpu) (bus : Bus) : EStateM.Result Fault Core Nat :=
  if cpu.halted then .ok haltCycles { cpu, bus }
  else
    match Instruction.decode? (cpu.opcode bus.read) with
    | none =>
      .error (.illegalOpcode (cpu.opcode bus.read) cpu.regs.pc) { cpu := cpu.skip 1, bus }
    | some i =>
      let effect := (cpu.skip 1).execute bus.read i
      let bus := (cpu.trace bus i).storeAll effect.stores
      .ok (i.cost + effect.extra) { cpu := effect.cpu, bus }

/-- The line that would be served: requested, enabled, and of highest priority. -/
def pending? (bus : Bus) : Option Interrupt :=
  Interrupt.first? (bus.interruptFlags &&& bus.interruptEnable)

def enter (cpu : Cpu) (bus : Bus) (i : Interrupt) : Core :=
  let effect := ({ cpu with halted := false, ime := false } : Cpu).callTo i.vector
  { cpu := effect.cpu
    bus := ((bus.acknowledge i).storeAll effect.stores).report
      (.interruptEntered i cpu.regs.pc i.vector) }

/-- Looks for an interrupt between two instructions and gives the cycles that its entry took. The
instruction after `EI` has passed once this is called, so now interrupts are on. A processor that
waits goes on when a line is requested and enabled, even with interrupts off. -/
def service (cpu : Cpu) (bus : Bus) : Nat × Core :=
  if cpu.eiPending then (0, { cpu := { cpu with eiPending := false, ime := true }, bus })
  else if !cpu.ime && !cpu.halted then (0, { cpu, bus })
  else
    match pending? bus with
    | none => (0, { cpu, bus })
    | some i =>
      if cpu.ime then (interruptCycles, cpu.enter bus i)
      else (0, { cpu := { cpu with halted := false }, bus })

/-- The name of the instruction at an address. -/
def mnemonic (view : View) (address : UInt16) : String :=
  match Instruction.decode? (view address) with
  | none => s!"?? {Hex.byte (view address)}"
  | some .extended => (Extended.decode (view (address + 1))).name
  | some i => i.name

theorem haltCycles_pos : 0 < haltCycles := by decide

theorem cycles_pos_of_step {cpu : Cpu} {bus : Bus} {t : Nat} {core : Core}
    (h : cpu.step bus = .ok t core) : 0 < t := by
  unfold step at h
  split at h
  · injection h with h
    exact h ▸ haltCycles_pos
  · split at h
    · contradiction
    · rename_i i _
      injection h with h
      have := i.four_le_cost
      omega

end Cpu

end Handheld
