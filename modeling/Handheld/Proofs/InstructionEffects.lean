import Handheld.Cpu.Step
import Mathlib.Tactic.Common

/-!
# What every instruction keeps

The cases of a step and of what comes between two steps. Whatever the instruction, the bits of `f`
that are no flags stay clear, and the cycles are a few whole machine cycles.
-/

namespace Handheld

/-- The state that something ends in, with or without a fault. -/
def stateAfter {σ : Type} : EStateM.Result Fault σ Nat → σ
  | .ok _ s => s
  | .error _ s => s

namespace Cpu

variable {cpu cpu' : Cpu}

/-! ## Cases -/

inductive Stepped (cpu : Cpu) (bus : Bus) : EStateM.Result Fault Core Nat → Prop
  | waited (hhalted : cpu.halted = true) : Stepped cpu bus (.ok haltCycles { cpu, bus })
  | illegal (hrunning : cpu.halted = false)
    (hdecode : Instruction.decode? (cpu.opcode bus.read) = none) :
    Stepped cpu bus
      (.error (.illegalOpcode (cpu.opcode bus.read) cpu.regs.pc) { cpu := cpu.skip 1, bus })
  | ran (i : Instruction) (hrunning : cpu.halted = false)
    (hdecode : Instruction.decode? (cpu.opcode bus.read) = some i) :
    Stepped cpu bus
      (.ok (i.cost + ((cpu.skip 1).execute bus.read i).extra)
        { cpu := ((cpu.skip 1).execute bus.read i).cpu
          bus := (cpu.trace bus i).storeAll ((cpu.skip 1).execute bus.read i).stores })

theorem stepped (cpu : Cpu) (bus : Bus) : Stepped cpu bus (cpu.step bus) := by
  unfold step
  split
  · rename_i hhalted
    exact .waited hhalted
  · rename_i hhalted
    have hrunning := Bool.eq_false_iff.2 hhalted
    split
    · rename_i hdecode
      exact .illegal hrunning hdecode
    · rename_i i hdecode
      exact .ran i hrunning hdecode

theorem trace_eq (cpu : Cpu) (bus : Bus) (i : Instruction) :
    ∃ log, cpu.trace bus i = { bus with log } ∧ (bus.log.instructions = false → log = bus.log) := by
  cases hon : bus.log.instructions with
  | false => exact ⟨bus.log, by simp [trace, hon], fun _ => rfl⟩
  | true => exact ⟨_, by simp only [trace, hon, if_true]; rfl, by simp⟩

theorem step_running {bus : Bus} {i : Instruction} (hrunning : cpu.halted = false)
    (hdecode : Instruction.decode? (bus.read cpu.regs.pc) = some i) :
    cpu.step bus =
      .ok (i.cost + ((cpu.skip 1).execute bus.read i).extra)
        { cpu := ((cpu.skip 1).execute bus.read i).cpu
          bus := (cpu.trace bus i).storeAll ((cpu.skip 1).execute bus.read i).stores } := by
  simp [step, opcode, hrunning, hdecode]

inductive Serviced (cpu : Cpu) (bus : Bus) : Nat × Core → Prop
  | enabled (hei : cpu.eiPending = true) :
    Serviced cpu bus (0, { cpu := { cpu with eiPending := false, ime := true }, bus })
  | passed (hei : cpu.eiPending = false)
    (hquiet : cpu.ime = false ∧ cpu.halted = false ∨ pending? bus = none) :
    Serviced cpu bus (0, { cpu, bus })
  | woken (i : Interrupt) (hei : cpu.eiPending = false) (hime : cpu.ime = false)
    (hpending : pending? bus = some i) :
    Serviced cpu bus (0, { cpu := { cpu with halted := false }, bus })
  | entered (i : Interrupt) (hei : cpu.eiPending = false) (hime : cpu.ime = true)
    (hpending : pending? bus = some i) : Serviced cpu bus (interruptCycles, cpu.enter bus i)

theorem serviced (cpu : Cpu) (bus : Bus) : Serviced cpu bus (cpu.service bus) := by
  unfold service
  split
  · rename_i hei
    exact .enabled hei
  · rename_i hei
    have hei := Bool.eq_false_iff.2 hei
    split
    · rename_i hoff
      have hquiet : cpu.ime = false ∧ cpu.halted = false := by simpa using hoff
      exact .passed hei (Or.inl hquiet)
    · split
      · rename_i hnone
        exact .passed hei (Or.inr hnone)
      · rename_i i hpending
        split
        · rename_i hime
          exact .entered i hei hime hpending
        · rename_i hime
          exact .woken i hei (Bool.eq_false_iff.2 hime) hpending

/-! ## Opcodes without an instruction -/

namespace Instruction

/-- The opcodes that have no instruction. -/
def unassigned : List UInt8 :=
  [0xd3, 0xdb, 0xdd, 0xe3, 0xe4, 0xeb, 0xec, 0xed, 0xf4, 0xfc, 0xfd]

theorem decode?_of_unassigned : ∀ opcode ∈ unassigned, decode? opcode = none := by
  decide +kernel

theorem mem_unassigned_of_decodeLast? {opcode : UInt8} (h : decodeLast? opcode = none) :
    opcode ∈ unassigned := by
  unfold decodeLast? at h
  split at h
  all_goals first | contradiction | decide | skip
  -- What the table does not list has an instruction for each of its low bits.
  dsimp only at h
  split at h <;> contradiction

theorem decode?_eq_none_iff (opcode : UInt8) : decode? opcode = none ↔ opcode ∈ unassigned := by
  constructor
  · intro h
    unfold decode? at h
    split at h
    · contradiction
    · split at h <;> contradiction
    · contradiction
    · exact mem_unassigned_of_decodeLast? h
  · exact decode?_of_unassigned opcode

end Instruction

/-- A step fails with an opcode that has no instruction, which it has read then and nothing more. -/
theorem step_eq_error_iff (cpu : Cpu) (bus : Bus) (fault : Fault) (core : Core) :
    cpu.step bus = .error fault core ↔
      cpu.halted = false ∧ bus.read cpu.regs.pc ∈ Instruction.unassigned ∧
        fault = .illegalOpcode (bus.read cpu.regs.pc) cpu.regs.pc ∧
        core = { cpu := cpu.skip 1, bus } := by
  have hopcode : cpu.opcode bus.read = bus.read cpu.regs.pc := rfl
  have hstepped := cpu.stepped bus
  rw [← Instruction.decode?_eq_none_iff]
  generalize cpu.step bus = r at hstepped
  cases hstepped with
  | waited hhalted => simp [hhalted]
  | illegal hrunning hdecode =>
    rw [hopcode] at hdecode ⊢
    simp [hrunning, hdecode, eq_comm]
  | ran i hrunning hdecode =>
    rw [hopcode] at hdecode
    simp [hdecode]

/-! ## The flag register -/

/-- The bits of `f` that are no flags are clear. -/
def FlagsOnly (cpu : Cpu) : Prop := cpu.regs.f &&& 0x0f = 0

theorem Flags.toByte_and_0x0f (f : Flags) : f.toByte &&& 0x0f = 0 := by
  obtain ⟨z, n, h, c⟩ := f
  cases z <;> cases n <;> cases h <;> cases c <;> rfl

theorem FlagsOnly.of_f_eq (h : cpu.FlagsOnly) (hf : cpu'.regs.f = cpu.regs.f) :
    cpu'.FlagsOnly := by
  unfold FlagsOnly
  rw [hf]
  exact h

theorem flagsOnly_setFlags (cpu : Cpu) (f : Flags) : (cpu.setFlags f).FlagsOnly :=
  f.toByte_and_0x0f

theorem Registers.f_setPair (r : Registers) (p : Pair) (w : UInt16) : (r.setPair p w).f = r.f := by
  cases p <;> rfl

theorem f_put (cpu : Cpu) (o : Operand) (v : UInt8) : (cpu.put o v).cpu.regs.f = cpu.regs.f := by
  cases o <;> rfl

theorem f_movePointer (cpu : Cpu) (p : Pointer) : (cpu.movePointer p).regs.f = cpu.regs.f := by
  cases p <;> rfl

/-- The one way to load `f` from outside, which does not take all of its bits. -/
theorem FlagsOnly.setStackPair (h : cpu.FlagsOnly) (p : StackPair) (w : UInt16) :
    (cpu.setStackPair p w).FlagsOnly := by
  cases p with
  | bc | de | hl => exact h
  | af =>
    have hclear : (Word.low w &&& 0xf0) &&& 0x0f = 0 := by
      rw [UInt8.and_assoc]
      exact UInt8.and_zero
    exact hclear

theorem FlagsOnly.executeExtended (h : cpu.FlagsOnly) (view : View) (i : Extended) :
    (cpu.executeExtended view i).cpu.FlagsOnly := by
  cases i with
  | shift s o => exact (flagsOnly_setFlags cpu _).of_f_eq (f_put _ o _)
  | bit i o => exact flagsOnly_setFlags cpu _
  | res i o => exact h.of_f_eq (f_put cpu o _)
  | set i o => exact h.of_f_eq (f_put cpu o _)

theorem FlagsOnly.execute (h : cpu.FlagsOnly) (view : View) (i : Instruction) :
    (cpu.execute view i).cpu.FlagsOnly := by
  cases i with
  | nop | stop | halt | di | ei => exact h
  | extended =>
    have hskip : (cpu.skip 1).FlagsOnly := h
    exact hskip.executeExtended view _
  | rlca | rrca | rla | rra | daa | cpl | scf | ccf => exact flagsOnly_setFlags _ _
  | load dst src => exact h.of_f_eq (f_put cpu dst _)
  | loadImmediate dst => exact h.of_f_eq (f_put (cpu.skip 1) dst _)
  | storeAt p => exact h.of_f_eq (f_movePointer cpu p)
  | loadFrom p => exact h.of_f_eq (f_movePointer _ p)
  | storeHigh | loadHigh | storeHighC | loadHighC | storeAbsolute | loadAbsolute => exact h
  | inc o | dec o => exact (flagsOnly_setFlags cpu _).of_f_eq (f_put _ o _)
  | alu | aluImmediate => exact flagsOnly_setFlags _ _
  | loadPair p | incPair p | decPair p => exact h.of_f_eq (Registers.f_setPair _ p _)
  | addHl => exact flagsOnly_setFlags _ _
  | push => exact h
  | pop p =>
    have hpopped : cpu.popped.FlagsOnly := h
    exact hpopped.setStackPair p _
  | storeSp => exact h
  | addSp | loadHlSp => exact flagsOnly_setFlags _ _
  | loadSpHl => exact h
  | jr k | jp k | call k | ret k =>
    simp only [Cpu.execute]
    split
    · exact h
    · exact h
  | jpHl | reti | rst => exact h

/-! ## Cycles -/

/-- The lengths an instruction can have: one to six machine cycles of four cycles each. -/
def Lasts (t : Nat) : Prop := 4 ∣ t ∧ 4 ≤ t ∧ t ≤ 24

instance (t : Nat) : Decidable (Lasts t) := inferInstanceAs (Decidable (_ ∧ _))

theorem extra_put (cpu : Cpu) (o : Operand) (v : UInt8) : (cpu.put o v).extra = 0 := by
  cases o <;> rfl

theorem Extended.lasts_cost (i : Extended) : Lasts (4 + i.cost) := by
  unfold cost
  split <;> decide

theorem lasts_execute (cpu : Cpu) (view : View) (i : Instruction) :
    Lasts (i.cost + (cpu.execute view i).extra) := by
  have h4 : Lasts 4 := by decide
  have h8 : Lasts 8 := by decide
  have h12 : Lasts 12 := by decide
  have h16 : Lasts 16 := by decide
  have h20 : Lasts 20 := by decide
  have h24 : Lasts 24 := by decide
  cases i with
  | nop | stop | halt | di | ei | jpHl => exact h4
  | rlca | rrca | rla | rra | daa | cpl | scf | ccf => exact h4
  | extended => exact (cpu.nextExtended view).lasts_cost
  | storeAt | loadFrom | storeHighC | loadHighC | aluImmediate | loadSpHl => exact h8
  | incPair | decPair | addHl => exact h8
  | storeHigh | loadHigh | loadPair | pop | loadHlSp => exact h12
  | storeAbsolute | loadAbsolute | push | addSp | reti | rst => exact h16
  | storeSp => exact h20
  | load dst src =>
    rw [execute, extra_put, Instruction.cost]
    split_ifs
    · exact h8
    · exact h4
  | loadImmediate dst =>
    rw [execute, extra_put, Instruction.cost]
    split_ifs
    · exact h12
    · exact h8
  | inc o | dec o =>
    simp only [execute, extra_put, Instruction.cost]
    split_ifs
    · exact h12
    · exact h4
  | alu op o =>
    have hcost : Lasts (Instruction.alu op o).cost := by
      rw [Instruction.cost]
      split_ifs
      · exact h8
      · exact h4
    exact hcost
  -- A transfer that is not taken has only its own cost, and so has one without a condition.
  | jr k =>
    simp only [execute]
    cases k with
    | none => split <;> exact h12
    | some condition =>
      split
      · exact h12
      · exact h8
  | jp k =>
    simp only [execute]
    cases k with
    | none => split <;> exact h16
    | some condition =>
      split
      · exact h16
      · exact h12
  | call k =>
    simp only [execute]
    cases k with
    | none => split <;> exact h24
    | some condition =>
      split
      · exact h24
      · exact h12
  | ret k =>
    simp only [execute]
    cases k with
    | none => split <;> exact h16
    | some condition =>
      split
      · exact h20
      · exact h8

theorem lasts_step {bus : Bus} {t : Nat} {core : Core} (h : cpu.step bus = .ok t core) :
    Lasts t := by
  have hstepped := cpu.stepped bus
  rw [h] at hstepped
  cases hstepped with
  | waited => decide
  | ran i => exact lasts_execute (cpu.skip 1) bus.read i

/-! ## Steps and services -/

theorem FlagsOnly.step (h : cpu.FlagsOnly) (bus : Bus) :
    (stateAfter (cpu.step bus)).cpu.FlagsOnly := by
  have hstepped := cpu.stepped bus
  have hskip : (cpu.skip 1).FlagsOnly := h
  generalize cpu.step bus = r at hstepped
  cases hstepped with
  | waited => exact h
  | illegal => exact hskip
  | ran i => exact hskip.execute bus.read i

theorem FlagsOnly.service (h : cpu.FlagsOnly) (bus : Bus) :
    (cpu.service bus).2.cpu.FlagsOnly := by
  have hserviced := cpu.serviced bus
  generalize cpu.service bus = r at hserviced
  cases hserviced with
  | enabled | passed | woken | entered => exact h

theorem eiPending_service (cpu : Cpu) (bus : Bus) :
    (cpu.service bus).2.cpu.eiPending = false := by
  have hserviced := cpu.serviced bus
  generalize cpu.service bus = r at hserviced
  cases hserviced with
  | enabled => rfl
  | passed hei => exact hei
  | woken i hei => exact hei
  | entered i hei => exact hei

theorem flagsOnly_powerOn : powerOn.FlagsOnly := rfl

end Cpu

end Handheld
