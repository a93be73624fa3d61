import Handheld.Proofs.FrameBudget

/-!
# Opcodes without an instruction

Eleven opcodes have no instruction. A running processor that reads one of them fails, and that is
the only way to fail: the opcode is read, and nothing else happens to the machine.
-/

namespace Handheld

open Cpu.Instruction (unassigned)

namespace Machine

/-- The machine reads an opcode that has no instruction. Its program counter is past that byte
then, and all the rest of it is as it was. -/
structure Stops (m : Machine) (fault : Fault) (next : Machine) : Prop where
  running : m.board.cpu.halted = false
  unassigned : m.board.bus.read m.board.cpu.regs.pc ∈ unassigned
  fault : fault = .illegalOpcode (m.board.bus.read m.board.cpu.regs.pc) m.board.cpu.regs.pc
  next : next = { m with board.cpu.regs.pc := m.board.cpu.regs.pc + 1 }

variable {m next : Machine} {fault : Fault}

theorem stops_of_step (h : m.step = .error fault next) : m.Stops fault next := by
  have hboard := board_step_error h
  obtain ⟨hrunning, hopcode, hfault, hnext⟩ := (m.board.step_eq_error_iff _ _).1 hboard
  refine ⟨hrunning, hopcode, hfault, ?_⟩
  rw [step_of_board_error hboard, hnext] at h
  injection h with _ h
  exact h.symm

theorem Stops.step (h : m.Stops fault next) : m.step = .error fault next := by
  obtain ⟨hrunning, hopcode, rfl, rfl⟩ := h
  exact step_of_board_error ((m.board.step_eq_error_iff _ _).2 ⟨hrunning, hopcode, rfl, rfl⟩)

theorem exists_error_iff (m : Machine) :
    (∃ fault next, m.step = .error fault next) ↔
      m.board.cpu.halted = false ∧ m.board.bus.read m.board.cpu.regs.pc ∈ unassigned := by
  constructor
  · rintro ⟨fault, next, h⟩
    exact ⟨(stops_of_step h).running, (stops_of_step h).unassigned⟩
  · rintro ⟨hrunning, hopcode⟩
    exact ⟨_, _, Stops.step ⟨hrunning, hopcode, rfl, rfl⟩⟩

theorem exists_ok_of_assigned (h : m.board.bus.read m.board.cpu.regs.pc ∉ unassigned) :
    ∃ t next, m.step = .ok t next := by
  cases hstep : m.step with
  | ok t next => exact ⟨t, next, rfl⟩
  | error fault next => exact absurd (stops_of_step hstep).unassigned h

theorem exists_stops_of_runFrame (h : m.runFrame = .error fault next) :
    ∃ k, ∃ run : Steps k, run.machine 0 = m ∧ (run.machine k).Stops fault next := by
  obtain ⟨k, run, hfirst, -, hends⟩ := exists_steps m m.config.frameBudget 0 m.board
  refine ⟨k, run, hfirst, ?_⟩
  rcases hends with ⟨-, last, -, hresult⟩ | ⟨-, fault, last, hstep, hresult⟩
  · rw [runFrame_of_runUntil_ok hresult] at h
    contradiction
  · rw [runFrame_of_runUntil_error hresult] at h
    cases h
    exact stops_of_step hstep

/-- A step fails if and only if the processor is running and reads one of the eleven opcodes that
have no instruction, whatever else there is. The fault names the opcode and its address, and the
machine is left as it was with its program counter one byte on. Behind 0xcb every byte is an
instruction. A frame fails in the same way, after steps that do not. -/
theorem illegal_opcode_stops (m : Machine) :
    ((∃ fault next, m.step = .error fault next) ↔
        m.board.cpu.halted = false ∧
          m.board.bus.read m.board.cpu.regs.pc ∈ unassigned) ∧
      (∀ fault next, m.step = .error fault next →
        fault = .illegalOpcode (m.board.bus.read m.board.cpu.regs.pc) m.board.cpu.regs.pc ∧
          next = { m with board.cpu.regs.pc := m.board.cpu.regs.pc + 1 } ∧
          next.board.cpu.regs.pc.toNat = (m.board.cpu.regs.pc.toNat + 1) % 65536) ∧
      (m.board.bus.read m.board.cpu.regs.pc = 0xcb → ∃ t next, m.step = .ok t next) ∧
      ∀ fault next, m.runFrame = .error fault next →
        ∃ k, ∃ run : Steps k, run.machine 0 = m ∧ (run.machine k).Stops fault next := by
  refine ⟨exists_error_iff m, ?_, ?_, fun fault next => exists_stops_of_runFrame⟩
  · intro fault next h
    have hstops := stops_of_step h
    refine ⟨hstops.fault, hstops.next, ?_⟩
    rw [hstops.next]
    exact UInt16.toNat_add _ _
  · intro h
    apply exists_ok_of_assigned
    rw [h]
    decide

/-- A machine about to read the last byte of the address space, which is `opcode`. -/
def atTop (opcode : UInt8) : Machine :=
  { board :=
      { cpu := { regs := { Cpu.Registers.powerOn with pc := 0xffff } }
        bus := { (default : Bus) with interruptEnable := opcode } }
    config := {}
    header := default }

theorem illegal_opcode_stops_at_top :
    ∃ next, (atTop 0xd3).step = .error (.illegalOpcode 0xd3 0xffff) next ∧
      next.board.cpu.regs.pc = 0 ∧ next.board.bus = (atTop 0xd3).board.bus ∧
      (atTop 0xd3).runFrame = .error (.illegalOpcode 0xd3 0xffff) next ∧
      (∃ k, ∃ run : Steps k, run.machine 0 = atTop 0xd3 ∧
        (run.machine k).Stops (.illegalOpcode 0xd3 0xffff) next) ∧
      ∃ t next, (atTop 0xcb).step = .ok t next := by
  obtain ⟨hfails, hstate, -, hframe⟩ := illegal_opcode_stops (atTop 0xd3)
  obtain ⟨fault, next, hstep⟩ := hfails.2 ⟨rfl, by decide⟩
  obtain ⟨rfl, rfl, -⟩ := hstate fault next hstep
  have hbudget : 0 < (atTop 0xd3).config.frameBudget := by decide
  have hrun := runFrame_of_runUntil_error
    (Board.runUntil_of_step_error hbudget (board_step_error hstep))
  exact ⟨_, hstep, rfl, rfl, hrun, hframe _ _ hrun, (illegal_opcode_stops (atTop 0xcb)).2.2.1 rfl⟩

end Machine

end Handheld
