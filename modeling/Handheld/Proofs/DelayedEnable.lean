import Handheld.Proofs.RomWindows
import Handheld.Proofs.StepOutcomes

/-!
# Interrupts come on one instruction late

`EI` only notes that interrupts are wanted. They are on once its step ends, too late for a handler
to be entered, so the instruction behind it always runs. If that turns them off again, nothing was
let in.
-/

namespace Handheld

/-! ## The switches -/

namespace Cpu

/-- What of a processor is not in its registers. -/
structure Switches where
  halted : Bool
  ime : Bool
  eiPending : Bool

def switches (cpu : Cpu) : Switches := ⟨cpu.halted, cpu.ime, cpu.eiPending⟩

/-- The six instructions that touch a switch. -/
def Instruction.switch (i : Instruction) (s : Switches) : Switches :=
  match i with
  | stop | halt => { s with halted := true }
  | di => { s with ime := false, eiPending := false }
  | ei => { s with eiPending := true }
  | reti => { s with ime := true }
  | _ => s

theorem switches_put (cpu : Cpu) (o : Operand) (v : UInt8) :
    (cpu.put o v).cpu.switches = cpu.switches := by
  cases o <;> rfl

theorem switches_movePointer (cpu : Cpu) (p : Pointer) :
    (cpu.movePointer p).switches = cpu.switches := by
  cases p <;> rfl

theorem switches_setStackPair (cpu : Cpu) (p : StackPair) (w : UInt16) :
    (cpu.setStackPair p w).switches = cpu.switches := by
  cases p <;> rfl

theorem switches_executeExtended (cpu : Cpu) (view : View) (i : Extended) :
    (cpu.executeExtended view i).cpu.switches = cpu.switches := by
  cases i with
  | bit n o => rfl
  | shift s o | res n o | set n o => exact switches_put _ o _

theorem switches_execute (cpu : Cpu) (view : View) (i : Instruction) :
    (cpu.execute view i).cpu.switches = i.switch cpu.switches := by
  cases i with
  | extended => exact switches_executeExtended (cpu.skip 1) view _
  | load dst src | loadImmediate dst => exact switches_put _ dst _
  | inc o | dec o => exact switches_put _ o _
  | storeAt p | loadFrom p => exact switches_movePointer _ p
  | pop p => exact switches_setStackPair _ p _
  | jr k | jp k | call k | ret k =>
    simp only [execute]
    split <;> rfl
  | _ => rfl

/-- Interrupts are on, and not only wanted. -/
def Enabled (cpu : Cpu) : Prop := cpu.ime = true ∧ cpu.eiPending = false

theorem Enabled.execute {cpu : Cpu} (h : cpu.Enabled) (view : View) {i : Instruction}
    (hei : i ≠ .ei) (hdi : i ≠ .di) : (cpu.execute view i).cpu.Enabled := by
  have hswitches := cpu.switches_execute view i
  generalize (cpu.execute view i).cpu = next at hswitches
  obtain ⟨hime, hpending⟩ := h
  unfold switches Instruction.switch at hswitches
  split at hswitches <;> simp_all [Enabled]

end Cpu

/-! ## Two steps -/

namespace Board

open Cpu (Instruction)

theorem step_ei {board : Board} (hrunning : board.cpu.halted = false)
    (hdecode : Instruction.decode? (board.bus.read board.cpu.regs.pc) = some .ei) :
    ∃ entry, board.atEntry? = some entry ∧
      board.step = .ok 4
        { entry.unentered 4 with
          cpu := { board.cpu.skip 1 with ime := true, eiPending := false } } := by
  have hstep := Cpu.step_running hrunning hdecode
  have hentry := atEntry?_of_step hstep
  refine ⟨_, hentry, ?_⟩
  rw [step_of_atEntry hstep hentry]
  rfl

theorem step_di {board : Board} (hrunning : board.cpu.halted = false)
    (hdecode : Instruction.decode? (board.bus.read board.cpu.regs.pc) = some .di) :
    ∃ entry, board.atEntry? = some entry ∧
      entry.cpu = { board.cpu.skip 1 with ime := false, eiPending := false } ∧
      board.step = .ok 4 (entry.unentered 4) := by
  have hstep := Cpu.step_running hrunning hdecode
  have hentry := atEntry?_of_step hstep
  have hskip : (board.cpu.skip 1).halted = false := hrunning
  refine ⟨_, hentry, rfl, step_unentered hstep hentry ?_⟩
  simp [Cpu.service, Cpu.execute, Cpu.Effect.ofCpu, hskip]

end Board

namespace Machine

open Cpu (Enabled Instruction)

/-- The step of a machine that comes to `entry` after `used` cycles enters the handler of the lowest
line that is requested and enabled there, and none if there is no such line. -/
structure EntersLowest (m : Machine) (entry : Board) (used : Nat) : Prop where
  quiet : entry.bus.interruptFlags &&& entry.bus.interruptEnable = 0 →
    m.step = .ok used { m with board := entry.unentered used }
  due : entry.bus.interruptFlags &&& entry.bus.interruptEnable ≠ 0 →
    ∃ n next, LowestBit (entry.bus.interruptFlags &&& entry.bus.interruptEnable) n ∧
      m.step = .ok (used + 20) { m with board := next } ∧
      Board.HandlerEntered entry next n (used + 20)

theorem entersLowest_of_enabled {m : Machine} (hrange : m.board.InRange)
    (henabled : m.board.cpu.Enabled) (hrunning : m.board.cpu.halted = false) {i : Instruction}
    (hdecode : Instruction.decode? (m.board.bus.read m.board.cpu.regs.pc) = some i)
    (hei : i ≠ .ei) (hdi : i ≠ .di) :
    ∃ used core entry, m.board.cpu.step m.board.bus = .ok used core ∧
      m.board.atEntry? = some entry ∧ entry.cpu = core.cpu ∧ EntersLowest m entry used := by
  have hstep := Cpu.step_running hrunning hdecode
  have hentry := Board.atEntry?_of_step hstep
  have hskip : (m.board.cpu.skip 1).Enabled := henabled
  obtain ⟨hime, hpending⟩ := hskip.execute m.board.bus.read hei hdi
  obtain ⟨hquiet, hdue⟩ := Board.step_of_ime hstep hentry hpending hime
  rw [(hrange.atEntry hentry).due_eq] at hquiet hdue
  refine ⟨_, _, _, hstep, hentry, rfl, ?_, ?_⟩
  · intro hzero
    exact step_of_board_step (hquiet hzero)
  · intro hne
    obtain ⟨n, next, hlowest, hnext, hentered⟩ := hdue hne
    exact ⟨n, next, hlowest, step_of_board_step hnext, hentered⟩

/-- A step at `EI` enters no handler, whatever is pending, and turns interrupts on. The step after
it runs its instruction first. If that is `DI`, no handler is entered and interrupts are off again;
if it is no other `EI` either, the step enters the handler of the lowest line that is due by
then. -/
theorem ei_late {m : Machine} (h : Reachable m) (hrunning : m.board.cpu.halted = false)
    (hdecode : Instruction.decode? (m.board.bus.read m.board.cpu.regs.pc) = some .ei) :
    ∃ entry next, m.board.atEntry? = some entry ∧ m.step = .ok 4 next ∧
      next.board =
        { entry.unentered 4 with
          cpu := { m.board.cpu.skip 1 with ime := true, eiPending := false } } ∧
      (∀ i, Instruction.decode? (next.board.bus.read next.board.cpu.regs.pc) = some i →
        i ≠ .ei → i ≠ .di →
        ∃ used core entry', next.board.cpu.step next.board.bus = .ok used core ∧
          next.board.atEntry? = some entry' ∧ entry'.cpu = core.cpu ∧
          EntersLowest next entry' used) ∧
      (Instruction.decode? (next.board.bus.read next.board.cpu.regs.pc) = some .di →
        ∃ entry', next.board.atEntry? = some entry' ∧
          entry'.cpu = { next.board.cpu.skip 1 with ime := false, eiPending := false } ∧
          next.step = .ok 4 { next with board := entry'.unentered 4 }) := by
  obtain ⟨entry, hentry, hstep⟩ := Board.step_ei hrunning hdecode
  obtain ⟨next, hnext, hboard⟩ : ∃ next, m.step = .ok 4 next ∧ next.board =
      { entry.unentered 4 with
        cpu := { m.board.cpu.skip 1 with ime := true, eiPending := false } } :=
    ⟨_, step_of_board_step hstep, rfl⟩
  have hrange := inRange_reachable (h.act .step)
  rw [act, hnext] at hrange
  have hrunning' : next.board.cpu.halted = false := by
    rw [hboard]
    exact hrunning
  have henabled : next.board.cpu.Enabled := by
    rw [hboard]
    exact ⟨rfl, rfl⟩
  refine ⟨entry, next, hentry, hnext, hboard, ?_, ?_⟩
  · intro i hi hei hdi
    exact entersLowest_of_enabled hrange henabled hrunning' hi hei hdi
  · intro hdi
    obtain ⟨entry', hentry', hcpu, hstep'⟩ := Board.step_di hrunning' hdi
    exact ⟨entry', hentry', hcpu, step_of_board_step hstep'⟩

/-- `EI` and `NOP`, where the program starts. -/
def eiImage : ByteArray := ⟨(Array.replicate 0x150 0).set! 0x100 0xfb⟩

/-- The first line is due all the while, but its handler is entered behind the `NOP`. -/
theorem ei_late_eiImage :
    ∃ m next last, Reachable m ∧ m.board.cpu.halted = false ∧
      Instruction.decode? (m.board.bus.read m.board.cpu.regs.pc) = some .ei ∧
      m.board.bus.due = 1 ∧ m.step = .ok 4 next ∧ next.board.cpu.regs.pc = 0x101 ∧
      next.step = .ok 24 last ∧ last.board.cpu.regs.pc = 0x40 ∧
      last.board.cpu.regs.sp = 0xfffc := by
  obtain ⟨m, kind, hreach, -, hwindow, hcpu, hflags, henable⟩ :=
    exists_reachable eiImage {} (by decide +kernel) 1 1
  have hrunning : m.board.cpu.halted = false := by rw [hcpu]; rfl
  have hdecode : Instruction.decode? (m.board.bus.read m.board.cpu.regs.pc) = some .ei := by
    rw [hcpu, (hwindow.read_lower (by decide)).2]
    decide +kernel
  obtain ⟨entry, next, hentry, hnext, hboard, hsecond, -⟩ := ei_late hreach hrunning hdecode
  have hwindow' : Bus.Windowed eiImage kind next.board.bus := by
    have hact := windowed_act hwindow .step
    rw [act, hnext] at hact
    exact hact
  have hrunning' : next.board.cpu.halted = false := by rw [hboard]; exact hrunning
  have hpc' : next.board.cpu.regs.pc = 0x101 := by rw [hboard, hcpu]; rfl
  have hdecode' : Instruction.decode? (next.board.bus.read next.board.cpu.regs.pc) =
      some .nop := by
    rw [hpc', (hwindow'.read_lower (by decide)).2]
    decide +kernel
  obtain ⟨used, core, entry', hcore, hentry', hcpu', henters⟩ :=
    hsecond .nop hdecode' (by decide) (by decide)
  -- Neither instruction writes, so the line stays requested and enabled.
  have hstores := Cpu.stores_of_decode hrunning hdecode
  have hstores' := Cpu.stores_of_decode hrunning' hdecode'
  have hkept : Kept 1 entry'.bus.interruptFlags := by
    have hfirst := Board.interruptFlags_atEntry hentry hstores
    have hserial := Bus.kept_serial entry.bus 4
    have hlast := Board.interruptFlags_atEntry hentry' hstores'
    rw [hflags] at hfirst
    rw [hboard] at hlast
    exact (hfirst.trans hserial).trans hlast
  have henable' : entry'.bus.interruptEnable = 1 := by
    rw [Board.interruptEnable_atEntry hentry' hstores', hboard]
    exact (Board.interruptEnable_serial _ _).trans
      ((Board.interruptEnable_atEntry hentry hstores).trans henable)
  have hlines : entry'.bus.interruptFlags &&& entry'.bus.interruptEnable = 1 := by
    rw [henable', UInt8.and_comm]
    exact hkept
  obtain ⟨n, last, hlowest, hlast, hentered⟩ := henters.due (by rw [hlines]; decide)
  have hn : n = 0 := by
    by_contra hne
    rw [hlines] at hlowest
    have hclear := hlowest.2 0 (Nat.pos_of_ne_zero hne)
    contradiction
  have hused : used = 4 ∧ core.cpu.regs.sp = 0xfffe := by
    rw [Cpu.step_running hrunning' hdecode', hboard, hcpu] at hcore
    cases hcore
    exact ⟨rfl, rfl⟩
  rw [hused.1] at hlast
  refine ⟨m, next, _, hreach, hrunning, hdecode, ?_, hnext, hpc', hlast, ?_, ?_⟩
  · rw [Bus.due, hflags, henable]
    rfl
  · dsimp only
    rw [hentered.processor, hn]
    rfl
  · dsimp only
    rw [hentered.processor, hcpu', hused.2]
    rfl

end Machine

end Handheld
