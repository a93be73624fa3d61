import Handheld.Proofs.HandlerEntry
import Handheld.Proofs.HardwareOrder
import Handheld.Proofs.MachineRanges

/-!
# How a step ends

Once the instruction is done and the hardware has caught up, a step enters the handler of the
lowest line that is requested and enabled, or none. Which of the two it is hangs on the three
switches of the processor.
-/

namespace Handheld

/-! ## The lines -/

namespace Bus

/-- There are five lines, so those that are due are all that are requested and enabled. -/
theorem InRange.due_eq {bus : Bus} (h : bus.InRange) :
    bus.due = bus.interruptFlags &&& bus.interruptEnable := by
  have hall : (0x1f ||| 0xe0 : UInt8) = -1 := by decide
  have hclear : 0xe0 &&& bus.interruptFlags = 0 := by rw [UInt8.and_comm, h.flags]
  have hflags : 0x1f &&& bus.interruptFlags = bus.interruptFlags := by
    rw [← or_and_of_and_eq_zero 0x1f hclear, hall, UInt8.neg_one_and]
  rw [due, UInt8.and_comm, ← UInt8.and_assoc, hflags]

end Bus

namespace Board

variable {board entry : Board} {used : Nat} {core : Cpu.Core}

theorem InRange.atEntry (h : board.InRange) (hentry : board.atEntry? = some entry) :
    entry.bus.InRange := by
  obtain ⟨t, core, hstep, rfl⟩ := exists_of_atEntry? hentry
  have hchanges := Cpu.changes_step board.cpu board.bus
  rw [hstep] at hchanges
  have hticked := (h.bus.changes hchanges).tick (Cpu.lasts_step hstep).1
  exact hticked.changes (PictureUnit.changes_step _ _ t)

/-! An instruction that writes nothing leaves alone which lines are enabled, and takes no request
back. -/

theorem interruptEnable_atEntry (hentry : board.atEntry? = some entry)
    (hstores : board.cpu.stores board.bus = []) :
    entry.bus.interruptEnable = board.bus.interruptEnable := by
  obtain ⟨t, core, hstep, rfl⟩ := exists_of_atEntry? hentry
  have hcore : core.bus.interruptEnable = board.bus.interruptEnable := by
    obtain ⟨log, hbus⟩ := Cpu.bus_step hstep
    rw [hbus, hstores]
    rfl
  have htick : (core.bus.tick t).interruptEnable = core.bus.interruptEnable :=
    Bus.apply_tick (f := Bus.interruptEnable) _ (fun _ _ _ => rfl) (fun _ _ => rfl) t
  have hpicture := PictureUnit.apply_step (f := Bus.interruptEnable) (fun _ _ _ => rfl)
    (fun _ _ => rfl) board.picture (core.bus.tick t) t
  exact hpicture.trans (htick.trans hcore)

theorem interruptFlags_atEntry (hentry : board.atEntry? = some entry)
    (hstores : board.cpu.stores board.bus = []) :
    Kept board.bus.interruptFlags entry.bus.interruptFlags := by
  refine kept_atEntry hentry ?_
  rw [hstores]
  exact List.forall_mem_nil _

theorem interruptEnable_serial (bus : Bus) (cycles : Nat) :
    (bus.serial cycles).interruptEnable = bus.interruptEnable :=
  bus.apply_serial (f := Bus.interruptEnable) (fun _ _ => rfl) (fun _ _ => rfl) cycles

/-! ## Both ways to end -/

theorem step_of_atEntry (hstep : board.cpu.step board.bus = .ok used core)
    (hentry : board.atEntry? = some entry) :
    board.step = .ok (used + (entry.cpu.service entry.bus).1)
      { cpu := (entry.cpu.service entry.bus).2.cpu
        bus := (entry.cpu.service entry.bus).2.bus.serial
          (used + (entry.cpu.service entry.bus).1)
        picture := entry.picture } := by
  obtain ⟨cpu, bus, picture⟩ := board
  unfold atEntry? at hentry
  unfold step
  dsimp only at hstep hentry ⊢
  rw [hstep] at hentry ⊢
  cases hentry
  rfl

/-- The end of a step of `t` cycles that enters no handler. The serial line moves on, and that is
all. -/
def unentered (entry : Board) (t : Nat) : Board := { entry with bus := entry.bus.serial t }

/-- The end of a step of `t` cycles that enters the handler of the line with bit `n`. The program
counter goes below the stack, by the rules of whatever lies there. -/
structure HandlerEntered (entry next : Board) (n t : Nat) : Prop where
  processor : next.cpu =
    { entry.cpu with
      halted := false
      ime := false
      regs := { entry.cpu.regs with sp := entry.cpu.regs.sp - 2, pc := handlerAddress n } }
  bus : ∃ flags log,
    (∀ m, flags.toNat.testBit m = (entry.bus.interruptFlags.toNat.testBit m && m != n)) ∧
      next.bus =
        ({ ({ entry.bus with interruptFlags := flags } : Bus).writeWord (entry.cpu.regs.sp - 2)
            entry.cpu.regs.pc with log } : Bus).serial t
  picture : next.picture = entry.picture

theorem handlerEntered_enter (entry : Board) (i : Interrupt) (t : Nat) :
    HandlerEntered entry
      { cpu := (entry.cpu.enter entry.bus i).cpu
        bus := (entry.cpu.enter entry.bus i).bus.serial t
        picture := entry.picture } i.number t where
  processor := by
    rw [← i.vector_eq]
    rfl
  bus := ⟨_, _, Interrupt.testBit_clear entry.bus.interruptFlags i, rfl⟩
  picture := rfl

theorem step_unentered (hstep : board.cpu.step board.bus = .ok used core)
    (hentry : board.atEntry? = some entry)
    (hservice : entry.cpu.service entry.bus = (0, { cpu := entry.cpu, bus := entry.bus })) :
    board.step = .ok used (entry.unentered used) := by
  rw [step_of_atEntry hstep hentry, hservice]
  rfl

theorem service_of_quiet {cpu : Cpu} {bus : Bus} (hei : cpu.eiPending = false)
    (hquiet : bus.due = 0) : cpu.service bus = (0, { cpu, bus }) := by
  simp [Cpu.service, hei, (Cpu.pending?_eq_none_iff bus).2 hquiet]

theorem step_of_ime (hstep : board.cpu.step board.bus = .ok used core)
    (hentry : board.atEntry? = some entry) (hei : entry.cpu.eiPending = false)
    (hime : entry.cpu.ime = true) :
    (entry.bus.due = 0 → board.step = .ok used (entry.unentered used)) ∧
      (entry.bus.due ≠ 0 → ∃ n next, LowestBit entry.bus.due n ∧
        board.step = .ok (used + 20) next ∧ HandlerEntered entry next n (used + 20)) := by
  constructor
  · intro hquiet
    exact step_unentered hstep hentry (service_of_quiet hei hquiet)
  · intro hdue
    obtain ⟨i, hpending⟩ :=
      Option.ne_none_iff_exists'.1 (mt (Cpu.pending?_eq_none_iff entry.bus).1 hdue)
    have hservice : entry.cpu.service entry.bus = (20, entry.cpu.enter entry.bus i) := by
      simp [Cpu.service, Cpu.interruptCycles, hei, hime, hpending]
    refine ⟨i.number, _, Cpu.lowestBit_due hpending, ?_, handlerEntered_enter entry i _⟩
    rw [step_of_atEntry hstep hentry, hservice]

theorem step_of_ime_off (hstep : board.cpu.step board.bus = .ok used core)
    (hentry : board.atEntry? = some entry) (hei : entry.cpu.eiPending = false)
    (hime : entry.cpu.ime = false) :
    board.step = .ok used
      { entry.unentered used with
        cpu := { entry.cpu with halted := entry.cpu.halted && entry.bus.due == 0 } } := by
  rw [step_of_atEntry hstep hentry, Cpu.service_of_ime_off hei hime]
  rfl

/-! ## A waiting processor -/

theorem instruction_of_halted (h : board.cpu.halted = true) :
    board.cpu.step board.bus = .ok 4 { cpu := board.cpu, bus := board.bus } := by
  simp [Cpu.step, Cpu.haltCycles, h]

theorem stores_of_halted (h : board.cpu.halted = true) : board.cpu.stores board.bus = [] := by
  simp [Cpu.stores, h]

theorem atEntry?_of_halted (h : board.cpu.halted = true) :
    board.atEntry? = some
      { cpu := board.cpu
        bus := (board.picture.step (board.bus.tick 4) 4).2.2
        picture := (board.picture.step (board.bus.tick 4) 4).2.1 } :=
  atEntry?_of_step (instruction_of_halted h)

theorem step_of_halted (h : board.cpu.halted = true) (hentry : board.atEntry? = some entry) :
    ∃ next, board.step = .ok (4 + (entry.cpu.service entry.bus).1) next :=
  ⟨_, step_of_atEntry (instruction_of_halted h) hentry⟩

theorem wait_of_halted (h : board.cpu.halted = true) (hei : board.cpu.eiPending = false)
    (hentry : board.atEntry? = some entry) (hcpu : entry.cpu = board.cpu)
    (hquiet : entry.bus.due = 0) : board.step = .ok 4 (entry.unentered 4) := by
  rw [← hcpu] at hei
  exact step_unentered (instruction_of_halted h) hentry (service_of_quiet hei hquiet)

end Board

end Handheld
