import Handheld.Proofs.InstructionLengths

/-!
# Into a handler and back

Between two instructions the processor enters the handler of the lowest requested line that is
enabled, and an instruction that returns from there puts it back where it was. With interrupts off
such a line only ends a wait.
-/

namespace Handheld

/-! ## The lowest line -/

/-- The bit with this number is set and none below it. -/
def LowestBit (b : UInt8) (n : Nat) : Prop :=
  b.toNat.testBit n = true ∧ ∀ m < n, b.toNat.testBit m = false

instance (b : UInt8) (n : Nat) : Decidable (LowestBit b n) := inferInstanceAs (Decidable (_ ∧ _))

theorem testBit_of_eight_le (b : UInt8) {m : Nat} (h : 8 ≤ m) : b.toNat.testBit m = false := by
  apply Nat.testBit_lt_two_pow
  exact Nat.lt_of_lt_of_le b.toNat_lt (Nat.pow_le_pow_right (by decide) h)

def Bus.due (bus : Bus) : UInt8 := bus.interruptFlags &&& bus.interruptEnable &&& 0x1f

def handlerAddress (n : Nat) : UInt16 := 0x40 + 8 * UInt16.ofNat n

namespace Interrupt

def number : Interrupt → Nat
  | vBlank => 0
  | lcdStat => 1
  | timer => 2
  | serial => 3
  | joypad => 4

theorem number_lt (i : Interrupt) : i.number < 5 := by
  cases i <;> decide

theorem toNat_mask (i : Interrupt) : i.mask.toNat = 2 ^ i.number := by
  cases i <;> rfl

theorem vector_eq (i : Interrupt) : i.vector = handlerAddress i.number := by
  cases i <;> rfl

theorem mask_ne_zero_iff (i : Interrupt) (lines : UInt8) :
    lines &&& i.mask ≠ 0 ↔ lines.toNat.testBit i.number = true :=
  and_ne_zero_iff_testBit lines i.toNat_mask

theorem number_getElem_all (k : Nat) (hk : k < all.length) : all[k].number = k := by
  have hnumbers : ∀ k : Fin 5, (all.get k).number = k := by decide
  exact hnumbers ⟨k, hk⟩

theorem lowestBit_of_first? {lines : UInt8} {i : Interrupt} (h : first? lines = some i) :
    LowestBit lines i.number := by
  unfold first? at h
  obtain ⟨hset, k, hk, rfl, hlower⟩ := List.find?_eq_some_iff_getElem.1 h
  rw [bne_iff_ne, mask_ne_zero_iff] at hset
  refine ⟨hset, ?_⟩
  intro m hm
  rw [number_getElem_all k hk] at hm
  have hclear := hlower m hm
  rw [Bool.not_eq_true', ← Bool.not_eq_true, bne_iff_ne, mask_ne_zero_iff,
    number_getElem_all m (Nat.lt_trans hm hk)] at hclear
  exact Bool.eq_false_iff.2 hclear

theorem first?_eq_none_iff_and {lines : UInt8} : first? lines = none ↔ lines &&& 0x1f = 0 := by
  rw [first?_eq_none_iff]
  constructor
  · intro hclear
    have hmasks : (0x1f : UInt8) =
        vBlank.mask ||| (lcdStat.mask ||| (timer.mask ||| (serial.mask ||| joypad.mask))) := by
      decide
    have hclear' : ∀ i : Interrupt, i.mask &&& lines = 0 := fun i => by rw [UInt8.and_comm, hclear]
    rw [UInt8.and_comm, hmasks]
    simp only [KeySet.or_and, hclear', UInt8.or_zero]
  · intro hclear i
    have hmask : 0x1f &&& i.mask = i.mask := by cases i <;> decide
    rw [← hmask, ← UInt8.and_assoc, hclear, UInt8.zero_and]

theorem testBit_clear (flags : UInt8) (i : Interrupt) (m : Nat) :
    (flags &&& ~~~i.mask).toNat.testBit m = (flags.toNat.testBit m && m != i.number) := by
  have hmask : ∀ m < 8, (~~~i.mask).toNat.testBit m = (m != i.number) := by
    cases i <;> decide
  rw [UInt8.toNat_and, Nat.testBit_and]
  by_cases hm : m < 8
  · rw [hmask m hm]
  · rw [testBit_of_eight_le flags (Nat.le_of_not_lt hm), Bool.false_and, Bool.false_and]

end Interrupt

/-! ## Addresses that only store -/

def InWorkRam (a : UInt16) : Prop := 0xc000 ≤ a ∧ a < 0xe000

def InHighRam (a : UInt16) : Prop := 0xff80 ≤ a ∧ a < 0xffff

instance (a : UInt16) : Decidable (InWorkRam a) := inferInstanceAs (Decidable (_ ∧ _))

instance (a : UInt16) : Decidable (InHighRam a) := inferInstanceAs (Decidable (_ ∧ _))

theorem InWorkRam.plain {a : UInt16} (h : InWorkRam a) : Region.ofAddress a = .plain := by
  grind [InWorkRam, Region.ofAddress]

theorem InHighRam.plain {a : UInt16} (h : InHighRam a) : Region.ofAddress a = .plain := by
  have hregister : Region.ofAddress a = .ofRegister a := by grind [InHighRam, Region.ofAddress]
  rw [hregister]
  fun_cases Region.ofRegister a <;> grind [InHighRam]

namespace Cpu

/-- The two bytes below the top of the stack are both in work RAM or both in high RAM. -/
def StackInRam (cpu : Cpu) : Prop :=
  InWorkRam (cpu.regs.sp - 2) ∧ InWorkRam (cpu.regs.sp - 1) ∨
    InHighRam (cpu.regs.sp - 2) ∧ InHighRam (cpu.regs.sp - 1)

instance (cpu : Cpu) : Decidable cpu.StackInRam := inferInstanceAs (Decidable (_ ∨ _))

theorem StackInRam.plain {cpu : Cpu} (h : cpu.StackInRam) :
    Region.ofAddress (cpu.regs.sp - 2) = .plain ∧ Region.ofAddress (cpu.regs.sp - 1) = .plain := by
  rcases h with ⟨hlow, hhigh⟩ | ⟨hlow, hhigh⟩
  · exact ⟨hlow.plain, hhigh.plain⟩
  · exact ⟨hlow.plain, hhigh.plain⟩

theorem storeAll_pushes {cpu : Cpu} (h : cpu.StackInRam) (bus : Bus) (w : UInt16) :
    bus.storeAll (cpu.pushes w) =
      (bus.store (cpu.regs.sp - 2) (Word.low w)).store (cpu.regs.sp - 1) (Word.high w) := by
  obtain ⟨hlow, hhigh⟩ := h.plain
  simp [Bus.storeAll, pushes, Bus.write_plain _ _ hlow, Bus.write_plain _ _ hhigh]

theorem word_pushed {cpu : Cpu} (h : cpu.StackInRam) (bus : Bus) (w : UInt16) :
    View.word ((bus.store (cpu.regs.sp - 2) (Word.low w)).store (cpu.regs.sp - 1)
      (Word.high w)).read (cpu.regs.sp - 2) = w := by
  obtain ⟨hlow, hhigh⟩ := h.plain
  have hnext : cpu.regs.sp - 2 + 1 = cpu.regs.sp - 1 := by grind
  have hne : cpu.regs.sp - 1 ≠ cpu.regs.sp - 2 := by grind
  rw [View.word, hnext, Bus.read_store_self _ _ (by rw [hhigh]; rfl), Bus.read_store_of_ne _ _ hne,
    Bus.read_store_self _ _ (by rw [hlow]; rfl), Word.ofBytes_high_low]

/-! ## The entry -/

/-- What the entry into the handler of the line with bit `n` does. -/
structure Interrupted (cpu : Cpu) (bus : Bus) (n : Nat) (core : Core) : Prop where
  processor : core.cpu =
    { cpu with
      halted := false
      ime := false
      regs := { cpu.regs with sp := cpu.regs.sp - 2, pc := handlerAddress n } }
  cleared : ∀ m, core.bus.interruptFlags.toNat.testBit m =
    (bus.interruptFlags.toNat.testBit m && m != n)
  stored : core.bus.cells =
    (bus.cells.set (cpu.regs.sp - 2) (Word.low cpu.regs.pc)).set (cpu.regs.sp - 1)
      (Word.high cpu.regs.pc)
  readable : View.word core.bus.read (cpu.regs.sp - 2) = cpu.regs.pc
  /-- Nothing else on the bus changes but the log. -/
  rest : core.bus =
    { bus with
      cells := core.bus.cells
      interruptFlags := core.bus.interruptFlags
      log := core.bus.log }

theorem bus_enter {cpu : Cpu} (h : cpu.StackInRam) (bus : Bus) (i : Interrupt) :
    (cpu.enter bus i).bus =
      (((bus.acknowledge i).store (cpu.regs.sp - 2) (Word.low cpu.regs.pc)).store
        (cpu.regs.sp - 1) (Word.high cpu.regs.pc)).report
          (.interruptEntered i cpu.regs.pc i.vector) := by
  have hstores : (cpu.pushWord cpu.regs.pc).stores = cpu.pushes cpu.regs.pc := stores_pushWord _ _
  rw [← storeAll_pushes h, ← hstores]
  rfl

theorem interrupted_enter {cpu : Cpu} (h : cpu.StackInRam) (bus : Bus) (i : Interrupt) :
    Interrupted cpu bus i.number (cpu.enter bus i) := by
  have hbus := bus_enter h bus i
  refine ⟨?_, ?_, ?_, ?_, ?_⟩
  · rw [← i.vector_eq]
    rfl
  · intro m
    rw [hbus]
    exact Interrupt.testBit_clear bus.interruptFlags i m
  · rw [hbus]
    rfl
  · rw [hbus]
    exact word_pushed h (bus.acknowledge i) cpu.regs.pc
  · rw [hbus]
    rfl

theorem pending?_eq_none_iff (bus : Bus) : pending? bus = none ↔ bus.due = 0 :=
  Interrupt.first?_eq_none_iff_and

theorem testBit_due (bus : Bus) {m : Nat} (hm : m < 5) :
    bus.due.toNat.testBit m = (bus.interruptFlags &&& bus.interruptEnable).toNat.testBit m := by
  have hlines : ∀ m < 5, Nat.testBit 0x1f m = true := by decide
  simp [Bus.due, hlines m hm]

theorem lowestBit_due {bus : Bus} {i : Interrupt} (h : pending? bus = some i) :
    LowestBit bus.due i.number := by
  obtain ⟨hset, hlower⟩ := Interrupt.lowestBit_of_first? h
  refine ⟨?_, ?_⟩
  · rw [testBit_due bus i.number_lt]
    exact hset
  · intro m hm
    rw [testBit_due bus (Nat.lt_trans hm i.number_lt)]
    exact hlower m hm

theorem exists_interrupted {cpu : Cpu} {bus : Bus} (hei : cpu.eiPending = false)
    (hime : cpu.ime = true) (hdue : bus.due ≠ 0) (hstack : cpu.StackInRam) :
    ∃ n core, n < 5 ∧ LowestBit bus.due n ∧ cpu.service bus = (20, core) ∧
      Interrupted cpu bus n core := by
  obtain ⟨i, hpending⟩ := Option.ne_none_iff_exists'.1 (mt (pending?_eq_none_iff bus).1 hdue)
  have hentered : cpu.entered? bus = some i := by simp [entered?, hei, hime, hpending]
  exact ⟨i.number, cpu.enter bus i, i.number_lt, lowestBit_due hpending,
    service_of_entered? hentered, interrupted_enter hstack bus i⟩

/-! ## The return -/

theorem step_reti {cpu : Cpu} {bus : Bus} {n : Nat} {core : Core}
    (h : Interrupted cpu bus n core) (hreti : core.bus.read (handlerAddress n) = 0xd9) :
    ∃ back log, core.cpu.step core.bus = .ok 16 back ∧
      back.cpu = { cpu with halted := false, ime := true } ∧ back.bus = { core.bus with log } := by
  have hrunning : core.cpu.halted = false := by rw [h.processor]
  have hdecode : Instruction.decode? (core.bus.read core.cpu.regs.pc) = some .reti := by
    rw [h.processor]
    dsimp only
    rw [hreti]
    rfl
  obtain ⟨log, htrace, -⟩ := core.cpu.trace_eq core.bus .reti
  have hsp : cpu.regs.sp - 2 + 2 = cpu.regs.sp := UInt16.sub_add_cancel _ _
  have hreturned : ((core.cpu.skip 1).execute core.bus.read .reti).cpu =
      { core.cpu with
        ime := true
        regs :=
          { core.cpu.regs with
            sp := core.cpu.regs.sp + 2
            pc := View.word core.bus.read core.cpu.regs.sp } } := rfl
  refine ⟨_, log, step_running hrunning hdecode, ?_, htrace⟩
  rw [hreturned]
  simp only [h.processor, h.readable, hsp]

/-! ## Interrupts off -/

theorem service_of_ime_off {cpu : Cpu} {bus : Bus} (hei : cpu.eiPending = false)
    (hime : cpu.ime = false) :
    cpu.service bus = (0, { cpu := { cpu with halted := cpu.halted && bus.due == 0 }, bus }) := by
  have hserviced := cpu.serviced bus
  generalize cpu.service bus = r at hserviced
  cases hserviced with
  | enabled hon => simp [hei] at hon
  | entered i _ hon => simp [hime] at hon
  | passed _ hquiet =>
    have hhalted : (cpu.halted && bus.due == 0) = cpu.halted := by
      rcases hquiet with ⟨-, hrunning⟩ | hnone
      · simp [hrunning]
      · simp [(pending?_eq_none_iff bus).1 hnone]
    rw [hhalted]
  | woken i _ _ hpending =>
    have hdue : bus.due ≠ 0 := by
      intro hzero
      simp [(pending?_eq_none_iff bus).2 hzero] at hpending
    simp [hdue]

/-- With interrupts on and the stack in RAM, the lowest requested line that is enabled has its
handler entered, and a return as its first instruction undoes all of that but the cleared request,
the end of a wait and the bytes below the stack. With interrupts off only a wait ends; and after
`EI` nothing happens but that they are turned on. -/
theorem handler_round_trip :
    (∀ (cpu : Cpu) (bus : Bus), cpu.eiPending = false → cpu.ime = true → bus.due ≠ 0 →
      cpu.StackInRam →
      ∃ n core, n < 5 ∧ LowestBit bus.due n ∧ cpu.service bus = (20, core) ∧
        Interrupted cpu bus n core ∧
        (core.bus.read (handlerAddress n) = 0xd9 →
          ∃ back log, core.cpu.step core.bus = .ok 16 back ∧
            back.cpu = { cpu with halted := false, ime := true } ∧
            back.bus = { core.bus with log })) ∧
      (∀ (cpu : Cpu) (bus : Bus), cpu.eiPending = false → cpu.ime = false →
        cpu.service bus =
          (0, { cpu := { cpu with halted := cpu.halted && bus.due == 0 }, bus })) ∧
      ∀ (cpu : Cpu) (bus : Bus), cpu.eiPending = true →
        cpu.service bus = (0, { cpu := { cpu with eiPending := false, ime := true }, bus }) := by
  refine ⟨?_, ?_, ?_⟩
  · intro cpu bus hei hime hdue hstack
    obtain ⟨n, core, hn, hlowest, hservice, hinterrupted⟩ :=
      exists_interrupted hei hime hdue hstack
    exact ⟨n, core, hn, hlowest, hservice, hinterrupted, step_reti hinterrupted⟩
  · intro cpu bus hei hime
    exact service_of_ime_off hei hime
  · intro cpu bus hei
    simp [service, hei]

/-- Three lines are requested, of which the lowest that is enabled is the timer's. Its handler
returns at once. -/
def timerDue : Bus :=
  { (default : Bus).store 0x50 0xd9 with interruptFlags := 0x1c, interruptEnable := 0x16 }

theorem handler_round_trip_timer :
    timerDue.due ≠ 0 ∧ atC000.StackInRam ∧
      ∃ core back, ({ atC000 with ime := true } : Cpu).service timerDue = (20, core) ∧
        core.cpu.regs.pc = 0x50 ∧ core.bus.interruptFlags.toNat.testBit 2 = false ∧
        core.cpu.step core.bus = .ok 16 back ∧ back.cpu = { atC000 with ime := true } := by
  have hdue : timerDue.due ≠ 0 := by decide
  have hstack : atC000.StackInRam := by decide
  obtain ⟨n, core, hn, hlowest, hservice, hinterrupted, hreturn⟩ :=
    handler_round_trip.1 { atC000 with ime := true } timerDue rfl rfl hdue hstack
  obtain rfl : n = 2 := by
    have hdue : timerDue.due = 0x14 := by decide
    have honly : ∀ n < 5, LowestBit 0x14 n → n = 2 := by decide
    rw [hdue] at hlowest
    exact honly n hn hlowest
  have hreti : core.bus.read 0x50 = 0xd9 := by
    rw [Bus.read_eq_cell _ (by decide), hinterrupted.stored, Cells.get_set_of_ne _ _ (by decide),
      Cells.get_set_of_ne _ _ (by decide)]
    exact Cells.get_set_self _ _ _
  obtain ⟨back, log, hstep, hback, -⟩ := hreturn hreti
  refine ⟨hdue, hstack, core, back, hservice, ?_, ?_, hstep, hback⟩
  · rw [hinterrupted.processor]
    rfl
  · rw [hinterrupted.cleared]
    decide

end Cpu

end Handheld
