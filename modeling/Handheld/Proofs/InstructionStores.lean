import Handheld.Proofs.InstructionEffects
import Handheld.Proofs.PendingRequests

/-!
# What an instruction writes

The bytes that each instruction writes, from the registers before it. A byte goes to HL or to the
address that the instruction names, a word to the two bytes from such an address on or to the
stack. Nothing else is written.
-/

namespace Handheld.Cpu

/-! ## The bytes -/

def nextByte (cpu : Cpu) (view : View) : UInt8 := view (cpu.regs.pc + 1)

/-- The word behind the opcode, low byte first. -/
def nextWord (cpu : Cpu) (view : View) : UInt16 := view.word (cpu.regs.pc + 1)

def writesHl (cpu : Cpu) (v : UInt8) : List Store := [⟨cpu.regs.hl, v⟩]

/-- A word below the top of the stack. -/
def pushes (cpu : Cpu) (w : UInt16) : List Store :=
  [⟨cpu.regs.sp - 2, Word.low w⟩, ⟨cpu.regs.sp - 1, Word.high w⟩]

/-- What an instruction of the second table writes. `bit` only looks. -/
def writesExtended (cpu : Cpu) (view : View) : Extended → List Store
  | .shift s .atHl => cpu.writesHl (s.result (view cpu.regs.hl) cpu.regs.flags.c)
  | .res i .atHl => cpu.writesHl (view cpu.regs.hl &&& ~~~Alu.bitMask i)
  | .set i .atHl => cpu.writesHl (view cpu.regs.hl ||| Alu.bitMask i)
  | _ => []

/-- What an instruction at the program counter writes, in its order. A pointer that moves is used
before it does. -/
def writes (cpu : Cpu) (view : View) : Instruction → List Store
  | .load .atHl src => cpu.writesHl (cpu.operand view src)
  | .loadImmediate .atHl => cpu.writesHl (cpu.nextByte view)
  | .inc .atHl => cpu.writesHl (view cpu.regs.hl + 1)
  | .dec .atHl => cpu.writesHl (view cpu.regs.hl - 1)
  | .extended => cpu.writesExtended view (Extended.decode (cpu.nextByte view))
  | .storeAt .bc => [⟨cpu.regs.bc, cpu.regs.a⟩]
  | .storeAt .de => [⟨cpu.regs.de, cpu.regs.a⟩]
  | .storeAt .hlUp | .storeAt .hlDown => cpu.writesHl cpu.regs.a
  | .storeHigh => [⟨0xff00 + (cpu.nextByte view).toUInt16, cpu.regs.a⟩]
  | .storeHighC => [⟨0xff00 + cpu.regs.c.toUInt16, cpu.regs.a⟩]
  | .storeAbsolute => [⟨cpu.nextWord view, cpu.regs.a⟩]
  | .storeSp =>
    [⟨cpu.nextWord view, Word.low cpu.regs.sp⟩, ⟨cpu.nextWord view + 1, Word.high cpu.regs.sp⟩]
  | .push p => cpu.pushes (cpu.stackPair p)
  | .rst _ => cpu.pushes (cpu.regs.pc + 1)
  | .call k => if cpu.takes k then cpu.pushes (cpu.regs.pc + 3) else []
  | _ => []

/-! ## One instruction -/

theorem stores_pushWord (cpu : Cpu) (w : UInt16) : (cpu.pushWord w).stores = cpu.pushes w := by
  have hhigh : cpu.regs.sp - 2 + 1 = cpu.regs.sp - 1 := by grind
  simp [pushWord, Store.word, pushes, hhigh]

theorem stores_callTo (cpu : Cpu) (target : UInt16) :
    (cpu.callTo target).stores = cpu.pushes cpu.regs.pc :=
  stores_pushWord cpu cpu.regs.pc

theorem stores_executeExtended (cpu : Cpu) (view : View) (i : Extended) :
    (cpu.executeExtended view i).stores = cpu.writesExtended view i := by
  cases i with
  | bit n o => rfl
  | shift s o | res n o | set n o => cases o <;> rfl

theorem takes_skip (cpu : Cpu) (n : UInt16) (k : Option Condition) :
    (cpu.skip n).takes k = cpu.takes k := by
  cases k <;> rfl

theorem stores_execute (cpu : Cpu) (view : View) (i : Instruction) :
    ((cpu.skip 1).execute view i).stores = cpu.writes view i := by
  cases i with
  | extended => exact stores_executeExtended ((cpu.skip 1).skip 1) view _
  | load dst src =>
    cases dst with
    | atHl => cases src <;> rfl
    | _ => rfl
  | loadImmediate o | inc o | dec o => cases o <;> rfl
  | storeAt p => cases p <;> rfl
  | push p =>
    refine (stores_pushWord (cpu.skip 1) _).trans ?_
    cases p <;> rfl
  | rst n => exact stores_callTo (cpu.skip 1) _
  | call k =>
    -- The operand is passed before the program counter is pushed.
    have hnext : cpu.regs.pc + 1 + 2 = cpu.regs.pc + 3 := by grind
    have hpushed :
        (((cpu.skip 1).skip 2).callTo (cpu.nextWord view)).stores =
          cpu.pushes (cpu.regs.pc + 3) := by
      rw [stores_callTo, ← hnext]
      rfl
    simp only [execute, writes, takes_skip]
    split
    · exact hpushed
    · rfl
  | jr k | jp k | ret k =>
    simp only [execute]
    split <;> rfl
  | _ => rfl

/-! ## A step -/

theorem stores_of_decode {cpu : Cpu} {bus : Bus} {i : Instruction} (hrunning : cpu.halted = false)
    (hdecode : Instruction.decode? (bus.read cpu.regs.pc) = some i) :
    cpu.stores bus = cpu.writes bus.read i := by
  rw [← stores_execute]
  simp [stores, opcode, hrunning, hdecode]

theorem bus_step {cpu : Cpu} {bus : Bus} {t : Nat} {core : Core}
    (h : cpu.step bus = .ok t core) :
    ∃ log, core.bus = ({ bus with log } : Bus).storeAll (cpu.stores bus) := by
  have hstepped := cpu.stepped bus
  rw [h] at hstepped
  unfold stores
  cases hstepped with
  | waited hhalted =>
    rw [if_pos hhalted]
    exact ⟨_, rfl⟩
  | ran i hrunning hdecode =>
    rw [hrunning, hdecode, if_neg (by decide)]
    obtain ⟨log, htrace, -⟩ := cpu.trace_eq bus i
    rw [htrace]
    exact ⟨log, rfl⟩

theorem length_writes_le (cpu : Cpu) (view : View) (i : Instruction) :
    (cpu.writes view i).length ≤ 2 := by
  cases i with
  | load dst src => cases dst <;> simp [writes, writesHl]
  | loadImmediate o | inc o | dec o => cases o <;> simp [writes, writesHl]
  | storeAt p => cases p <;> simp [writes, writesHl]
  | extended =>
    simp only [writes, writesExtended]
    split <;> simp [writesHl]
  | call k =>
    simp only [writes]
    split <;> simp [pushes]
  | _ => simp [writes, pushes]

/-- A processor that waits writes nothing. One that does not writes what its instruction writes,
which is two bytes at most, in that order and nothing else: the bus is the one before with these
writes made, and with the report of the instruction in its log, if there is one. -/
theorem step_writes :
    (∀ (cpu : Cpu) (bus : Bus), cpu.halted = true →
      cpu.stores bus = [] ∧ cpu.step bus = .ok haltCycles { cpu, bus }) ∧
      ∀ (cpu : Cpu) (bus : Bus) (i : Instruction), cpu.halted = false →
        Instruction.decode? (bus.read cpu.regs.pc) = some i →
        ∃ t core log, cpu.step bus = .ok t core ∧ cpu.stores bus = cpu.writes bus.read i ∧
          (cpu.writes bus.read i).length ≤ 2 ∧
          core.bus = ({ bus with log } : Bus).storeAll (cpu.writes bus.read i) ∧
          (∀ a v, cpu.writes bus.read i = [⟨a, v⟩] →
            core.bus = ({ bus with log } : Bus).write a v) ∧
          (∀ a v a' v', cpu.writes bus.read i = [⟨a, v⟩, ⟨a', v'⟩] →
            core.bus = (({ bus with log } : Bus).write a v).write a' v') ∧
          (bus.log.instructions = false → log = bus.log) := by
  constructor
  · intro cpu bus hhalted
    simp [stores, step, hhalted]
  · intro cpu bus i hrunning hdecode
    obtain ⟨log, htrace, hquiet⟩ := cpu.trace_eq bus i
    have hstores := stores_of_decode hrunning hdecode
    have hbus : (cpu.trace bus i).storeAll ((cpu.skip 1).execute bus.read i).stores =
        ({ bus with log } : Bus).storeAll (cpu.writes bus.read i) := by
      rw [htrace, stores_execute]
    refine ⟨_, _, log, step_running hrunning hdecode, hstores, cpu.length_writes_le _ i, hbus, ?_,
      ?_, hquiet⟩
    · intro a v hone
      rw [hone] at hbus
      exact hbus
    · intro a v a' v' htwo
      rw [htwo] at hbus
      exact hbus

def atC000 : Cpu := { regs := { Registers.powerOn with sp := 0xd000, pc := 0xc000 } }

theorem step_writes_push :
    atC000.halted = false ∧
      Instruction.decode? (((default : Bus).store 0xc000 0xe5).read 0xc000) = some (.push .hl) ∧
      ∃ t core log, atC000.step ((default : Bus).store 0xc000 0xe5) = .ok t core ∧
        core.bus = ({ (default : Bus).store 0xc000 0xe5 with log } : Bus).storeAll
          [⟨0xcffe, 0x4d⟩, ⟨0xcfff, 0x01⟩] ∧
        core.bus.read 0xcffe = 0x4d ∧ core.bus.read 0xcfff = 0x01 ∧
        core.bus.read 0xc000 = 0xe5 := by
  have hopcode : ((default : Bus).store 0xc000 0xe5).read 0xc000 = 0xe5 :=
    Bus.read_store_self _ _ (by decide)
  have hdecode : Instruction.decode? (((default : Bus).store 0xc000 0xe5).read 0xc000) =
      some (.push .hl) := by
    rw [hopcode]
    rfl
  obtain ⟨t, core, log, hstep, -, -, hall, -, htwo, -⟩ := step_writes.2 atC000 _ _ rfl hdecode
  have hbus := htwo 0xcffe 0x4d 0xcfff 0x01 rfl
  rw [Bus.write_plain _ _ (by decide), Bus.write_plain _ _ (by decide)] at hbus
  refine ⟨rfl, hdecode, t, core, log, hstep, hall, ?_, ?_, ?_⟩ <;> rw [hbus]
  · rw [Bus.read_store_of_ne _ _ (by decide)]
    exact Bus.read_store_self _ _ (by decide)
  · exact Bus.read_store_self _ _ (by decide)
  · rw [Bus.read_store_of_ne _ _ (by decide), Bus.read_store_of_ne _ _ (by decide)]
    exact hopcode

end Handheld.Cpu
