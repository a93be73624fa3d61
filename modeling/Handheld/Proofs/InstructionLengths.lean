import Handheld.Proofs.InstructionStores
import Mathlib.Data.List.Infix

/-!
# How long an instruction is

The text of an instruction tells how many bytes it takes: each operand in it stands for one byte or
for two. The program counter moves on by as many, unless control is transferred, so a listing of
the texts and the processor agree on where the next instruction starts.
-/

namespace Handheld.Cpu

/-! ## Lengths from texts -/

def occurrences (pattern text : String) : Nat :=
  text.toList.tails.countP (pattern.toList.isPrefixOf ·)

/-- One byte for the opcode, one for each byte operand and two for each word. The byte behind
`STOP` does not show in its text. -/
def textLength (text : String) : Nat :=
  if text = "STOP" then 2
  else
    1 + (occurrences "d8" text + occurrences "r8" text + occurrences "a8" text) +
      2 * (occurrences "d16" text + occurrences "a16" text)

/-- The length of the instruction at an address. Those of the second table take two bytes. -/
def lengthAt (view : View) (address : UInt16) : Nat :=
  if view address = 0xcb then 2 else textLength (mnemonic view address)

def nextAddress (view : View) (address : UInt16) : UInt16 :=
  address + UInt16.ofNat (lengthAt view address)

/-- The addresses of the instructions, one after another, as the texts tell their lengths. -/
def listing (code : View) (start : UInt16) : Nat → UInt16
  | 0 => start
  | k + 1 => nextAddress code (listing code start k)

def Instruction.length : Instruction → Nat
  | stop | extended | loadImmediate _ | aluImmediate _ | jr _ => 2
  | storeHigh | loadHigh | addSp | loadHlSp => 2
  | loadPair _ | storeAbsolute | loadAbsolute | storeSp | jp _ | call _ => 3
  | _ => 1

theorem occurrences_eq_zero {pattern text : String} {c : Char} (hpattern : c ∈ pattern.toList)
    (htext : c ∉ text.toList) : occurrences pattern text = 0 := by
  unfold occurrences
  rw [List.countP_eq_zero]
  intro tail htail hstarts
  have hend : tail <:+ text.toList := (List.mem_tails _ _).1 htail
  have hstart : pattern.toList <+: tail := List.isPrefixOf_iff_prefix.1 hstarts
  exact htext (hend.subset (hstart.subset hpattern))

/-- No operand and no `STOP`: each operand has an 8 or a 6 in it. -/
def Plain (text : String) : Prop :=
  '8' ∉ text.toList ∧ '6' ∉ text.toList ∧ 'T' ∉ text.toList

instance (text : String) : Decidable (Plain text) := inferInstanceAs (Decidable (_ ∧ _))

theorem Plain.append {s t : String} (hs : Plain s) (ht : Plain t) : Plain (s ++ t) := by
  obtain ⟨hs8, hs6, hsT⟩ := hs
  obtain ⟨ht8, ht6, htT⟩ := ht
  simp [Plain, hs8, hs6, hsT, ht8, ht6, htT]

theorem Plain.textLength_eq {text : String} (h : Plain text) : textLength text = 1 := by
  obtain ⟨h8, h6, hT⟩ := h
  have hstop : text ≠ "STOP" := by
    rintro rfl
    exact hT (by decide)
  have hbyte : ∀ pattern ∈ ["d8", "r8", "a8"], occurrences pattern text = 0 := by
    have heights : ∀ pattern ∈ ["d8", "r8", "a8"], '8' ∈ pattern.toList := by decide
    exact fun pattern hpattern => occurrences_eq_zero (heights pattern hpattern) h8
  have hword : ∀ pattern ∈ ["d16", "a16"], occurrences pattern text = 0 := by
    have hsixes : ∀ pattern ∈ ["d16", "a16"], '6' ∈ pattern.toList := by decide
    exact fun pattern hpattern => occurrences_eq_zero (hsixes pattern hpattern) h6
  simp [textLength, hstop, hbyte, hword]

theorem plain_operand (o : Operand) : Plain o.name := by
  cases o <;> decide

theorem plain_pointer (p : Pointer) : Plain p.name := by
  cases p <;> decide

theorem plain_pair (p : Pair) : Plain p.name := by
  cases p <;> decide

theorem plain_stackPair (p : StackPair) : Plain p.name := by
  cases p <;> decide

theorem plain_op (op : Alu.Op) : Plain op.name := by
  cases op <;> decide

theorem plain_load (dst src : Operand) : Plain (Instruction.load dst src).name := by
  have hdst : Plain ("LD " ++ dst.name) := Plain.append (by decide) (plain_operand dst)
  have hcomma : Plain ("LD " ++ dst.name ++ ",") := hdst.append (by decide)
  exact hcomma.append (plain_operand src)

theorem plain_storeAt (p : Pointer) : Plain (Instruction.storeAt p).name := by
  have hpointer : Plain ("LD " ++ p.name) := Plain.append (by decide) (plain_pointer p)
  exact hpointer.append (by decide)

theorem textLength_name {i : Instruction} (h : i ≠ .extended) : textLength i.name = i.length := by
  cases i with
  | extended => exact absurd rfl h
  | load dst src => exact (plain_load dst src).textLength_eq
  | storeAt p => exact (plain_storeAt p).textLength_eq
  | loadFrom p => exact (Plain.append (by decide) (plain_pointer p)).textLength_eq
  | alu op o => exact ((plain_op op).append (plain_operand o)).textLength_eq
  | inc o | dec o => exact (Plain.append (by decide) (plain_operand o)).textLength_eq
  | incPair p | decPair p | addHl p => exact (Plain.append (by decide) (plain_pair p)).textLength_eq
  | push p | pop p => exact (Plain.append (by decide) (plain_stackPair p)).textLength_eq
  | loadImmediate o => cases o <;> rfl
  | loadPair p => cases p <;> rfl
  | aluImmediate op => cases op <;> rfl
  | jr k | jp k | call k | ret k => rcases k with _ | _ | _ | _ | _ <;> rfl
  | rst n =>
    have hnames : ∀ n, textLength (Instruction.rstName n) = 1 := by decide
    exact hnames n
  | _ => rfl

theorem Instruction.decodeFirst_ne_extended (opcode : UInt8) : decodeFirst opcode ≠ extended := by
  unfold decodeFirst
  dsimp only
  split <;> (try split) <;> simp

theorem Instruction.eq_of_decodeLast?_extended {opcode : UInt8}
    (h : decodeLast? opcode = some extended) : opcode = 0xcb := by
  fun_cases decodeLast? opcode <;> first | rfl | simp_all [decodeLast?]

theorem Instruction.eq_of_decode?_extended {opcode : UInt8} (h : decode? opcode = some extended) :
    opcode = 0xcb := by
  unfold decode? at h
  split at h
  · exact absurd (Option.some.inj h) (decodeFirst_ne_extended opcode)
  · split at h <;> simp at h
  · simp at h
  · exact eq_of_decodeLast?_extended h

theorem lengthAt_of_decode {view : View} {address : UInt16} {i : Instruction}
    (h : Instruction.decode? (view address) = some i) : lengthAt view address = i.length := by
  unfold lengthAt
  split
  · rename_i hextended
    rw [hextended] at h
    cases h
    rfl
  · rename_i hextended
    have hne : i ≠ .extended := by
      rintro rfl
      exact hextended (Instruction.eq_of_decode?_extended h)
    have hname : mnemonic view address = i.name := by
      unfold mnemonic
      rw [h]
      cases i <;> first | rfl | contradiction
    rw [hname, textLength_name hne]

theorem nextAddress_of_decode {view : View} {address : UInt16} {i : Instruction}
    (h : Instruction.decode? (view address) = some i) :
    nextAddress view address = address + UInt16.ofNat i.length := by
  rw [nextAddress, lengthAt_of_decode h]

/-! ## Transfers of control -/

/-- Where an instruction at the program counter transfers control to, and on what condition. -/
def transfer? (cpu : Cpu) (view : View) : Instruction → Option (Option Condition × UInt16)
  | .jr k => some (k, cpu.regs.pc + 2 + signExtend (cpu.nextByte view))
  | .jp k | .call k => some (k, cpu.nextWord view)
  | .jpHl => some (none, cpu.regs.hl)
  | .ret k => some (k, view.word cpu.regs.sp)
  | .reti => some (none, view.word cpu.regs.sp)
  | .rst n => some (none, UInt16.ofNat (8 * n.val))
  | _ => none

def taken? (cpu : Cpu) (view : View) (i : Instruction) : Option UInt16 :=
  match cpu.transfer? view i with
  | none => none
  | some (k, target) => if cpu.takes k then some target else none

def Instruction.Calls : Instruction → Prop
  | call _ | rst _ => True
  | _ => False

/-- The cost of an instruction in its table, or in both of them. -/
def tableCost (cpu : Cpu) (view : View) (i : Instruction) : Nat :=
  match i with
  | .extended => i.cost + (Extended.decode (cpu.nextByte view)).cost
  | _ => i.cost

theorem pc_put (cpu : Cpu) (o : Operand) (v : UInt8) : (cpu.put o v).cpu.regs.pc = cpu.regs.pc := by
  cases o <;> rfl

theorem pc_movePointer (cpu : Cpu) (p : Pointer) : (cpu.movePointer p).regs.pc = cpu.regs.pc := by
  cases p <;> rfl

theorem Registers.pc_setPair (r : Registers) (p : Pair) (w : UInt16) :
    (r.setPair p w).pc = r.pc := by
  cases p <;> rfl

theorem pc_setStackPair (cpu : Cpu) (p : StackPair) (w : UInt16) :
    (cpu.setStackPair p w).regs.pc = cpu.regs.pc := by
  cases p <;> rfl

theorem pc_executeExtended (cpu : Cpu) (view : View) (i : Extended) :
    (cpu.executeExtended view i).cpu.regs.pc = cpu.regs.pc := by
  cases i with
  | bit n o => rfl
  | shift s o | res n o | set n o => exact pc_put _ o _

theorem pc_skip_skip (cpu : Cpu) (m n : UInt16) :
    ((cpu.skip m).skip n).regs.pc = cpu.regs.pc + (m + n) :=
  UInt16.add_assoc cpu.regs.pc m n

theorem execute_of_straight {cpu : Cpu} {view : View} {i : Instruction}
    (h : cpu.transfer? view i = none) :
    ((cpu.skip 1).execute view i).cpu.regs.pc = cpu.regs.pc + UInt16.ofNat i.length ∧
      i.cost + ((cpu.skip 1).execute view i).extra = cpu.tableCost view i := by
  cases i with
  | jr k | jp k | call k | ret k | jpHl | reti | rst n => simp [transfer?] at h
  | extended => exact ⟨(pc_executeExtended _ view _).trans (pc_skip_skip cpu 1 1), rfl⟩
  | load dst src => exact ⟨pc_put _ dst _, congrArg _ (extra_put _ dst _)⟩
  | loadImmediate dst =>
    exact ⟨(pc_put _ dst _).trans (pc_skip_skip cpu 1 1), congrArg _ (extra_put _ dst _)⟩
  | inc o | dec o => exact ⟨pc_put _ o _, congrArg _ (extra_put _ o _)⟩
  | storeAt p | loadFrom p => exact ⟨pc_movePointer _ p, rfl⟩
  | pop p => exact ⟨pc_setStackPair _ p _, rfl⟩
  | incPair p | decPair p => exact ⟨Registers.pc_setPair _ p _, rfl⟩
  | loadPair p => exact ⟨(Registers.pc_setPair _ p _).trans (pc_skip_skip cpu 1 2), rfl⟩
  | stop | aluImmediate op | storeHigh | loadHigh | addSp | loadHlSp =>
    exact ⟨pc_skip_skip cpu 1 1, rfl⟩
  | storeAbsolute | loadAbsolute | storeSp => exact ⟨pc_skip_skip cpu 1 2, rfl⟩
  | _ => exact ⟨rfl, rfl⟩

theorem tableCost_of_transfer? {cpu : Cpu} {view : View} {i : Instruction}
    {transfer : Option Condition × UInt16} (h : cpu.transfer? view i = some transfer) :
    cpu.tableCost view i = i.cost := by
  cases i <;> first | rfl | simp [transfer?] at h

theorem execute_of_taken {cpu : Cpu} {view : View} {i : Instruction} {k : Option Condition}
    {target : UInt16} (h : cpu.transfer? view i = some (k, target)) (htakes : cpu.takes k = true) :
    ((cpu.skip 1).execute view i).cpu.regs.pc = target ∧
      ∃ cycles, 0 < cycles ∧ ((cpu.skip 1).execute view i).extra = takenExtra k cycles := by
  cases i <;> simp only [transfer?, Option.some.injEq, Prod.mk.injEq, reduceCtorEq] at h
  case jr =>
    obtain ⟨rfl, rfl⟩ := h
    have hnext : cpu.regs.pc + 1 + 1 = cpu.regs.pc + 2 := pc_skip_skip cpu 1 1
    simp only [execute, takes_skip, htakes, if_true, ← hnext]
    exact ⟨rfl, 4, by decide, rfl⟩
  case jp =>
    obtain ⟨rfl, rfl⟩ := h
    simp only [execute, takes_skip, htakes, if_true]
    exact ⟨rfl, 4, by decide, rfl⟩
  case call | ret =>
    obtain ⟨rfl, rfl⟩ := h
    simp only [execute, takes_skip, htakes, if_true]
    exact ⟨rfl, 12, by decide, rfl⟩
  case jpHl | reti | rst =>
    obtain ⟨rfl, rfl⟩ := h
    exact ⟨rfl, 4, by decide, rfl⟩

theorem execute_of_untaken {cpu : Cpu} {view : View} {i : Instruction} {k : Option Condition}
    {target : UInt16} (h : cpu.transfer? view i = some (k, target)) (htakes : cpu.takes k = false) :
    ((cpu.skip 1).execute view i).cpu.regs.pc = cpu.regs.pc + UInt16.ofNat i.length ∧
      ((cpu.skip 1).execute view i).extra = 0 := by
  cases i <;> simp only [transfer?, Option.some.injEq, Prod.mk.injEq, reduceCtorEq] at h
  case jr =>
    obtain ⟨rfl, -⟩ := h
    simp only [execute, takes_skip, htakes, Bool.false_eq_true, if_false]
    exact ⟨pc_skip_skip cpu 1 1, rfl⟩
  case jp | call =>
    obtain ⟨rfl, -⟩ := h
    simp only [execute, takes_skip, htakes, Bool.false_eq_true, if_false]
    exact ⟨pc_skip_skip cpu 1 2, rfl⟩
  case ret =>
    obtain ⟨rfl, -⟩ := h
    simp only [execute, takes_skip, htakes, Bool.false_eq_true, if_false]
    exact ⟨rfl, rfl⟩
  case jpHl | reti | rst =>
    obtain ⟨rfl, -⟩ := h
    contradiction

theorem pc_execute_of_taken?_none {cpu : Cpu} {view : View} {i : Instruction}
    (h : cpu.taken? view i = none) :
    ((cpu.skip 1).execute view i).cpu.regs.pc = cpu.regs.pc + UInt16.ofNat i.length := by
  unfold taken? at h
  split at h
  · rename_i hstraight
    exact (execute_of_straight hstraight).1
  · rename_i k target htransfer
    cases htakes : cpu.takes k with
    | false => exact (execute_of_untaken htransfer htakes).1
    | true => simp [htakes] at h

/-! ## A step -/

/-- What a step does to the program counter, and what it costs. -/
structure Advances (cpu : Cpu) (bus : Bus) (i : Instruction) (t : Nat) (core : Core) : Prop where
  straight : cpu.transfer? bus.read i = none →
    core.cpu.regs.pc = nextAddress bus.read cpu.regs.pc ∧ t = cpu.tableCost bus.read i
  always : ∀ target, cpu.transfer? bus.read i = some (none, target) →
    core.cpu.regs.pc = target ∧ t = cpu.tableCost bus.read i
  taken : ∀ k target, cpu.transfer? bus.read i = some (some k, target) →
    k.holds cpu.regs.flags = true →
    core.cpu.regs.pc = target ∧ cpu.tableCost bus.read i < t
  untaken : ∀ k target, cpu.transfer? bus.read i = some (some k, target) →
    k.holds cpu.regs.flags = false →
    core.cpu.regs.pc = nextAddress bus.read cpu.regs.pc ∧ t = cpu.tableCost bus.read i
  /-- A call leaves the address of the next instruction, whatever its own length. -/
  pushed : i.Calls → (cpu.taken? bus.read i).isSome →
    cpu.stores bus = cpu.pushes (nextAddress bus.read cpu.regs.pc)

theorem stores_of_calls {cpu : Cpu} {bus : Bus} {i : Instruction} (hrunning : cpu.halted = false)
    (hdecode : Instruction.decode? (bus.read cpu.regs.pc) = some i) (hcalls : i.Calls)
    (htaken : (cpu.taken? bus.read i).isSome) :
    cpu.stores bus = cpu.pushes (nextAddress bus.read cpu.regs.pc) := by
  rw [stores_of_decode hrunning hdecode, nextAddress_of_decode hdecode]
  cases i <;> simp only [Instruction.Calls] at hcalls
  case call k =>
    have htakes : cpu.takes k = true := by
      by_contra hnot
      simp [taken?, transfer?, hnot] at htaken
    simp only [writes, htakes, if_true]
    rfl
  case rst n => rfl

theorem step_advances {cpu : Cpu} {bus : Bus} {i : Instruction} (hrunning : cpu.halted = false)
    (hdecode : Instruction.decode? (bus.read cpu.regs.pc) = some i) :
    ∃ t core, cpu.step bus = .ok t core ∧ Advances cpu bus i t core := by
  have hnext := nextAddress_of_decode hdecode
  refine ⟨_, _, step_running hrunning hdecode, ?_, ?_, ?_, ?_, ?_⟩
  · intro hstraight
    rw [hnext]
    exact execute_of_straight hstraight
  · intro target htransfer
    obtain ⟨hpc, cycles, -, hextra⟩ := execute_of_taken htransfer rfl
    rw [tableCost_of_transfer? htransfer, hextra]
    exact ⟨hpc, rfl⟩
  · intro k target htransfer hholds
    obtain ⟨hpc, cycles, hpos, hextra⟩ := execute_of_taken htransfer hholds
    rw [tableCost_of_transfer? htransfer, hextra]
    exact ⟨hpc, Nat.lt_add_of_pos_right hpos⟩
  · intro k target htransfer hholds
    obtain ⟨hpc, hextra⟩ := execute_of_untaken htransfer hholds
    rw [tableCost_of_transfer? htransfer, hextra, hnext]
    exact ⟨hpc, rfl⟩
  · exact stores_of_calls hrunning hdecode

theorem pc_step_of_taken?_none {cpu : Cpu} {bus : Bus} {i : Instruction} {t : Nat} {core : Core}
    (hrunning : cpu.halted = false) (hdecode : Instruction.decode? (bus.read cpu.regs.pc) = some i)
    (hnone : cpu.taken? bus.read i = none) (hstep : cpu.step bus = .ok t core) :
    core.cpu.regs.pc = cpu.regs.pc + UInt16.ofNat i.length := by
  rw [step_running hrunning hdecode] at hstep
  cases hstep
  exact pc_execute_of_taken?_none hnone

/-! ## Runs without transfers -/

/-- Instructions one after another, none of which transfers control, whose opcodes are those of
`code`. Between two of them anything may happen but a change of the program counter. -/
structure StraightRun (code : View) (n : Nat) (core : Nat → Core) : Prop where
  running : ∀ k < n, (core k).cpu.halted = false
  opcode : ∀ k < n, (core k).bus.read (core k).cpu.regs.pc = code (core k).cpu.regs.pc
  straight : ∀ k < n, ∃ i, Instruction.decode? (code (core k).cpu.regs.pc) = some i ∧
    (core k).cpu.taken? (core k).bus.read i = none
  follows : ∀ k < n, ∀ t next, (core k).cpu.step (core k).bus = .ok t next →
    (core (k + 1)).cpu.regs.pc = next.cpu.regs.pc

theorem StraightRun.pc_eq {code : View} {n : Nat} {core : Nat → Core}
    (h : StraightRun code n core) {k : Nat} (hk : k ≤ n) :
    (core k).cpu.regs.pc = listing code (core 0).cpu.regs.pc k := by
  induction k with
  | zero => rfl
  | succ k ih =>
    -- The listing sees the opcode that the processor does, and the length hangs on that alone.
    obtain ⟨i, hlisted, hnone⟩ := h.straight k hk
    have hrunning := h.running k hk
    have hdecode := hlisted
    rw [← h.opcode k hk] at hdecode
    have hstep := step_running hrunning hdecode
    rw [h.follows k hk _ _ hstep, pc_step_of_taken?_none hrunning hdecode hnone hstep,
      ← nextAddress_of_decode hlisted, ih (Nat.le_of_succ_le hk), listing]

/-- The processor moves on as the texts say: a step adds the length that the text of the
instruction tells or goes where the instruction encodes, and a run without transfers fetches its
instructions where a listing from its start has them. -/
theorem advances_as_listed :
    (∀ (cpu : Cpu) (bus : Bus) (i : Instruction), cpu.halted = false →
      Instruction.decode? (bus.read cpu.regs.pc) = some i →
      ∃ t core, cpu.step bus = .ok t core ∧ Advances cpu bus i t core) ∧
      ∀ (code : View) (n : Nat) (core : Nat → Core), StraightRun code n core →
        ∀ k ≤ n, (core k).cpu.regs.pc = listing code (core 0).cpu.regs.pc k := by
  constructor
  · intro cpu bus i hrunning hdecode
    exact step_advances hrunning hdecode
  · intro code n core hrun k hk
    exact hrun.pc_eq hk

/-- The zero flag is set, so a jump on a cleared one only passes its operand. -/
def passing (bus : Bus) : Nat → Core
  | 0 => { cpu := atC000, bus }
  | 1 => { cpu := atC000.jump 0xc002, bus }
  | _ => { cpu := atC000.jump 0xc003, bus }

theorem straightRun_passing {bus : Bus}
    (hjump : Instruction.decode? (bus.read atC000.regs.pc) = some (.jr (some .nz)))
    (hnop : Instruction.decode? (bus.read (atC000.jump 0xc002).regs.pc) = some .nop) :
    StraightRun bus.read 2 (passing bus) := by
  have htakes : atC000.takes (some .nz) = false := by decide
  have huntaken : atC000.taken? bus.read (.jr (some .nz)) = none := by
    simp [taken?, transfer?, htakes]
  refine ⟨?_, ?_, ?_, ?_⟩
  · rintro (_ | _ | k) hk
    · rfl
    · rfl
    · omega
  · rintro (_ | _ | k) hk
    · rfl
    · rfl
    · omega
  · rintro (_ | _ | k) hk
    · exact ⟨_, hjump, huntaken⟩
    · exact ⟨_, hnop, rfl⟩
    · omega
  · rintro (_ | _ | k) hk t next hstep
    · exact (pc_step_of_taken?_none rfl hjump huntaken hstep).symm
    · exact (pc_step_of_taken?_none rfl hnop rfl hstep).symm
    · omega

theorem advances_as_listed_passing :
    atC000.halted = false ∧
      ∃ bus : Bus, Instruction.decode? (bus.read 0xc000) = some (.jr (some .nz)) ∧
        StraightRun bus.read 2 (passing bus) ∧ listing bus.read 0xc000 2 = 0xc003 ∧
        ∃ t core, atC000.step bus = .ok t core ∧ core.cpu.regs.pc = 0xc002 ∧ t = 8 := by
  obtain ⟨hadvances, hlisted⟩ := advances_as_listed
  have hexists : ∃ bus : Bus, bus.read 0xc000 = 0x20 ∧ bus.read 0xc002 = 0x00 := by
    refine ⟨(default : Bus).store 0xc000 0x20, Bus.read_store_self _ _ (by decide), ?_⟩
    rw [Bus.read_store_of_ne _ _ (by decide), Bus.read_eq_cell _ (by decide)]
    exact Cells.get_ofFn (fun _ => 0) _
  obtain ⟨bus, hopcode, hbehind⟩ := hexists
  have hjump : Instruction.decode? (bus.read 0xc000) = some (.jr (some .nz)) := by
    rw [hopcode]
    rfl
  have hnop : Instruction.decode? (bus.read 0xc002) = some .nop := by
    rw [hbehind]
    rfl
  have hrun := straightRun_passing hjump hnop
  obtain ⟨t, core, hstep, hcore⟩ := hadvances atC000 bus _ rfl hjump
  obtain ⟨hpc, ht⟩ := hcore.untaken .nz _ rfl (by decide)
  have hlength := nextAddress_of_decode hjump
  exact ⟨rfl, bus, hjump, hrun, (hlisted _ _ _ hrun 2 (Nat.le_refl 2)).symm, t, core, hstep,
    hpc.trans hlength, ht⟩

end Handheld.Cpu
