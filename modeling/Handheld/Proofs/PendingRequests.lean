import Handheld.Proofs.HardwareOrder
import Handheld.Proofs.InstructionEffects
import Handheld.Proofs.InterruptFlags

/-!
# Requests stay pending

A step of the machine loses no request: a line that was requested still is, unless the step enters
its handler or the program writes the flags itself.
-/

namespace Handheld

namespace Cpu

/-! ## What a step writes -/

def stores (cpu : Cpu) (bus : Bus) : List Store :=
  if cpu.halted then []
  else
    match Instruction.decode? (cpu.opcode bus.read) with
    | none => []
    | some i => ((cpu.skip 1).execute bus.read i).stores

/-- The line whose handler is entered between two instructions. -/
def entered? (cpu : Cpu) (bus : Bus) : Option Interrupt :=
  if cpu.eiPending || !cpu.ime then none else pending? bus

/-- The bytes that the entry into a handler writes: it pushes the program counter. -/
def entryStores (cpu : Cpu) (bus : Bus) : List Store :=
  if (cpu.entered? bus).isSome then (cpu.pushWord cpu.regs.pc).stores else []

theorem interruptFlags_trace (cpu : Cpu) (bus : Bus) (i : Instruction) :
    (cpu.trace bus i).interruptFlags = bus.interruptFlags := by
  unfold trace
  split <;> rfl

theorem interruptFlags_step {cpu : Cpu} {bus : Bus} {t : Nat} {core : Core}
    (hstep : cpu.step bus = .ok t core) (h : ∀ s ∈ cpu.stores bus, s.address ≠ 0xff0f) :
    core.bus.interruptFlags = bus.interruptFlags := by
  unfold step at hstep
  unfold stores at h
  split at hstep
  · cases hstep
    rfl
  · rename_i hrunning
    rw [if_neg hrunning] at h
    split at hstep
    · contradiction
    · rename_i i hdecode
      rw [hdecode] at h
      cases hstep
      dsimp only
      rw [Bus.interruptFlags_storeAll _ _ h, interruptFlags_trace]

theorem bus_of_step_error {cpu : Cpu} {bus : Bus} {fault : Fault} {core : Core}
    (hstep : cpu.step bus = .error fault core) : core.bus = bus := by
  unfold step at hstep
  split at hstep
  · contradiction
  · split at hstep
    · cases hstep
      rfl
    · contradiction

/-! ## The entry into a handler -/

theorem requested_of_entered? {cpu : Cpu} {bus : Bus} {i : Interrupt}
    (h : cpu.entered? bus = some i) :
    cpu.eiPending = false ∧ cpu.ime = true ∧ bus.Requests i ∧
      bus.interruptEnable &&& i.mask ≠ 0 := by
  unfold entered? at h
  split at h
  · contradiction
  · rename_i hon
    obtain ⟨hei, hime⟩ : cpu.eiPending = false ∧ cpu.ime = true := by simpa using hon
    have hboth : bus.interruptFlags &&& bus.interruptEnable &&& i.mask ≠ 0 := by
      simpa using List.find?_some h
    refine ⟨hei, hime, ?_, ?_⟩
    · intro hflags
      apply hboth
      rw [UInt8.and_comm bus.interruptFlags, UInt8.and_assoc, hflags, UInt8.and_zero]
    · intro henable
      apply hboth
      rw [UInt8.and_assoc, henable, UInt8.and_zero]

theorem service_of_entered? {cpu : Cpu} {bus : Bus} {i : Interrupt}
    (h : cpu.entered? bus = some i) :
    cpu.service bus = (interruptCycles, cpu.enter bus i) := by
  obtain ⟨hei, hime, _⟩ := requested_of_entered? h
  have hpending : pending? bus = some i := by simpa [entered?, hei, hime] using h
  simp [service, hei, hime, hpending]

theorem bus_service_of_not_entered {cpu : Cpu} {bus : Bus} (h : cpu.entered? bus = none) :
    (cpu.service bus).2.bus = bus := by
  unfold entered? at h
  unfold service
  split
  · rfl
  · split
    · rfl
    · rename_i hei _
      cases hpending : pending? bus with
      | none => rfl
      | some i =>
        cases hime : cpu.ime with
        | false => rfl
        | true => simp [hei, hime, hpending] at h

theorem interruptFlags_enter {cpu : Cpu} (bus : Bus) (i : Interrupt)
    (h : ∀ s ∈ (cpu.pushWord cpu.regs.pc).stores, s.address ≠ 0xff0f) :
    (cpu.enter bus i).bus.interruptFlags = bus.interruptFlags &&& ~~~i.mask :=
  Bus.interruptFlags_storeAll (bus.acknowledge i) _ h

end Cpu

namespace Board

/-! ## A step -/

/-- The board as the entry into a handler finds it, after the instruction and after timer,
cartridge and picture unit have caught up. -/
def atEntry? (board : Board) : Option Board :=
  match board.cpu.step board.bus with
  | .error _ _ => none
  | .ok t core =>
    let (_, picture, bus) := board.picture.step (core.bus.tick t) t
    some { cpu := core.cpu, bus, picture }

theorem atEntry?_of_step {board : Board} {t : Nat} {core : Cpu.Core}
    (hstep : board.cpu.step board.bus = .ok t core) :
    board.atEntry? = some
      { cpu := core.cpu
        bus := (board.picture.step (core.bus.tick t) t).2.2
        picture := (board.picture.step (core.bus.tick t) t).2.1 } := by
  unfold atEntry?
  rw [hstep]

theorem exists_of_atEntry? {board entry : Board} (h : board.atEntry? = some entry) :
    ∃ t core, board.cpu.step board.bus = .ok t core ∧
      entry =
        { cpu := core.cpu
          bus := (board.picture.step (core.bus.tick t) t).2.2
          picture := (board.picture.step (core.bus.tick t) t).2.1 } := by
  unfold atEntry? at h
  split at h
  · contradiction
  · rename_i t core hstep
    cases h
    exact ⟨t, core, hstep, rfl⟩

def stores (board : Board) : List Cpu.Store :=
  board.cpu.stores board.bus ++
    match board.atEntry? with
    | none => []
    | some entry => entry.cpu.entryStores entry.bus

def WritesFlags (board : Board) : Prop := ∃ s ∈ board.stores, s.address = 0xff0f

instance (board : Board) : Decidable board.WritesFlags :=
  inferInstanceAs (Decidable (∃ s ∈ board.stores, s.address = 0xff0f))

/-- A step that leads to `next` enters the handler of line `i`. -/
structure Entered (entry next : Board) (i : Interrupt) : Prop where
  on : entry.cpu.ime = true
  requested : entry.bus.Requests i
  enabled : entry.bus.interruptEnable &&& i.mask ≠ 0
  cleared : (entry.cpu.service entry.bus).2.bus.interruptFlags =
    entry.bus.interruptFlags &&& ~~~i.mask
  vector : next.cpu.regs.pc = i.vector
  off : next.cpu.ime = false

def Serves (board next : Board) (i : Interrupt) : Prop :=
  ∃ entry, board.atEntry? = some entry ∧ Entered entry next i

theorem step_ok {board next : Board} {t : Nat} (h : board.step = .ok t next) :
    ∃ entry, board.atEntry? = some entry ∧
      next = { cpu := (entry.cpu.service entry.bus).2.cpu
               bus := (entry.cpu.service entry.bus).2.bus.serial t
               picture := entry.picture } := by
  obtain ⟨cpu, bus, picture⟩ := board
  unfold step at h
  unfold atEntry?
  dsimp only at h ⊢
  cases hcore : cpu.step bus with
  | error fault core =>
    rw [hcore] at h
    contradiction
  | ok t core =>
    rw [hcore] at h
    cases h
    exact ⟨_, rfl, rfl⟩

theorem step_of_cpu_error {board : Board} {fault : Fault} {core : Cpu.Core}
    (h : board.cpu.step board.bus = .error fault core) :
    board.step = .error fault { board with cpu := core.cpu, bus := core.bus } := by
  obtain ⟨cpu, bus, picture⟩ := board
  unfold step
  dsimp only at h ⊢
  rw [h]

theorem step_error {board next : Board} {fault : Fault} (h : board.step = .error fault next) :
    ∃ core, board.cpu.step board.bus = .error fault core ∧
      next = { board with cpu := core.cpu, bus := core.bus } := by
  cases hcore : board.cpu.step board.bus with
  | error fault' core =>
    rw [step_of_cpu_error hcore] at h
    cases h
    exact ⟨core, rfl, rfl⟩
  | ok t core =>
    simp only [step, hcore] at h
    contradiction

theorem kept_atEntry {board entry : Board} (h : board.atEntry? = some entry)
    (hstores : ∀ s ∈ board.cpu.stores board.bus, s.address ≠ 0xff0f) :
    Kept board.bus.interruptFlags entry.bus.interruptFlags := by
  obtain ⟨t, core, hcore, rfl⟩ := exists_of_atEntry? h
  have hcpu := Cpu.interruptFlags_step hcore hstores
  have htick := Bus.kept_tick core.bus t
  rw [hcpu] at htick
  exact htick.trans (PictureUnit.kept_step _ _ _)

theorem requests_step {board next : Board} {t : Nat} (h : board.step = .ok t next)
    (hwrites : ¬ board.WritesFlags) :
    ∃ served : Option Interrupt,
      (∀ i, board.bus.Requests i → served ≠ some i → next.bus.Requests i) ∧
        ∀ i, served = some i → board.Serves next i := by
  obtain ⟨entry, hentry, rfl⟩ := step_ok h
  have hstores : ∀ s ∈ board.stores, s.address ≠ 0xff0f := fun s hs ha => hwrites ⟨s, hs, ha⟩
  have hkept := kept_atEntry hentry fun s hs => hstores s (List.mem_append_left _ hs)
  have hpush : ∀ s ∈ entry.cpu.entryStores entry.bus, s.address ≠ 0xff0f := by
    intro s hs
    refine hstores s (List.mem_append_right _ ?_)
    rw [hentry]
    exact hs
  unfold Cpu.entryStores at hpush
  refine ⟨entry.cpu.entered? entry.bus, ?_⟩
  cases hentered : entry.cpu.entered? entry.bus with
  | none =>
    refine ⟨?_, fun i hi => absurd hi (by simp)⟩
    intro i hi _
    have hserial := Bus.kept_serial (entry.cpu.service entry.bus).2.bus t
    rw [Cpu.bus_service_of_not_entered hentered] at hserial ⊢
    exact (hi.kept hkept).kept hserial
  | some j =>
    rw [hentered] at hpush
    have hflags := Cpu.interruptFlags_enter entry.bus j hpush
    have hservice := Cpu.service_of_entered? hentered
    obtain ⟨_, hime, hrequested, henabled⟩ := Cpu.requested_of_entered? hentered
    rw [hservice]
    -- The entry clears the request of its own line, and no other.
    constructor
    · intro i hi hne
      refine Bus.Requests.kept ?_ (Bus.kept_serial _ _)
      unfold Bus.Requests
      rw [hflags, Interrupt.clear_and_mask _ fun hji => hne (congrArg some hji)]
      exact hi.kept hkept
    · intro i hi
      cases hi
      refine ⟨entry, hentry, hime, hrequested, henabled, ?_, rfl, rfl⟩
      rw [hservice]
      exact hflags

theorem bus_of_step_error {board next : Board} {fault : Fault}
    (h : board.step = .error fault next) : next.bus = board.bus := by
  obtain ⟨core, hcore, rfl⟩ := step_error h
  exact Cpu.bus_of_step_error hcore

theorem idle_of_halted (board : Board) (hhalted : board.cpu.halted = true)
    (hime : board.cpu.ime = false) :
    (∃ t next, board.step = .ok t next) ∧ ¬ board.WritesFlags ∧
      ∀ next i, ¬ board.Serves next i := by
  have hcpu : ∀ entry, board.atEntry? = some entry → entry.cpu = board.cpu := by
    intro entry hentry
    unfold atEntry? Cpu.step at hentry
    rw [if_pos hhalted] at hentry
    cases hentry
    rfl
  refine ⟨?_, ?_, ?_⟩
  · unfold step Cpu.step
    dsimp only
    rw [if_pos hhalted]
    exact ⟨_, _, rfl⟩
  · rintro ⟨s, hs, _⟩
    unfold stores Cpu.stores at hs
    rw [if_pos hhalted, List.nil_append] at hs
    split at hs
    · exact List.not_mem_nil hs
    · rename_i entry hentry
      unfold Cpu.entryStores Cpu.entered? at hs
      rw [hcpu entry hentry, hime] at hs
      simp at hs
  · rintro next i ⟨entry, hentry, hentered⟩
    have hon := hentered.on
    rw [hcpu entry hentry, hime] at hon
    contradiction

end Board

namespace Machine

/-! ## Runs -/

/-- What happens to a machine: a step, or a round of input. -/
inductive Turn where
  | step
  | poll (found : Keypad.Poll)
deriving Repr, DecidableEq

def turn (m : Machine) : Turn → Machine
  | .step =>
    match m.step with
    | .ok _ next => next
    | .error _ next => next
  | .poll found => { m with board := m.board.applyPoll found }

def run (m : Machine) (turns : List Turn) : Machine := turns.foldl turn m

theorem run_concat (m : Machine) (turns : List Turn) (t : Turn) :
    m.run (turns ++ [t]) = (m.run turns).turn t := by
  unfold run
  rw [List.foldl_append, List.foldl_cons, List.foldl_nil]

theorem step_of_board_step {m : Machine} {next : Board} {t : Nat}
    (h : m.board.step = .ok t next) : m.step = .ok t { m with board := next } := by
  obtain ⟨board, config, header⟩ := m
  unfold step
  dsimp only at h ⊢
  rw [h]

theorem board_step_ok {m next : Machine} {t : Nat} (h : m.step = .ok t next) :
    m.board.step = .ok t next.board := by
  obtain ⟨board, config, header⟩ := m
  unfold step at h
  dsimp only at h ⊢
  split at h
  · cases h
    assumption
  · contradiction

theorem board_step_error {m next : Machine} {fault : Fault} (h : m.step = .error fault next) :
    m.board.step = .error fault next.board := by
  obtain ⟨board, config, header⟩ := m
  unfold step at h
  dsimp only at h ⊢
  split at h
  · contradiction
  · cases h
    assumption

theorem step_of_board_error {m : Machine} {next : Board} {fault : Fault}
    (h : m.board.step = .error fault next) : m.step = .error fault { m with board := next } := by
  obtain ⟨board, config, header⟩ := m
  unfold step
  dsimp only at h ⊢
  rw [h]

theorem requests_turn {m : Machine} {t : Turn} {i : Interrupt} (h : m.board.bus.Requests i)
    (hturn : t = .step →
      ¬ m.board.WritesFlags ∧ ¬ m.board.Serves (m.turn .step).board i) :
    (m.turn t).board.bus.Requests i := by
  cases t with
  | step =>
    obtain ⟨hwrites, hserves⟩ := hturn rfl
    cases hstep : m.step with
    | ok cycles next =>
      have hnext : m.turn .step = next := by
        unfold turn
        rw [hstep]
      rw [hnext] at hserves ⊢
      obtain ⟨served, hkept, hserved⟩ := Board.requests_step (board_step_ok hstep) hwrites
      exact hkept i h fun hi => hserves (hserved i hi)
    | error fault next =>
      have hnext : m.turn .step = next := by
        unfold turn
        rw [hstep]
      rw [hnext]
      unfold Bus.Requests
      rw [Board.bus_of_step_error (board_step_error hstep)]
      exact h
  | poll found => exact h.kept (Board.kept_applyPoll m.board found)

theorem requests_run {m : Machine} {turns : List Turn} {i : Interrupt}
    (h : m.board.bus.Requests i) {n : Nat}
    (hturns : ∀ k < n, turns[k]? = some .step →
      ¬ (m.run (turns.take k)).board.WritesFlags ∧
        ¬ (m.run (turns.take k)).board.Serves ((m.run (turns.take k)).turn .step).board i) :
    (m.run (turns.take n)).board.bus.Requests i := by
  induction n with
  | zero => exact h
  | succ n ih =>
    have hbefore := ih fun k hk => hturns k (Nat.lt_succ_of_lt hk)
    rw [List.take_add_one]
    cases hn : turns[n]? with
    | none =>
      rw [Option.toList_none, List.append_nil]
      exact hbefore
    | some t =>
      rw [Option.toList_some, run_concat]
      refine requests_turn hbefore ?_
      rintro rfl
      exact hturns n (Nat.lt_succ_self n) hn

/-- A step that does not write the flags loses no request but the one whose handler it enters, a
round of input loses none, and so a request stays until a step of the run serves it or writes the
flags. -/
theorem requests_kept :
    (∀ (m next : Machine) (t : Nat), m.step = .ok t next → ¬ m.board.WritesFlags →
      ∃ served : Option Interrupt,
        (∀ i, m.board.bus.Requests i → served ≠ some i → next.board.bus.Requests i) ∧
          ∀ i, served = some i → m.board.Serves next.board i) ∧
      (∀ (m : Machine) (found : Keypad.Poll),
        Kept m.board.bus.interruptFlags (m.turn (.poll found)).board.bus.interruptFlags) ∧
      ∀ (m : Machine) (turns : List Turn) (i : Interrupt) (n : Nat), m.board.bus.Requests i →
        (∀ k < n, turns[k]? = some .step →
          ¬ (m.run (turns.take k)).board.WritesFlags ∧
            ¬ (m.run (turns.take k)).board.Serves ((m.run (turns.take k)).turn .step).board i) →
        (m.run (turns.take n)).board.bus.Requests i := by
  refine ⟨?_, ?_, ?_⟩
  · intro m next t hstep hwrites
    exact Board.requests_step (board_step_ok hstep) hwrites
  · intro m found
    exact Board.kept_applyPoll m.board found
  · intro m turns i n h hturns
    exact requests_run h hturns

/-- A machine that waits with interrupts off while the first line is requested. -/
def waiting : Machine :=
  { board :=
      { cpu := { halted := true }
        bus := { (default : Bus) with interruptFlags := 0x01, interruptEnable := 0x01 } }
    config := default
    header := default }

end Machine

theorem Cpu.entered?_vBlank {cpu : Cpu} {bus : Bus} (hei : cpu.eiPending = false)
    (hime : cpu.ime = true) (hrequested : bus.Requests .vBlank)
    (henable : bus.interruptEnable = 0x05) : cpu.entered? bus = some .vBlank := by
  have hfirst : bus.interruptFlags &&& 0x05 &&& Interrupt.vBlank.mask ≠ 0 := by
    rw [UInt8.and_assoc]
    exact hrequested
  simp [entered?, pending?, Interrupt.first?, hei, hime, henable, Interrupt.all, hfirst]

/-- A `NOP` is next, and two lines are requested and enabled. -/
structure Board.Urged (board : Board) : Prop where
  running : board.cpu.halted = false
  ime : board.cpu.ime = true
  eiPending : board.cpu.eiPending = false
  opcode : board.bus.read board.cpu.regs.pc = 0x00
  sp : board.cpu.regs.sp = 0xd000
  vBlank : board.bus.Requests .vBlank
  timer : board.bus.Requests .timer
  enable : board.bus.interruptEnable = 0x05

namespace Board.Urged

variable {board : Board} (h : board.Urged)
include h

theorem instruction : ∃ t log, board.cpu.stores board.bus = [] ∧
    board.cpu.step board.bus =
      .ok t { cpu := board.cpu.skip 1, bus := { board.bus with log } } := by
  have hdecode : Cpu.Instruction.decode? (board.bus.read board.cpu.regs.pc) = some .nop := by
    rw [h.opcode]
    rfl
  obtain ⟨log, htrace, -⟩ := board.cpu.trace_eq board.bus .nop
  refine ⟨4, log, ?_, ?_⟩
  · unfold Cpu.stores Cpu.opcode
    rw [hdecode, h.running]
    rfl
  · rw [Cpu.step_running h.running hdecode, htrace]
    rfl

theorem atEntry : ∃ entry, board.atEntry? = some entry ∧ entry.cpu = board.cpu.skip 1 ∧
    entry.cpu.entered? entry.bus = some .vBlank := by
  obtain ⟨t, log, hstores, hstep⟩ := h.instruction
  have hentry := atEntry?_of_step hstep
  have hkept := kept_atEntry hentry (by rw [hstores]; exact List.forall_mem_nil _)
  have hrequested := h.vBlank.kept hkept
  have htick := Bus.apply_tick (f := Bus.interruptEnable) { board.bus with log }
    (fun _ _ _ => rfl) (fun _ _ => rfl) t
  have henable := PictureUnit.apply_step (f := Bus.interruptEnable) (fun _ _ _ => rfl)
    (fun _ _ => rfl) board.picture (({ board.bus with log } : Bus).tick t) t
  rw [htick] at henable
  exact ⟨_, hentry, rfl, Cpu.entered?_vBlank h.eiPending h.ime hrequested (henable.trans h.enable)⟩

theorem not_writesFlags : ¬ board.WritesFlags := by
  obtain ⟨t, log, hstores, -⟩ := h.instruction
  obtain ⟨entry, hentry, hcpu, hentered⟩ := h.atEntry
  have hsp : entry.cpu.regs.sp = 0xd000 := by
    rw [hcpu]
    exact h.sp
  unfold WritesFlags Board.stores
  rw [hstores, hentry]
  simp [Cpu.entryStores, hentered, Cpu.pushWord, hsp, Cpu.Store.word]

theorem step : ∃ t next, board.step = .ok t next ∧ next.cpu.regs.pc = 0x40 := by
  obtain ⟨t, log, -, hinstruction⟩ := h.instruction
  obtain ⟨entry, hentry, -, hentered⟩ := h.atEntry
  cases hstep : board.step with
  | error fault next =>
    obtain ⟨core, hcore, -⟩ := step_error hstep
    cases hinstruction.symm.trans hcore
  | ok t next =>
    obtain ⟨entry', hentry', rfl⟩ := step_ok hstep
    cases hentry.symm.trans hentry'
    refine ⟨t, _, rfl, ?_⟩
    rw [Cpu.service_of_entered? hentered]
    rfl

end Board.Urged

namespace Machine

/-- Two lines are requested, and one of them is entered. -/
def pressed : Machine :=
  { board :=
      { cpu := { regs := { Cpu.Registers.powerOn with sp := 0xd000, pc := 0xc000 }, ime := true }
        bus := { (default : Bus) with interruptFlags := 0x05, interruptEnable := 0x05 } }
    config := default
    header := default }

theorem urged_pressed : pressed.board.Urged where
  running := rfl
  ime := rfl
  eiPending := rfl
  opcode := by
    have hcell : (default : Cells).get 0xc000 = 0x00 := Cells.get_ofFn _ _
    exact (Bus.read_eq_cell pressed.board.bus (by decide)).trans hcell
  sp := rfl
  vBlank := by decide
  timer := by decide
  enable := rfl

theorem requests_kept_waiting :
    waiting.board.bus.Requests .vBlank ∧
      (∃ t next, waiting.step = .ok t next ∧ next.board.bus.Requests .vBlank) ∧
      (waiting.run [.poll ⟨true, 0xfe⟩, .step]).board.bus.Requests .vBlank ∧
      ∃ t next, pressed.step = .ok t next ∧ next.board.cpu.regs.pc = Interrupt.vBlank.vector ∧
        next.board.bus.Requests .timer := by
  obtain ⟨hstep, -, hrun⟩ := requests_kept
  have hrequested : waiting.board.bus.Requests .vBlank := by decide
  refine ⟨hrequested, ?_, ?_, ?_⟩
  · obtain ⟨⟨t, next, hnext⟩, hwrites, hserves⟩ := waiting.board.idle_of_halted rfl rfl
    have hmachine := step_of_board_step hnext
    obtain ⟨served, hkept, hserved⟩ := hstep _ _ t hmachine hwrites
    exact ⟨t, _, hmachine, hkept _ hrequested fun hi => hserves _ _ (hserved _ hi)⟩
  · obtain ⟨-, hwrites, hserves⟩ :=
      (waiting.turn (.poll ⟨true, 0xfe⟩)).board.idle_of_halted rfl rfl
    have hkept := hrun waiting [.poll ⟨true, 0xfe⟩, .step] .vBlank 2 hrequested (by
      intro k hk hturn
      match k, hk with
      | 0, _ => cases hturn
      | 1, _ => exact ⟨hwrites, hserves _ _⟩)
    rw [List.take_of_length_le (Nat.le_refl 2)] at hkept
    exact hkept
  · obtain ⟨t, next, hnext, hpc⟩ := urged_pressed.step
    have hmachine := step_of_board_step hnext
    obtain ⟨served, hkept, hserved⟩ := hstep _ _ t hmachine urged_pressed.not_writesFlags
    refine ⟨t, _, hmachine, hpc, hkept _ urged_pressed.timer fun htimer => ?_⟩
    -- The handler that was entered is another one.
    obtain ⟨entry, -, hentered⟩ := hserved _ htimer
    exact absurd (hpc.symm.trans hentered.vector) (by decide)

end Machine

end Handheld
