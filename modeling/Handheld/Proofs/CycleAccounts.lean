import Handheld.Proofs.CartridgeClock
import Handheld.Proofs.HardwareOrder
import Handheld.Proofs.LinePosition
import Handheld.Proofs.SerialCalls
import Handheld.Proofs.StepOutcomes
import Mathlib.Algebra.GroupWithZero.Nat

/-!
# Where the cycles go

A step gives the cycles of its instruction and of the entry into a handler. Picture unit and
cartridge clock move on by the first ones only, the serial line by all of them. So it is for any
number of steps.
-/

namespace Handheld

/-! ## The processor -/

namespace Bus

open PictureUnit (lyAddress)

end Bus

namespace Cpu

theorem cycles_service (cpu : Cpu) (bus : Bus) :
    (cpu.service bus).1 = if (cpu.entered? bus).isSome then interruptCycles else 0 := by
  have hserviced := cpu.serviced bus
  generalize cpu.service bus = r at hserviced
  unfold entered?
  cases hserviced with
  | enabled hei => simp [hei]
  | passed hei hquiet =>
    rcases hquiet with ⟨hime, -⟩ | hnone
    · simp [hime]
    · simp [hnone]
  | woken i hei hime => simp [hime]
  | entered i hei hime hpending => simp [hei, hime, hpending]

end Cpu

/-! ## A step of the board -/

namespace Board

open PictureUnit (lyAddress pictureCycles)

def enters (board : Board) : Bool :=
  match board.atEntry? with
  | none => false
  | some entry => (entry.cpu.entered? entry.bus).isSome

def setsClock (board : Board) : Bool :=
  board.bus.cartridge.setsClock (board.cpu.stores board.bus) ||
    match board.atEntry? with
    | none => false
    | some entry => entry.bus.cartridge.setsClock (entry.cpu.entryStores entry.bus)

def position (board : Board) : Int := board.picture.position (board.bus.read lyAddress)

def Placed (board : Board) : Prop := board.picture.Placed (board.bus.read lyAddress)

/-- What a step is made of: an instruction, the hardware after it, and what comes between two
instructions. -/
structure Parts (board next : Board) (t : Nat) where
  used : Nat
  core : Cpu.Core
  instruction : board.cpu.step board.bus = .ok used core
  /-- The board as the entry into a handler finds it. -/
  entry : Board
  entry_eq : entry =
    { cpu := core.cpu
      bus := (board.picture.step (core.bus.tick used) used).2.2
      picture := (board.picture.step (core.bus.tick used) used).2.1 }
  atEntry : board.atEntry? = some entry
  cycles : t = used + if board.enters then 20 else 0
  picture : next.picture = entry.picture
  bus : next.bus = (entry.cpu.service entry.bus).2.bus.serial t

theorem parts_of_step {board next : Board} {t : Nat} (h : board.step = .ok t next) :
    Nonempty (Parts board next t) := by
  cases hcore : board.cpu.step board.bus with
  | error fault core =>
    rw [step_of_cpu_error hcore] at h
    contradiction
  | ok used core =>
    have hentry := atEntry?_of_step hcore
    rw [step_of_atEntry hcore hentry] at h
    cases h
    refine ⟨⟨used, core, hcore, _, rfl, hentry, ?_, rfl, rfl⟩⟩
    simp only [enters, hentry, Cpu.cycles_service]
    rfl

namespace Parts

variable {board next : Board} {t : Nat} (parts : Parts board next t)
include parts

end Parts

end Board

/-! ## A waiting processor -/

namespace Board

/-- The processor waits for the first line, which is requested already. -/
structure Awakes (board : Board) : Prop where
  halted : board.cpu.halted = true
  ime : board.cpu.ime = true
  eiPending : board.cpu.eiPending = false
  flags : board.bus.interruptFlags = 0x01
  enable : board.bus.interruptEnable = 0x01
  sp : board.cpu.regs.sp = 0xfffe

namespace Awakes

variable {board : Board} (h : board.Awakes)
include h

theorem atEntry : ∃ entry, board.atEntry? = some entry ∧
    entry.cpu = board.cpu ∧ entry.cpu.entered? entry.bus = some .vBlank := by
  have hrequested :=
    (Bus.kept_tick board.bus 4).trans (PictureUnit.kept_step board.picture (board.bus.tick 4) 4)
  have htick : (board.bus.tick 4).interruptEnable = board.bus.interruptEnable :=
    Bus.apply_tick (f := Bus.interruptEnable) _ (fun _ _ _ => rfl) (fun _ _ => rfl) _
  have henabled := PictureUnit.apply_step (f := Bus.interruptEnable) (fun _ _ _ => rfl)
    (fun _ _ => rfl) board.picture (board.bus.tick 4) 4
  unfold Kept at hrequested
  rw [h.flags] at hrequested
  refine ⟨_, atEntry?_of_halted h.halted, rfl, ?_⟩
  unfold Cpu.entered? Cpu.pending?
  dsimp only
  rw [h.eiPending, h.ime, henabled, htick, h.enable, UInt8.and_comm, hrequested]
  rfl

theorem step : ∃ next, board.step = .ok 24 next := by
  obtain ⟨entry, hentry, -, hentered⟩ := h.atEntry
  obtain ⟨next, hstep⟩ := step_of_halted h.halted hentry
  rw [Cpu.cycles_service, hentered] at hstep
  exact ⟨next, hstep⟩

theorem enters : board.enters = true := by
  obtain ⟨entry, hentry, -, hentered⟩ := h.atEntry
  unfold Board.enters
  rw [hentry]
  dsimp only
  rw [hentered]
  rfl

theorem setsClock : board.setsClock = false := by
  obtain ⟨entry, hentry, hcpu, hentered⟩ := h.atEntry
  unfold Board.setsClock Cpu.stores Cpu.entryStores
  rw [if_pos h.halted, hentry]
  dsimp only
  rw [hentered, hcpu, Cpu.pushWord, h.sp]
  rfl

end Awakes

end Board

/-! ## Runs of steps -/

namespace Machine

open PictureUnit (lyAddress pictureCycles)

structure Steps (n : Nat) where
  machine : Nat → Machine
  cycles : Nat → Nat
  ok : ∀ i < n, (machine i).step = .ok (cycles i) (machine (i + 1))

namespace Steps

variable {n : Nat} (run : Steps n)

def single {m next : Machine} {t : Nat} (h : m.step = .ok t next) : Steps 1 where
  machine i := if i = 0 then m else next
  cycles _ := t
  ok i hi := by
    rw [Nat.lt_one_iff.1 hi]
    exact h

def board (i : Nat) : Board := (run.machine i).board

def spent (k : Nat) : Nat := ((List.range k).map run.cycles).sum

def entries (k : Nat) : Nat := (List.range k).countP fun i => (run.board i).enters

theorem spent_succ (k : Nat) : run.spent (k + 1) = run.spent k + run.cycles k := by
  simp [spent, List.range_succ]

theorem parts {i : Nat} (h : i < n) :
    Nonempty ((run.board i).Parts (run.board (i + 1)) (run.cycles i)) :=
  Board.parts_of_step (board_step_ok (run.ok i h))

def used (i : Nat) : Nat := run.cycles i - if (run.board i).enters then 20 else 0

/-- The cycles of the instructions of the first `k` steps. -/
def ticks (k : Nat) : List Nat := (List.range k).map run.used

end Steps

/-- With the display on, a clock on the cartridge and a scripted partner. -/
def interrupted : Machine :=
  { board :=
      { cpu := { halted := true, ime := true }
        bus :=
          { cells := .ofFn fun a => if a = 0xff40 then 0x91 else 0
            cartridge := ⟨.empty, .mbc3 (.powerOn 0 true 4194304)⟩
            interruptFlags := 0x01
            interruptEnable := 0x01
            sound := true
            plug := some (.ofAnswers []) } }
    config := default
    header := default }

end Machine

end Handheld
