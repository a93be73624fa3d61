import Handheld.Cartridge.Load
import Handheld.Config
import Handheld.Cpu.Step
import Handheld.Picture.Unit

/-!
# The machine

Processor, bus and picture unit on one board. A step runs one instruction and lets the rest of the
hardware catch up; a frame is as many steps as fit its budget of cycles.
-/

namespace Handheld

structure Board where
  cpu : Cpu := .powerOn
  bus : Bus
  picture : PictureUnit := .powerOn
deriving Inhabited

namespace Board

/-- Runs one instruction, then timer, cartridge and picture, then the entry into a handler, then the
serial line. Gives the cycles of it all. -/
def step (board : Board) : EStateM.Result Fault Board Nat :=
  let ⟨cpu, bus, picture⟩ := board
  match cpu.step bus with
  | .error fault core => .error fault { cpu := core.cpu, bus := core.bus, picture }
  | .ok t core =>
    let (_, picture, bus) := picture.step (core.bus.tick t) t
    let (entry, core) := core.cpu.service bus
    .ok (t + entry) { cpu := core.cpu, bus := core.bus.serial (t + entry), picture }

theorem cycles_pos_of_step {board next : Board} {t : Nat} (h : board.step = .ok t next) :
    0 < t := by
  unfold step at h
  split at h
  split at h
  · contradiction
  · rename_i c _ hc
    injection h with h
    have := Cpu.cycles_pos_of_step hc
    omega

/-- Runs steps until `budget` cycles are spent, `spent` of them already. Gives the cycles spent.
The sum is exact, as 32 bits keep it while the budget leaves room for one more step. -/
def runUntil (budget spent : Nat) (board : Board) : EStateM.Result Fault Board Nat :=
  if spent < budget then
    match _h : board.step with
    | .ok t board => runUntil budget (spent + t) board
    | .error fault board => .error fault board
  else .ok spent board
termination_by budget - spent
decreasing_by
  have := cycles_pos_of_step ‹_›
  omega

def reportAll (board : Board) (es : List Event) : Board :=
  { board with bus := board.bus.reportAll es }

/-- One round of input: the keypad's poll reaches the joypad register and its interrupt line. -/
def applyPoll (board : Board) (found : Keypad.Poll) : Board :=
  let bus := { board.bus with joypad := found.register }
  { board with bus := if found.edge then bus.request .joypad else bus }

end Board

/-- A board with a cartridge in it and the settings to run it with. -/
structure Machine where
  board : Board
  config : Config
  header : Cartridge.Header

namespace Machine

/-- The machine with an image in it, at power-on. What is reported goes to `log`. -/
def ofImage (image : ByteArray) (config : Config) (log : Log) : Except Fault Machine :=
  match Cartridge.load image config.clockHz.toNat with
  | .error fault => .error fault
  | .ok loaded =>
    let log := { log.add loaded.event with instructions := config.trace }
    .ok
      { board := { bus := .powerOn loaded.cartridge config.sound log }
        config
        header := loaded.header }

def step (m : Machine) : EStateM.Result Fault Machine Nat :=
  let ⟨board, config, header⟩ := m
  match board.step with
  | .ok t board => .ok t { board, config, header }
  | .error fault board => .error fault { board, config, header }

def runFrame (m : Machine) : EStateM.Result Fault Machine Nat :=
  let ⟨board, config, header⟩ := m
  match board.runUntil config.frameBudget 0 with
  | .ok t board => .ok t { board, config, header }
  | .error fault board => .error fault { board, config, header }

def reportAll (m : Machine) (es : List Event) : Machine :=
  { m with board := m.board.reportAll es }

def frame (m : Machine) : Picture.Frame := m.board.picture.shown

def frameCount (m : Machine) : Nat := m.board.picture.frames

def log (m : Machine) : Log := m.board.bus.log

def drainLog (m : Machine) : Array Event × Machine :=
  let ⟨⟨cpu, bus, picture⟩, config, header⟩ := m
  (bus.log.entries, ⟨⟨cpu, { bus with log := bus.log.clear }, picture⟩, config, header⟩)

end Machine

end Handheld
