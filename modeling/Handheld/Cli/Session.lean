import Handheld.Cli.Arguments
import Handheld.Cli.Entry
import Handheld.Scheduler

/-!
# A session of the command line program

The arguments become settings, the image is loaded, and frames are run and counted until there are
enough of them or the machine fails.
-/

namespace Handheld.Cli

structure Report where
  exit : UInt32
  refusal : Option Refusal := none
  /-- The lines of version or help, if that was asked for. -/
  greeting : List String := []
  /-- The log in order: what the machine reports, then what the program does. -/
  log : Log := {}
deriving Inhabited

structure Settings where
  config : Config
  limit : Option Nat
deriving Inhabited

def badValue (value : String) : String :=
  s!"error: Invalid value: The argument '{value}' isn't a valid value"

def parseNumber (bound : Nat) (text : String) : Except String Nat :=
  match number? bound text with
  | some n => .ok n
  | none => .error (badValue text)

namespace Arguments

def level (a : Arguments) : Level :=
  if a.trace then .trace else if a.debug then .debug else .info

/-- Looks at the numbers, in the order of frame rate, speed and limit. -/
def settings (a : Arguments) : Except String Settings := do
  let fps ← parseNumber 4294967296 a.fps
  let speed ← parseNumber 4294967296 a.speed
  let limit ← a.frames.mapM (parseNumber 18446744073709551616)
  return {
    config := {
      fps := UInt32.ofNat fps
      speed := UInt32.ofNat speed
      sound := a.sound
      trace := a.trace }
    limit }

end Arguments

/-- Takes frames and throws them away, and perhaps stops after so many. -/
structure Consumer where
  limit : Option Nat
  taken : Nat := 0
deriving Repr, DecidableEq, Inhabited

namespace Consumer

def take (c : Consumer) : Consumer := { c with taken := c.taken + 1 }

/-- Whether it has stopped. The limit is looked at after each frame, so one is always taken. -/
def satisfied (c : Consumer) : Bool :=
  match c.limit with
  | some limit => 0 < c.taken && limit ≤ c.taken
  | none => false

end Consumer

structure Emulation where
  scheduler : Scheduler
  consumer : Consumer

namespace Emulation

/-- One round of the scheduler. The exit flag goes up when the consumer stops. -/
def advance (e : Emulation) : Emulation :=
  let ⟨scheduler, consumer⟩ := e
  let s := scheduler.proceed consumer.satisfied
  match s.stage with
  | .offering _ => { scheduler := s.accepted.poll.2, consumer := consumer.take }
  | _ => { scheduler := s, consumer }

def ended (e : Emulation) : Bool :=
  match e.scheduler.stage with
  | .ended _ => true
  | _ => false

def fault? (e : Emulation) : Option Fault :=
  match e.scheduler.stage with
  | .ended fault => fault
  | _ => none

def drain (e : Emulation) : Array Event × Emulation :=
  let ⟨⟨machine, keypad, stage⟩, consumer⟩ := e
  let (events, machine) := machine.drainLog
  (events, ⟨⟨machine, keypad, stage⟩, consumer⟩)

end Emulation

def failed (log : Log) (text : String) : Report :=
  { exit := 1, log := log.add (.programFailed text) }

/-- The machine in an image, with a cable plugged in that leads nowhere. -/
def loadMachine (image : ByteArray) (config : Config) (log : Log) : Except Fault Machine := do
  let m ← Machine.ofImage image config log
  let bus := { m.board.bus with plug := some (.detached config.linkDelay) }
  return { m with board := { m.board with bus } }

/-- What happens after the last frame: a fault may be dumped, and a dump that fails takes its
place. -/
def conclude {m : Type → Type} [Monad m] (files : Files m) (dump : Option String) (e : Emulation) :
    m Report := do
  let bus := e.scheduler.machine.board.bus
  let count := Event.framesConsumed e.consumer.taken
  match e.fault?, dump with
  | none, _ => return { exit := 0, log := bus.log.add count }
  | some fault, none => return failed (bus.log.add count) fault.chain
  | some fault, some path =>
    match ← bus.dump files path with
    | .ok bus => return failed (bus.log.add count) fault.chain
    | .error dumpFault => return failed (bus.log.add count) dumpFault.chain

/-- Runs a program whose arguments are in order. `finish` brings an emulation to its end. There is
no screen, so a program that is not headless ends before its window opens. -/
def start {m : Type → Type} [Monad m] (files : Files m) (finish : Emulation → m Emulation)
    (a : Arguments) : m Report := do
  let log : Log := { threshold := some a.level }
  match a.settings with
  | .error text => return failed log text
  | .ok settings =>
    match ← Cartridge.readImage files a.image with
    | .error fault => return failed log s!"failed to load {a.image}: {fault.chain}"
    | .ok (image, read) =>
      let log := log.add read
      match loadMachine image settings.config log with
      | .error fault => return failed log s!"failed to load {a.image}: {fault.chain}"
      | .ok machine =>
        if a.headless then
          let scheduler := Scheduler.start machine {}
          conclude files a.dump (← finish { scheduler, consumer := { limit := settings.limit } })
        else
          match parseNumber 18446744073709551616 a.scale with
          | .error text => return failed machine.log text
          | .ok _ => return failed machine.log "failed to open a window: there is no screen"

def run {m : Type → Type} [Monad m] (files : Files m) (finish : Emulation → m Emulation)
    (args : List String) : m Report := do
  match Arguments.parse args with
  | .error .help => return { exit := 0, greeting := helpLines }
  | .error .version => return { exit := 0, greeting := [version] }
  | .error (.refused r) => return { exit := 1, refusal := some r }
  | .ok a => start files finish a

end Handheld.Cli
