import Handheld.Cartridge.Clock
import Handheld.Cpu.Registers
import Handheld.Fault
import Handheld.Interrupt
import Handheld.Keypad.Key

/-!
# Events

What the machine and its parts report while they run: each event has a level, the part that
reports it, and a text.
-/

namespace Handheld

/-- How much an event matters, the most important first. -/
inductive Level where
  | error
  | info
  | debug
  | trace
deriving Repr, DecidableEq, Inhabited

namespace Level

def rank : Level → Nat
  | error => 0
  | info => 1
  | debug => 2
  | trace => 3

/-- Whether events of level `l` are kept where `threshold` is the least important level kept. -/
def keeps (threshold l : Level) : Bool := l.rank ≤ threshold.rank

def name : Level → String
  | error => "ERROR"
  | info => "INFO"
  | debug => "DEBUG"
  | trace => "TRACE"

end Level

/-- What can be reported. -/
inductive Event where
  /-- A cartridge image was read from a file. -/
  | imageRead (size : Nat) (path : String)
  | cartridgeLoaded (title : String) (kind : UInt8) (romBanks ramBanks : Nat)
  /-- A write to the ROM of a cartridge without a controller. -/
  | controlIgnored (address : UInt16) (value : UInt8)
  | mbc1Control (address : UInt16) (value romBank ramBank : UInt8) (ramOpen : Bool)
  | mbc2Control (address : UInt16) (value romBank : UInt8) (ramOpen : Bool)
  | mbc3Control (address : UInt16) (value romBank select : UInt8) (ramOpen : Bool)
  | clockLatched (clock : Cartridge.Clock)
  | timerRate (period : Nat)
  | keyPressed (key : Key)
  | keyReleased (key : Key)
  | dmaStarted (source : UInt16)
  | serialSent (byte : UInt8) (master : Bool)
  | serialReceived (byte : UInt8)
  | partnerGone
  | dumped (path : String)
  /-- An instruction was fetched from `pc`; `after` are the registers after its opcode. -/
  | executed (pc : UInt16) (opcode : UInt8) (name : String) (after : Cpu.Registers)
  | executedExtended (opcode : UInt8) (name : String)
  | interruptEntered (line : Interrupt) (pc vector : UInt16)
  | runStarted (title : String) (fps : UInt32) (budget : Nat)
  | runFailed (fault : Fault)
  /-- The processor as it stood when the run failed, as text. -/
  | runFailedAt (cpu : String)
  | receiverGone
  | runStopped (frames : Nat)
  | framesConsumed (count : Nat)
  | programFailed (text : String)
deriving Repr, Inhabited

namespace Event

def level : Event → Level
  | imageRead .. | cartridgeLoaded .. | partnerGone | dumped _ | runStarted .. | runStopped _
  | framesConsumed _ => .info
  | mbc1Control .. | mbc2Control .. | mbc3Control .. | clockLatched _ | timerRate _
  | keyPressed _ | keyReleased _ | dmaStarted _ | serialSent .. | serialReceived _
  | interruptEntered .. | receiverGone => .debug
  | controlIgnored .. | executed .. | executedExtended .. => .trace
  | runFailed _ | runFailedAt _ | programFailed _ => .error

/-- The part that reports the event. -/
def source : Event → String
  | imageRead .. | cartridgeLoaded .. => "gb_core::mem::cartridge"
  | controlIgnored .. => "gb_core::mem::mbc::mbc0"
  | mbc1Control .. => "gb_core::mem::mbc::mbc1"
  | mbc2Control .. => "gb_core::mem::mbc::mbc2"
  | mbc3Control .. | clockLatched _ => "gb_core::mem::mbc::mbc3"
  | timerRate _ => "gb_core::mem::timer"
  | keyPressed _ | keyReleased _ => "gb_core::mem::key"
  | dmaStarted _ | serialSent .. | serialReceived _ | dumped _ => "gb_core::mem"
  | partnerGone => "gb_core::link"
  | executed .. | executedExtended .. | interruptEntered .. => "gb_core::cpu"
  | runStarted .. | runFailed _ | runFailedAt _ | receiverGone | runStopped _ =>
    "gb_core::gameboy"
  | framesConsumed _ | programFailed _ => "gb"

/-- A name filled up with blanks to twelve columns. -/
def column (name : String) : String :=
  name ++ String.ofList (List.replicate (12 - name.length) ' ')

def text : Event → String
  | imageRead size path => s!"{size} bytes of ROM loaded from {path}"
  | cartridgeLoaded title kind romBanks ramBanks =>
    s!"Cartridge \"{title}\": {Cartridge.Kind.nameOfCode kind}, " ++
      s!"{romBanks} ROM banks, {ramBanks} RAM banks"
  | controlIgnored address value =>
    s!"MBC0: ignored write 0x{Hex.byte value} to 0x{Hex.word address}"
  | mbc1Control address value romBank ramBank ramOpen =>
    s!"MBC1: 0x{Hex.word address} <- 0x{Hex.byte value}, " ++
      s!"rom bank {romBank} ram bank {ramBank} ram {ramOpen}"
  | mbc2Control address value romBank ramOpen =>
    s!"MBC2: 0x{Hex.word address} <- 0x{Hex.byte value}, rom bank {romBank} ram {ramOpen}"
  | mbc3Control address value romBank select ramOpen =>
    s!"MBC3: 0x{Hex.word address} <- 0x{Hex.byte value}, " ++
      s!"rom bank {romBank} select 0x{Hex.byte select} ram {ramOpen}"
  | clockLatched c =>
    s!"MBC3: latched clock Clock \x7b seconds: {c.seconds}, minutes: {c.minutes}, " ++
      s!"hours: {c.hours}, day_low: {c.dayLow}, day_high: {c.dayHigh} \x7d"
  | timerRate period => s!"Timer: frequency changed, {period} cycles/tick"
  | keyPressed key => s!"Pressed {key.name}"
  | keyReleased key => s!"Released {key.name}"
  | dmaStarted source => s!"DMA: 0x{Hex.word source} -> OAM"
  | serialSent byte master => s!"Serial: send 0x{Hex.byte byte} (master {master})"
  | serialReceived byte => s!"Serial: received 0x{Hex.byte byte}"
  | partnerGone => "Serial: partner disconnected"
  | dumped path => s!"Memory dumped to {path}"
  | executed pc opcode name after =>
    s!"0x{Hex.word pc}: {Hex.byte opcode} {column name} {after.text}"
  | executedExtended opcode name => s!"           cb {Hex.byte opcode} {name}"
  | interruptEntered line pc vector =>
    s!"Interrupt {line.name}: 0x{Hex.word pc} -> 0x{Hex.word vector}"
  | runStarted title fps budget =>
    s!"Running \"{title}\" at {fps} fps (budget {budget} cycles)"
  | runFailed fault => fault.message
  | runFailedAt cpu => s!"CPU: {cpu}"
  | receiverGone => "Frame receiver gone"
  | runStopped frames => s!"Stopped after {frames} frames"
  | framesConsumed count => s!"Consumed {count} frames"
  | programFailed text => text

end Event

end Handheld
