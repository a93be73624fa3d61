import Handheld.Bus.Cells
import Handheld.Bus.Region
import Handheld.Cartridge.Basic
import Handheld.Files.Basic
import Handheld.Keypad.Basic
import Handheld.Link.Plug
import Handheld.Log
import Handheld.Timer
import Handheld.Word

/-!
# The bus

The 64 KB address space over cells, cartridge, timer, joypad and serial line, and the rules by
which each region reads and writes.
-/

namespace Handheld

structure SoundWrite where
  address : UInt16
  value : UInt8
  /-- All 48 sound registers after the write. -/
  registers : List UInt8
deriving Repr, DecidableEq, Inhabited

/-- Is told of every write to the sound registers. Nothing it does reaches the machine. -/
structure SoundRecorder where
  writes : Array SoundWrite := #[]
deriving Repr, DecidableEq, Inhabited

def SoundRecorder.hear (r : SoundRecorder) (w : SoundWrite) : SoundRecorder := ⟨r.writes.push w⟩

structure Bus where
  cells : Cells
  cartridge : Cartridge
  timer : Timer := .powerOn
  /-- The joypad register: a pressed key's bit is clear. -/
  joypad : UInt8 := 0xff
  /-- The last byte received over the serial line. -/
  received : UInt8 := 0
  interruptEnable : UInt8 := 0
  interruptFlags : UInt8 := 0
  /-- Whether writes to the sound registers are heard. -/
  sound : Bool
  recorder : Option SoundRecorder := none
  plug : Option Link.Plug := none
  log : Log := {}
deriving Inhabited

namespace Bus

def report (b : Bus) (e : Event) : Bus := { b with log := b.log.add e }

def reportAll (b : Bus) (es : List Event) : Bus := { b with log := b.log.addAll es }

def read (b : Bus) (address : UInt16) : UInt8 :=
  match Region.ofAddress address with
  | .romBanked => b.cartridge.readBanked address
  | .cartridgeRam => b.cartridge.readRam address
  | .unusable => 0xff
  | .joypad => readJoypad (b.cells.get address) b.joypad
  | .serialData => b.received
  | .timer => b.timer.read (.ofAddress address)
  | .interruptFlags => b.interruptFlags ||| 0xe0
  | .interruptEnable => b.interruptEnable
  | _ => b.cells.get address

def readWord (b : Bus) (address : UInt16) : UInt16 := View.word b.read address

/-- Stores into a cell, past the rules of its region. -/
def store (b : Bus) (address : UInt16) (v : UInt8) : Bus :=
  { b with cells := b.cells.set address v }

/-- Copies 160 bytes, one after another, to the sprite table. -/
def copyToSprites (b : Bus) (source : UInt16) : Bus :=
  (List.range 160).foldl
    (fun b i => b.store (0xfe00 + UInt16.ofNat i) (b.read (source + UInt16.ofNat i))) b

def dma (b : Bus) (v : UInt8) : Bus :=
  (b.report (.dmaStarted (Word.ofBytes v 0))).copyToSprites (Word.ofBytes v 0)

/-- A write to the serial control register: bit 0 makes this machine drive the transfer, bit 7
starts one. -/
def serialControl (b : Bus) (v : UInt8) : Bus :=
  let master := v &&& 0x01 != 0
  let start := v &&& 0x80 != 0
  match b.plug with
  | none => b
  | some plug =>
    if start then
      let byte := b.cells.get 0xff01
      { b with plug := some ((plug.setStatus master start).send byte) }.report
        (.serialSent byte master)
    else { b with plug := some (plug.setStatus master start) }

/-- Lets the recorder hear a write to a sound register, if there is one and sound is on. -/
def hear (b : Bus) (address : UInt16) (v : UInt8) : Bus :=
  if b.sound then
    match b.recorder with
    | some r => { b with recorder := some (r.hear ⟨address, v, b.cells.slice 0xff10 48⟩) }
    | none => b
  else b

def write (b : Bus) (address : UInt16) (v : UInt8) : Bus :=
  match Region.ofAddress address with
  | .romFixed | .romBanked =>
    { b with
      cartridge := b.cartridge.control address v
      log := b.log.addAll (b.cartridge.controller.controlEvents address v) }
  | .cartridgeRam => { b with cartridge := b.cartridge.writeRam address v }
  | .echo => (b.store address v).store (address - 0x2000) v
  | .unusable => b
  | .serialControl => (b.store address v).serialControl v
  | .timer =>
    { b with
      timer := b.timer.write (.ofAddress address) v
      log := b.log.addAll (b.timer.writeEvents (.ofAddress address) v) }
  | .interruptFlags => { b with interruptFlags := v &&& 0x1f }
  | .sound => (b.store address v).hear address v
  | .lcdStatus => b.store address ((v &&& 0xf8) ||| (b.cells.get address &&& 0x07))
  | .lcdLine => b.store address 0
  | .dma => b.dma v
  | .interruptEnable => { b with interruptEnable := v }
  | .joypad | .serialData | .plain => b.store address v

def writeWord (b : Bus) (address : UInt16) (v : UInt16) : Bus :=
  (b.write address (Word.low v)).write (address + 1) (Word.high v)

def request (b : Bus) (i : Interrupt) : Bus :=
  { b with interruptFlags := b.interruptFlags ||| i.mask }

def acknowledge (b : Bus) (i : Interrupt) : Bus :=
  { b with interruptFlags := b.interruptFlags &&& ~~~i.mask }

def tick (b : Bus) (cycles : Nat) : Bus :=
  let (overflow, timer) := b.timer.advance cycles
  let b := { b with timer, cartridge := b.cartridge.tick cycles }
  if overflow then b.request .timer else b

/-- A transfer is done: the byte is there, the transfer bit is clear, and an interrupt is
requested. -/
def completeTransfer (b : Bus) (byte : UInt8) : Bus :=
  (({ b with received := byte }.store 0xff02 (b.cells.get 0xff02 &&& 0x7f)).request
    .serial).report (.serialReceived byte)

def serial (b : Bus) (cycles : Nat) : Bus :=
  match b.plug with
  | none => b
  | some plug =>
    let (r, plug) := plug.receive cycles
    let b := { b with plug := some plug }
    if r.done then b.completeTransfer r.byte else b

def image (b : Bus) : List UInt8 := (List.range 65536).map fun i => b.read (UInt16.ofNat i)

/-- Writes the whole address space, as the program reads it, to a file. -/
def dump {m : Type → Type} [Monad m] (files : Files m) (b : Bus) (path : String) :
    m (Except Fault Bus) := do
  match ← files.write path ⟨b.image.toArray⟩ with
  | .ok _ => return .ok (b.report (.dumped path))
  | .error cause => return .error (.file path cause)

def powerOnWrites : List (UInt16 × UInt8) :=
  [(0xff05, 0x00), (0xff06, 0x00), (0xff07, 0x00), (0xff10, 0x80), (0xff11, 0xbf),
    (0xff12, 0xf3), (0xff14, 0xbf), (0xff16, 0x3f), (0xff17, 0x00), (0xff19, 0xbf),
    (0xff1a, 0x7f), (0xff1b, 0xff), (0xff1c, 0x9f), (0xff1e, 0xbf), (0xff20, 0xff),
    (0xff21, 0x00), (0xff22, 0x00), (0xff23, 0xbf), (0xff24, 0x77), (0xff25, 0xf3),
    (0xff26, 0xf1), (0xff40, 0x91), (0xff42, 0x00), (0xff43, 0x00), (0xff45, 0x00),
    (0xff47, 0xfc), (0xff48, 0xff), (0xff49, 0xff), (0xff4a, 0x00), (0xff4b, 0x00),
    (0xff0f, 0x01), (0xffff, 0x00)]

/-- The bus over a cartridge as it powers on. ROM bank 0 is copied into its cells. -/
def powerOn (cartridge : Cartridge) (sound : Bool) (log : Log) : Bus :=
  let cells := Cells.ofFn fun a => if a < 0x4000 then cartridge.readFixed a else 0
  powerOnWrites.foldl (fun b (a, v) => b.write a v) { cells, cartridge, sound, log }

end Bus

end Handheld
