import Handheld.Cartridge.Banks
import Handheld.Event

/-!
# The MBC3 controller

Seven bits of ROM bank, four RAM banks, and perhaps a clock whose registers show in the RAM window.
The program reads a snapshot of the clock and writes the running one.
-/

namespace Handheld.Cartridge

structure Mbc3 where
  ram : Ram
  romBank : UInt8 := 1
  /-- What the RAM window shows: a RAM bank or a clock register. -/
  select : UInt8 := 0
  ramOpen : Bool := false
  hasClock : Bool
  clock : Clock := {}
  /-- The snapshot that the program reads. -/
  latched : Clock := {}
  /-- The last write to the latch register was 0. -/
  latchArmed : Bool := false
  /-- Cycles of one clock second, at least one. -/
  clockHz : Nat
  /-- Cycles since the running clock's last second. -/
  subSecond : Nat := 0
deriving Repr, DecidableEq, Inhabited

namespace Mbc3

def powerOn (ramSize : Nat) (hasClock : Bool) (clockHz : Nat) : Mbc3 :=
  { ram := Ram.blank ramSize, hasClock, clockHz := max clockHz 1 }

/-- What the RAM window shows. -/
inductive Shown where
  | bank (n : Nat)
  | clock (r : Clock.Register)
  | nothing
deriving Repr, DecidableEq, Inhabited

def shown (c : Mbc3) : Shown :=
  if c.select < 4 then .bank c.select.toNat
  else if c.hasClock then
    match Clock.Register.ofSelector? c.select with
    | some r => .clock r
    | none => .nothing
  else .nothing

def readRam (c : Mbc3) (address : UInt16) : UInt8 :=
  if c.ramOpen then
    match c.shown with
    | .bank n => c.ram.read n address
    | .clock r => c.latched.read r
    | .nothing => 0
  else 0

/-- A write to the seconds starts the running second anew. -/
def writeClock (c : Mbc3) (r : Clock.Register) (v : UInt8) : Mbc3 :=
  { c with
    clock := c.clock.write r v
    subSecond := if r = .seconds then 0 else c.subSecond }

def writeRam (c : Mbc3) (address : UInt16) (v : UInt8) : Mbc3 :=
  if c.ramOpen then
    match c.shown with
    | .bank n => { c with ram := c.ram.write n address v }
    | .clock r => c.writeClock r v
    | .nothing => c
  else c

/-- The bank number, of which 0 stands for 1. -/
def bank (v : UInt8) : UInt8 := if v &&& 0x7f = 0 then 1 else v &&& 0x7f

/-- Whether a write to the latch register takes a snapshot: a 1 right after a 0. -/
def latches (c : Mbc3) (v : UInt8) : Bool := v == 1 && c.latchArmed

/-- A write to the ROM area. Each 8 KB of it is one register. -/
def control (c : Mbc3) (address : UInt16) (v : UInt8) : Mbc3 :=
  if address < 0x2000 then { c with ramOpen := opensRam v }
  else if address < 0x4000 then { c with romBank := bank v }
  else if address < 0x6000 then { c with select := v }
  else
    { c with
      latched := if c.latches v then c.clock else c.latched
      latchArmed := v == 0 }

def controlEvents (c : Mbc3) (address : UInt16) (v : UInt8) : List Event :=
  let after := c.control address v
  let written := Event.mbc3Control address v after.romBank after.select after.ramOpen
  if 0x6000 ≤ address && c.latches v then [.clockLatched after.latched, written] else [written]

/-- The cycles gather in a sum of 32 bits before whole seconds are taken out of it. -/
def tick (c : Mbc3) (cycles : Nat) : Mbc3 :=
  if !c.hasClock || c.clock.halted then c
  else
    let gathered := (c.subSecond + cycles) % 4294967296
    { c with
      clock := c.clock.advance (gathered / c.clockHz)
      subSecond := gathered % c.clockHz }

end Mbc3

end Handheld.Cartridge
