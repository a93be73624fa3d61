import Handheld.Cartridge.Kind
import Handheld.Cartridge.Mbc1
import Handheld.Cartridge.Mbc2
import Handheld.Cartridge.Mbc3

/-!
# Bank controllers

The one interface the bus has to all of them: reads and writes of RAM, control writes, the ROM bank
in place, and the passing of time.
-/

namespace Handheld.Cartridge

/-- No controller: two ROM banks and at most one RAM bank, always in place. -/
structure Unbanked where
  ram : Ram
deriving Repr, DecidableEq, Inhabited

namespace Unbanked

def powerOn (ramSize : Nat) : Unbanked := ⟨Ram.blank ramSize⟩

def readRam (c : Unbanked) (address : UInt16) : UInt8 := c.ram.read 0 address

def writeRam (c : Unbanked) (address : UInt16) (v : UInt8) : Unbanked :=
  ⟨c.ram.write 0 address v⟩

/-- Control writes do nothing. -/
def controlEvents (address : UInt16) (v : UInt8) : List Event := [.controlIgnored address v]

end Unbanked

inductive Controller where
  | unbanked (c : Unbanked)
  | mbc1 (c : Mbc1)
  | mbc2 (c : Mbc2)
  | mbc3 (c : Mbc3)
deriving Repr, DecidableEq

instance : Inhabited Controller := ⟨.unbanked (Unbanked.powerOn 0)⟩

namespace Controller

def powerOn (kind : Kind) (ramSize clockHz : Nat) : Controller :=
  match kind with
  | .unbanked => .unbanked (Unbanked.powerOn ramSize)
  | .mbc1 => .mbc1 (Mbc1.powerOn ramSize)
  | .mbc2 => .mbc2 Mbc2.powerOn
  | .mbc3 hasClock => .mbc3 (Mbc3.powerOn ramSize hasClock clockHz)

def romBank : Controller → Nat
  | unbanked _ => 1
  | mbc1 c => c.romBank.toNat
  | mbc2 c => c.romBank.toNat
  | mbc3 c => c.romBank.toNat

def readRam (c : Controller) (address : UInt16) : UInt8 :=
  match c with
  | unbanked c => c.readRam address
  | mbc1 c => c.readRam address
  | mbc2 c => c.readRam address
  | mbc3 c => c.readRam address

def writeRam (c : Controller) (address : UInt16) (v : UInt8) : Controller :=
  match c with
  | unbanked c => unbanked (c.writeRam address v)
  | mbc1 c => mbc1 (c.writeRam address v)
  | mbc2 c => mbc2 (c.writeRam address v)
  | mbc3 c => mbc3 (c.writeRam address v)

/-- A write to the ROM area, which stores nothing there. -/
def control (c : Controller) (address : UInt16) (v : UInt8) : Controller :=
  match c with
  | unbanked c => unbanked c
  | mbc1 c => mbc1 (c.control address v)
  | mbc2 c => mbc2 (c.control address v)
  | mbc3 c => mbc3 (c.control address v)

def controlEvents (c : Controller) (address : UInt16) (v : UInt8) : List Event :=
  match c with
  | unbanked _ => Unbanked.controlEvents address v
  | mbc1 c => c.controlEvents address v
  | mbc2 c => c.controlEvents address v
  | mbc3 c => c.controlEvents address v

/-- The hardware on the cartridge that counts clock cycles moves on. -/
def tick (c : Controller) (cycles : Nat) : Controller :=
  match c with
  | mbc3 c => mbc3 (c.tick cycles)
  | c => c

end Controller

end Handheld.Cartridge
