import Handheld.Cartridge.Banks
import Handheld.Event

/-!
# The MBC1 controller

Seven bits of ROM bank, the low five and the high two written apart. In RAM mode the two-bit
register selects the RAM bank instead.
-/

namespace Handheld.Cartridge

/-- What the two-bit register selects. -/
inductive Mbc1.Mode where
  | rom
  | ram
deriving Repr, DecidableEq, Inhabited

structure Mbc1 where
  ram : Ram
  romBank : UInt8 := 1
  ramBank : UInt8 := 0
  ramOpen : Bool := false
  mode : Mbc1.Mode := .rom
deriving Repr, DecidableEq, Inhabited

namespace Mbc1

def powerOn (ramSize : Nat) : Mbc1 := { ram := Ram.blank ramSize }

def readRam (c : Mbc1) (address : UInt16) : UInt8 :=
  if c.ramOpen then c.ram.read c.ramBank.toNat address else 0

def writeRam (c : Mbc1) (address : UInt16) (v : UInt8) : Mbc1 :=
  if c.ramOpen then { c with ram := c.ram.write c.ramBank.toNat address v } else c

/-- The low five bits of the bank number, of which 0 stands for 1. -/
def lowBank (v : UInt8) : UInt8 := if v &&& 0x1f = 0 then 1 else v &&& 0x1f

/-- A write to the ROM area. Each 8 KB of it is one register. -/
def control (c : Mbc1) (address : UInt16) (v : UInt8) : Mbc1 :=
  if address < 0x2000 then { c with ramOpen := opensRam v }
  else if address < 0x4000 then { c with romBank := c.romBank &&& 0x60 ||| lowBank v }
  else if address < 0x6000 then
    match c.mode with
    | .ram => { c with ramBank := v &&& 0x03 }
    | .rom => { c with romBank := c.romBank &&& 0x1f ||| (v &&& 0x03) * 32 }
  else if v &&& 1 = 0 then { c with mode := .rom, ramBank := 0 }
  else { c with mode := .ram }

def controlEvents (c : Mbc1) (address : UInt16) (v : UInt8) : List Event :=
  let after := c.control address v
  [.mbc1Control address v after.romBank after.ramBank after.ramOpen]

end Mbc1

end Handheld.Cartridge
