import Handheld.Event
import Handheld.Cartridge.Banks

/-!
# The MBC2 controller

Sixteen ROM banks and 512 half bytes of RAM on the controller itself.
-/

namespace Handheld.Cartridge

structure Mbc2 where
  /-- Only the low four bits of a cell exist. -/
  ram : Vector UInt8 512 := Vector.replicate 512 0
  romBank : UInt8 := 1
  ramOpen : Bool := false
deriving Repr, DecidableEq, Inhabited

namespace Mbc2

def powerOn : Mbc2 := {}

/-- The cell behind an address: the cells repeat over the whole window. -/
def cellOf (address : UInt16) : Fin 512 := ⟨address.toNat % 512, Nat.mod_lt _ (by decide)⟩

/-- The four bits that do not exist read as 1. -/
def readRam (c : Mbc2) (address : UInt16) : UInt8 :=
  if c.ramOpen then c.ram[cellOf address] ||| 0xf0 else 0

def writeRam (c : Mbc2) (address : UInt16) (v : UInt8) : Mbc2 :=
  if c.ramOpen then { c with ram := c.ram.set (cellOf address) (v &&& 0x0f) } else c

def bank (v : UInt8) : UInt8 := if v &&& 0x0f = 0 then 1 else v &&& 0x0f

/-- A write to the ROM area. Only its lower half holds registers, told apart by address bit 8. -/
def control (c : Mbc2) (address : UInt16) (v : UInt8) : Mbc2 :=
  if 0x4000 ≤ address then c
  else if address &&& 0x0100 = 0 then { c with ramOpen := opensRam v }
  else { c with romBank := bank v }

def controlEvents (c : Mbc2) (address : UInt16) (v : UInt8) : List Event :=
  let after := c.control address v
  if 0x4000 ≤ address then [] else [.mbc2Control address v after.romBank after.ramOpen]

end Mbc2

end Handheld.Cartridge
