/-!
# The memory map

What answers at each address. Reads and writes share the one division of the address space.
-/

namespace Handheld

inductive Region where
  /-- 0x0000 to 0x3fff: ROM bank 0. -/
  | romFixed
  /-- 0x4000 to 0x7fff: the selected ROM bank. -/
  | romBanked
  /-- 0xa000 to 0xbfff: what the controller shows there. -/
  | cartridgeRam
  /-- 0xe000 to 0xfdff: cells that are written together with those 0x2000 below. -/
  | echo
  /-- 0xfea0 to 0xfeff: nothing. -/
  | unusable
  | joypad
  | serialData
  | serialControl
  | timer
  | interruptFlags
  | sound
  | lcdStatus
  | lcdLine
  | dma
  | interruptEnable
  /-- A cell that only stores. -/
  | plain
deriving Repr, DecidableEq, Inhabited

namespace Region

/-- The region among the registers from 0xff00 on. -/
def ofRegister (address : UInt16) : Region :=
  if 0xff10 ≤ address ∧ address ≤ 0xff3f then sound
  else if 0xff04 ≤ address ∧ address ≤ 0xff07 then timer
  else if address = 0xff00 then joypad
  else if address = 0xff01 then serialData
  else if address = 0xff02 then serialControl
  else if address = 0xff0f then interruptFlags
  else if address = 0xff41 then lcdStatus
  else if address = 0xff44 then lcdLine
  else if address = 0xff46 then dma
  else if address = 0xffff then interruptEnable
  else plain

def ofAddress (address : UInt16) : Region :=
  if address < 0x4000 then romFixed
  else if address < 0x8000 then romBanked
  else if address < 0xa000 then plain
  else if address < 0xc000 then cartridgeRam
  else if address < 0xe000 then plain
  else if address < 0xfe00 then echo
  else if address < 0xfea0 then plain
  else if address < 0xff00 then unusable
  else ofRegister address

end Region

end Handheld
