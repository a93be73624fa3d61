/-!
# Cartridge types

The type code of a header names the controller on the cartridge and what else is on board.
-/

namespace Handheld.Cartridge

inductive Kind where
  | unbanked
  | mbc1
  | mbc2
  | mbc3 (clock : Bool)
deriving Repr, DecidableEq, Inhabited

namespace Kind

/-- The controller behind a type code, if it can be loaded. -/
def ofCode? (code : UInt8) : Option Kind :=
  match code with
  | 0x00 | 0x08 | 0x09 => some unbanked
  | 0x01 | 0x02 | 0x03 => some mbc1
  | 0x05 | 0x06 => some mbc2
  | 0x0f | 0x10 => some (mbc3 true)
  | 0x11 | 0x12 | 0x13 => some (mbc3 false)
  | _ => none

def nameOfCode (code : UInt8) : String :=
  match code with
  | 0x00 => "ROM ONLY"
  | 0x01 => "MBC1"
  | 0x02 => "MBC1+RAM"
  | 0x03 => "MBC1+RAM+BATTERY"
  | 0x05 => "MBC2"
  | 0x06 => "MBC2+BATTERY"
  | 0x08 => "ROM+RAM"
  | 0x09 => "ROM+RAM+BATTERY"
  | 0x0b => "MMM01"
  | 0x0c => "MMM01+RAM"
  | 0x0d => "MMM01+RAM+BATTERY"
  | 0x0f => "MBC3+TIMER+BATTERY"
  | 0x10 => "MBC3+TIMER+RAM+BATTERY"
  | 0x11 => "MBC3"
  | 0x12 => "MBC3+RAM"
  | 0x13 => "MBC3+RAM+BATTERY"
  | 0x15 => "MBC4"
  | 0x16 => "MBC4+RAM"
  | 0x17 => "MBC4+RAM+BATTERY"
  | 0x19 => "MBC5"
  | 0x1a => "MBC5+RAM"
  | 0x1b => "MBC5+RAM+BATTERY"
  | 0x1c => "MBC5+RUMBLE"
  | 0x1d => "MBC5+RUMBLE+RAM"
  | 0x1e => "MBC5+RUMBLE+RAM+BATTERY"
  | 0xfc => "POCKET CAMERA"
  | 0xfd => "BANDAI TAMA5"
  | 0xfe => "HuC3"
  | 0xff => "HuC1+RAM+BATTERY"
  | _ => "UNKNOWN"

end Kind

end Handheld.Cartridge
