import Handheld.Cartridge.Controller
import Handheld.Cartridge.Banks

/-!
# Cartridges

An image and the controller that windows it. The image never changes.
-/

namespace Handheld

structure Cartridge where
  image : ByteArray
  controller : Cartridge.Controller

instance : Inhabited Cartridge := ⟨⟨.empty, default⟩⟩

namespace Cartridge

/-- A byte of the window at 0x0000, which always shows bank 0. -/
def readFixed (c : Cartridge) (address : UInt16) : UInt8 := Rom.read c.image 0 address

def readBanked (c : Cartridge) (address : UInt16) : UInt8 :=
  Rom.read c.image c.controller.romBank address

def readRam (c : Cartridge) (address : UInt16) : UInt8 := c.controller.readRam address

def writeRam (c : Cartridge) (address : UInt16) (v : UInt8) : Cartridge :=
  { c with controller := c.controller.writeRam address v }

def control (c : Cartridge) (address : UInt16) (v : UInt8) : Cartridge :=
  { c with controller := c.controller.control address v }

def tick (c : Cartridge) (cycles : Nat) : Cartridge :=
  { c with controller := c.controller.tick cycles }

end Cartridge

end Handheld
