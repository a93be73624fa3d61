import Handheld.Event
import Handheld.Keypad.Key

/-!
# The keypad

Keys held down, and keys that injected bytes press for a while. A poll puts the pressed keys into
the joypad register.
-/

namespace Handheld

structure Keypad where
  /-- Keys that went down and did not come up again. -/
  down : KeySet := .empty
  /-- For each key, the polls that its injected press still lasts. -/
  held : Vector UInt8 8 := Vector.replicate 8 0
  last : KeySet := .empty
deriving Repr, DecidableEq, Inhabited

namespace Keypad

def holdPolls : UInt8 := 12

/-- The joypad register before the first poll: nothing is pressed. -/
def idleRegister : UInt8 := 0xff

def press (p : Keypad) (k : Key) : Keypad := { p with down := p.down.insert k }

def release (p : Keypad) (k : Key) : Keypad := { p with down := p.down.erase k }

/-- Only the last byte counts, as in a stream of key repeats. -/
def inject (p : Keypad) (bytes : List UInt8) : Keypad :=
  match bytes.getLast?.bind Key.ofByte? with
  | some k => { p with held := p.held.set k.index holdPolls }
  | none => p

/-- The keys that the next poll finds pressed. -/
def pressed (p : Keypad) : KeySet :=
  KeySet.filter fun k => p.down.contains k || 0 < p.held[k.index]

structure Poll where
  /-- A key went down since the last poll. -/
  edge : Bool
  /-- The joypad register from now on. -/
  register : UInt8
deriving Repr, DecidableEq, Inhabited

def poll (p : Keypad) : Poll × Keypad :=
  ({ edge := !(p.pressed.diff p.last).isEmpty, register := p.pressed.register },
    { p with held := p.held.map fun n => if n = 0 then 0 else n - 1, last := p.pressed })

/-- What is done to a keypad between polls. -/
inductive Action where
  | press (k : Key)
  | release (k : Key)
  | inject (bytes : List UInt8)
deriving Repr, DecidableEq, Inhabited

def act (p : Keypad) : Action → Keypad
  | .press k => p.press k
  | .release k => p.release k
  | .inject bytes => p.inject bytes

def Action.events : Action → List Event
  | .press k => [.keyPressed k]
  | .release k => [.keyReleased k]
  | .inject _ => []

end Keypad

/-- What the joypad address reads: the row bits last written select the arrows, the buttons, both or
neither of the register's halves. -/
def readJoypad (select register : UInt8) : UInt8 :=
  let arrows := if select &&& 0x10 = 0 then register &&& 0x0f else 0x0f
  let buttons := if select &&& 0x20 = 0 then register >>> 4 else 0x0f
  0xc0 ||| (select &&& 0x30) ||| (arrows &&& buttons)

end Handheld
