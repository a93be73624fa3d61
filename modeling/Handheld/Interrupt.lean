/-!
# Interrupt lines
-/

namespace Handheld

/-- The five interrupt lines, the first with the highest priority. -/
inductive Interrupt where
  | vBlank
  | lcdStat
  | timer
  | serial
  | joypad
deriving Repr, DecidableEq, Inhabited

namespace Interrupt

def all : List Interrupt := [vBlank, lcdStat, timer, serial, joypad]

/-- The bit of the line in the request and enable registers. -/
def mask : Interrupt → UInt8
  | vBlank => 0x01
  | lcdStat => 0x02
  | timer => 0x04
  | serial => 0x08
  | joypad => 0x10

def vector : Interrupt → UInt16
  | vBlank => 0x40
  | lcdStat => 0x48
  | timer => 0x50
  | serial => 0x58
  | joypad => 0x60

def name : Interrupt → String
  | vBlank => "VBlank"
  | lcdStat => "LcdStat"
  | timer => "Timer"
  | serial => "Serial"
  | joypad => "Joypad"

/-- The line of highest priority whose bit is set. -/
def first? (lines : UInt8) : Option Interrupt :=
  all.find? fun i => lines &&& i.mask != 0

theorem mem_all (i : Interrupt) : i ∈ all := by
  cases i <;> decide

theorem first?_eq_none_iff {lines : UInt8} :
    first? lines = none ↔ ∀ i : Interrupt, lines &&& i.mask = 0 := by
  simp only [first?, List.find?_eq_none, bne_iff_ne, ne_eq, Decidable.not_not]
  exact ⟨fun h i => h i (mem_all i), fun h i _ => h i⟩

end Interrupt

end Handheld
