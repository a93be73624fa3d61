import Handheld.Word

/-!
# The cartridge clock

Seconds, minutes, hours and a day counter of nine bits with a carry, as five byte registers.
-/

namespace Handheld.Cartridge

structure Clock where
  seconds : UInt8 := 0
  minutes : UInt8 := 0
  hours : UInt8 := 0
  /-- The low eight bits of the day counter. -/
  dayLow : UInt8 := 0
  /-- Bit 0 is the day counter's highest bit, bit 6 halts the clock, bit 7 is the day carry. -/
  dayHigh : UInt8 := 0
deriving Repr, DecidableEq, Inhabited

namespace Clock

inductive Register where
  | seconds
  | minutes
  | hours
  | dayLow
  | dayHigh
deriving Repr, DecidableEq, Inhabited

def Register.ofSelector? (select : UInt8) : Option Register :=
  match select with
  | 0x08 => some .seconds
  | 0x09 => some .minutes
  | 0x0a => some .hours
  | 0x0b => some .dayLow
  | 0x0c => some .dayHigh
  | _ => none

def read (c : Clock) : Register → UInt8
  | .seconds => c.seconds
  | .minutes => c.minutes
  | .hours => c.hours
  | .dayLow => c.dayLow
  | .dayHigh => c.dayHigh

/-- Each register keeps only the bits it has. -/
def write (c : Clock) (r : Register) (v : UInt8) : Clock :=
  match r with
  | .seconds => { c with seconds := v &&& 0x3f }
  | .minutes => { c with minutes := v &&& 0x3f }
  | .hours => { c with hours := v &&& 0x1f }
  | .dayLow => { c with dayLow := v }
  | .dayHigh => { c with dayHigh := v &&& 0xc1 }

def halted (c : Clock) : Bool := c.dayHigh &&& 0x40 != 0

/-- The day counter, below 512. -/
def days (c : Clock) : Nat := c.dayHigh.toNat % 2 * 256 + c.dayLow.toNat

/-- Midnight: the day counter goes up, and past day 511 it starts over with the carry set. -/
def nextDay (c : Clock) : Clock :=
  if c.days < 511 then
    { c with
      dayLow := UInt8.ofNat (c.days + 1)
      dayHigh := c.dayHigh &&& 0xfe ||| UInt8.ofNat ((c.days + 1) / 256) }
  else
    { c with dayLow := 0, dayHigh := c.dayHigh &&& 0xfe ||| 0x80 }

/-- One second passes. A field past its range starts over when it is next counted. -/
def tick (c : Clock) : Clock :=
  if c.seconds + 1 < 60 then { c with seconds := c.seconds + 1 }
  else if c.minutes + 1 < 60 then { c with seconds := 0, minutes := c.minutes + 1 }
  else if c.hours + 1 < 24 then { c with seconds := 0, minutes := 0, hours := c.hours + 1 }
  else nextDay { c with seconds := 0, minutes := 0, hours := 0 }

def advance (c : Clock) : Nat → Clock
  | 0 => c
  | n + 1 => advance c.tick n

end Clock

end Handheld.Cartridge
