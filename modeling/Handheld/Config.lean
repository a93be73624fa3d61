/-!
# Settings of one machine
-/

namespace Handheld

structure Config where
  /-- Frames handed off per second. -/
  fps : UInt32 := 60
  /-- Clock cycles per second at native speed. -/
  clockHz : UInt32 := 4194304
  /-- Extra speed: 0 is native, 1 is double, and so on. -/
  speed : UInt32 := 0
  /-- Whether writes to the sound registers are heard. -/
  sound : Bool := true
  /-- Cycles a serial transfer takes at the end that drives it. -/
  linkDelay : Int := 4000
  /-- Whether executed instructions are logged. -/
  trace : Bool := false
deriving Repr, DecidableEq, Inhabited

namespace Config

/-- Cycles per second at the chosen speed. The factor has 32 bits. -/
def clock (c : Config) : Nat := (c.speed + 1).toNat * c.clockHz.toNat

/-- Frames per second; a rate of zero counts as one. -/
def rate (c : Config) : Nat := max c.fps.toNat 1

/-- Cycles of one frame, kept to 32 bits. -/
def frameBudget (c : Config) : Nat := c.clock / c.rate % 4294967296

/-- Nanoseconds from one frame to the next. -/
def framePeriod (c : Config) : Nat := 1000000000 / c.rate

end Config

end Handheld
