import Handheld.Event

/-!
# The timer

A divider and a programmable counter, each behind a count of cycles. A count that reaches its bound
starts over at zero: what it overshot is lost.
-/

namespace Handheld

structure Timer where
  div : UInt8 := 0
  tima : UInt8 := 0
  tma : UInt8 := 0
  tac : UInt8 := 0
  /-- Cycles since the divider last went up. -/
  divCycles : Nat := 0
  /-- Cycles since the counter last went up. -/
  counterCycles : Nat := 0
  /-- Cycles from one step of the counter to the next. -/
  period : Nat := 1024
deriving Repr, DecidableEq, Inhabited

namespace Timer

inductive Register where
  | div
  | tima
  | tma
  | tac
deriving Repr, DecidableEq, Inhabited

def Register.ofAddress (address : UInt16) : Register :=
  match address with
  | 0xff04 => .div
  | 0xff05 => .tima
  | 0xff06 => .tma
  | _ => .tac

/-- The divider goes up once so many cycles have gathered. -/
def divPeriod : Nat := 255

/-- The counter's period for the frequency bits of TAC. -/
def periodOf (tac : UInt8) : Nat :=
  match tac &&& 3 with
  | 0 => 1024
  | 1 => 16
  | 2 => 64
  | _ => 256

def powerOn : Timer := {}

def read (t : Timer) : Register → UInt8
  | .div => t.div
  | .tima => t.tima
  | .tma => t.tma
  | .tac => t.tac ||| 0xf8

/-- Whether writing `v` to TAC changes the frequency. -/
def retunes (t : Timer) (v : UInt8) : Bool := t.tac &&& 3 != v &&& 3

/-- Any write resets the divider. A new frequency starts its period from the beginning. -/
def write (t : Timer) (r : Register) (v : UInt8) : Timer :=
  match r with
  | .div => { t with div := 0 }
  | .tima => { t with tima := v }
  | .tma => { t with tma := v }
  | .tac =>
    if t.retunes v then { t with tac := v &&& 7, period := periodOf v, counterCycles := 0 }
    else { t with tac := v &&& 7 }

def writeEvents (t : Timer) (r : Register) (v : UInt8) : List Event :=
  if r = .tac ∧ t.retunes v then [.timerRate (periodOf v)] else []

def enabled (t : Timer) : Bool := t.tac &&& 4 != 0

def advanceDiv (t : Timer) (cycles : Nat) : Timer :=
  if divPeriod ≤ t.divCycles + cycles then { t with div := t.div + 1, divCycles := 0 }
  else { t with divCycles := t.divCycles + cycles }

/-- One step of the counter. Past 0xff it is reloaded, which is the overflow. -/
def bump (t : Timer) : Bool × Timer :=
  if t.tima = 0xff then (true, { t with tima := t.tma })
  else (false, { t with tima := t.tima + 1 })

/-- The counter after some cycles, and whether it overflowed. -/
def advanceCounter (t : Timer) (cycles : Nat) : Bool × Timer :=
  if !t.enabled then (false, t)
  else if t.period ≤ t.counterCycles + cycles then bump { t with counterCycles := 0 }
  else (false, { t with counterCycles := t.counterCycles + cycles })

/-- The timer after some cycles, and whether its counter overflowed. -/
def advance (t : Timer) (cycles : Nat) : Bool × Timer :=
  (t.advanceDiv cycles).advanceCounter cycles

end Timer

end Handheld
