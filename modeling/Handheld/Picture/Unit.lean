import Handheld.Bus.Basic
import Handheld.Picture.Scanline

/-!
# The picture unit

It counts the cycles of each line, keeps the line and mode registers on the bus, requests
interrupts, and draws the picture that is shown once it is complete.
-/

namespace Handheld

structure PictureUnit where
  shown : Picture.Frame := .blank
  drawing : Picture.Frame := .blank
  counter : Int := 456
  frames : Nat := 0
deriving Inhabited

namespace PictureUnit

open Picture (renderLine)

def powerOn : PictureUnit := {}

def lineCycles : Int := 456

/-- The number of the last line. The lines after the visible ones show nothing. -/
def lastLine : UInt8 := 153

def lyAddress : UInt16 := 0xff44
def statAddress : UInt16 := 0xff41

def on (bus : Bus) : Bool := bus.read 0xff40 &&& 0x80 != 0

/-- The mode on a line with so many cycles left: 2 for the first 80 cycles, 3 for the next 172, then
0; and 1 on the lines that show nothing. -/
def modeOf (line : UInt8) (counter : Int) : UInt8 :=
  if 144 ≤ line then 1 else if 376 ≤ counter then 2 else if 204 ≤ counter then 3 else 0

/-- The status bit that lets a mode request an interrupt. Mode 3 has none. -/
def enableMask (mode : UInt8) : UInt8 :=
  match mode with
  | 0 => 0x08
  | 1 => 0x10
  | 2 => 0x20
  | _ => 0

/-- Whether the mode has just been entered and asks for an interrupt. -/
def modeRequests (status mode : UInt8) : Bool :=
  mode != status &&& 3 && status &&& enableMask mode != 0

/-- Whether the line is the awaited one and asks for an interrupt. -/
def lineRequests (status : UInt8) (matched : Bool) : Bool := matched && status &&& 0x40 != 0

def newStatus (status mode : UInt8) (matched : Bool) : UInt8 :=
  if matched then (status &&& 0xfc ||| mode) ||| 0x04 else (status &&& 0xfc ||| mode) &&& 0xfb

/-- The status register and its interrupts, for the line as it stands. -/
def updateStatus (counter : Int) (bus : Bus) : Bus :=
  let status := bus.read statAddress
  let line := bus.read lyAddress
  let mode := modeOf line counter
  let matched := line == bus.read 0xff45
  let bus :=
    if modeRequests status mode || lineRequests status matched then bus.request .lcdStat else bus
  bus.store statAddress (newStatus status mode matched)

/-- The bus while the display is off: the first line, in mode 1. -/
def offBus (bus : Bus) : Bus :=
  let status := bus.read statAddress
  (bus.store lyAddress 0).store statAddress (status &&& 0xfc ||| 1)

/-- A line has ended. If it is visible it is drawn, and after the last visible line the picture is
shown and the other one drawn on. -/
def endLine (p : PictureUnit) (bus : Bus) : Bool × PictureUnit × Bus :=
  let line := bus.read lyAddress
  let p :=
    if line < 144 then { p with drawing := p.drawing.setRow line.toNat (renderLine bus.read line) }
    else p
  let next := line + 1
  if next = 144 then
    (true, { p with shown := p.drawing, drawing := p.shown, frames := p.frames + 1 },
      (bus.store lyAddress next).request .vBlank)
  else (false, p, bus.store lyAddress (if lastLine < next then 0 else next))

/-- Moves on, and says whether a picture was completed. -/
def step (p : PictureUnit) (bus : Bus) (cycles : Nat) : Bool × PictureUnit × Bus :=
  if on bus then
    let bus := updateStatus p.counter bus
    let left := p.counter - signed32 cycles
    if 0 < left then (false, { p with counter := left }, bus)
    else endLine { p with counter := left + lineCycles } bus
  else (false, { p with counter := lineCycles }, offBus bus)

end PictureUnit

end Handheld
