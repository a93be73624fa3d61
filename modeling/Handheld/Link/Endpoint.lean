import Handheld.Word

/-!
# One end of a serial cable

An end has a byte on the wire and says whether it drives the transfers. The driving end counts down
from its send to the moment its byte goes over. What happens then depends on the other end.
-/

namespace Handheld.Link

structure Endpoint where
  /-- The byte this end puts on the wire. -/
  data : UInt8 := 0xff
  master : Bool := false
  /-- Cycles from a send to the transfer. -/
  delay : Int
  /-- Cycles left of a transfer under way, or 0. -/
  countdown : Int := 0
deriving Repr, DecidableEq, Inhabited

namespace Endpoint

/-- What reading an end gives: a byte and whether a transfer is done. -/
structure Received where
  byte : UInt8
  done : Bool
deriving Repr, DecidableEq, Inhabited

def Received.nothing : Received := ⟨0xff, false⟩

/-- Only the clock source matters: an end answers whether or not it has a transfer of its own. -/
def setMaster (e : Endpoint) (master : Bool) : Endpoint := { e with master }

def send (e : Endpoint) (byte : UInt8) : Endpoint :=
  if e.master then { e with data := byte, countdown := max e.delay 1 }
  else { e with data := byte }

/-- Where an end stands after some cycles. -/
inductive Phase where
  /-- No transfer of its own: it may answer the other end. -/
  | idle
  | counting
  | due
deriving Repr, DecidableEq, Inhabited

def advance (e : Endpoint) (cycles : Nat) : Phase × Endpoint :=
  if e.countdown = 0 then (.idle, e)
  else if 0 < e.countdown - signed32 cycles then
    (.counting, { e with countdown := e.countdown - signed32 cycles })
  else (.due, { e with countdown := 0 })

/-- An end with nothing at the other side: its transfers read 0xff. -/
def receiveAlone (e : Endpoint) (cycles : Nat) : Received × Endpoint :=
  match e.advance cycles with
  | (.due, e) => (⟨0xff, true⟩, e)
  | (_, e) => (.nothing, e)

end Endpoint

end Handheld.Link
