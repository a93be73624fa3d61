import Handheld.Event
import Handheld.Link.Endpoint

/-!
# A cable with two ends

Each direction is a queue of bytes. An end whose transfer is due sends its byte and then waits for a
reply; an idle end replies to a byte that has arrived. Either end may go away, after which the
other one is as good as alone.
-/

namespace Handheld.Link

inductive Side where
  | a
  | b
deriving Repr, DecidableEq, Inhabited

def Side.other : Side → Side
  | a => b
  | b => a

@[simp] theorem Side.other_other (s : Side) : s.other.other = s := by
  cases s <;> rfl

theorem Side.other_ne (s : Side) : s.other ≠ s := by
  cases s <;> decide

/-- One side of the cable: the end there and what is on its way to it. -/
structure Station where
  endpoint : Endpoint
  /-- Holds on to the cable. An end that was dropped or has noticed that the other is gone does
  not. -/
  attached : Bool
  /-- Has sent its byte and waits for the reply. -/
  waiting : Bool := false
  /-- Bytes on their way to this end, the oldest first. -/
  inbox : List UInt8 := []
deriving Repr, DecidableEq, Inhabited

structure Cable where
  a : Station
  b : Station
deriving Repr, DecidableEq, Inhabited

namespace Cable

/-- Two connected ends. -/
def pair (delay : Int) : Cable :=
  { a := { endpoint := { delay }, attached := true }
    b := { endpoint := { delay }, attached := true } }

/-- An end `a` with nothing at the other side. -/
def detached (delay : Int) : Cable :=
  { a := { endpoint := { delay }, attached := false }
    b := { endpoint := { delay }, attached := false } }

def station (c : Cable) : Side → Station
  | .a => c.a
  | .b => c.b

def setStation (c : Cable) (s : Side) (st : Station) : Cable :=
  match s with
  | .a => { c with a := st }
  | .b => { c with b := st }

def modify (c : Cable) (s : Side) (f : Station → Station) : Cable :=
  c.setStation s (f (c.station s))

@[simp] theorem station_modify (c : Cable) (s : Side) (f : Station → Station) :
    (c.modify s f).station s = f (c.station s) := by
  cases s <;> rfl

@[simp] theorem station_modify_other (c : Cable) (s : Side) (f : Station → Station) :
    (c.modify s f).station s.other = c.station s.other := by
  cases s <;> rfl

@[simp] theorem station_other_modify (c : Cable) (s : Side) (f : Station → Station) :
    (c.modify s.other f).station s = c.station s := by
  cases s <;> rfl

def modifyEndpoint (c : Cable) (s : Side) (f : Endpoint → Endpoint) : Cable :=
  c.modify s fun st => { st with endpoint := f st.endpoint }

def setMaster (c : Cable) (s : Side) (master : Bool) : Cable :=
  c.modifyEndpoint s (·.setMaster master)

def send (c : Cable) (s : Side) (byte : UInt8) : Cable := c.modifyEndpoint s (·.send byte)

/-- An end lets go of the cable, for good. -/
def detach (c : Cable) (s : Side) : Cable := c.modify s fun st => { st with attached := false }

/-- An end sends its byte to the other, if that one still holds on to the cable. -/
def deliver? (c : Cable) (s : Side) : Option Cable :=
  if (c.station s).attached && (c.station s.other).attached then
    some (c.modify s.other fun st =>
      { st with inbox := st.inbox ++ [(c.station s).endpoint.data] })
  else none

/-- An idle end answers a byte that has arrived with its own. -/
def answer (c : Cable) (s : Side) : Endpoint.Received × Cable :=
  if (c.station s).attached then
    match (c.station s).inbox with
    | byte :: rest =>
      match (c.modify s fun st => { st with inbox := rest }).deliver? s with
      | some c => (⟨byte, true⟩, c)
      | none => (.nothing, c.detach s)
    | [] =>
      if (c.station s.other).attached then (.nothing, c) else (.nothing, c.detach s)
  else (.nothing, c)

inductive Progress where
  | ready (r : Endpoint.Received)
  /-- The byte is sent; the reply decides what is read. -/
  | waits
deriving Repr, DecidableEq, Inhabited

/-- An end whose transfer is due sends its byte. If it cannot, the transfer reads 0xff. -/
def exchange (c : Cable) (s : Side) : Progress × Cable :=
  match c.deliver? s with
  | some c => (.waits, c.modify s fun st => { st with waiting := true })
  | none => (.ready ⟨0xff, true⟩, c.detach s)

def receive (c : Cable) (s : Side) (cycles : Nat) : Progress × Cable :=
  let (phase, e) := (c.station s).endpoint.advance cycles
  let c := c.modify s fun st => { st with endpoint := e }
  match phase with
  | .idle =>
    let (r, c) := c.answer s
    (.ready r, c)
  | .counting => (.ready .nothing, c)
  | .due => c.exchange s

/-- The end of a wait: the reply, or 0xff if none can come any more. `none` while the other end may
still reply. -/
def finish? (c : Cable) (s : Side) : Option (Endpoint.Received × Cable) :=
  match (c.station s).inbox with
  | byte :: rest =>
    some (⟨byte, true⟩, c.modify s fun st => { st with inbox := rest, waiting := false })
  | [] =>
    if (c.station s.other).attached then none
    else some (⟨0xff, true⟩,
      (c.modify s fun st => { st with waiting := false }).detach s)

/-- What an end reports of an operation: that it has noticed that the other is gone. -/
def events (before after : Cable) (s : Side) : List Event :=
  if (before.station s).attached && !(after.station s).attached then [.partnerGone] else []

end Cable

end Handheld.Link
