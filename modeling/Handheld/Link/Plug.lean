import Handheld.Link.Endpoint

/-!
# What is plugged into the serial line

Either a cable with nothing at its other end, or a scripted partner that gives prepared answers and
remembers what it was asked.
-/

namespace Handheld.Link

/-- What a scripted partner was asked. -/
inductive Call where
  | status (master start : Bool)
  | send (byte : UInt8)
  | receive (cycles : Nat)
deriving Repr, DecidableEq, Inhabited

structure Scripted where
  /-- The answers to come. After them nothing is received. -/
  answers : List Endpoint.Received
  calls : Array Call := #[]
deriving Repr, DecidableEq, Inhabited

inductive Plug where
  | cable (e : Endpoint)
  | scripted (s : Scripted)
deriving Repr, DecidableEq, Inhabited

namespace Plug

/-- A cable with nothing at its other end. -/
def detached (delay : Int) : Plug := .cable { delay }

def ofAnswers (answers : List Endpoint.Received) : Plug := .scripted { answers }

def setStatus (p : Plug) (master start : Bool) : Plug :=
  match p with
  | cable e => cable (e.setMaster master)
  | scripted s => scripted { s with calls := s.calls.push (.status master start) }

def send (p : Plug) (byte : UInt8) : Plug :=
  match p with
  | cable e => cable (e.send byte)
  | scripted s => scripted { s with calls := s.calls.push (.send byte) }

def receive (p : Plug) (cycles : Nat) : Endpoint.Received × Plug :=
  match p with
  | cable e =>
    let (r, e) := e.receiveAlone cycles
    (r, cable e)
  | scripted s =>
    (s.answers.headD .nothing,
      scripted { answers := s.answers.tail, calls := s.calls.push (.receive cycles) })

def calls : Plug → List Call
  | cable _ => []
  | scripted s => s.calls.toList

def forgetCalls : Plug → Plug
  | cable e => cable e
  | scripted s => scripted { s with calls := #[] }

end Plug

end Handheld.Link
