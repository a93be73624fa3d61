import Handheld.Keypad.Basic

/-!
# Shared keypads

Handles on keypads: several handles may lead to one keypad, so that one part presses its keys and
another polls it.
-/

namespace Handheld

structure SharedKeypads where
  keypads : Array Keypad
  /-- The keypad behind each handle. -/
  handles : List Nat
deriving Repr, DecidableEq, Inhabited

namespace SharedKeypads

def single : SharedKeypads := ⟨#[{}], [0]⟩

/-- A further handle on the keypad of handle `i`. -/
def share (s : SharedKeypads) (i : Nat) : SharedKeypads :=
  { s with handles := s.handles ++ s.handles[i]?.toList }

/-- A further handle on a keypad of its own. -/
def fresh (s : SharedKeypads) : SharedKeypads :=
  ⟨s.keypads.push {}, s.handles ++ [s.keypads.size]⟩

/-- Without handle `i`; the later handles move down. -/
def drop (s : SharedKeypads) (i : Nat) : SharedKeypads :=
  { s with handles := s.handles.eraseIdx i }

def keypad (s : SharedKeypads) (i : Nat) : Keypad :=
  (s.handles[i]?.bind (s.keypads[·]?)).getD {}

def setKeypad (s : SharedKeypads) (i : Nat) (p : Keypad) : SharedKeypads :=
  match s.handles[i]? with
  | some k => { s with keypads := s.keypads.setIfInBounds k p }
  | none => s

def inject (s : SharedKeypads) (i : Nat) (bytes : List UInt8) : SharedKeypads :=
  s.setKeypad i ((s.keypad i).inject bytes)

def poll (s : SharedKeypads) (i : Nat) : Keypad.Poll × SharedKeypads :=
  let (found, p) := (s.keypad i).poll
  (found, s.setKeypad i p)

end SharedKeypads

end Handheld
