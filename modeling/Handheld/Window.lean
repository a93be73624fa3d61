import Handheld.Picture.Frame

/-!
# Windows

A window that has not been opened shows nothing: it lets go of the pictures offered to it and leaves
the quit flag alone.
-/

namespace Handheld

/-- How many screen pixels a pixel fills in each direction. -/
inductive Scale where
  | x1
  | x2
  | x4
  | x8
deriving Repr, DecidableEq, Inhabited

namespace Scale

/-- The scale for a number; what is not a scale counts as 4. -/
def ofNumber (n : Nat) : Scale :=
  match n with
  | 1 => x1
  | 2 => x2
  | 8 => x8
  | _ => x4

def factor : Scale → Nat
  | x1 => 1
  | x2 => 2
  | x4 => 4
  | x8 => 8

end Scale

structure Window where
  scale : Scale
deriving Repr, DecidableEq, Inhabited

namespace Window

/-- The two ends of a presentation as it leaves them. -/
structure Presented where
  quit : Bool
  /-- Whether further pictures can still be offered. -/
  receiving : Bool
deriving Repr, DecidableEq, Inhabited

/-- Presents the pictures that wait. The end that receives them is gone afterwards. -/
def present (_ : Window) (_waiting : List Picture.Frame) (quit : Bool) : Presented :=
  { quit, receiving := false }

end Window

end Handheld
