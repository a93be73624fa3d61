import Handheld.Event

/-!
# The log

Keeps the events that are important enough, in the order in which they were reported. Nothing the
machine computes depends on it.
-/

namespace Handheld

structure Log where
  /-- The least important level kept, or `none` if nothing is. -/
  threshold : Option Level := none
  /-- Whether executed instructions are reported at all. -/
  instructions : Bool := false
  entries : Array Event := #[]
deriving Repr, Inhabited

namespace Log

def keeps (log : Log) (e : Event) : Bool :=
  match log.threshold with
  | some threshold => threshold.keeps e.level
  | none => false

def add (log : Log) (e : Event) : Log :=
  if log.keeps e then { log with entries := log.entries.push e } else log

def addAll (log : Log) (es : List Event) : Log := es.foldl add log

def clear (log : Log) : Log := { log with entries := #[] }

end Log

end Handheld
