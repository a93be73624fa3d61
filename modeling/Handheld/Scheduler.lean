import Handheld.Machine

/-!
# Handing frames off

The scheduler goes round: it looks at the exit flag, runs a frame, offers the picture to a receiver
and waits until it is taken or refused, and polls the keypad. It ends when the flag is up, when the
receiver is gone, or with the fault of a frame.
-/

namespace Handheld

inductive Stage where
  /-- About to look at the exit flag. -/
  | deciding
  /-- Holds a picture that waits to be taken. -/
  | offering (frame : Picture.Frame)
  /-- About to poll the keypad. -/
  | polling
  /-- Ended, with the fault if there was one. -/
  | ended (fault : Option Fault)

structure Scheduler where
  machine : Machine
  keypad : Keypad
  stage : Stage := .deciding

namespace Scheduler

def reportAll (s : Scheduler) (es : List Event) : Scheduler :=
  { s with machine := s.machine.reportAll es }

/-- Before the first round no key is pressed. -/
def start (machine : Machine) (keypad : Keypad) : Scheduler :=
  let started :=
    Event.runStarted machine.header.title machine.config.fps machine.config.frameBudget
  let bus := { machine.board.bus with joypad := Keypad.idleRegister }.report started
  { machine := { machine with board := { machine.board with bus } }, keypad }

def stop (s : Scheduler) : Scheduler :=
  { s.reportAll [.runStopped s.machine.frameCount] with stage := .ended none }

/-- Looks at the exit flag, and runs a frame if it is down. -/
def proceed (s : Scheduler) (exit : Bool) : Scheduler :=
  if exit then s.stop
  else
    let ⟨machine, keypad, _⟩ := s
    match machine.runFrame with
    | .ok _ machine => { machine, keypad, stage := .offering machine.frame }
    | .error fault machine =>
      { machine := machine.reportAll [.runFailed fault, .runFailedAt machine.board.cpu.text]
        keypad
        stage := .ended (some fault) }

def accepted (s : Scheduler) : Scheduler := { s with stage := .polling }

/-- There is nobody left to take the picture. -/
def refused (s : Scheduler) : Scheduler := (s.reportAll [.receiverGone]).stop

/-- What happens to the keypad just before a poll. -/
def act (s : Scheduler) (actions : List Keypad.Action) : Scheduler :=
  { s.reportAll (actions.flatMap Keypad.Action.events) with
    keypad := actions.foldl Keypad.act s.keypad }

/-- A poll has found something, and leaves the keypad as it is given. -/
def polled (s : Scheduler) (found : Keypad.Poll) (keypad : Keypad) : Scheduler :=
  let ⟨machine, _, _⟩ := s
  { machine := { machine with board := machine.board.applyPoll found }
    keypad
    stage := .deciding }

def poll (s : Scheduler) : Keypad.Poll × Scheduler :=
  let (found, keypad) := s.keypad.poll
  (found, s.polled found keypad)

/-- What a receiver got and what the polls found, in order. -/
structure Delivery where
  frames : Array Picture.Frame := #[]
  polls : Array Keypad.Poll := #[]

/-- At most so many rounds with a receiver that takes every picture, the exit flag going up with the
last poll. `actions` says what happens to the keypad before each poll. -/
def rounds (actions : Nat → List Keypad.Action) :
    Nat → Delivery → Scheduler → Delivery × Scheduler
  | 0, d, s => (d, s.proceed true)
  | n + 1, d, s =>
    let s := s.proceed false
    match s.stage with
    | .offering frame =>
      let (found, s) := (s.accepted.act (actions d.polls.size)).poll
      rounds actions n { frames := d.frames.push frame, polls := d.polls.push found } s
    | _ => (d, s)

/-- Rounds with a receiver that is gone from the start: the first picture is refused. -/
def roundsRefused (n : Nat) (s : Scheduler) : Scheduler :=
  match n with
  | 0 => s.proceed true
  | _ + 1 =>
    let s := s.proceed false
    match s.stage with
    | .offering _ => s.refused
    | _ => s

end Scheduler

end Handheld
