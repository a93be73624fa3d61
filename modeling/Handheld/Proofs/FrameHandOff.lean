import Handheld.Proofs.Histories
import Handheld.Proofs.WaitingTime
import Handheld.Scheduler
import Mathlib.Data.List.Infix

/-!
# Handing frames off

A scheduler and a receiver with a channel of one place between them, moving in any order. The
receiver gets the pictures of the frames that were run, in their order and from the first one on,
and the scheduler is never more than two frames ahead of it.
-/

namespace Handheld

/-! ## Rounds of a machine -/

namespace Machine

/-- What running a frame gives: the picture after it, or the fault that ended it. -/
def outcome (m : Machine) : Except Fault Picture.Frame :=
  match m.runFrame with
  | .ok _ next => .ok next.frame
  | .error fault _ => .error fault

/-- The joypad register is what a poll has found, and an edge requests the joypad line. -/
def polled (m : Machine) (found : Keypad.Poll) : Machine :=
  { m with
    board.bus.joypad := found.register
    board.bus.interruptFlags :=
      if found.edge then m.board.bus.interruptFlags ||| Interrupt.joypad.mask
      else m.board.bus.interruptFlags }

def round? (m : Machine) (found : Keypad.Poll) : Option Machine :=
  match m.runFrame with
  | .ok _ next => some (next.polled found)
  | .error _ _ => none

/-- The machine after as many rounds as there are polls. -/
def rounds? (m : Machine) (polls : List Keypad.Poll) : Option Machine := polls.foldlM round? m

variable {m : Machine}

theorem outcome_eq_ok_iff {frame : Picture.Frame} :
    m.outcome = .ok frame ↔ ∃ t next, m.runFrame = .ok t next ∧ next.frame = frame := by
  unfold outcome
  cases m.runFrame <;> simp

theorem polled_eq (m : Machine) (found : Keypad.Poll) :
    m.polled found = { m with board := m.board.applyPoll found } := by
  unfold polled Board.applyPoll
  cases found.edge <;> rfl

theorem rounds?_concat {head next : Machine} {t : Nat} {polls : List Keypad.Poll}
    (hhead : m.rounds? polls = some head) (hframe : head.runFrame = .ok t next)
    (found : Keypad.Poll) : m.rounds? (polls ++ [found]) = some (next.polled found) := by
  unfold rounds? at hhead ⊢
  rw [List.foldlM_append, hhead]
  simp [round?, hframe]

theorem config_runFrame {next : Machine} {t : Nat} (h : m.runFrame = .ok t next) :
    next.config = m.config := by
  have hconfig := congrArg Machine.config m.stateAfter_runFrame
  rwa [h] at hconfig

theorem config_rounds? {head : Machine} {polls : List Keypad.Poll}
    (h : m.rounds? polls = some head) : head.config = m.config := by
  refine foldlM_keeps (k := 0) (P := fun _ g => g.config = m.config) ?_ rfl h
  intro k g g' found hg hround
  unfold round? at hround
  split at hround
  · rename_i t next hframe
    cases hround
    exact (config_runFrame hframe).trans hg
  · contradiction

end Machine

namespace Stage

/-- The pictures that were accepted and not polled after yet. -/
def owed : Stage → Nat
  | polling => 1
  | _ => 0

/-- The outcomes that no accepted picture stands for. Without a fault the scheduler ends before it
runs a frame or when its picture is refused. -/
def Leaves : Stage → List (Except Fault Picture.Frame) → Prop
  | deciding, rest | polling, rest => rest = []
  | offering frame, rest => rest = [.ok frame]
  | ended none, rest => rest = [] ∨ ∃ frame, rest = [.ok frame]
  | ended (some fault), rest => rest = [.error fault]

/-- What rounds from `m` on led to, and the frame after them if it has been run. -/
def Follows (m : Machine) (polls : List Keypad.Poll) (machine : Machine) : Stage → Prop
  | deciding => m.rounds? polls = some machine
  | offering _ | polling =>
    ∃ head t, m.rounds? polls = some head ∧ head.runFrame = .ok t machine
  | ended _ => True

theorem Leaves.length_le_one {stage : Stage} {rest : List (Except Fault Picture.Frame)}
    (h : stage.Leaves rest) : rest.length ≤ 1 := by
  cases stage with
  | deciding | polling =>
    rw [h]
    exact Nat.zero_le 1
  | offering frame =>
    rw [h]
    exact Nat.le_refl 1
  | ended fault? =>
    cases fault? with
    | none =>
      rcases h with rfl | ⟨frame, rfl⟩
      · exact Nat.zero_le 1
      · exact Nat.le_refl 1
    | some fault =>
      rw [h]
      exact Nat.le_refl 1

theorem Leaves.eq_of_error {stage : Stage} {rest : List (Except Fault Picture.Frame)}
    {fault : Fault} (h : stage.Leaves rest) (hmem : .error fault ∈ rest) :
    stage = .ended (some fault) ∧ rest = [.error fault] := by
  cases stage with
  | deciding | polling | offering frame =>
    rw [h] at hmem
    simp at hmem
  | ended fault? =>
    cases fault? with
    | none => rcases h with rfl | ⟨frame, rfl⟩ <;> simp at hmem
    | some fault' =>
      rw [h] at hmem ⊢
      obtain rfl : fault = fault' := by simpa using hmem
      exact ⟨rfl, rfl⟩

end Stage

namespace Scheduler

theorem machine_polled (s : Scheduler) (found : Keypad.Poll) (keypad : Keypad) :
    (s.polled found keypad).machine = s.machine.polled found :=
  (s.machine.polled_eq found).symm

theorem follows_proceed (s : Scheduler) {m : Machine} {polls : List Keypad.Poll}
    (hhead : m.rounds? polls = some s.machine) (exit : Bool) :
    (s.proceed exit).stage.Follows m polls (s.proceed exit).machine := by
  obtain ⟨machine, keypad, stage⟩ := s
  unfold proceed
  cases exit with
  | true => trivial
  | false =>
    dsimp only [Bool.false_eq_true, if_false]
    cases hframe : machine.runFrame with
    | ok t next => exact ⟨machine, t, hhead, hframe⟩
    | error fault next => trivial

theorem owed_proceed (s : Scheduler) (exit : Bool) : (s.proceed exit).stage.owed = 0 := by
  unfold proceed
  split
  · rfl
  · obtain ⟨machine, keypad, stage⟩ := s
    dsimp only
    cases machine.runFrame <;> rfl

theorem leaves_proceed (s : Scheduler) (exit : Bool) :
    (s.proceed exit).stage.Leaves (if exit then [] else [s.machine.outcome]) := by
  cases exit with
  | true => exact Or.inl rfl
  | false =>
    obtain ⟨machine, keypad, stage⟩ := s
    unfold proceed Machine.outcome
    dsimp only
    cases machine.runFrame <;> rfl

end Scheduler

/-! ## Moves -/

/-- A scheduler and a receiver. The last four fields are what happened so far, the oldest first. -/
structure HandOff where
  scheduler : Scheduler
  /-- The one place of the channel. -/
  slot : Option Picture.Frame := none
  /-- The receiver has not dropped its end. -/
  attached : Bool := true
  exit : Bool := false
  /-- What the frames that were run gave. -/
  outcomes : List (Except Fault Picture.Frame) := []
  /-- The pictures that the channel accepted. -/
  sent : List Picture.Frame := []
  received : List Picture.Frame := []
  polls : List Keypad.Poll := []

namespace HandOff

inductive Move where
  /-- The scheduler looks at the exit flag, and runs a frame if it is down. -/
  | look
  /-- The scheduler offers its picture. -/
  | offer
  /-- The scheduler polls a keypad, of which nothing is known. -/
  | poll (found : Keypad.Poll) (keypad : Keypad)
  /-- The receiver asks for a picture. -/
  | take
  /-- The exit flag goes up. -/
  | raise
  /-- The receiver drops its end, and what is in the channel with it. -/
  | leave

/-- What a receiver that asks for a picture is told. -/
inductive Answer where
  | picture (frame : Picture.Frame)
  | closed
  | wait

/-- The channel closes when the scheduler ends, but a picture in it can still be taken. -/
def answer (h : HandOff) : Answer :=
  match h.slot, h.scheduler.stage with
  | some frame, _ => .picture frame
  | none, .ended _ => .closed
  | none, _ => .wait

def start (s : Scheduler) : HandOff := { scheduler := s }

def look (h : HandOff) : HandOff :=
  { h with
    scheduler := h.scheduler.proceed h.exit
    outcomes := h.outcomes ++ if h.exit then [] else [h.scheduler.machine.outcome] }

/-- An offer waits while the channel is full, and is refused once the receiver is gone. -/
def offer? (h : HandOff) (frame : Picture.Frame) : Option HandOff :=
  if h.attached then
    match h.slot with
    | none =>
      some { h with
        scheduler := h.scheduler.accepted, slot := some frame, sent := h.sent ++ [frame] }
    | some _ => none
  else some { h with scheduler := h.scheduler.refused }

def poll (h : HandOff) (found : Keypad.Poll) (keypad : Keypad) : HandOff :=
  { h with scheduler := h.scheduler.polled found keypad, polls := h.polls ++ [found] }

def take? (h : HandOff) : Option HandOff :=
  if h.attached then
    match h.answer with
    | .picture frame => some { h with slot := none, received := h.received ++ [frame] }
    | .closed => some h
    | .wait => none
  else none

def step? (h : HandOff) (m : Move) : Option HandOff :=
  match m, h.scheduler.stage with
  | .look, .deciding => some h.look
  | .offer, .offering frame => h.offer? frame
  | .poll found keypad, .polling => some (h.poll found keypad)
  | .look, _ | .offer, _ | .poll .., _ => none
  | .take, _ => h.take?
  | .raise, _ => some { h with exit := true }
  | .leave, _ => some { h with attached := false, slot := none }

def run? (h : HandOff) (moves : List Move) : Option HandOff := moves.foldlM step? h

def pictures (h : HandOff) : List Picture.Frame := h.outcomes.filterMap Except.toOption

/-! ## What a move can do -/

inductive Moved (h : HandOff) : HandOff → Prop
  | look (hstage : h.scheduler.stage = .deciding) : Moved h h.look
  | accepted (frame : Picture.Frame) (hstage : h.scheduler.stage = .offering frame)
      (hattached : h.attached = true) (hslot : h.slot = none) :
    Moved h { h with
      scheduler := h.scheduler.accepted, slot := some frame, sent := h.sent ++ [frame] }
  | refused (frame : Picture.Frame) (hstage : h.scheduler.stage = .offering frame)
      (hattached : h.attached = false) : Moved h { h with scheduler := h.scheduler.refused }
  | poll (found : Keypad.Poll) (keypad : Keypad) (hstage : h.scheduler.stage = .polling) :
    Moved h (h.poll found keypad)
  | take (frame : Picture.Frame) (hattached : h.attached = true) (hslot : h.slot = some frame) :
    Moved h { h with slot := none, received := h.received ++ [frame] }
  | told : Moved h h
  | raise : Moved h { h with exit := true }
  | leave : Moved h { h with attached := false, slot := none }

theorem moved_offer {h h' : HandOff} {frame : Picture.Frame}
    (hstage : h.scheduler.stage = .offering frame) (hoffer : h.offer? frame = some h') :
    Moved h h' := by
  unfold offer? at hoffer
  split at hoffer
  · rename_i hattached
    split at hoffer
    · rename_i hslot
      cases hoffer
      exact .accepted frame hstage hattached hslot
    · contradiction
  · rename_i hattached
    cases hoffer
    exact .refused frame hstage (eq_false_of_ne_true hattached)

theorem take?_cases {h h' : HandOff} (htake : h.take? = some h') :
    h.attached = true ∧
      ((∃ frame, h.slot = some frame ∧ h.answer = .picture frame ∧
          h' = { h with slot := none, received := h.received ++ [frame] }) ∨
        (∃ fault?, h.slot = none ∧ h.scheduler.stage = .ended fault? ∧ h.answer = .closed ∧
          h' = h)) := by
  unfold take? at htake
  split at htake
  · rename_i hattached
    refine ⟨hattached, ?_⟩
    cases hslot : h.slot with
    | some frame =>
      have hanswer : h.answer = .picture frame := by simp [answer, hslot]
      rw [hanswer] at htake
      cases htake
      exact .inl ⟨frame, rfl, hanswer, rfl⟩
    | none =>
      cases hstage : h.scheduler.stage with
      | ended fault? =>
        have hanswer : h.answer = .closed := by simp [answer, hslot, hstage]
        rw [hanswer] at htake
        cases htake
        exact .inr ⟨fault?, rfl, rfl, hanswer, rfl⟩
      | deciding | offering frame | polling =>
        have hanswer : h.answer = .wait := by simp [answer, hslot, hstage]
        rw [hanswer] at htake
        contradiction
  · contradiction

theorem moved_take {h h' : HandOff} (htake : h.take? = some h') : Moved h h' := by
  obtain ⟨hattached, ⟨frame, hslot, -, rfl⟩ | ⟨-, -, -, -, rfl⟩⟩ := take?_cases htake
  · exact .take frame hattached hslot
  · exact .told

theorem moved_step {h h' : HandOff} {m : Move} (hstep : h.step? m = some h') : Moved h h' := by
  unfold step? at hstep
  split at hstep
  · cases hstep
    exact .look ‹_›
  · exact moved_offer ‹_› hstep
  · cases hstep
    exact .poll _ _ ‹_›
  · contradiction
  · contradiction
  · contradiction
  · exact moved_take hstep
  · cases hstep
    exact .raise
  · cases hstep
    exact .leave

/-! ## Runs -/

/-- Every outcome is that of an accepted picture or what the stage leaves, there was a poll for each
accepted picture, and of these at most the last one was not received. -/
structure Faithful (h : HandOff) : Prop where
  outcomes : ∃ rest, h.outcomes = h.sent.map .ok ++ rest ∧ h.scheduler.stage.Leaves rest
  polled : h.polls.length + h.scheduler.stage.owed = h.sent.length
  queued : ∃ last : Option Picture.Frame,
    h.sent = h.received ++ last.toList ∧ (h.attached = true → h.slot = last)

theorem faithful_start {s : Scheduler} (hs : s.stage = .deciding) : Faithful (start s) := by
  refine ⟨⟨[], rfl, ?_⟩, ?_, ⟨none, rfl, fun _ => rfl⟩⟩
  · rw [start, hs]
    rfl
  · rw [start, hs]
    rfl

theorem Faithful.step {h h' : HandOff} (hf : Faithful h) (hmoved : Moved h h') : Faithful h' := by
  obtain ⟨⟨rest, hrest, hleaves⟩, hpolled, last, hlast, hslot⟩ := hf
  cases hmoved with
  | look hstage =>
    rw [hstage] at hleaves hpolled
    refine ⟨⟨_, ?_, h.scheduler.leaves_proceed h.exit⟩, ?_, last, hlast, hslot⟩
    · rw [look, hrest, hleaves, List.append_nil]
    · rw [look, Scheduler.owed_proceed]
      exact hpolled
  | accepted frame hstage hattached hempty =>
    rw [hstage] at hleaves hpolled
    -- The channel was empty, so everything before was received.
    obtain rfl : last = none := by rw [← hslot hattached, hempty]
    rw [Option.toList_none, List.append_nil] at hlast
    refine ⟨⟨[], ?_, rfl⟩, ?_, some frame, ?_, fun _ => rfl⟩
    · rw [hrest, hleaves, List.map_append, List.append_nil]
      rfl
    · rw [List.length_append, ← hpolled]
      rfl
    · rw [hlast]
      rfl
  | refused frame hstage hattached =>
    rw [hstage] at hleaves hpolled
    exact ⟨⟨rest, hrest, Or.inr ⟨frame, hleaves⟩⟩, hpolled, last, hlast, hslot⟩
  | poll found keypad hstage =>
    rw [hstage] at hleaves hpolled
    refine ⟨⟨rest, hrest, hleaves⟩, ?_, last, hlast, hslot⟩
    rw [HandOff.poll, List.length_append]
    exact hpolled
  | take frame hattached hfull =>
    obtain rfl : last = some frame := by rw [← hslot hattached, hfull]
    exact ⟨⟨rest, hrest, hleaves⟩, hpolled, none, by rw [hlast]; simp, fun _ => rfl⟩
  | told => exact ⟨⟨rest, hrest, hleaves⟩, hpolled, last, hlast, hslot⟩
  | raise => exact ⟨⟨rest, hrest, hleaves⟩, hpolled, last, hlast, hslot⟩
  | leave =>
    exact ⟨⟨rest, hrest, hleaves⟩, hpolled, last, hlast, fun hattached => nomatch hattached⟩

theorem run?_keeps {P : HandOff → Prop} (hstep : ∀ {h h'}, P h → Moved h h' → P h')
    {h h' : HandOff} {moves : List Move} (hp : P h) (hrun : h.run? moves = some h') : P h' :=
  foldlM_keeps (k := 0) (P := fun _ => P) (fun hp hm => hstep hp (moved_step hm)) hp hrun

/-! ## What the scheduler runs -/

/-- The machine has run in rounds from `m` on, and the frame of a round starts from what the rounds
before it led to. -/
structure Plays (m : Machine) (h : HandOff) : Prop where
  outcomes : ∀ (k : Nat) outcome, h.outcomes[k]? = some outcome →
    ∃ head, m.rounds? (h.polls.take k) = some head ∧ outcome = head.outcome
  follows : h.scheduler.stage.Follows m h.polls h.scheduler.machine

theorem plays_start {s : Scheduler} (hs : s.stage = .deciding) : Plays s.machine (start s) := by
  refine ⟨nofun, ?_⟩
  rw [start, hs]
  rfl

theorem Faithful.length_of_deciding {h : HandOff} (hf : Faithful h)
    (hstage : h.scheduler.stage = .deciding) : h.outcomes.length = h.polls.length := by
  obtain ⟨⟨rest, hrest, hleaves⟩, hpolled, -⟩ := hf
  rw [hstage] at hleaves hpolled
  rw [hrest, hleaves, List.append_nil, List.length_map, ← hpolled]
  rfl

theorem Faithful.length_of_polling {h : HandOff} (hf : Faithful h)
    (hstage : h.scheduler.stage = .polling) : h.outcomes.length = h.polls.length + 1 := by
  obtain ⟨⟨rest, hrest, hleaves⟩, hpolled, -⟩ := hf
  rw [hstage] at hleaves hpolled
  rw [hrest, hleaves, List.append_nil, List.length_map, ← hpolled]
  rfl

namespace Plays

variable {m : Machine} {h h' : HandOff} (hp : Plays m h) (hf : Faithful h)
include hp hf

theorem look (hstage : h.scheduler.stage = .deciding) : Plays m h.look := by
  have hhead := hp.follows
  rw [hstage] at hhead
  refine ⟨fun k outcome hk => ?_, h.scheduler.follows_proceed hhead h.exit⟩
  by_cases hold : k < h.outcomes.length
  · rw [HandOff.look, List.getElem?_append_left hold] at hk
    exact hp.outcomes k outcome hk
  · -- The new frame starts from where all the rounds have led to.
    have hpolls : h.polls.length ≤ k := by
      have hlength := hf.length_of_deciding hstage
      omega
    rw [HandOff.look, List.getElem?_append_right (Nat.le_of_not_lt hold)] at hk
    cases hexit : h.exit with
    | true =>
      rw [hexit] at hk
      contradiction
    | false =>
      rw [hexit] at hk
      obtain ⟨-, rfl⟩ : k - h.outcomes.length = 0 ∧ h.scheduler.machine.outcome = outcome := by
        simpa [List.getElem?_singleton] using hk
      exact ⟨h.scheduler.machine, (List.take_of_length_le hpolls).symm ▸ hhead, rfl⟩

theorem poll (hstage : h.scheduler.stage = .polling) (found : Keypad.Poll) (keypad : Keypad) :
    Plays m (h.poll found keypad) := by
  have hfollows := hp.follows
  rw [hstage] at hfollows
  obtain ⟨head, t, hhead, hframe⟩ := hfollows
  refine ⟨fun k outcome hk => ?_, ?_⟩
  · have hlt : k < h.outcomes.length := (List.getElem?_eq_some_iff.1 hk).1
    have hlength := hf.length_of_polling hstage
    rw [HandOff.poll, List.take_append_of_le_length (by omega)]
    exact hp.outcomes k outcome hk
  · have hnext := Machine.rounds?_concat hhead hframe found
    rw [← Scheduler.machine_polled _ _ keypad] at hnext
    exact hnext

theorem step (hmoved : Moved h h') : Plays m h' := by
  have hfollows := hp.follows
  cases hmoved with
  | look hstage => exact hp.look hf hstage
  | poll found keypad hstage => exact hp.poll hf hstage found keypad
  | accepted frame hstage =>
    rw [hstage] at hfollows
    exact ⟨hp.outcomes, hfollows⟩
  | refused => exact ⟨hp.outcomes, trivial⟩
  | take | told | raise | leave => exact ⟨hp.outcomes, hfollows⟩

end Plays

/-! ## What the receiver gets -/

namespace Faithful

variable {h : HandOff} (hf : Faithful h)
include hf

theorem sent_prefix : h.sent <+: h.pictures := by
  obtain ⟨rest, hrest, -⟩ := hf.outcomes
  refine ⟨rest.filterMap Except.toOption, ?_⟩
  rw [pictures, hrest, List.filterMap_append, List.filterMap_map]
  congr 1
  exact List.filterMap_some.symm

theorem received_prefix : h.received <+: h.pictures := by
  obtain ⟨last, hlast, -⟩ := hf.queued
  exact (hlast ▸ List.prefix_append _ _).trans hf.sent_prefix

theorem outcome_of_received {k : Nat} {frame : Picture.Frame}
    (hk : h.received[k]? = some frame) : h.outcomes[k]? = some (.ok frame) := by
  obtain ⟨rest, hrest, -⟩ := hf.outcomes
  obtain ⟨last, hlast, -⟩ := hf.queued
  have hlt : k < h.received.length := (List.getElem?_eq_some_iff.1 hk).1
  have hsent : h.sent[k]? = some frame := by
    rw [hlast, List.getElem?_append_left hlt]
    exact hk
  have hlt' : k < (h.sent.map Except.ok : List (Except Fault Picture.Frame)).length := by
    rw [List.length_map]
    exact (List.getElem?_eq_some_iff.1 hsent).1
  rw [hrest, List.getElem?_append_left hlt', List.getElem?_map, hsent]
  rfl

theorem length_outcomes_le : h.outcomes.length ≤ h.received.length + 2 := by
  obtain ⟨rest, hrest, hleaves⟩ := hf.outcomes
  obtain ⟨last, hlast, -⟩ := hf.queued
  have hone := hleaves.length_le_one
  have hlost : last.toList.length ≤ 1 := by cases last <;> simp
  rw [hrest, hlast]
  simp only [List.length_append, List.length_map]
  omega

theorem of_failed {k : Nat} {fault : Fault} (hk : h.outcomes[k]? = some (.error fault)) :
    h.outcomes = h.sent.map .ok ++ [.error fault] ∧ h.sent.length = k ∧
      h.scheduler.stage = .ended (some fault) := by
  obtain ⟨rest, hrest, hleaves⟩ := hf.outcomes
  have hlate : (h.sent.map Except.ok : List (Except Fault Picture.Frame)).length ≤ k := by
    by_contra hlt
    rw [hrest, List.getElem?_append_left (by omega), List.getElem?_map] at hk
    obtain ⟨frame, -, hframe⟩ := Option.map_eq_some_iff.1 hk
    cases hframe
  rw [hrest, List.getElem?_append_right hlate] at hk
  obtain ⟨hstage, rfl⟩ := hleaves.eq_of_error (List.mem_of_getElem? hk)
  refine ⟨hrest, ?_, hstage⟩
  have hlast : k - h.sent.length < 1 := by simpa using (List.getElem?_eq_some_iff.1 hk).1
  rw [List.length_map] at hlate
  omega

end Faithful

/-! ## The end -/

/-- No instruction was run since, and no picture accepted. The machine is the same but for what it
reported. -/
structure Rests (h h' : HandOff) : Prop where
  outcomes : h'.outcomes = h.outcomes
  sent : h'.sent = h.sent
  machine : ∃ es, h'.scheduler.machine = h.scheduler.machine.reportAll es

theorem rests_look {h : HandOff} (hexit : h.exit = true) :
    h.look.scheduler.stage = .ended none ∧ h.Rests h.look := by
  unfold look Scheduler.proceed
  rw [hexit]
  exact ⟨rfl, List.append_nil _, rfl, _, rfl⟩

theorem rests_refused (h : HandOff) :
    h.scheduler.refused.stage = .ended none ∧
      h.Rests { h with scheduler := h.scheduler.refused } := by
  refine ⟨rfl, rfl, rfl, [.receiverGone, .runStopped h.scheduler.machine.frameCount], ?_⟩
  rfl

theorem ended_of_moved {h h' g : HandOff} {fault? : Option Fault}
    (hended : h.scheduler.stage = .ended fault?)
    (hsame : g.scheduler = h.scheduler ∧ g.outcomes = h.outcomes ∧ g.sent = h.sent)
    (hmoved : Moved g h') :
    h'.scheduler = h.scheduler ∧ h'.outcomes = h.outcomes ∧ h'.sent = h.sent := by
  have hstage : g.scheduler.stage = .ended fault? := by rw [hsame.1, hended]
  cases hmoved with
  | look hlook => cases hstage.symm.trans hlook
  | accepted frame hoffer => cases hstage.symm.trans hoffer
  | refused frame hoffer => cases hstage.symm.trans hoffer
  | poll found keypad hpoll => cases hstage.symm.trans hpoll
  | take | told | raise | leave => exact hsame

theorem answer_ne_wait {h : HandOff} {fault? : Option Fault}
    (hended : h.scheduler.stage = .ended fault?) : h.answer ≠ .wait := by
  unfold answer
  rw [hended]
  cases h.slot <;> nofun

/-- Whatever the order of moves: the machine runs a frame and a poll in turn, and what is received
are the first pictures of the frames that were run, each in its place. The frames are counted in 32
bits if the budget leaves them room for one more step. While the receiver is there only the picture
in the channel is missing from those accepted. At most two more frames were run than received, and
before each look at the exit flag the keypad was polled once for each accepted picture. A frame that
fails is the last one, all pictures before it were accepted, and its fault ends the scheduler. A
look at a raised flag and a refused picture end it too, with nothing more run, and once it has ended
nothing is sent and no receiver waits. -/
theorem received_in_order (s : Scheduler) (hs : s.stage = .deciding) {moves : List Move}
    {h : HandOff} (hrun : (start s).run? moves = some h) :
    (∀ (k : Nat) outcome, h.outcomes[k]? = some outcome →
      ∃ head, s.machine.rounds? (h.polls.take k) = some head ∧ outcome = head.outcome) ∧
      (∀ (k : Nat) frame, h.received[k]? = some frame →
        ∃ head t next, s.machine.rounds? (h.polls.take k) = some head ∧
          head.runFrame = .ok t next ∧ next.frame = frame) ∧
      (h.scheduler.stage = .deciding → s.machine.rounds? h.polls = some h.scheduler.machine) ∧
      (s.machine.config.frameBudget ≤ 2 ^ 32 - 45 → ∀ (k : Nat) head,
        s.machine.rounds? (h.polls.take k) = some head →
          ∀ result, head.Counts head.config.frameBudget 0 result ↔ result = head.runFrame) ∧
      h.received <+: h.pictures ∧
      (h.attached = true → h.sent = h.received ++ h.slot.toList) ∧
      h.outcomes.length ≤ h.received.length + 2 ∧
      (h.scheduler.stage = .deciding → h.polls.length = h.sent.length) ∧
      (∀ (k : Nat) fault, h.outcomes[k]? = some (.error fault) →
        h.outcomes = h.sent.map .ok ++ [.error fault] ∧ h.sent.length = k ∧
          h.scheduler.stage = .ended (some fault)) ∧
      (h.scheduler.stage = .deciding → h.exit = true →
        ∃ h', h.step? .look = some h' ∧ h'.scheduler.stage = .ended none ∧ h.Rests h') ∧
      (∀ frame, h.scheduler.stage = .offering frame → h.attached = false →
        ∃ h', h.step? .offer = some h' ∧ h'.scheduler.stage = .ended none ∧ h.Rests h') ∧
      ∀ fault?, h.scheduler.stage = .ended fault? → ∀ later h', h.run? later = some h' →
        h'.scheduler = h.scheduler ∧ h'.outcomes = h.outcomes ∧ h'.sent = h.sent ∧
          h'.answer ≠ .wait := by
  obtain ⟨hf, hp⟩ : Faithful h ∧ Plays s.machine h :=
    run?_keeps (P := fun h => Faithful h ∧ Plays s.machine h)
      (fun hkept hmoved => ⟨hkept.1.step hmoved, hkept.2.step hkept.1 hmoved⟩)
      ⟨faithful_start hs, plays_start hs⟩ hrun
  refine ⟨hp.outcomes, ?_, ?_, ?_, hf.received_prefix, ?_, hf.length_outcomes_le, ?_,
    fun k fault => hf.of_failed, ?_, ?_, ?_⟩
  · intro k frame hk
    obtain ⟨head, hhead, houtcome⟩ := hp.outcomes k _ (hf.outcome_of_received hk)
    obtain ⟨t, next, hframe, hshown⟩ := Machine.outcome_eq_ok_iff.1 houtcome.symm
    exact ⟨head, t, next, hhead, hframe, hshown⟩
  · intro hstage
    have hfollows := hp.follows
    rw [hstage] at hfollows
    exact hfollows
  · intro hroom k head hhead result
    rw [← Machine.config_rounds? hhead] at hroom
    exact Machine.counts_iff_eq_runFrame hroom
  · intro hattached
    obtain ⟨last, hlast, hslot⟩ := hf.queued
    rw [hslot hattached, hlast]
  · intro hstage
    have hpolled := hf.polled
    rw [hstage] at hpolled
    exact hpolled
  · intro hstage hexit
    refine ⟨h.look, ?_, rests_look hexit⟩
    unfold step?
    rw [hstage]
  · intro frame hstage hattached
    refine ⟨{ h with scheduler := h.scheduler.refused }, ?_, rests_refused h⟩
    unfold step? offer?
    rw [hstage, hattached]
    rfl
  · intro fault? hended later h' hlater
    have hsame : h'.scheduler = h.scheduler ∧ h'.outcomes = h.outcomes ∧ h'.sent = h.sent :=
      run?_keeps (P := fun g => g.scheduler = h.scheduler ∧ g.outcomes = h.outcomes ∧
        g.sent = h.sent) (ended_of_moved hended) ⟨rfl, rfl, rfl⟩ hlater
    have hended' : h'.scheduler.stage = .ended fault? := by rw [hsame.1, hended]
    exact ⟨hsame.1, hsame.2.1, hsame.2.2, answer_ne_wait hended'⟩

end HandOff

/-! ## A picture completed in the second round -/

namespace Machine

/-- The processor sleeps through frames of one step, on the last line that is shown, of which so
many cycles are left. -/
structure OnLastLine (m : Machine) (left : Int) : Prop where
  asleep : m.board.Asleep
  budget : m.config.frameBudget = 4
  on : PictureUnit.on m.board.bus = true
  line : m.board.bus.read 0xff44 = 143
  left : m.board.picture.counter = left

namespace OnLastLine

variable {m : Machine} {left : Int}

theorem polled (h : m.OnLastLine left) (found : Keypad.Poll) :
    (m.polled found).OnLastLine left := by
  have hread : ∀ a, (Region.ofAddress a).isCell →
      (m.polled found).board.bus.read a = m.board.bus.read a := by
    intro a ha
    rw [Bus.read_eq_cell _ ha, Bus.read_eq_cell _ ha]
    rfl
  refine ⟨⟨h.asleep.halted, h.asleep.eiPending, h.asleep.enable⟩, h.budget, ?_, ?_, h.left⟩
  · rw [PictureUnit.on, hread _ (by decide)]
    exact h.on
  · rw [hread _ (by decide)]
    exact h.line

theorem exists_advance (h : m.OnLastLine left) :
    ∃ next r, m.runFrame = .ok 4 next ∧ next.config = m.config ∧ next.board.Asleep ∧
      PictureUnit.Advance m.board.picture (m.board.bus.tick 4) 4 r ∧ next.board.picture = r.2.1 ∧
      next.board.bus = r.2.2.serial 4 := by
  obtain ⟨hstep, -, hasleep⟩ := h.asleep.wait (Board.atEntry?_of_halted h.asleep.halted)
  have hframe := runFrame_of_asleep h.asleep
  rw [h.budget] at hframe
  have hboard : (m.stepped 1).board = stateAfter m.board.step := by
    rw [stepped_succ, board_step]
    rfl
  rw [hstep] at hboard
  refine ⟨m.stepped 1, _, hframe, ?_, hboard ▸ hasleep, PictureUnit.step_advance _ _ _, ?_, ?_⟩
  · rw [stepped_eq]
  · rw [hboard]
    rfl
  · rw [hboard]
    rfl

theorem read_tick (h : m.OnLastLine left) :
    PictureUnit.on (m.board.bus.tick 4) = true ∧
      (m.board.bus.tick 4).read PictureUnit.lyAddress = 143 := by
  have hon := h.on
  unfold PictureUnit.on at hon ⊢
  rw [Bus.read_tick_of_ne _ _ (by decide) (by decide) (by decide),
    Bus.read_tick_of_ne _ _ (by decide) (by decide) (by decide)]
  exact ⟨hon, h.line⟩

theorem within (h : m.OnLastLine left) (hleft : 4 < left) :
    ∃ next, m.runFrame = .ok 4 next ∧ next.OnLastLine (left - 4) ∧ next.frame = m.frame ∧
      next.board.picture.drawing = m.board.picture.drawing := by
  obtain ⟨next, r, hframe, hconfig, hasleep, hadvance, hpicture, hbus⟩ := h.exists_advance
  obtain ⟨hon, hline⟩ := h.read_tick
  have hfour : signed32 4 = 4 := by decide
  have hcounter := h.left
  cases hadvance with
  | off hoff => exact absurd (hon.symm.trans hoff) (by decide)
  | drawn _ hended | completed _ hended | blank _ hended => omega
  | within =>
    have hread : ∀ a, a ≠ 0xff01 → a ≠ 0xff02 → a ≠ 0xff0f → a ≠ 0xff41 →
        next.board.bus.read a = (m.board.bus.tick 4).read a := by
      intro a hdata hcontrol hflags hstat
      rw [hbus, Bus.read_serial_of_ne _ _ hdata hcontrol hflags]
      exact PictureUnit.read_updateStatus_of_ne _ _ hstat hflags
    refine ⟨next, hframe, ⟨hasleep, hconfig ▸ h.budget, ?_, ?_, ?_⟩, ?_, ?_⟩
    · rw [PictureUnit.on, hread _ (by decide) (by decide) (by decide) (by decide)]
      exact hon
    · rw [hread _ (by decide) (by decide) (by decide) (by decide)]
      exact hline
    · rw [hpicture]
      dsimp only
      omega
    · rw [Machine.frame, hpicture]
      rfl
    · rw [hpicture]

theorem completed (h : m.OnLastLine left) (hleft : left ≤ 4) :
    ∃ next row, m.runFrame = .ok 4 next ∧ next.frame = m.board.picture.drawing.setRow 143 row := by
  obtain ⟨next, r, hframe, -, -, hadvance, hpicture, -⟩ := h.exists_advance
  obtain ⟨hon, hline⟩ := h.read_tick
  have hfour : signed32 4 = 4 := by decide
  have hcounter := h.left
  cases hadvance with
  | off hoff => exact absurd (hon.symm.trans hoff) (by decide)
  | within _ hmore => omega
  | drawn _ _ hbefore =>
    rw [hline] at hbefore
    contradiction
  | blank _ _ hafter =>
    rw [hline] at hafter
    contradiction
  | completed =>
    have hshown : next.frame = _ := congrArg PictureUnit.shown hpicture
    exact ⟨next, _, hframe, hshown⟩

end OnLastLine

end Machine

namespace HandOff

/-- Nothing is shown yet, and the picture that is drawn is black. -/
def dozing : Machine where
  board :=
    { cpu := { halted := true }
      bus := ((default : Bus).store 0xff40 0x80).store 0xff44 143
      picture := { drawing := ⟨Vector.replicate 144 (Vector.replicate 160 .black)⟩, counter := 8 } }
  config := { fps := 1, clockHz := 4 }
  header := default

theorem onLastLine_dozing : dozing.OnLastLine 8 where
  asleep := ⟨rfl, rfl, by decide⟩
  budget := by decide
  on := by
    unfold PictureUnit.on dozing
    dsimp only
    rw [Bus.read_store_of_ne _ _ (by decide), Bus.read_store_self _ _ (by decide)]
    decide
  line := Bus.read_store_self _ _ (by decide)
  left := rfl

theorem frame_dozing : dozing.frame = .blank := rfl

theorem setRow_dozing_ne_blank (row : Picture.Row) :
    dozing.board.picture.drawing.setRow 143 row ≠ .blank := by
  intro heq
  have hrow : (dozing.board.picture.drawing.setRow 143 row).row 0 = Picture.Frame.blank.row 0 :=
    congrArg (fun f : Picture.Frame => f.row 0) heq
  rw [Picture.Frame.row_setRow_of_ne _ _ (by decide)] at hrow
  have hpixel : Picture.Shade.black = .white := by
    simpa [Picture.Frame.row, dozing, Picture.Frame.blank] using congrArg (·[0]) hrow
  exact absurd hpixel (by decide)

/-- The receiver takes two pictures, with an edge in between, and leaves. -/
def watching : List Move :=
  [.look, .offer, .take, .poll ⟨true, 0xfe⟩ {}, .look, .offer, .poll ⟨false, 0xfe⟩ {}, .take,
    .leave, .raise]

theorem run?_watching {m first second : Machine} (hfirst : m.runFrame = .ok 4 first)
    (hsecond : (first.polled ⟨true, 0xfe⟩).runFrame = .ok 4 second) :
    ∃ h, (start { machine := m, keypad := {} }).run? watching = some h ∧
      h.received = [first.frame, second.frame] ∧ h.polls = [⟨true, 0xfe⟩, ⟨false, 0xfe⟩] ∧
      h.scheduler.stage = .deciding ∧ h.exit = true := by
  rw [Machine.polled_eq] at hsecond
  simp [watching, run?, start, step?, look, offer?, poll, take?, answer, Scheduler.proceed,
    Scheduler.polled, Scheduler.accepted, hfirst, hsecond]

theorem received_in_order_watching :
    ∃ h f g, (start { machine := dozing, keypad := {} }).run? watching = some h ∧
      h.received = [f, g] ∧ f ≠ g ∧
      (∃ head t next, dozing.rounds? [⟨true, 0xfe⟩] = some head ∧ head.runFrame = .ok t next ∧
        next.frame = g ∧ head.Counts head.config.frameBudget 0 (.ok t next)) ∧
      dozing.rounds? [⟨true, 0xfe⟩, ⟨false, 0xfe⟩] = some h.scheduler.machine ∧
      h.outcomes.length ≤ h.received.length + 2 ∧
      ∃ h', h.step? .look = some h' ∧ h'.scheduler.stage = .ended none ∧ h.Rests h' := by
  obtain ⟨first, hfirst, hlast, hshown, hdrawing⟩ := onLastLine_dozing.within (by decide)
  obtain ⟨second, row, hsecond, hcompleted⟩ :=
    (hlast.polled ⟨true, 0xfe⟩).completed (by decide)
  obtain ⟨h, hrun, hreceived, hpolls, hstage, hexit⟩ := run?_watching hfirst hsecond
  obtain ⟨-, hframes, hmachine, hcounts, -, -, hbound, -, -, hraised, -⟩ :=
    received_in_order _ rfl hrun
  rw [hreceived, hpolls] at hframes
  rw [hpolls] at hmachine hcounts
  obtain ⟨head, t, next, hhead, hframe, hnext⟩ := hframes 1 _ rfl
  have hcounted := (hcounts (by decide) 1 head hhead _).2 hframe.symm
  refine ⟨h, first.frame, second.frame, hrun, hreceived, ?_,
    ⟨head, t, next, hhead, hframe, hnext, hcounted⟩, hmachine hstage, hbound, hraised hstage hexit⟩
  rw [hshown, frame_dozing, hcompleted, Machine.polled, hdrawing]
  exact (setRow_dozing_ne_blank row).symm

end HandOff

end Handheld
