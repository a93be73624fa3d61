import Handheld.Cli.Session
import Handheld.Proofs.FrameHandOff

/-!
# The limit on frames

A consumer takes frames until it has enough of them or there are no more. Then it raises the exit
flag and leaves. It looks at its limit only after a frame was taken, so that a limit of zero is a
limit of one.
-/

namespace Handheld

/-! ## Moves of the scheduler -/

/-- How far the scheduler is on its round. A round begins when a frame was run. -/
def Stage.turn : Stage → Nat
  | offering _ => 0
  | polling => 1
  | deciding => 2
  | ended _ => 3

theorem Scheduler.stage_proceed (s : Scheduler) (exit : Bool) :
    (∃ frame, (s.proceed exit).stage = .offering frame) ∨
      ∃ fault?, (s.proceed exit).stage = .ended fault? := by
  unfold proceed
  cases exit with
  | true => exact .inr ⟨none, rfl⟩
  | false =>
    obtain ⟨machine, keypad, stage⟩ := s
    dsimp only [Bool.false_eq_true, if_false]
    cases machine.runFrame with
    | ok t next => exact .inl ⟨_, rfl⟩
    | error fault next => exact .inr ⟨_, rfl⟩

theorem Scheduler.config_proceed (s : Scheduler) (exit : Bool) :
    (s.proceed exit).machine.config = s.machine.config := by
  unfold proceed
  cases exit with
  | true => rfl
  | false =>
    obtain ⟨machine, keypad, stage⟩ := s
    have hframe := congrArg Machine.config machine.stateAfter_runFrame
    dsimp only [Bool.false_eq_true, if_false] at hframe ⊢
    cases hresult : machine.runFrame <;> (rw [hresult] at hframe; exact hframe)

namespace HandOff

theorem config_of_moved {h h' : HandOff} (hmoved : Moved h h') :
    h'.scheduler.machine.config = h.scheduler.machine.config := by
  cases hmoved with
  | look => exact h.scheduler.config_proceed h.exit
  | accepted | refused | poll | take | told | raise | leave => rfl

def progress (h : HandOff) : Nat := 3 * h.outcomes.length + h.scheduler.stage.turn

/-- The scheduler has made a move, of which the receiver knows nothing. -/
structure Advanced (h h' : HandOff) : Prop where
  moved : Moved h h'
  exit : h'.exit = h.exit
  attached : h'.attached = h.attached
  received : h'.received = h.received
  progress : h.progress < h'.progress

variable {h h' : HandOff}

theorem progress_look (hstage : h.scheduler.stage = .deciding) : h.progress < h.look.progress := by
  unfold progress look
  rw [hstage]
  cases h.exit with
  | true =>
    dsimp only [Scheduler.proceed, Scheduler.stop, if_true, Stage.turn]
    simp
  | false =>
    simp only [List.length_append, Bool.false_eq_true, if_false, List.length_singleton, Stage.turn]
    omega

theorem advanced_offer {frame : Picture.Frame} (hstage : h.scheduler.stage = .offering frame)
    (hoffer : h.offer? frame = some h') : Advanced h h' := by
  have hmoved := moved_offer hstage hoffer
  unfold offer? at hoffer
  split at hoffer
  · split at hoffer
    · cases hoffer
      refine ⟨hmoved, rfl, rfl, rfl, ?_⟩
      simp only [progress, hstage, Scheduler.accepted, Stage.turn]
      omega
    · contradiction
  · cases hoffer
    refine ⟨hmoved, rfl, rfl, rfl, ?_⟩
    simp only [progress, hstage, Scheduler.refused, Scheduler.stop, Stage.turn]
    omega

theorem advanced_poll (found : Keypad.Poll) (keypad : Keypad)
    (hstage : h.scheduler.stage = .polling) : Advanced h (h.poll found keypad) := by
  refine ⟨.poll found keypad hstage, rfl, rfl, rfl, ?_⟩
  simp only [progress, hstage, poll, Scheduler.polled, Stage.turn]
  omega

def Move.isScheduler : Move → Bool
  | look | offer | poll .. => true
  | take | raise | leave => false

theorem advanced_step {m : Move} (hm : m.isScheduler = true) (hstep : h.step? m = some h') :
    Advanced h h' := by
  unfold step? at hstep
  split at hstep
  · rename_i hstage
    cases hstep
    exact ⟨.look hstage, rfl, rfl, rfl, progress_look hstage⟩
  · exact advanced_offer ‹_› hstep
  · cases hstep
    exact advanced_poll _ _ ‹_›
  · contradiction
  · contradiction
  · contradiction
  all_goals cases hm

theorem exists_advance (hlive : ¬ ∃ fault?, h.scheduler.stage = .ended fault?)
    (hfree : h.attached = true → h.slot = none) :
    ∃ m : Move, m.isScheduler = true ∧ ∃ h', h.step? m = some h' := by
  cases hstage : h.scheduler.stage with
  | deciding => exact ⟨.look, rfl, h.look, by simp only [step?, hstage]⟩
  | offering frame =>
    refine ⟨.offer, rfl, ?_⟩
    simp only [step?, hstage, offer?]
    cases hattached : h.attached with
    | true =>
      rw [hfree hattached]
      exact ⟨_, rfl⟩
    | false => exact ⟨_, rfl⟩
  | polling =>
    exact ⟨.poll ⟨false, 0⟩ {}, rfl, h.poll ⟨false, 0⟩ {}, by simp only [step?, hstage]⟩
  | ended fault? => exact absurd ⟨fault?, hstage⟩ hlive

theorem slot_of_wait (hwait : h.answer = .wait) : h.slot = none := by
  unfold answer at hwait
  split at hwait
  · contradiction
  · contradiction
  · assumption

end HandOff

namespace Cli

/-! ## A consumer -/

namespace Consumer

inductive Phase where
  | taking
  | raising
  | leaving
  | gone
deriving DecidableEq

def Phase.turn : Phase → Nat
  | taking => 0
  | raising => 1
  | leaving => 2
  | gone => 3

/-- What a consumer makes of an answer. A frame is counted before the limit is looked at. -/
def hear (c : Consumer) : HandOff.Answer → Option (Consumer × Phase)
  | .picture _ => some (c.take, if c.take.satisfied then .raising else .taking)
  | .closed => some (c, .raising)
  | .wait => none

/-- Asks until it takes no more, or the answers are over. -/
def drain (c : Consumer) : List HandOff.Answer → Option (Consumer × Phase)
  | [] => none
  | answer :: answers =>
    match c.hear answer with
    | some (c, .taking) => c.drain answers
    | heard => heard

def share (limit : Option Nat) (n : Nat) : Nat :=
  match limit with
  | none => n
  | some limit => min (max limit 1) n

theorem share_eq_min_iff (limit n : Nat) :
    share (some limit) n = min limit n ↔ limit ≠ 0 ∨ n = 0 := by
  simp only [share]
  omega

theorem share_le (limit n : Nat) : share (some limit) n ≤ max limit 1 := Nat.min_le_left _ _

theorem satisfied_iff (limit taken : Nat) :
    (mk (some limit) taken).satisfied = true ↔ 0 < taken ∧ limit ≤ taken := by
  simp [satisfied]

variable {c : Consumer}

theorem share_taken (hc : c.satisfied = false) : share c.limit c.taken = c.taken := by
  obtain ⟨limit, taken⟩ := c
  cases limit with
  | none => rfl
  | some limit =>
    have hless := mt (satisfied_iff limit taken).2 (ne_true_of_eq_false hc)
    simp only [share]
    omega

theorem share_take (hc : c.satisfied = false) (htake : c.take.satisfied = true) (n : Nat) :
    share c.limit (c.take.taken + n) = c.take.taken := by
  obtain ⟨limit, taken⟩ := c
  cases limit with
  | none => contradiction
  | some limit =>
    have hless := mt (satisfied_iff limit taken).2 (ne_true_of_eq_false hc)
    have henough := (satisfied_iff limit (taken + 1)).1 htake
    simp only [share, take]
    omega

theorem drain_frames (hc : c.satisfied = false) (frames : List Picture.Frame) :
    c.drain (frames.map .picture ++ [.closed]) =
      some ({ c with taken := share c.limit (c.taken + frames.length) }, .raising) := by
  induction frames generalizing c with
  | nil =>
    rw [List.length_nil, Nat.add_zero, share_taken hc]
    rfl
  | cons frame frames ih =>
    have hlength : c.taken + (frame :: frames).length = c.take.taken + frames.length := by
      simp only [take, List.length_cons]
      omega
    rw [hlength, List.map_cons, List.cons_append, drain, hear]
    cases htake : c.take.satisfied with
    | true =>
      rw [share_take hc htake]
      rfl
    | false => exact ih htake

end Consumer

open Consumer (Phase share)

/-! ## A scheduler and a consumer -/

structure Consumption where
  handOff : HandOff
  consumer : Consumer
  phase : Phase := .taking

namespace Consumption

def start (s : Scheduler) (limit : Option Nat) : Consumption :=
  { handOff := .start s, consumer := { limit } }

/-- Both move in any order, the consumer as its phase has it. -/
def step? (c : Consumption) (m : HandOff.Move) : Option Consumption := do
  let handOff ← c.handOff.step? m
  match m, c.phase with
  | .look, _ | .offer, _ | .poll .., _ => return { c with handOff }
  | .take, .taking =>
    let (consumer, phase) ← c.consumer.hear c.handOff.answer
    return { handOff, consumer, phase }
  | .raise, .raising => return { c with handOff, phase := .leaving }
  | .leave, .leaving => return { c with handOff, phase := .gone }
  | .take, _ | .raise, _ | .leave, _ => none

def run? (c : Consumption) (moves : List HandOff.Move) : Option Consumption := moves.foldlM step? c

inductive Stepped (c : Consumption) : Consumption → Prop
  | scheduler {handOff : HandOff} (h : c.handOff.Advanced handOff) : Stepped c { c with handOff }
  | take (frame : Picture.Frame) (hphase : c.phase = .taking)
      (hattached : c.handOff.attached = true) (hslot : c.handOff.slot = some frame) :
    Stepped c
      { handOff := { c.handOff with slot := none, received := c.handOff.received ++ [frame] }
        consumer := c.consumer.take
        phase := if c.consumer.take.satisfied then .raising else .taking }
  | closed (fault? : Option Fault) (hphase : c.phase = .taking)
      (hattached : c.handOff.attached = true) (hslot : c.handOff.slot = none)
      (hended : c.handOff.scheduler.stage = .ended fault?) :
    Stepped c { c with phase := .raising }
  | raise (hphase : c.phase = .raising) :
    Stepped c { c with handOff := { c.handOff with exit := true }, phase := .leaving }
  | leave (hphase : c.phase = .leaving) :
    Stepped c
      { c with handOff := { c.handOff with attached := false, slot := none }, phase := .gone }

variable {c c' : Consumption}

theorem stepped_take {handOff : HandOff} {consumer : Consumer} {phase : Phase}
    (hphase : c.phase = .taking) (htake : c.handOff.take? = some handOff)
    (hhear : c.consumer.hear c.handOff.answer = some (consumer, phase)) :
    Stepped c { handOff, consumer, phase } := by
  obtain ⟨hattached, ⟨frame, hslot, hanswer, rfl⟩ | ⟨fault?, hslot, hended, hanswer, rfl⟩⟩ :=
    HandOff.take?_cases htake
  · rw [hanswer] at hhear
    cases hhear
    exact .take frame hphase hattached hslot
  · rw [hanswer] at hhear
    cases hhear
    exact .closed fault? hphase hattached hslot hended

theorem stepped_step {m : HandOff.Move} (hstep : c.step? m = some c') : Stepped c c' := by
  obtain ⟨handOff, consumer, phase⟩ := c
  unfold step? at hstep
  obtain ⟨next, hnext, hrest⟩ := Option.bind_eq_some_iff.1 hstep
  cases m with
  | look =>
    cases hrest
    exact .scheduler (HandOff.advanced_step rfl hnext)
  | offer =>
    cases hrest
    exact .scheduler (HandOff.advanced_step rfl hnext)
  | poll found keypad =>
    cases hrest
    exact .scheduler (HandOff.advanced_step rfl hnext)
  | take =>
    cases phase with
    | taking =>
      obtain ⟨⟨consumer, phase⟩, hhear, heq⟩ := Option.bind_eq_some_iff.1 hrest
      cases heq
      exact stepped_take rfl hnext hhear
    | raising | leaving | gone => contradiction
  | raise =>
    cases phase with
    | raising =>
      cases hnext
      cases hrest
      exact .raise rfl
    | taking | leaving | gone => contradiction
  | leave =>
    cases phase with
    | leaving =>
      cases hnext
      cases hrest
      exact .leave rfl
    | taking | raising | gone => contradiction

/-! ## Runs -/

/-- The consumer has counted what it received and has stopped when it was satisfied, or when it had
received everything from a scheduler that ended. The exit flag and the receiver's end are as its
phase has them. -/
structure Honest (limit : Option Nat) (c : Consumption) : Prop where
  faithful : c.handOff.Faithful
  limited : c.consumer.limit = limit
  taken : c.consumer.taken = c.handOff.received.length
  exit : c.handOff.exit = true ↔ c.phase = .leaving ∨ c.phase = .gone
  attached : c.handOff.attached = true ↔ c.phase ≠ .gone
  taking : c.phase = .taking → c.consumer.satisfied = false
  stopped : c.phase ≠ .taking → (∀ n, share limit (c.consumer.taken + n) = c.consumer.taken) ∨
    ((∃ fault?, c.handOff.scheduler.stage = .ended fault?) ∧
      c.handOff.sent = c.handOff.received ∧ share limit c.consumer.taken = c.consumer.taken)

theorem honest_start {s : Scheduler} (hs : s.stage = .deciding) (limit : Option Nat) :
    Honest limit (start s limit) where
  faithful := HandOff.faithful_start hs
  limited := rfl
  taken := rfl
  exit := by simp [start, HandOff.start]
  attached := by simp [start, HandOff.start]
  taking _ := by cases limit <;> rfl
  stopped hphase := absurd rfl hphase

variable {limit : Option Nat}

theorem Honest.step (hc : Honest limit c) (hstep : Stepped c c') : Honest limit c' := by
  cases hstep with
  | scheduler h =>
    refine ⟨hc.faithful.step h.moved, hc.limited, h.received ▸ hc.taken, h.exit ▸ hc.exit,
      h.attached ▸ hc.attached, hc.taking, fun hphase => ?_⟩
    rcases hc.stopped hphase with hshare | ⟨⟨fault?, hended⟩, hsent, hshare⟩
    · exact .inl hshare
    · -- A scheduler that has ended sends nothing more.
      have hsame := HandOff.ended_of_moved hended ⟨rfl, rfl, rfl⟩ h.moved
      exact .inr ⟨⟨fault?, hsame.1 ▸ hended⟩, by rw [hsame.2.2, h.received, hsent], hshare⟩
  | take frame hphase hattached hslot =>
    have hless := hc.taking hphase
    refine ⟨hc.faithful.step (.take frame hattached hslot), hc.limited, ?_, ?_, ?_, ?_, ?_⟩
    · simp [Consumer.take, hc.taken]
    · cases htake : c.consumer.take.satisfied <;> simpa [hphase] using hc.exit
    · cases htake : c.consumer.take.satisfied <;> simpa [hphase] using hattached
    · cases htake : c.consumer.take.satisfied <;> simp
    · cases htake : c.consumer.take.satisfied with
      | true =>
        intro
        exact .inl (hc.limited ▸ Consumer.share_take hless htake)
      | false => exact fun hne => absurd rfl hne
  | closed fault? hphase hattached hslot hended =>
    have hexit := hc.exit
    rw [hphase] at hexit
    have hshare := Consumer.share_taken (hc.taking hphase)
    rw [hc.limited] at hshare
    refine ⟨hc.faithful, hc.limited, hc.taken, by simpa using hexit, by simpa using hattached,
      nofun, fun _ => .inr ⟨⟨fault?, hended⟩, ?_, hshare⟩⟩
    -- Nothing is left in the channel, so all that was sent was received.
    obtain ⟨last, hlast, hqueued⟩ := hc.faithful.queued
    rw [hlast, ← hqueued hattached, hslot]
    exact List.append_nil _
  | raise hphase =>
    have hattached := hc.attached
    rw [hphase] at hattached
    exact ⟨hc.faithful.step .raise, hc.limited, hc.taken, by simp, by simpa using hattached, nofun,
      fun _ => hc.stopped (by simp [hphase])⟩
  | leave hphase =>
    have hexit := hc.exit
    rw [hphase] at hexit
    exact ⟨hc.faithful.step .leave, hc.limited, hc.taken, by simpa using hexit, by simp, nofun,
      fun _ => hc.stopped (by simp [hphase])⟩

theorem run?_keeps {P : Nat → Consumption → Prop}
    (hstep : ∀ {k c c'}, P k c → Stepped c c' → P (k + 1) c') {moves : List HandOff.Move}
    (hp : P 0 c) (hrun : c.run? moves = some c') : P moves.length c' := by
  have hkeeps := foldlM_keeps (fun hp hm => hstep hp (stepped_step hm)) hp hrun
  rwa [Nat.zero_add] at hkeeps

/-! ## The end -/

/-- Grows with every move. -/
def progress (c : Consumption) : Nat := c.handOff.progress + c.consumer.taken + c.phase.turn

theorem Stepped.progress (hstep : Stepped c c') : c.progress < c'.progress := by
  cases hstep with
  | scheduler h =>
    have hprogress := h.progress
    simp only [Consumption.progress]
    omega
  | take frame hphase =>
    simp only [Consumption.progress, HandOff.progress, Consumer.take, hphase, Phase.turn]
    omega
  | closed fault? hphase | raise hphase | leave hphase =>
    simp only [Consumption.progress, HandOff.progress, hphase, Phase.turn]
    omega

theorem Honest.progress_le (hc : Honest limit c) : c.progress ≤ 4 * c.consumer.taken + 12 := by
  have hlength := hc.faithful.length_outcomes_le
  rw [← hc.taken] at hlength
  have hturn : c.handOff.scheduler.stage.turn ≤ 3 := by
    cases c.handOff.scheduler.stage <;> simp [Stage.turn]
  have hphase : c.phase.turn ≤ 3 := by cases c.phase <;> simp [Phase.turn]
  simp only [progress, HandOff.progress]
  omega

theorem Honest.le_progress (hc : Honest limit c) :
    4 * c.consumer.taken + c.phase.turn ≤ c.progress := by
  obtain ⟨rest, hrest, -⟩ := hc.faithful.outcomes
  obtain ⟨last, hlast, -⟩ := hc.faithful.queued
  have hlength : c.consumer.taken ≤ c.handOff.outcomes.length := by
    rw [hrest, hlast, hc.taken]
    simp only [List.length_append, List.length_map]
    omega
  simp only [progress, HandOff.progress]
  omega

theorem step?_of_scheduler {m : HandOff.Move} {handOff : HandOff} (hm : m.isScheduler = true)
    (hstep : c.handOff.step? m = some handOff) : c.step? m = some { c with handOff } := by
  unfold step?
  rw [hstep]
  cases m with
  | look | offer | poll => rfl
  | take | raise | leave => cases hm

theorem step?_take {handOff : HandOff} {consumer : Consumer} {phase : Phase}
    (hphase : c.phase = .taking) (htake : c.handOff.take? = some handOff)
    (hhear : c.consumer.hear c.handOff.answer = some (consumer, phase)) :
    c.step? .take = some { handOff, consumer, phase } := by
  have hstep : c.handOff.step? .take = some handOff := htake
  simp [step?, hstep, hphase, hhear]

theorem exists_take (hphase : c.phase = .taking) (hattached : c.handOff.attached = true)
    (hready : c.handOff.answer ≠ .wait) : ∃ m c', c.step? m = some c' := by
  cases hanswer : c.handOff.answer with
  | wait => contradiction
  | picture frame | closed =>
    have htake : ∃ handOff, c.handOff.take? = some handOff := by
      simp [HandOff.take?, hattached, hanswer]
    have hhear : ∃ heard, c.consumer.hear c.handOff.answer = some heard := by
      simp [Consumer.hear, hanswer]
    obtain ⟨handOff, htake⟩ := htake
    obtain ⟨⟨consumer, phase⟩, hhear⟩ := hhear
    exact ⟨.take, _, step?_take hphase htake hhear⟩

theorem Honest.exists_step (hc : Honest limit c) :
    (∃ m c', c.step? m = some c') ∨
      (∃ fault?, c.handOff.scheduler.stage = .ended fault?) ∧ c.phase = .gone := by
  -- What holds an offer up is a picture that the consumer has not taken.
  have hadvance : ¬ (∃ fault?, c.handOff.scheduler.stage = .ended fault?) →
      (c.handOff.attached = true → c.handOff.slot = none) → ∃ m c', c.step? m = some c' := by
    intro hlive hfree
    obtain ⟨m, hm, handOff, hstep⟩ := HandOff.exists_advance hlive hfree
    exact ⟨m, _, step?_of_scheduler hm hstep⟩
  cases hphase : c.phase with
  | taking =>
    by_cases hready : c.handOff.answer = .wait
    · refine .inl (hadvance ?_ fun _ => HandOff.slot_of_wait hready)
      rintro ⟨fault?, hended⟩
      exact HandOff.answer_ne_wait hended hready
    · exact .inl (exists_take hphase (hc.attached.2 (by simp [hphase])) hready)
  | raising =>
    left
    refine ⟨.raise, { c with handOff := { c.handOff with exit := true }, phase := .leaving }, ?_⟩
    simp [step?, HandOff.step?, hphase]
  | leaving =>
    left
    refine ⟨.leave,
      { c with handOff := { c.handOff with attached := false, slot := none }, phase := .gone }, ?_⟩
    simp [step?, HandOff.step?, hphase]
  | gone =>
    by_cases hended : ∃ fault?, c.handOff.scheduler.stage = .ended fault?
    · exact .inr ⟨hended, rfl⟩
    · exact .inl (hadvance hended fun hattached => absurd hphase (hc.attached.1 hattached))

/-! ## Rounds of an emulation -/

theorem run?_append {moves moves' : List HandOff.Move} {c'' : Consumption}
    (hrun : c.run? moves = some c') (hrun' : c'.run? moves' = some c'') :
    c.run? (moves ++ moves') = some c'' := by
  unfold run? at *
  rw [List.foldlM_append, hrun]
  exact hrun'

theorem run?_round {h : HandOff} (consumer : Consumer) {frame : Picture.Frame}
    (hstage : h.scheduler.stage = .deciding)
    (hproceed : (h.scheduler.proceed false).stage = .offering frame) (hslot : h.slot = none)
    (hattached : h.attached = true) (hexit : h.exit = false) (found : Keypad.Poll)
    (keypad : Keypad) :
    run? { handOff := h, consumer } [.look, .offer, .take, .poll found keypad] =
      some
        { handOff :=
            { h with
              scheduler := (h.scheduler.proceed false).accepted.polled found keypad
              slot := none
              outcomes := h.outcomes ++ [h.scheduler.machine.outcome]
              sent := h.sent ++ [frame]
              received := h.received ++ [frame]
              polls := h.polls ++ [found] }
          consumer := consumer.take
          phase := if consumer.take.satisfied then .raising else .taking } := by
  simp [run?, step?, HandOff.step?, hstage, HandOff.look, hexit, hproceed, HandOff.offer?,
    hattached, hslot, HandOff.take?, HandOff.answer, Consumer.hear, Scheduler.accepted,
    HandOff.poll]

/-- The emulation is between two rounds, and the flag is up as soon as its consumer is satisfied. -/
structure Shows (c : Consumption) (e : Emulation) : Prop where
  scheduler : c.handOff.scheduler = e.scheduler
  consumer : c.consumer = e.consumer
  slot : c.handOff.slot = none
  attached : c.handOff.attached = true
  exit : c.handOff.exit = e.consumer.satisfied
  phase : c.phase = if e.consumer.satisfied then .leaving else .taking

theorem Shows.advance {e : Emulation} (h : Shows c e) (hstage : e.scheduler.stage = .deciding) :
    ∃ moves c', c.run? moves = some c' ∧ Shows c' e.advance := by
  obtain ⟨scheduler, consumer⟩ := e
  obtain ⟨handOff, consumer', phase⟩ := c
  obtain ⟨hscheduler, hconsumer, hslot, hattached, hexit, hphase⟩ := h
  dsimp only at *
  subst hscheduler hconsumer
  cases hproceed : (handOff.scheduler.proceed consumer'.satisfied).stage with
  | offering frame =>
    have hless : consumer'.satisfied = false := by
      cases hsatisfied : consumer'.satisfied with
      | false => rfl
      | true =>
        rw [hsatisfied] at hproceed
        contradiction
    rw [hless] at hproceed hphase hexit
    obtain rfl : phase = .taking := hphase
    have hadvance : Emulation.advance ⟨handOff.scheduler, consumer'⟩ =
        ⟨(handOff.scheduler.proceed false).accepted.poll.2, consumer'.take⟩ := by
      simp [Emulation.advance, hless, hproceed]
    have hround := run?_round consumer' hstage hproceed hslot hattached hexit
      (handOff.scheduler.proceed false).accepted.keypad.poll.1
      (handOff.scheduler.proceed false).accepted.keypad.poll.2
    rw [hadvance]
    -- The round in which the consumer is satisfied is the one in which it raises the flag.
    cases htake : consumer'.take.satisfied with
    | true =>
      rw [htake] at hround
      refine ⟨_ ++ [.raise], _, run?_append hround rfl, rfl, rfl, rfl, hattached, htake.symm, ?_⟩
      rw [htake]
      rfl
    | false =>
      rw [htake] at hround
      refine ⟨_, _, hround, rfl, rfl, rfl, hattached, hexit.trans htake.symm, ?_⟩
      rw [htake]
      rfl
  | deciding | polling | ended fault? =>
    have hadvance : Emulation.advance ⟨handOff.scheduler, consumer'⟩ =
        ⟨handOff.scheduler.proceed consumer'.satisfied, consumer'⟩ := by
      simp [Emulation.advance, hproceed]
    rw [hadvance]
    refine ⟨[.look], { handOff := handOff.look, consumer := consumer', phase }, ?_, ?_, rfl, hslot,
      hattached, hexit, hphase⟩
    · simp [run?, step?, HandOff.step?, hstage]
    · rw [HandOff.look, hexit]

theorem stage_advance (e : Emulation) :
    e.advance.scheduler.stage = .deciding ∨ e.advance.ended = true := by
  obtain ⟨scheduler, consumer⟩ := e
  rcases Scheduler.stage_proceed scheduler consumer.satisfied with
    ⟨frame, hstage⟩ | ⟨fault?, hstage⟩
  · left
    simp only [Emulation.advance, hstage]
    rfl
  · right
    simp only [Emulation.advance, hstage, Emulation.ended]

theorem exists_run_advance {s : Scheduler} (hs : s.stage = .deciding) (limit : Option Nat) {n : Nat}
    (hlive : ∀ k < n, (Emulation.advance^[k] ⟨s, { limit }⟩).ended = false) :
    ∃ moves c, (start s limit).run? moves = some c ∧
      Shows c (Emulation.advance^[n] ⟨s, { limit }⟩) := by
  have hfirst : Shows (start s limit) ⟨s, { limit }⟩ := by
    cases limit <;> exact ⟨rfl, rfl, rfl, rfl, rfl, rfl⟩
  induction n with
  | zero => exact ⟨[], _, rfl, hfirst⟩
  | succ n ih =>
    obtain ⟨moves, c, hrun, hshows⟩ := ih fun k hk => hlive k (Nat.lt_succ_of_lt hk)
    have hstage : (Emulation.advance^[n] ⟨s, { limit }⟩).scheduler.stage = .deciding := by
      cases n with
      | zero => exact hs
      | succ n =>
        have hended := hlive (n + 1) (Nat.lt_succ_self _)
        rw [Function.iterate_succ_apply'] at hended ⊢
        exact (stage_advance _).resolve_right (by simp [hended])
    obtain ⟨round, c', hround, hshows'⟩ := hshows.advance hstage
    rw [Function.iterate_succ_apply']
    exact ⟨moves ++ round, c', run?_append hrun hround, hshows'⟩

/-! ## What is taken and what is run -/

theorem Honest.takes_share (hc : Honest limit c) (hphase : c.phase ≠ .taking) :
    c.consumer.taken = share limit c.handOff.sent.length := by
  obtain ⟨last, hlast, -⟩ := hc.faithful.queued
  rcases hc.stopped hphase with hshare | ⟨-, hsent, hshare⟩
  · rw [hlast, List.length_append, ← hc.taken, hshare]
  · rw [hsent, ← hc.taken, hshare]

theorem Honest.taken_le {l : Nat} (hc : Honest (some l) c) : c.consumer.taken ≤ max l 1 := by
  by_cases hphase : c.phase = .taking
  · rw [← Consumer.share_taken (hc.taking hphase), hc.limited]
    exact Consumer.share_le l _
  · rw [hc.takes_share hphase]
    exact Consumer.share_le l _

theorem Stepped.consumer_eq (hstep : Stepped c c') (hphase : c.phase ≠ .taking) :
    c'.phase ≠ .taking ∧ c'.consumer = c.consumer := by
  cases hstep with
  | scheduler h => exact ⟨hphase, rfl⟩
  | take frame htaking | closed fault? htaking => contradiction
  | raise | leave => exact ⟨nofun, rfl⟩

theorem Honest.run {moves : List HandOff.Move} {s : Scheduler} (hs : s.stage = .deciding)
    (hrun : (start s limit).run? moves = some c) :
    Honest limit c ∧ moves.length + 2 ≤ c.progress := by
  have hfirst : (start s limit).progress = 2 := by
    simp [start, progress, HandOff.progress, HandOff.start, hs, Stage.turn, Phase.turn]
  refine run?_keeps (P := fun k d => Honest limit d ∧ k + 2 ≤ d.progress) ?_
    ⟨honest_start hs limit, by omega⟩ hrun
  rintro k d d' ⟨hd, hle⟩ hstep
  have hprogress := hstep.progress
  exact ⟨hd.step hstep, by omega⟩

theorem config_run {moves : List HandOff.Move} (hrun : c.run? moves = some c') :
    c'.handOff.scheduler.machine.config = c.handOff.scheduler.machine.config := by
  refine run?_keeps (P := fun _ d => d.handOff.scheduler.machine.config =
    c.handOff.scheduler.machine.config) ?_ rfl hrun
  rintro k d d' hd hstep
  rw [← hd]
  cases hstep with
  | scheduler h => exact HandOff.config_of_moved h.moved
  | take | closed | raise | leave => rfl

theorem Honest.run_stopped {later : List HandOff.Move} (hc : Honest limit c)
    (hphase : c.phase ≠ .taking) (hrun : c.run? later = some c') :
    c'.consumer = c.consumer ∧ later.length ≤ 11 := by
  obtain ⟨hc', -, heq, hle⟩ : Honest limit c' ∧ c'.phase ≠ .taking ∧ c'.consumer = c.consumer ∧
      c.progress + later.length ≤ c'.progress := by
    refine run?_keeps (P := fun k d => Honest limit d ∧ d.phase ≠ .taking ∧
      d.consumer = c.consumer ∧ c.progress + k ≤ d.progress) ?_
      ⟨hc, hphase, rfl, Nat.le_refl _⟩ hrun
    rintro k d d' ⟨hd, hstopped, heq, hle⟩ hstep
    obtain ⟨hstopped', heq'⟩ := hstep.consumer_eq hstopped
    have hprogress := hstep.progress
    exact ⟨hd.step hstep, hstopped', heq'.trans heq, by omega⟩
  have hturn : 1 ≤ c.phase.turn := by
    cases htaking : c.phase <;> first | exact absurd htaking hphase | simp [Phase.turn]
  have hlow := hc.le_progress
  have hhigh := hc'.progress_le
  rw [heq] at hhigh
  exact ⟨heq, by omega⟩

end Consumption

/-- Of the frames that a channel gives before it closes, and of those that a scheduler hands over in
any order of moves, a consumer takes as many as its limit lets it, and one if its limit is zero. It
raises the flag after that and leaves after the flag. At most two more frames are run than it takes,
every run is bounded by what it takes, after it has stopped there are at most eleven moves, and
somebody can move until the scheduler has ended and the consumer is gone. No frame that is run goes
on for ever, as the budget leaves 32 bits room for one more step. An emulation is one of these
runs. -/
theorem Consumption.stops_with_share (s : Scheduler) (hs : s.stage = .deciding)
    (hroom : s.machine.config.frameBudget ≤ 2 ^ 32 - 45) (limit : Option Nat) :
    (∀ l n, share (some l) n = min l n ↔ l ≠ 0 ∨ n = 0) ∧
    (∀ frames : List Picture.Frame,
      Consumer.drain { limit } (frames.map .picture ++ [.closed]) =
        some ({ limit, taken := share limit frames.length }, .raising)) ∧
    (∀ moves c, (start s limit).run? moves = some c →
      c.consumer.taken = c.handOff.received.length ∧
      (∀ l, limit = some l → c.consumer.taken ≤ max l 1) ∧
      (c.phase ≠ .taking → c.consumer.taken = share limit c.handOff.sent.length) ∧
      (c.handOff.exit = true ↔ c.phase = .leaving ∨ c.phase = .gone) ∧
      (c.handOff.attached = true ↔ c.phase ≠ .gone) ∧
      c.handOff.outcomes.length ≤ c.consumer.taken + 2 ∧
      moves.length ≤ 4 * c.consumer.taken + 10 ∧
      (c.phase ≠ .taking → ∀ later c', c.run? later = some c' →
        c'.consumer = c.consumer ∧ later.length ≤ 11) ∧
      ((∃ m c', c.step? m = some c') ∨
        (∃ fault?, c.handOff.scheduler.stage = .ended fault?) ∧ c.phase = .gone) ∧
      let m := c.handOff.scheduler.machine
      ∀ result, m.Counts m.config.frameBudget 0 result ↔ result = m.runFrame) ∧
    ∀ n, (∀ k < n, (Emulation.advance^[k] ⟨s, { limit }⟩).ended = false) →
      ∃ moves c, (start s limit).run? moves = some c ∧
        c.handOff.scheduler = (Emulation.advance^[n] ⟨s, { limit }⟩).scheduler ∧
        c.consumer = (Emulation.advance^[n] ⟨s, { limit }⟩).consumer := by
  refine ⟨Consumer.share_eq_min_iff, fun frames => ?_, fun moves c hrun => ?_, fun n hlive => ?_⟩
  · have hnew : ({ limit } : Consumer).satisfied = false := by cases limit <;> rfl
    rw [Consumer.drain_frames hnew, Nat.zero_add]
  · obtain ⟨hc, hlength⟩ := Honest.run hs hrun
    have hprogress := hc.progress_le
    refine ⟨hc.taken, ?_, hc.takes_share, hc.exit, hc.attached, ?_, by omega,
      fun hphase later c' => hc.run_stopped hphase, hc.exists_step, fun result => ?_⟩
    · rintro l rfl
      exact hc.taken_le
    · exact hc.taken ▸ hc.faithful.length_outcomes_le
    · have hconfig : c.handOff.scheduler.machine.config = s.machine.config := config_run hrun
      rw [← hconfig] at hroom
      exact Machine.counts_iff_eq_runFrame hroom
  · obtain ⟨moves, c, hrun, hshows⟩ := exists_run_advance hs limit hlive
    exact ⟨moves, c, hrun, hshows.scheduler, hshows.consumer⟩

namespace Consumption

open HandOff (dozing onLastLine_dozing)

theorem exists_frame_of_asleep {m : Machine} (h : m.board.Asleep) :
    ∃ t next, m.runFrame = .ok t next ∧ next.board.Asleep :=
  ⟨_, _, Machine.runFrame_of_asleep h, (Machine.asleep_stepped h _).2⟩

/-- The consumer is slow to raise the flag and to leave: a second picture waits for it in the
channel, and a third one is refused. -/
def slow : List HandOff.Move :=
  [.look, .offer, .take, .poll ⟨false, 0xff⟩ {}, .look, .offer, .poll ⟨false, 0xff⟩ {}, .look,
    .raise, .leave, .offer]

theorem run?_slow {m : Machine} (h : m.board.Asleep) :
    ∃ c, (start { machine := m, keypad := {} } (some 1)).run? slow = some c ∧ c.phase = .gone ∧
      c.handOff.outcomes.length = 3 ∧ c.handOff.sent.length = 2 := by
  have hround : ∀ next : Machine, next.board.Asleep →
      ∃ t last,
        Machine.runFrame { next with board := next.board.applyPoll ⟨false, 0xff⟩ } = .ok t last ∧
          last.board.Asleep :=
    fun next hnext => exists_frame_of_asleep ⟨hnext.halted, hnext.eiPending, hnext.enable⟩
  obtain ⟨t, first, hfirst, hasleep⟩ := exists_frame_of_asleep h
  obtain ⟨t', second, hsecond, hasleep'⟩ := hround first hasleep
  obtain ⟨t'', third, hthird, -⟩ := hround second hasleep'
  simp [slow, run?, start, step?, HandOff.start, HandOff.step?, HandOff.look, HandOff.offer?,
    HandOff.poll, HandOff.take?, HandOff.answer, Consumer.hear, Consumer.take, Consumer.satisfied,
    Scheduler.proceed, Scheduler.polled, Scheduler.accepted, hfirst, hsecond, hthird]

theorem stops_with_share_of_one :
    ∃ c, (start { machine := dozing, keypad := {} } (some 1)).run? slow = some c ∧
      c.phase = .gone ∧ c.handOff.outcomes.length = 3 ∧ c.handOff.sent.length = 2 ∧
      c.consumer.taken = share (some 1) 2 ∧ c.handOff.outcomes.length ≤ c.consumer.taken + 2 ∧
      let m := c.handOff.scheduler.machine
      m.Counts m.config.frameBudget 0 m.runFrame := by
  obtain ⟨c, hrun, hphase, hlength, hsent⟩ := run?_slow onLastLine_dozing.asleep
  have hroom : dozing.config.frameBudget ≤ 2 ^ 32 - 45 := by decide
  obtain ⟨-, -, hruns, -⟩ :=
    stops_with_share { machine := dozing, keypad := {} } rfl hroom (some 1)
  obtain ⟨-, -, hshare, -, -, hbound, -, -, -, hcounts⟩ := hruns slow c hrun
  rw [hsent] at hshare
  exact ⟨c, hrun, hphase, hlength, hsent, hshare (by simp [hphase]), hbound, (hcounts _).2 rfl⟩

theorem advance_of_limit_zero {m next : Machine} {t : Nat} (hframe : m.runFrame = .ok t next)
    (keypad : Keypad) :
    let e : Emulation :=
      Emulation.advance^[2] ⟨{ machine := m, keypad }, { limit := some 0 }⟩
    e.ended = true ∧ e.consumer.taken = 1 := by
  simp [Emulation.advance, Emulation.ended, Consumer.take, Consumer.satisfied, Scheduler.proceed,
    Scheduler.poll, Scheduler.polled, Scheduler.accepted, Scheduler.stop, hframe]

/-- With a limit of zero, one frame is taken. -/
theorem takes_one_at_limit_zero :
    Consumer.drain { limit := some 0 } ([dozing.frame].map .picture ++ [.closed]) ≠
        some ({ limit := some 0, taken := min 0 [dozing.frame].length }, .raising) ∧
      let e : Emulation :=
        Emulation.advance^[2] ⟨{ machine := dozing, keypad := {} }, { limit := some 0 }⟩
      e.ended = true ∧ e.consumer.taken = 1 := by
  have hdrain : Consumer.drain { limit := some 0 } ([dozing.frame].map .picture ++ [.closed]) =
      some ({ limit := some 0, taken := 1 }, .raising) := rfl
  obtain ⟨t, next, hframe, -⟩ := exists_frame_of_asleep onLastLine_dozing.asleep
  exact ⟨by rw [hdrain]; nofun, advance_of_limit_zero hframe {}⟩

end Consumption

end Cli

end Handheld
