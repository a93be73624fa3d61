import Handheld.Proofs.FrameCounts

/-!
# How long a processor waits

A waiting processor steps four cycles at a time while the rest of the hardware moves on. If it
waits for the timer alone, the timer tells how many steps that takes. If it waits for no line at
all, it waits for ever.
-/

namespace Handheld

/-! ## The counter -/

namespace Timer

/-- The machine cycles until the counter overflows. The first of them may have begun. -/
def left (t : Timer) : Nat := ((256 - t.tima.toNat) * t.period - t.counterCycles + 3) / 4

variable {t : Timer}

theorem four_dvd_periodOf (tac : UInt8) : 4 ∣ periodOf tac := by
  unfold periodOf
  split <;> decide

namespace Bounded

variable (h : t.Bounded)
include h

theorem four_dvd_period : 4 ∣ t.period := by
  rw [h.period_eq]
  exact four_dvd_periodOf t.tac

theorem mul_period (k : Nat) : k * t.period = 4 * (k * (t.period / 4)) := by
  rw [Nat.mul_left_comm, Nat.mul_div_cancel' h.four_dvd_period]

theorem left_eq :
    t.left = (255 - t.tima.toNat) * (t.period / 4) + (t.period - t.counterCycles + 3) / 4 := by
  have hlt := t.tima.toNat_lt
  have hcounter := h.counter_lt
  have hperiods : 256 - t.tima.toNat = 255 - t.tima.toNat + 1 := by omega
  rw [left, hperiods, Nat.succ_mul, h.mul_period]
  omega

theorem left_pos : 0 < t.left := by
  have hcounter := h.counter_lt
  rw [h.left_eq]
  omega

/-- The end of a period. It takes the last machine cycle if no more periods follow. -/
theorem bump_left (hfull : t.period ≤ t.counterCycles + 4) {u : Timer} (htima : u.tima = t.tima)
    (hperiod : u.period = t.period) (hcounter : u.counterCycles = 0) :
    (u.bump.1 = true ↔ t.left = 1) ∧ (t.left ≠ 1 → u.bump.2.left = t.left - 1) := by
  have hlt := h.counter_lt
  have hlast : (t.period - t.counterCycles + 3) / 4 = 1 := by omega
  have hleft := h.left_eq
  rw [hlast] at hleft
  unfold Timer.bump
  rw [htima]
  split
  · rename_i htop
    have htop : t.tima.toNat = 255 := by rw [htop]; rfl
    rw [htop, Nat.sub_self, Nat.zero_mul] at hleft
    simp [hleft]
  · rename_i hbelow
    have htima : t.tima.toNat < 255 := by
      have := t.tima.toNat_lt
      have hne : t.tima.toNat ≠ 255 := fun heq => hbelow (UInt8.toNat_inj.1 heq)
      omega
    have hnext : (t.tima + 1).toNat = t.tima.toNat + 1 := by
      rw [UInt8.toNat_add]
      simp only [UInt8.reduceToNat]
      omega
    have hperiods : 256 - (t.tima.toNat + 1) = 255 - t.tima.toNat := by omega
    have hdvd := h.four_dvd_period
    -- Below the top there is another period to come.
    have hmore : 0 < (255 - t.tima.toNat) * (t.period / 4) := Nat.mul_pos (by omega) (by omega)
    constructor
    · simp only [Bool.false_eq_true, false_iff]
      omega
    · intro _
      rw [hleft, left]
      dsimp only
      rw [hnext, hperiods, hperiod, hcounter, h.mul_period]
      omega

theorem advance_four (hon : t.enabled = true) :
    ((t.advance 4).1 = true ↔ t.left = 1) ∧
      (t.left ≠ 1 → (t.advance 4).2.left = t.left - 1) := by
  have hlt := h.counter_lt
  by_cases hfull : t.period ≤ t.counterCycles + 4
  · rw [advance_of_full hon hfull, advanceDiv_eq]
    exact h.bump_left hfull rfl rfl rfl
  · have hleft := h.left_eq
    rw [advance_of_below hon hfull, advanceDiv_eq]
    constructor
    · simp only [Bool.false_eq_true, false_iff]
      omega
    · intro _
      unfold left
      dsimp only
      omega

end Bounded

theorem InRange.four_mul_left (h : t.InRange) :
    4 * t.left = (256 - t.tima.toNat) * t.period - t.counterCycles := by
  have hcounter := h.counter_dvd
  rw [left, h.bounded.mul_period]
  omega

end Timer

/-! ## The one line -/

namespace Bus

variable {bus bus' : Bus}

theorem requests_of_read_eq {i : Interrupt} {m : UInt8} (hm : m &&& i.mask = i.mask)
    (h : bus'.read 0xff0f &&& m = bus.read 0xff0f &&& m) : bus'.Requests i ↔ bus.Requests i := by
  have hread : ∀ b : Bus, b.interruptFlags &&& i.mask = b.read 0xff0f &&& m &&& i.mask := by
    intro b
    have hregister : b.read 0xff0f = b.interruptFlags ||| 0xe0 := rfl
    have hmask : 0xe0 &&& i.mask = 0 := by cases i <;> decide
    rw [UInt8.and_assoc, hm, hregister, or_and_of_and_eq_zero _ hmask]
  unfold Requests
  rw [hread, hread, h]

theorem bounded_change (hchange : Change bus bus') (h : bus.timer.Bounded) :
    bus'.timer.Bounded := by
  cases hchange with
  | timer r v => exact h.write r v
  | rest _ _ htimer _ => exact htimer ▸ h
  | store | cartridge | request | acknowledge | flags => exact h

theorem bounded_tick (h : bus.timer.Bounded) (cycles : Nat) :
    (bus.tick cycles).timer.Bounded := by
  rw [timer_tick]
  exact h.advance cycles

theorem requests_timer_tick (bus : Bus) (cycles : Nat) :
    (bus.tick cycles).Requests .timer ↔
      bus.Requests .timer ∨ (bus.timer.advance cycles).1 = true := by
  unfold tick
  dsimp only
  split
  · rename_i hoverflow
    rw [requests_request]
    simp [hoverflow]
  · rename_i hoverflow
    exact (or_iff_left hoverflow).symm

theorem requests_timer_serial (bus : Bus) (cycles : Nat) :
    (bus.serial cycles).Requests .timer ↔ bus.Requests .timer :=
  requests_of_read_eq (by decide) (bus.read_interruptFlags_serial cycles)

theorem due_of_enable {i : Interrupt} (h : bus.interruptEnable &&& 0x1f = i.mask) :
    bus.due = bus.interruptFlags &&& i.mask := by
  rw [due, UInt8.and_assoc, h]

end Bus

theorem PictureUnit.requests_timer_step (p : PictureUnit) (bus : Bus) (cycles : Nat) :
    (p.step bus cycles).2.2.Requests .timer ↔ bus.Requests .timer :=
  Bus.requests_of_read_eq (by decide) (p.read_interruptFlags_step bus cycles)

theorem LowestBit.eq_number {flags : UInt8} {i : Interrupt} {n : Nat}
    (h : LowestBit (flags &&& i.mask) n) : n = i.number := by
  have hset := h.1
  rw [UInt8.toNat_and, Nat.testBit_and, i.toNat_mask, Nat.testBit_two_pow] at hset
  simp only [Bool.and_eq_true, decide_eq_true_eq] at hset
  exact hset.2.symm

namespace Board

variable {board : Board} {n : Nat}

/-- Between two steps the timer's counts are below their bounds, and no enable is still to come. -/
structure Steady (board : Board) : Prop where
  timer : board.bus.timer.Bounded
  eiPending : board.cpu.eiPending = false

theorem Steady.step (h : board.Steady) : (stateAfter board.step).Steady where
  timer := bus_step_keeps (P := fun bus => bus.timer.Bounded) (fun _ _ => Bus.bounded_change)
    (fun _ t _ hb => Bus.bounded_tick hb t) h.timer
  eiPending := eiPending_step h.eiPending

theorem Steady.changes {bus : Bus} (h : board.Steady) (hchanges : Bus.Changes board.bus bus) :
    Steady { board with bus } where
  timer := hchanges.keeps (P := fun bus => bus.timer.Bounded) (fun _ _ => Bus.bounded_change)
    h.timer
  eiPending := h.eiPending

/-! ## Waiting for the timer -/

/-- The processor waits for the timer alone, which takes `n` more machine cycles. -/
structure Awaits (board : Board) (n : Nat) : Prop where
  halted : board.cpu.halted = true
  steady : board.Steady
  enable : board.bus.interruptEnable &&& 0x1f = Interrupt.timer.mask
  clear : ¬ board.bus.Requests .timer
  enabled : board.bus.timer.enabled = true
  left : board.bus.timer.left = n

theorem exists_entry_of_halted (h : board.cpu.halted = true) :
    ∃ entry, board.atEntry? = some entry ∧ entry.cpu = board.cpu ∧
      entry.bus.timer = (board.bus.timer.advance 4).2 ∧
      (entry.bus.Requests .timer ↔
        board.bus.Requests .timer ∨ (board.bus.timer.advance 4).1 = true) := by
  refine ⟨_, atEntry?_of_halted h, rfl, ?_, ?_⟩
  · rw [← Bus.timer_tick]
    exact PictureUnit.apply_step (f := Bus.timer) (fun _ _ _ => rfl) (fun _ _ => rfl) _ _ _
  · rw [PictureUnit.requests_timer_step]
    exact board.bus.requests_timer_tick 4

namespace Awaits

theorem entry (h : board.Awaits n) :
    ∃ entry, board.atEntry? = some entry ∧ entry.cpu = board.cpu ∧
      entry.bus.interruptEnable = board.bus.interruptEnable ∧
      entry.bus.timer.enabled = true ∧
      (entry.bus.Requests .timer ↔ n = 1) ∧
      (n ≠ 1 → entry.bus.timer.left = n - 1) := by
  obtain ⟨entry, hentry, hcpu, htimer, hrequests⟩ := exists_entry_of_halted h.halted
  obtain ⟨hoverflow, hleft⟩ := h.steady.timer.advance_four h.enabled
  rw [h.left] at hoverflow hleft
  refine ⟨entry, hentry, hcpu, ?_, ?_, ?_, ?_⟩
  · exact interruptEnable_atEntry hentry (stores_of_halted h.halted)
  · rw [htimer, Timer.enabled_advance, h.enabled]
  · rw [hrequests, or_iff_right h.clear, hoverflow]
  · intro hn
    rw [htimer, hleft hn]

theorem wait (h : board.Awaits (n + 2)) :
    ∃ next, board.step = .ok 4 next ∧ next.cpu = board.cpu ∧ next.Awaits (n + 1) := by
  obtain ⟨entry, hentry, hcpu, henable, hon, hrequests, hleft⟩ := h.entry
  have hclear : ¬ entry.bus.Requests .timer := by
    rw [hrequests]
    omega
  have hquiet : entry.bus.due = 0 := by
    rw [Bus.due_of_enable (henable ▸ h.enable)]
    exact not_not.1 hclear
  have hstep := wait_of_halted h.halted h.steady.eiPending hentry hcpu hquiet
  have hsteady := h.steady.step
  rw [hstep] at hsteady
  have htimer : (entry.bus.serial 4).timer = entry.bus.timer :=
    Bus.apply_serial (f := Bus.timer) (fun _ _ => rfl) (fun _ _ => rfl) _ _
  refine ⟨_, hstep, hcpu, ?_, hsteady, ?_, ?_, ?_, ?_⟩
  · rw [← h.halted, ← hcpu]
    rfl
  · unfold unentered
    rw [interruptEnable_serial, henable, h.enable]
  · unfold unentered
    rw [Bus.requests_timer_serial]
    exact hclear
  · unfold unentered
    rw [htimer, hon]
  · unfold unentered
    rw [htimer, hleft (by omega)]
    rfl

theorem wake (h : board.Awaits 1) :
    (board.cpu.ime = true →
        ∃ entry next, board.atEntry? = some entry ∧ entry.cpu = board.cpu ∧
          board.step = .ok 24 next ∧ HandlerEntered entry next 2 24) ∧
      (board.cpu.ime = false →
        ∃ next, board.step = .ok 4 next ∧ next.cpu = { board.cpu with halted := false }) := by
  obtain ⟨entry, hentry, hcpu, henable, -, hrequests, -⟩ := h.entry
  have hdue := Bus.due_of_enable (henable ▸ h.enable)
  have hne : entry.bus.due ≠ 0 := by
    rw [hdue]
    exact hrequests.2 rfl
  have hstep := instruction_of_halted h.halted
  have hei := h.steady.eiPending
  rw [← hcpu] at hei ⊢
  constructor
  · intro hime
    obtain ⟨n, next, hlowest, hnext, hentered⟩ := (step_of_ime hstep hentry hei hime).2 hne
    rw [hdue] at hlowest
    obtain rfl := hlowest.eq_number
    exact ⟨entry, next, hentry, rfl, hnext, hentered⟩
  · intro hime
    refine ⟨_, step_of_ime_off hstep hentry hei hime, ?_⟩
    simp [hne]

end Awaits

/-! ## Waiting for nothing -/

/-- The processor waits and no line is enabled. -/
structure Asleep (board : Board) : Prop where
  halted : board.cpu.halted = true
  eiPending : board.cpu.eiPending = false
  enable : board.bus.interruptEnable &&& 0x1f = 0

namespace Asleep

theorem wait {entry : Board} (h : board.Asleep) (hentry : board.atEntry? = some entry) :
    board.step = .ok 4 (entry.unentered 4) ∧ entry.cpu = board.cpu ∧
      (entry.unentered 4).Asleep := by
  have hcpu : entry.cpu = board.cpu := by
    rw [atEntry?_of_halted h.halted] at hentry
    cases hentry
    rfl
  have henable := interruptEnable_atEntry hentry (stores_of_halted h.halted)
  have hquiet : entry.bus.due = 0 := by
    rw [Bus.due, UInt8.and_assoc, henable, h.enable, UInt8.and_zero]
  refine ⟨wait_of_halted h.halted h.eiPending hentry hcpu hquiet, hcpu, ?_, ?_, ?_⟩
  · rw [← h.halted, ← hcpu]
    rfl
  · rw [← h.eiPending, ← hcpu]
    rfl
  · unfold unentered
    rw [interruptEnable_serial, henable, h.enable]

theorem step (h : board.Asleep) :
    ∃ next, board.step = .ok 4 next ∧ next.cpu = board.cpu ∧ next.Asleep :=
  ⟨_, h.wait (atEntry?_of_halted h.halted)⟩

end Asleep

end Board

/-! ## Runs -/

namespace Machine

open Board (Awaits Asleep HandlerEntered Steady)

/-- Machines that were powered on, whatever was done to them or to their buses since, and whatever
time passed on the bus alone. The counts of the timer have 32 bits. -/
inductive Driven : Machine → Prop
  | powerOn {image : ByteArray} {config : Config} {log : Log} {m : Machine}
    (h : ofImage image config log = .ok m) : Driven m
  | act {m : Machine} (h : Driven m) (action : Action) : Driven (m.act action)
  | change {m : Machine} {bus : Bus} (h : Driven m) (hchange : Bus.Change m.board.bus bus) :
    Driven { m with board.bus := bus }
  | tick {m : Machine} {cycles : Nat} (h : Driven m) (hfits : cycles ≤ 2 ^ 32 - 1024) :
    Driven { m with board.bus := m.board.bus.tick cycles }

theorem Reachable.driven {m : Machine} (h : Reachable m) : Driven m := by
  induction h with
  | powerOn h => exact .powerOn h
  | act _ action ih => exact ih.act action
  | change _ hchange ih => exact ih.change hchange

theorem steady_driven {m : Machine} (h : Driven m) : m.board.Steady := by
  induction h with
  | powerOn h =>
    have hrange := inRange_ofImage h
    exact ⟨hrange.bus.timer.bounded, hrange.eiPending⟩
  | act _ action ih =>
    exact board_act_keeps (fun _ => Steady.step) (fun _ _ hchanges hb => hb.changes hchanges) ih
      action
  | change _ hchange ih => exact ih.changes hchange.changes
  | tick _ _ ih => exact ⟨Bus.bounded_tick ih.timer _, ih.eiPending⟩

def stepped (m : Machine) (k : Nat) : Machine := m.after (List.replicate k .step)

theorem stepped_succ (m : Machine) (k : Nat) :
    m.stepped (k + 1) = stateAfter (m.stepped k).step := by
  simp [stepped, after, List.replicate_succ', act]

theorem step_stepped {m : Machine} {k t : Nat} {next : Board}
    (h : (m.stepped k).board.step = .ok t next) :
    (m.stepped k).step = .ok t (m.stepped (k + 1)) ∧ (m.stepped (k + 1)).board = next := by
  have hstep := step_of_board_step h
  rw [stepped_succ, hstep]
  exact ⟨rfl, rfl⟩

theorem stepped_of_wait {m : Machine} {k : Nat} {P : Board → Prop}
    (h : ∃ next, (m.stepped k).board.step = .ok 4 next ∧
      next.cpu = (m.stepped k).board.cpu ∧ P next) :
    (m.stepped k).step = .ok 4 (m.stepped (k + 1)) ∧
      (m.stepped (k + 1)).board.cpu = (m.stepped k).board.cpu ∧ P (m.stepped (k + 1)).board := by
  obtain ⟨next, hstep, hsame, hnext⟩ := h
  obtain ⟨hmachine, hboard⟩ := step_stepped hstep
  rw [hboard]
  exact ⟨hmachine, hsame, hnext⟩

theorem awaits_stepped {m : Machine} {n j k : Nat} (h : m.board.Awaits n)
    (hsteps : n = k + (j + 1)) :
    (m.stepped k).board.cpu = m.board.cpu ∧ (m.stepped k).board.Awaits (j + 1) := by
  induction k generalizing j with
  | zero =>
    rw [hsteps, Nat.zero_add] at h
    exact ⟨rfl, h⟩
  | succ k ih =>
    obtain ⟨hcpu, hawaits⟩ := ih (j := j + 1) (by omega)
    obtain ⟨-, hsame, hnext⟩ := stepped_of_wait hawaits.wait
    exact ⟨hsame.trans hcpu, hnext⟩

theorem asleep_stepped {m : Machine} (h : m.board.Asleep) (k : Nat) :
    (m.stepped k).board.cpu = m.board.cpu ∧ (m.stepped k).board.Asleep := by
  induction k with
  | zero => exact ⟨rfl, h⟩
  | succ k ih =>
    obtain ⟨hcpu, hasleep⟩ := ih
    obtain ⟨-, hsame, hnext⟩ := stepped_of_wait hasleep.step
    exact ⟨hsame.trans hcpu, hnext⟩

theorem run_of_awaits {m : Machine} {n : Nat} (h : m.board.Awaits n) (hpos : 0 < n) :
    (∀ k < n - 1, (m.stepped k).step = .ok 4 (m.stepped (k + 1)) ∧
        (m.stepped (k + 1)).board.cpu = m.board.cpu) ∧
      (m.board.cpu.ime = true →
        ∃ entry, (m.stepped (n - 1)).board.atEntry? = some entry ∧ entry.cpu = m.board.cpu ∧
          (m.stepped (n - 1)).step = .ok 24 (m.stepped n) ∧
          HandlerEntered entry (m.stepped n).board 2 24) ∧
      (m.board.cpu.ime = false →
        (m.stepped (n - 1)).step = .ok 4 (m.stepped n) ∧
          (m.stepped n).board.cpu = { m.board.cpu with halted := false }) := by
  -- After all machine cycles but one, the next one wakes the processor.
  obtain ⟨hcpu, hlast⟩ := awaits_stepped h (k := n - 1) (j := 0) (by omega)
  obtain ⟨hon, hoff⟩ := hlast.wake
  have hsucc : n - 1 + 1 = n := by omega
  rw [hcpu] at hon hoff
  refine ⟨?_, ?_, ?_⟩
  · intro k hk
    obtain ⟨hbefore, hawaits⟩ := awaits_stepped h (k := k) (j := n - 2 - k + 1) (by omega)
    obtain ⟨hstep, hsame, -⟩ := stepped_of_wait hawaits.wait
    exact ⟨hstep, hsame.trans hbefore⟩
  · intro hime
    obtain ⟨entry, next, hentry, hsame, hstep, hentered⟩ := hon hime
    obtain ⟨hmachine, hboard⟩ := step_stepped hstep
    rw [hsucc] at hmachine hboard
    rw [hboard]
    exact ⟨entry, hentry, hsame, hmachine, hentered⟩
  · intro hime
    obtain ⟨next, hstep, hsame⟩ := hoff hime
    obtain ⟨hmachine, hboard⟩ := step_stepped hstep
    rw [hsucc] at hmachine hboard
    rw [hboard]
    exact ⟨hmachine, hsame⟩

theorem stepped_eq (m : Machine) (k : Nat) :
    m.stepped k = { m with board := (m.stepped k).board } := by
  induction k with
  | zero => rfl
  | succ k ih =>
    rw [stepped_succ, stateAfter_step, ih]

theorem runUntil_of_asleep {m : Machine} (h : m.board.Asleep) (budget : Nat) {j k : Nat}
    (hsteps : k + j = (budget + 3) / 4) :
    (m.stepped k).board.runUntil budget (4 * k) =
      .ok (4 * ((budget + 3) / 4)) (m.stepped ((budget + 3) / 4)).board := by
  induction j generalizing k with
  | zero =>
    rw [Board.runUntil, if_neg (by omega), ← hsteps]
    rfl
  | succ j ih =>
    obtain ⟨hstep, -⟩ := stepped_of_wait (asleep_stepped h k).2.step
    rw [Board.runUntil_of_step_ok (by omega) (board_step_ok hstep)]
    exact ih (k := k + 1) (by omega)

theorem runFrame_of_asleep {m : Machine} (h : m.board.Asleep) :
    m.runFrame = .ok (4 * ((m.config.frameBudget + 3) / 4))
      (m.stepped ((m.config.frameBudget + 3) / 4)) := by
  have hrun := runUntil_of_asleep h m.config.frameBudget (Nat.zero_add _)
  rw [stepped_eq]
  exact runFrame_of_runUntil_ok hrun

theorem counts_of_asleep {m : Machine} (h : m.board.Asleep) {budget : Nat}
    (hfits : budget ≤ 2 ^ 32 - 4) {j k : Nat} (hsteps : k + j = (budget + 3) / 4) :
    Counts budget (4 * k) (m.stepped k)
      (.ok (4 * ((budget + 3) / 4)) (m.stepped ((budget + 3) / 4))) := by
  induction j generalizing k with
  | zero =>
    rw [← hsteps]
    exact .done (by omega)
  | succ j ih =>
    obtain ⟨hstep, -⟩ := stepped_of_wait (asleep_stepped h k).2.step
    have hspent : (4 * k + 4) % 4294967296 = 4 * (k + 1) := by omega
    refine .step (by omega) hstep ?_
    rw [hspent]
    exact ih (by omega)

/-- With the last three budgets of 32 bits the sum starts over before it has got there. -/
theorem not_counts_of_asleep {m : Machine} {budget spent : Nat}
    {result : EStateM.Result Fault Machine Nat} (h : m.board.Asleep) (hbudget : 2 ^ 32 - 4 < budget)
    (hdvd : 4 ∣ spent) (hfits : spent < 2 ^ 32) : ¬ Counts budget spent m result := by
  intro hcounts
  induction hcounts with
  | done hspent => omega
  | fails _ hstep =>
    obtain ⟨hwaits, -⟩ := stepped_of_wait (asleep_stepped h 0).2.step
    cases hstep.symm.trans hwaits
  | step _ hstep _ ih =>
    obtain ⟨hwaits, -, hnext⟩ := stepped_of_wait (asleep_stepped h 0).2.step
    cases hstep.symm.trans hwaits
    exact ih hnext (by omega) (by omega)

/-- A processor that waits for the timer alone does so for as many machine cycles as the counter
has left, one that has begun counted in full, and each of them is a step that changes nothing in it.
The last of them ends the wait: with interrupts on in the handler, with interrupts off at the next
instruction. One that waits for no line waits for ever, and a frame of it still ends, if its budget
is in reach of a sum of 32 bits. -/
theorem waiting_time :
    (∀ m, Driven m → m.board.cpu.halted = true →
      m.board.bus.interruptEnable &&& 0x1f = 0x04 → m.board.bus.interruptFlags &&& 0x04 = 0 →
      m.board.bus.timer.enabled = true →
      let t := m.board.bus.timer
      let n := ((256 - t.tima.toNat) * t.period - t.counterCycles + 3) / 4
      0 < n ∧ (Reachable m → 4 * n = (256 - t.tima.toNat) * t.period - t.counterCycles) ∧
        (∀ k < n - 1, (m.stepped k).step = .ok 4 (m.stepped (k + 1)) ∧
          (m.stepped (k + 1)).board.cpu = m.board.cpu) ∧
        (m.board.cpu.ime = true →
          ∃ entry, (m.stepped (n - 1)).board.atEntry? = some entry ∧ entry.cpu = m.board.cpu ∧
            (m.stepped (n - 1)).step = .ok 24 (m.stepped n) ∧
            HandlerEntered entry (m.stepped n).board 2 24) ∧
        (m.board.cpu.ime = false →
          (m.stepped (n - 1)).step = .ok 4 (m.stepped n) ∧
            (m.stepped n).board.cpu = { m.board.cpu with halted := false })) ∧
      ∀ m, Driven m → m.board.cpu.halted = true → m.board.bus.interruptEnable &&& 0x1f = 0 →
        let b := m.config.frameBudget
        (∀ k, (m.stepped k).step = .ok 4 (m.stepped (k + 1)) ∧
          (m.stepped (k + 1)).board.cpu = m.board.cpu) ∧
        (b ≤ 2 ^ 32 - 4 →
          m.runFrame = .ok (4 * ((b + 3) / 4)) (m.stepped ((b + 3) / 4)) ∧
            ∀ result, Counts b 0 m result ↔ result = m.runFrame) := by
  constructor
  · intro m h hhalted henable hclear henabled t n
    have hsteady := steady_driven h
    have hpos : 0 < n := hsteady.timer.left_pos
    have hawaits : m.board.Awaits n :=
      ⟨hhalted, hsteady, henable, not_not.2 hclear, henabled, rfl⟩
    exact ⟨hpos, fun hreach => (inRange_reachable hreach).bus.timer.four_mul_left,
      run_of_awaits hawaits hpos⟩
  · intro m h hhalted henable b
    have hasleep : m.board.Asleep := ⟨hhalted, (steady_driven h).eiPending, henable⟩
    have hframe := runFrame_of_asleep hasleep
    refine ⟨?_, fun hfits => ⟨hframe, fun result => ?_⟩⟩
    · intro k
      obtain ⟨hcpu, hbefore⟩ := asleep_stepped hasleep k
      obtain ⟨hstep, hsame, -⟩ := stepped_of_wait hbefore.step
      exact ⟨hstep, hsame.trans hcpu⟩
    · have hcounts := counts_of_asleep hasleep hfits (Nat.zero_add _)
      rw [← hframe] at hcounts
      exact ⟨fun h => h.eq hcounts, fun heq => heq ▸ hcounts⟩

/-- `HALT`, where the program starts. -/
def haltImage : ByteArray := ⟨(Array.replicate 0x150 0).set! 0x100 0x76⟩

theorem exists_halted (config : Config)
    (hload : (Cartridge.load haltImage config.clockHz.toNat).isOk = true) :
    ∃ m, Reachable m ∧ m.config = config ∧ m.board.cpu.halted = true ∧ m.board.cpu.ime = false := by
  obtain ⟨m, kind, hreach, hconfig, hwindow, hcpu, -, hdisabled⟩ :=
    exists_reachable haltImage config hload 0 0
  have hrunning : m.board.cpu.halted = false := by rw [hcpu]; rfl
  have hdecode : Cpu.Instruction.decode? (m.board.bus.read m.board.cpu.regs.pc) = some .halt := by
    rw [hcpu, (hwindow.read_lower (by decide)).2]
    decide +kernel
  have hstep := Cpu.step_running hrunning hdecode
  obtain ⟨entry, hentry, hentered⟩ : ∃ entry, m.board.atEntry? = some entry ∧
      entry.cpu = { m.board.cpu.skip 1 with halted := true } :=
    ⟨_, Board.atEntry?_of_step hstep, rfl⟩
  have henable := Board.interruptEnable_atEntry hentry (Cpu.stores_of_decode hrunning hdecode)
  rw [hdisabled] at henable
  have hquiet : entry.bus.due = 0 := by rw [Bus.due, henable, UInt8.and_zero, UInt8.zero_and]
  have hei : entry.cpu.eiPending = false := by rw [hentered, hcpu]; rfl
  have hboard := Board.step_unentered hstep hentry (Board.service_of_quiet hei hquiet)
  have hact := hreach.act .step
  rw [act, step_of_board_step hboard] at hact
  refine ⟨_, hact, hconfig, congrArg Cpu.halted hentered, ?_⟩
  exact (congrArg Cpu.ime hentered).trans (congrArg Cpu.ime hcpu)

theorem exists_asleep (config : Config)
    (hload : (Cartridge.load haltImage config.clockHz.toNat).isOk = true) :
    ∃ m, Reachable m ∧ m.config = config ∧ m.board.cpu.halted = true ∧
      m.board.bus.interruptEnable = 0 := by
  obtain ⟨m, hreach, hconfig, hhalted, -⟩ := exists_halted config hload
  have hdisable : Bus.Change m.board.bus { m.board.bus with interruptEnable := 0 } :=
    .rest rfl rfl rfl rfl
  exact ⟨_, hreach.change hdisable, hconfig, hhalted, rfl⟩

theorem retuned (t : Timer) :
    (t.write .tac 4).write .tac 5 =
      { t.write .tac 4 with tac := 5, period := 16, counterCycles := 0 } := by
  have htac := t.tac_write 4
  generalize t.write .tac 4 = started at htac
  simp [Timer.write, Timer.retunes, htac]
  rfl

theorem exists_awaiting :
    ∃ m, Reachable m ∧ m.board.cpu.halted = true ∧ m.board.cpu.ime = false ∧
      m.board.bus.interruptEnable = 0x04 ∧ m.board.bus.interruptFlags = 0 ∧
      m.board.bus.timer.enabled = true ∧ m.board.bus.timer.tima = 0xff ∧
      m.board.bus.timer.period = 16 ∧ m.board.bus.timer.counterCycles = 0 := by
  obtain ⟨m, hreach, -, hhalted, hime⟩ := exists_halted {} (by decide +kernel)
  have hlines : Bus.Changes m.board.bus
      { m.board.bus with interruptFlags := 0, interruptEnable := 4 } :=
    (Bus.Change.flags m.board.bus 0).changes.tail (.rest rfl rfl rfl rfl)
  have htimer := ((hlines.tail (.timer _ .tac 4)).tail (.timer _ .tac 5)).tail
    (.timer _ .tima 0xff)
  have hretuned := retuned m.board.bus.timer
  refine ⟨_, hreach.changes htimer, hhalted, hime, rfl, rfl, ?_, rfl, ?_, ?_⟩
  · have hon : (5 &&& 4 != (0 : UInt8)) = true := by decide
    exact (congrArg Timer.enabled hretuned).trans hon
  · exact congrArg Timer.period hretuned
  · exact congrArg Timer.counterCycles hretuned

theorem exists_begun :
    ∃ m, Driven m ∧ m.board.cpu.halted = true ∧ m.board.cpu.ime = false ∧
      m.board.bus.interruptEnable &&& 0x1f = 0x04 ∧ m.board.bus.interruptFlags &&& 0x04 = 0 ∧
      m.board.bus.timer.enabled = true ∧ m.board.bus.timer.tima = 0xff ∧
      m.board.bus.timer.period = 16 ∧ m.board.bus.timer.counterCycles = 1 := by
  obtain ⟨m, hreach, hhalted, hime, henable, hflags, hon, htima, hperiod, hcounter⟩ :=
    exists_awaiting
  have hadvance : m.board.bus.timer.advance 1 =
      (false, { m.board.bus.timer.advanceDiv 1 with counterCycles := 1 }) := by
    rw [Timer.advance_of_below hon (by rw [hperiod, hcounter]; decide), hcounter]
  have htimer : (m.board.bus.tick 1).timer =
      { m.board.bus.timer.advanceDiv 1 with counterCycles := 1 } := by
    rw [Bus.timer_tick, hadvance]
  have henabled : (m.board.bus.tick 1).interruptEnable = m.board.bus.interruptEnable :=
    Bus.apply_tick (f := Bus.interruptEnable) _ (fun _ _ _ => rfl) (fun _ _ => rfl) 1
  have hclear : ¬ (m.board.bus.tick 1).Requests .timer := by
    rw [Bus.requests_timer_tick, hadvance]
    simp [Bus.Requests, hflags]
  rw [Timer.advanceDiv_eq] at htimer
  refine ⟨{ m with board.bus := m.board.bus.tick 1 }, hreach.driven.tick (by decide), hhalted, hime,
    ?_, not_not.1 hclear, ?_, ?_, ?_, ?_⟩
  · dsimp only
    rw [henabled, henable]
    rfl
  all_goals
    dsimp only
    rw [htimer]
  · exact hon
  · exact htima
  · exact hperiod

theorem waiting_time_begun :
    (∃ m, Driven m ∧ m.board.cpu.halted = true ∧
      m.board.bus.interruptEnable &&& 0x1f = 0x04 ∧ m.board.bus.interruptFlags &&& 0x04 = 0 ∧
      m.board.bus.timer.enabled = true ∧
      (m.stepped 2).step = .ok 4 (m.stepped 3) ∧ (m.stepped 3).board.cpu.halted = true ∧
      (m.stepped 3).step = .ok 4 (m.stepped 4) ∧ (m.stepped 4).board.cpu.halted = false) ∧
    ∃ m, Driven m ∧ m.board.cpu.halted = true ∧ m.board.bus.interruptEnable &&& 0x1f = 0 ∧
      m.config.frameBudget = 69905 ∧ m.runFrame = .ok 69908 (m.stepped 17477) ∧
      Counts 69905 0 m (.ok 69908 (m.stepped 17477)) := by
  constructor
  · obtain ⟨m, hdriven, hhalted, hime, hmask, hclear, hon, htima, hperiod, hcounter⟩ :=
      exists_begun
    have hsteps : ((256 - m.board.bus.timer.tima.toNat) * m.board.bus.timer.period -
        m.board.bus.timer.counterCycles + 3) / 4 = 4 := by
      rw [htima, hperiod, hcounter]
      rfl
    obtain ⟨-, -, hwaits, -, hwakes⟩ := waiting_time.1 m hdriven hhalted hmask hclear hon
    rw [hsteps] at hwaits hwakes
    obtain ⟨hthird, hsame⟩ := hwaits 2 (by decide)
    obtain ⟨hlast, hwoken⟩ := hwakes hime
    refine ⟨m, hdriven, hhalted, hmask, hclear, hon, hthird, ?_, hlast, ?_⟩
    · rw [hsame, hhalted]
    · rw [hwoken]
  · obtain ⟨m, hreach, hconfig, hhalted, henable⟩ := exists_asleep {} (by decide +kernel)
    have hmask : m.board.bus.interruptEnable &&& 0x1f = 0 := by rw [henable]; rfl
    have hbudget : m.config.frameBudget = 69905 := by rw [hconfig]; rfl
    have hframe := (waiting_time.2 m hreach.driven hhalted hmask).2
    rw [hbudget] at hframe
    obtain ⟨hrun, hcounts⟩ := hframe (by decide)
    exact ⟨m, hreach.driven, hhalted, hmask, hbudget, hrun, (hcounts _).2 hrun.symm⟩

/-- Here the cycles that the counter has left are fifteen, and three machine cycles do not end the
wait. And a frame of the largest budget never ends. -/
theorem waits_on_after_whole_cycles :
    (∃ m, Driven m ∧ m.board.cpu.halted = true ∧
      m.board.bus.interruptEnable &&& 0x1f = 0x04 ∧ m.board.bus.interruptFlags &&& 0x04 = 0 ∧
      m.board.bus.timer.enabled = true ∧
      ((256 - m.board.bus.timer.tima.toNat) * m.board.bus.timer.period -
        m.board.bus.timer.counterCycles) / 4 = 3 ∧
      (m.stepped 3).board.cpu.halted = true) ∧
    ∃ m, Driven m ∧ m.board.cpu.halted = true ∧ m.board.bus.interruptEnable &&& 0x1f = 0 ∧
      m.config = { fps := 4194304, speed := 4294967294 } ∧
      ∀ result, ¬ Counts m.config.frameBudget 0 m result := by
  constructor
  · obtain ⟨m, hdriven, hhalted, -, hmask, hclear, hon, htima, hperiod, hcounter⟩ := exists_begun
    have hleft : m.board.bus.timer.left = 4 := by
      rw [Timer.left, htima, hperiod, hcounter]
      rfl
    have hawaits : m.board.Awaits 4 :=
      ⟨hhalted, steady_driven hdriven, hmask, not_not.2 hclear, hon, hleft⟩
    refine ⟨m, hdriven, hhalted, hmask, hclear, hon, ?_, ?_⟩
    · rw [htima, hperiod, hcounter]
      rfl
    · exact (awaits_stepped hawaits (k := 3) (j := 0) rfl).2.halted
  · obtain ⟨m, hreach, hconfig, hhalted, henable⟩ :=
      exists_asleep { fps := 4194304, speed := 4294967294 } (by decide +kernel)
    have hmask : m.board.bus.interruptEnable &&& 0x1f = 0 := by rw [henable]; rfl
    have hasleep : m.board.Asleep := ⟨hhalted, (inRange_reachable hreach).eiPending, hmask⟩
    have hbudget : m.config.frameBudget = 4294967295 := by rw [hconfig]; rfl
    refine ⟨m, hreach.driven, hhalted, hmask, hconfig, fun result => ?_⟩
    exact not_counts_of_asleep hasleep (by rw [hbudget]; decide) (Nat.dvd_zero 4) (by decide)

end Machine

end Handheld
