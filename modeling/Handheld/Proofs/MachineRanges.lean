import Handheld.Proofs.BusChanges
import Handheld.Proofs.InstructionEffects
import Handheld.Proofs.InterruptFlags
import Handheld.Proofs.TimerSteps

/-!
# What every reachable machine satisfies

From power-on, and whatever the program does, the counts of the hardware stay on whole machine
cycles and below their bounds, and registers have no bits that do not exist.
-/

namespace Handheld

open Cpu (Lasts)

/-! ## The timer -/

namespace Timer

/-- Each count is of whole machine cycles and has not reached its bound. -/
structure InRange (t : Timer) : Prop where
  period_eq : t.period = periodOf t.tac
  counter_dvd : 4 ∣ t.counterCycles
  counter_lt : t.counterCycles < t.period
  div_dvd : 4 ∣ t.divCycles
  div_le : t.divCycles ≤ 252

variable {t : Timer}

theorem inRange_powerOn : powerOn.InRange :=
  ⟨rfl, by decide, by decide, by decide, by decide⟩

theorem InRange.bounded (h : t.InRange) : t.Bounded :=
  ⟨h.period_eq, h.counter_lt, Nat.lt_of_le_of_lt h.div_le (by decide)⟩

theorem InRange.write (h : t.InRange) (r : Register) (v : UInt8) : (t.write r v).InRange := by
  have hbounded := h.bounded.write r v
  obtain ⟨hdiv, hcases⟩ := t.write_cases r v
  refine ⟨hbounded.period_eq, ?_, hbounded.counter_lt, hdiv ▸ h.div_dvd, hdiv ▸ h.div_le⟩
  rcases hcases with ⟨-, -, -, hcounter⟩ | ⟨-, -, hcounter⟩
  · rw [hcounter]
    exact Nat.dvd_zero 4
  · rw [hcounter]
    exact h.counter_dvd

theorem InRange.advance (h : t.InRange) {cycles : Nat} (hcycles : 4 ∣ cycles) :
    (t.advance cycles).2.InRange := by
  obtain ⟨hperiod, hcounter, hdiv⟩ := h.bounded.advance cycles
  have hdvd : 4 ∣ (t.advance cycles).2.divCycles := by
    rw [divCycles_advance]
    exact dvd_gather h.div_dvd hcycles _
  refine ⟨hperiod, ?_, hcounter, hdvd, ?_⟩
  · rw [counterCycles_advance]
    split
    · exact dvd_gather h.counter_dvd hcycles _
    · exact h.counter_dvd
  · unfold divPeriod at hdiv
    omega

end Timer

/-! ## The bus -/

namespace Bus

structure InRange (bus : Bus) : Prop where
  timer : bus.timer.InRange
  /-- There are five interrupt lines. -/
  flags : bus.interruptFlags &&& 0xe0 = 0
  line : bus.read 0xff44 ≤ 153

variable {bus bus' : Bus}

theorem read_line_eq_cell (bus : Bus) : bus.read 0xff44 = bus.cells.get 0xff44 :=
  read_eq_cell bus (by decide)

theorem and_0xe0_of_mask {flags mask : UInt8} (hmask : mask &&& 0xe0 = 0) :
    flags &&& mask &&& 0xe0 = 0 := by
  rw [UInt8.and_assoc, hmask, UInt8.and_zero]

theorem InRange.change (hchange : Change bus bus') (h : bus.InRange) : bus'.InRange := by
  cases hchange with
  | @store a v ha hline =>
    refine ⟨h.timer, h.flags, ?_⟩
    by_cases hly : a = 0xff44
    · rw [hly, read_store_self _ _ (by decide)]
      exact hline hly
    · rw [read_store_of_ne _ _ hly]
      exact h.line
  | cartridge k => exact ⟨h.timer, h.flags, h.line⟩
  | timer r v => exact ⟨h.timer.write r v, h.flags, h.line⟩
  | request i =>
    refine ⟨h.timer, ?_, h.line⟩
    have hmask : i.mask &&& 0xe0 = 0 := by cases i <;> decide
    rw [interruptFlags_request, KeySet.or_and, h.flags, hmask, UInt8.or_self]
  | acknowledge i =>
    refine ⟨h.timer, ?_, h.line⟩
    rw [acknowledge, UInt8.and_assoc, UInt8.and_comm (~~~i.mask), ← UInt8.and_assoc, h.flags,
      UInt8.zero_and]
  | flags v => exact ⟨h.timer, and_0xe0_of_mask (by decide), h.line⟩
  | rest hcells hcartridge htimer hflags =>
    refine ⟨?_, ?_, ?_⟩
    · rw [htimer]
      exact h.timer
    · rw [hflags]
      exact h.flags
    · rw [read_line_eq_cell, hcells, ← read_line_eq_cell]
      exact h.line

theorem InRange.changes (hchanges : Changes bus bus') (h : bus.InRange) : bus'.InRange :=
  hchanges.keeps (fun _ _ => InRange.change) h

theorem InRange.tick (h : bus.InRange) {cycles : Nat} (hcycles : 4 ∣ cycles) :
    (bus.tick cycles).InRange :=
  InRange.changes (changes_tick bus cycles) ⟨h.timer.advance hcycles, h.flags, h.line⟩

theorem inRange_powerOn (cartridge : Cartridge) (sound : Bool) (log : Log) :
    (powerOn cartridge sound log).InRange := by
  refine InRange.changes (changes_foldl (fun b w _ => changes_write b w.1 w.2) _) ?_
  refine ⟨Timer.inRange_powerOn, UInt8.zero_and, ?_⟩
  rw [read_line_eq_cell, Cells.get_ofFn, if_neg (by decide)]
  decide

end Bus

/-! ## The picture unit -/

namespace PictureUnit

/-- The cycles left of a line are whole machine cycles, and at least one. -/
structure InRange (p : PictureUnit) : Prop where
  counter_dvd : 4 ∣ p.counter
  four_le : 4 ≤ p.counter
  counter_le : p.counter ≤ 456

theorem inRange_powerOn : powerOn.InRange := ⟨by decide, by decide, by decide⟩

theorem InRange.step {p : PictureUnit} (h : p.InRange) (bus : Bus) {cycles : Nat}
    (hcycles : Lasts cycles) : (p.step bus cycles).2.1.InRange := by
  obtain ⟨hdvd, hfour, hle⟩ := h
  obtain ⟨hcycles_dvd, hcycles_four, hcycles_le⟩ := hcycles
  have hsigned : signed32 cycles = cycles := signed32_of_lt (by omega)
  have hstep := step_advance p bus cycles
  generalize p.step bus cycles = r at hstep
  cases hstep with
  | off =>
    have hline : 4 ∣ lineCycles ∧ 4 ≤ lineCycles ∧ lineCycles ≤ 456 := by decide
    exact ⟨hline.1, hline.2.1, hline.2.2⟩
  | within hon hleft =>
    rw [hsigned] at hleft ⊢
    refine ⟨?_, ?_, ?_⟩ <;> dsimp only <;> omega
  | drawn hon hleft | completed hon hleft | blank hon hleft =>
    rw [hsigned] at hleft ⊢
    refine ⟨?_, ?_, ?_⟩ <;> dsimp only [lineCycles] <;> omega

end PictureUnit

/-! ## The board -/

namespace Board

theorem runUntil_of_step_ok {board next : Board} {budget spent t : Nat} (hlt : spent < budget)
    (h : board.step = .ok t next) :
    board.runUntil budget spent = next.runUntil budget (spent + t) := by
  rw [runUntil, if_pos hlt]
  split
  · rename_i hstep
    cases h.symm.trans hstep
    rfl
  · rename_i hstep
    cases h.symm.trans hstep

theorem runUntil_of_step_error {board next : Board} {budget spent : Nat} {fault : Fault}
    (hlt : spent < budget) (h : board.step = .error fault next) :
    board.runUntil budget spent = .error fault next := by
  rw [runUntil, if_pos hlt]
  split
  · rename_i hstep
    cases h.symm.trans hstep
  · rename_i hstep
    cases h.symm.trans hstep
    rfl

theorem runUntil_keeps {P : Board → Prop} (hP : ∀ b, P b → P (stateAfter b.step))
    (budget spent : Nat) (board : Board) (h : P board) :
    P (stateAfter (board.runUntil budget spent)) := by
  induction spent, board using Board.runUntil.induct budget with
  | case1 spent board hlt t next hstep ih =>
    have hnext := hP board h
    rw [hstep] at hnext
    rw [runUntil_of_step_ok hlt hstep]
    exact ih hnext
  | case2 spent board hlt fault next hstep =>
    have hnext := hP board h
    rw [hstep] at hnext
    rw [runUntil_of_step_error hlt hstep]
    exact hnext
  | case3 spent board hlt =>
    rw [runUntil, if_neg hlt]
    exact h

theorem bus_step_keeps {P : Bus → Prop} (hchange : ∀ b b', Bus.Change b b' → P b → P b')
    (htick : ∀ b t, Lasts t → P b → P (b.tick t)) {board : Board} (h : P board.bus) :
    P (stateAfter board.step).bus := by
  obtain ⟨cpu, bus, picture⟩ := board
  have hcore := (Cpu.changes_step cpu bus).keeps hchange h
  unfold Board.step
  dsimp only
  cases hstep : cpu.step bus with
  | error fault core =>
    rw [hstep] at hcore
    exact hcore
  | ok t core =>
    rw [hstep] at hcore
    have hticked := htick _ t (Cpu.lasts_step hstep) hcore
    have hentry := (PictureUnit.changes_step picture _ t).keeps hchange hticked
    have hservice := (Cpu.changes_service core.cpu _).keeps hchange hentry
    exact (Bus.changes_serial _ _).keeps hchange hservice

structure InRange (board : Board) : Prop where
  flagsOnly : board.cpu.FlagsOnly
  eiPending : board.cpu.eiPending = false
  bus : board.bus.InRange
  picture : board.picture.InRange

variable {board : Board}

theorem eiPending_step (h : board.cpu.eiPending = false) :
    (stateAfter board.step).cpu.eiPending = false := by
  obtain ⟨cpu, bus, picture⟩ := board
  unfold Board.step
  dsimp only
  cases hstep : cpu.step bus with
  | error fault core =>
    have hstepped := cpu.stepped bus
    rw [hstep] at hstepped
    cases hstepped
    exact h
  | ok t core => exact Cpu.eiPending_service core.cpu _

theorem InRange.step (h : board.InRange) : (stateAfter board.step).InRange := by
  have hei := eiPending_step h.eiPending
  have hbus := bus_step_keeps (fun _ _ => Bus.InRange.change)
    (fun _ _ ht hb => hb.tick ht.1) h.bus
  obtain ⟨cpu, bus, picture⟩ := board
  obtain ⟨hf, -, -, hpicture⟩ := h
  dsimp only at hf hpicture
  have hflags := hf.step bus
  unfold Board.step at hbus hei ⊢
  dsimp only at hbus hei ⊢
  cases hstep : cpu.step bus with
  | error fault core =>
    rw [hstep] at hbus hei hflags
    exact ⟨hflags, hei, hbus, hpicture⟩
  | ok t core =>
    rw [hstep] at hbus hei hflags
    exact ⟨hflags.service _, hei, hbus, hpicture.step _ (Cpu.lasts_step hstep)⟩

theorem InRange.changes {bus : Bus} (h : board.InRange) (hchanges : Bus.Changes board.bus bus) :
    InRange { board with bus } :=
  ⟨h.flagsOnly, h.eiPending, h.bus.changes hchanges, h.picture⟩

theorem inRange_powerOn (cartridge : Cartridge) (sound : Bool) (log : Log) :
    InRange { bus := .powerOn cartridge sound log } :=
  ⟨Cpu.flagsOnly_powerOn, rfl, Bus.inRange_powerOn cartridge sound log,
    PictureUnit.inRange_powerOn⟩

end Board

/-! ## The machine -/

theorem Cartridge.powerOn_of_load {image : ByteArray} {clockHz : Nat} {l : Loaded}
    (h : load image clockHz = .ok l) :
    ∃ kind ramSize, l.cartridge = ⟨image, .powerOn kind ramSize clockHz⟩ := by
  unfold load at h
  split at h
  · contradiction
  · split at h
    · contradiction
    · cases h
      exact ⟨_, _, rfl⟩

namespace Machine

inductive Action where
  | step
  | runFrame
  | poll (found : Keypad.Poll)
  | attach (plug : Option Link.Plug) (recorder : Option SoundRecorder)

/-- A step or a frame that fails leaves a machine too. -/
def act (m : Machine) : Action → Machine
  | .step => stateAfter m.step
  | .runFrame => stateAfter m.runFrame
  | .poll found => { m with board := m.board.applyPoll found }
  | .attach plug recorder => { m with board.bus.plug := plug, board.bus.recorder := recorder }

def after (m : Machine) (actions : List Action) : Machine := actions.foldl act m

theorem stateAfter_step (m : Machine) :
    stateAfter m.step = { m with board := stateAfter m.board.step } := by
  obtain ⟨board, config, header⟩ := m
  unfold step
  dsimp only
  cases board.step <;> rfl

theorem board_step (m : Machine) : (stateAfter m.step).board = stateAfter m.board.step := by
  rw [stateAfter_step]

theorem stateAfter_runFrame (m : Machine) :
    stateAfter m.runFrame =
      { m with board := stateAfter (m.board.runUntil m.config.frameBudget 0) } := by
  obtain ⟨board, config, header⟩ := m
  unfold runFrame
  dsimp only
  cases board.runUntil config.frameBudget 0 <;> rfl

theorem board_runFrame (m : Machine) :
    (stateAfter m.runFrame).board = stateAfter (m.board.runUntil m.config.frameBudget 0) := by
  rw [stateAfter_runFrame]

theorem runFrame_of_runUntil_ok {m : Machine} {last : Board} {t : Nat}
    (h : m.board.runUntil m.config.frameBudget 0 = .ok t last) :
    m.runFrame = .ok t { m with board := last } := by
  obtain ⟨board, config, header⟩ := m
  unfold runFrame
  dsimp only at h ⊢
  rw [h]

theorem runFrame_of_runUntil_error {m : Machine} {last : Board} {fault : Fault}
    (h : m.board.runUntil m.config.frameBudget 0 = .error fault last) :
    m.runFrame = .error fault { m with board := last } := by
  obtain ⟨board, config, header⟩ := m
  unfold runFrame
  dsimp only at h ⊢
  rw [h]

theorem runFrame_of_frameBudget_eq_zero {m : Machine} (h : m.config.frameBudget = 0) :
    m.runFrame = .ok 0 m := by
  apply runFrame_of_runUntil_ok
  rw [h, Board.runUntil, if_neg (Nat.lt_irrefl 0)]

theorem board_act_keeps {P : Board → Prop} (hstep : ∀ b, P b → P (stateAfter b.step))
    (hbus : ∀ (b : Board) (bus : Bus), Bus.Changes b.bus bus → P b → P { b with bus }) {m : Machine}
    (h : P m.board) (action : Action) : P (m.act action).board := by
  cases action with
  | step =>
    rw [act, board_step]
    exact hstep _ h
  | runFrame =>
    rw [act, board_runFrame]
    exact Board.runUntil_keeps hstep _ 0 m.board h
  | poll found => exact hbus _ _ (Board.changes_applyPoll m.board found) h
  | attach plug recorder =>
    have hattach : Bus.Change m.board.bus { m.board.bus with plug, recorder } :=
      .rest rfl rfl rfl rfl
    exact hbus _ _ hattach.changes h

theorem bus_act_keeps {P : Bus → Prop} (hchange : ∀ b b', Bus.Change b b' → P b → P b')
    (htick : ∀ b t, Lasts t → P b → P (b.tick t)) {m : Machine} (h : P m.board.bus)
    (action : Action) : P (m.act action).board.bus :=
  board_act_keeps (P := fun board => P board.bus)
    (fun _ => Board.bus_step_keeps hchange htick)
    (fun _ _ hchanges hb => hchanges.keeps hchange hb) h action

theorem inRange_act {m : Machine} (h : m.board.InRange) (action : Action) :
    (m.act action).board.InRange :=
  board_act_keeps (fun _ => Board.InRange.step) (fun _ _ hchanges hb => hb.changes hchanges) h
    action

theorem inRange_acts {m : Machine} (h : m.board.InRange) (actions : List Action) :
    (m.after actions).board.InRange := by
  unfold after
  induction actions generalizing m with
  | nil => exact h
  | cons action actions ih => exact ih (inRange_act h action)

theorem powerOn_of_ofImage {image : ByteArray} {config : Config} {log : Log} {m : Machine}
    (h : ofImage image config log = .ok m) :
    (∃ kind ramSize log', m.board =
        { bus := .powerOn ⟨image, .powerOn kind ramSize config.clockHz.toNat⟩ config.sound log' }) ∧
      m.config = config := by
  unfold ofImage at h
  split at h
  · contradiction
  · rename_i loaded hloaded
    obtain ⟨kind, ramSize, hcartridge⟩ := Cartridge.powerOn_of_load hloaded
    cases h
    exact ⟨⟨kind, ramSize, _, by rw [hcartridge]⟩, rfl⟩

theorem inRange_ofImage {image : ByteArray} {config : Config} {log : Log} {m : Machine}
    (h : ofImage image config log = .ok m) : m.board.InRange := by
  obtain ⟨⟨kind, ramSize, log', hboard⟩, -⟩ := powerOn_of_ofImage h
  rw [hboard]
  exact Board.inRange_powerOn _ _ _

theorem cpu_ofImage {image : ByteArray} {config : Config} {log : Log} {m : Machine}
    (h : ofImage image config log = .ok m) : m.board.cpu = .powerOn := by
  obtain ⟨⟨kind, ramSize, log', hboard⟩, -⟩ := powerOn_of_ofImage h
  rw [hboard]

theorem config_ofImage {image : ByteArray} {config : Config} {log : Log} {m : Machine}
    (h : ofImage image config log = .ok m) : m.config = config := (powerOn_of_ofImage h).2

/-- Machines that were powered on, whatever was done to them or to their buses since. -/
inductive Reachable : Machine → Prop
  | powerOn {image : ByteArray} {config : Config} {log : Log} {m : Machine}
    (h : ofImage image config log = .ok m) : Reachable m
  | act {m : Machine} (h : Reachable m) (action : Action) : Reachable (m.act action)
  | change {m : Machine} {bus : Bus} (h : Reachable m) (hchange : Bus.Change m.board.bus bus) :
    Reachable { m with board.bus := bus }

theorem Reachable.changes {m : Machine} {bus : Bus} (h : Reachable m)
    (hchanges : Bus.Changes m.board.bus bus) : Reachable { m with board.bus := bus } := by
  induction hchanges with
  | refl => exact h
  | tail _ hchange ih => exact ih.change hchange

theorem inRange_reachable {m : Machine} (h : Reachable m) : m.board.InRange := by
  induction h with
  | powerOn h => exact inRange_ofImage h
  | act _ action ih => exact inRange_act ih action
  | change _ hchange ih => exact ih.changes hchange.changes

/-- Any machine that was ever powered on with an image satisfies all of it, after whatever was done
to it. -/
theorem inRange_after {image : ByteArray} {config : Config} {log : Log} {m : Machine}
    (h : ofImage image config log = .ok m) (actions : List Action) :
    let board := (m.after actions).board
    board.cpu.regs.f &&& 0x0f = 0 ∧
      board.bus.interruptFlags &&& 0xe0 = 0 ∧
      board.cpu.eiPending = false ∧
      board.bus.read 0xff44 ≤ 153 ∧
      (4 ∣ board.picture.counter ∧ 4 ≤ board.picture.counter ∧ board.picture.counter ≤ 456) ∧
      board.bus.timer.period = Timer.periodOf board.bus.timer.tac ∧
      (4 ∣ board.bus.timer.counterCycles ∧
        board.bus.timer.counterCycles < board.bus.timer.period) ∧
      4 ∣ board.bus.timer.divCycles ∧ board.bus.timer.divCycles ≤ 252 := by
  intro board
  have hboard : board.InRange := inRange_acts (inRange_ofImage h) actions
  have htimer := hboard.bus.timer
  have hpicture := hboard.picture
  exact ⟨hboard.flagsOnly, hboard.bus.flags, hboard.eiPending, hboard.bus.line,
    ⟨hpicture.counter_dvd, hpicture.four_le, hpicture.counter_le⟩, htimer.period_eq,
    ⟨htimer.counter_dvd, htimer.counter_lt⟩, htimer.div_dvd, htimer.div_le⟩

theorem ofImage_of_load {image : ByteArray} {config : Config}
    (hload : (Cartridge.load image config.clockHz.toNat).isOk = true) :
    ∃ m, ofImage image config {} = .ok m := by
  unfold ofImage
  cases hloaded : Cartridge.load image config.clockHz.toNat with
  | error fault =>
    rw [hloaded] at hload
    contradiction
  | ok loaded => exact ⟨_, rfl⟩

def blankImage : ByteArray := ⟨Array.replicate 0x150 0⟩

theorem ofImage_blankImage : ∃ m, ofImage blankImage {} {} = .ok m :=
  ofImage_of_load (by decide +kernel)

theorem inRange_after_blankImage :
    ∃ m, ofImage blankImage {} {} = .ok m ∧
      (m.after [.step, .poll ⟨true, 0xfe⟩, .runFrame]).board.bus.read 0xff44 ≤ 153 := by
  obtain ⟨m, hm⟩ := ofImage_blankImage
  have hranges := inRange_after hm [.step, .poll ⟨true, 0xfe⟩, .runFrame]
  exact ⟨m, hm, hranges.2.2.2.1⟩

end Machine

end Handheld
