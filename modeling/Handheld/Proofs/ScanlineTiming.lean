import Handheld.Proofs.HardwareOrder
import Handheld.Proofs.LinePosition
import Mathlib.Data.List.Induction

/-!
# When a picture is complete

The cycles of a run say where it is in the picture and how many pictures it has completed. While the
display is off nothing is left of that, and it starts from the first line again.
-/

namespace Handheld

open PictureUnit (on lyAddress statAddress lineCycles pictureCycles)

def PictureUnit.visibleCycles : Int := 65664

open PictureUnit (visibleCycles)

namespace Scene

/-! ## Cycles and pictures of a run -/

namespace Action

def cycles : Action → Nat
  | .advance n => n
  | .write .. | .writeWord .. => 0

/-- Leaves the control and the line register alone. -/
def Quiet : Action → Prop
  | .advance _ => True
  | .write a _ => a ≠ 0xff40 ∧ a ≠ 0xff44
  | .writeWord a _ => (a ≠ 0xff40 ∧ a ≠ 0xff44) ∧ a + 1 ≠ 0xff40 ∧ a + 1 ≠ 0xff44

end Action

def totalCycles : List Action → Nat
  | [] => 0
  | a :: as => a.cycles + totalCycles as

def position (s : Scene) : Int := s.picture.position s.line

def mode (s : Scene) : UInt8 := s.bus.read statAddress &&& 3

def completed (s : Scene) : Action → Nat
  | .advance cycles => (s.completes cycles).toNat
  | .write .. | .writeWord .. => 0

def completions (s : Scene) : List Action → Nat
  | [] => 0
  | a :: as => s.completed a + (s.act a).completions as

/-- The display is on, and the unit is on one of the lines. -/
structure Lit (s : Scene) : Prop where
  display : on s.bus = true
  placed : s.picture.Placed s.line

/-- What a call does with the display on: it completes a picture if the place in the picture leaves
the visible lines, and then it counts a frame and requests an interrupt. -/
structure Counts (s : Scene) (cycles : Nat) : Prop where
  completes : s.completes cycles = true ↔
    s.position < visibleCycles ∧ visibleCycles ≤ (s.act (.advance cycles)).position
  frames : (s.act (.advance cycles)).picture.frames =
    s.picture.frames + (s.completes cycles).toNat
  requests : (s.act (.advance cycles)).bus.Requests .vBlank ↔
    s.bus.Requests .vBlank ∨ s.completes cycles = true

/-- What a call does with the display off. -/
structure Rests (s : Scene) (cycles : Nat) : Prop where
  completes : s.completes cycles = false
  frames : (s.act (.advance cycles)).picture.frames = s.picture.frames
  interruptFlags : (s.act (.advance cycles)).bus.interruptFlags = s.bus.interruptFlags
  line : (s.act (.advance cycles)).line = 0
  mode : (s.act (.advance cycles)).mode = 1
  counter : (s.act (.advance cycles)).picture.counter = lineCycles

end Scene

/-! ## Status and interrupts -/

namespace PictureUnit

theorem status_and_3 (status mode : UInt8) : (status &&& 0xfc ||| mode) &&& 3 = mode &&& 3 := by
  have hrest : status &&& 0xfc &&& 3 = 0 := by
    rw [UInt8.and_assoc]
    exact UInt8.and_zero
  rw [UInt8.or_comm]
  exact or_and_of_and_eq_zero mode hrest

theorem requests_updateStatus (counter : Int) (bus : Bus) :
    (updateStatus counter bus).Requests .vBlank ↔ bus.Requests .vBlank := by
  unfold updateStatus
  dsimp only
  rw [Bus.requests_store]
  split
  · exact (Bus.requests_request bus .lcdStat .vBlank).trans (by simp)
  · rfl

theorem placed_zero {p : PictureUnit} (h : p.counter = lineCycles) : p.Placed 0 := by
  refine ⟨by decide, ?_, Int.le_of_eq h⟩
  rw [h]
  decide

theorem Placed.position_lt_visibleCycles_iff {p : PictureUnit} {line : UInt8} (h : p.Placed line) :
    p.position line < visibleCycles ↔ line < 144 := by
  have hpos := h.counter_pos
  have hle := h.counter_le
  rw [UInt8.lt_iff_toNat_lt]
  unfold position
  simp only [lineCycles, visibleCycles, UInt8.reduceToNat] at hle ⊢
  omega

end PictureUnit

namespace Scene

variable {s : Scene}

/-! ## One action -/

theorem on_act_advance (hon : on s.bus = true) (cycles : Nat) :
    on (s.act (.advance cycles)).bus = true := by
  have hread : (s.act (.advance cycles)).bus.read 0xff40 = s.bus.read 0xff40 :=
    PictureUnit.read_step_of_ne s.picture s.bus cycles (by decide) (by decide) (by decide)
  unfold on at hon ⊢
  rw [hread]
  exact hon

theorem read_write_quiet (bus : Bus) {a : UInt16} (v : UInt8) (h : a ≠ 0xff40 ∧ a ≠ 0xff44) :
    on (bus.write a v) = on bus ∧ (bus.write a v).read lyAddress = bus.read lyAddress := by
  have hcontrol : ¬ Bus.Touches a 0xff40 := by grind [Bus.Touches]
  have hline : ¬ Bus.Touches a lyAddress := by grind [Bus.Touches, PictureUnit.lyAddress]
  unfold on
  exact ⟨by rw [Bus.read_write_of_not_touches _ _ hcontrol],
    Bus.read_write_of_not_touches _ _ hline⟩

theorem act_quiet {a : Action} (hquiet : a.Quiet) (hwrite : ∀ n, a ≠ .advance n) :
    (s.act a).picture = s.picture ∧ on (s.act a).bus = on s.bus ∧ (s.act a).line = s.line := by
  cases a with
  | advance n => exact absurd rfl (hwrite n)
  | write a v => exact ⟨rfl, read_write_quiet s.bus v hquiet⟩
  | writeWord a v =>
    have hlow := read_write_quiet s.bus (Word.low v) hquiet.1
    have hhigh := read_write_quiet (s.bus.write a (Word.low v)) (Word.high v) hquiet.2
    exact ⟨rfl, hhigh.1.trans hlow.1, hhigh.2.trans hlow.2⟩

theorem rests (hoff : on s.bus = false) (cycles : Nat) : s.Rests cycles := by
  have hstep := s.picture.step_of_off hoff cycles
  have hact : s.act (.advance cycles) =
      { picture := { s.picture with counter := lineCycles }, bus := PictureUnit.offBus s.bus } := by
    simp only [act, hstep]
  constructor
  case completes =>
    unfold completes
    rw [hstep]
  case mode =>
    rw [hact]
    unfold mode PictureUnit.offBus
    dsimp only
    rw [Bus.read_store_self _ _ (by decide)]
    exact PictureUnit.status_and_3 _ 1
  case line =>
    rw [hact]
    exact PictureUnit.read_offBus_lyAddress s.bus
  case frames | interruptFlags | counter =>
    simp only [hact, PictureUnit.offBus, Bus.interruptFlags_store]

theorem totalCycles_concat (as : List Action) (a : Action) :
    totalCycles (as ++ [a]) = totalCycles as + a.cycles := by
  induction as with
  | nil => exact Nat.add_comm _ _
  | cons b as ih =>
    rw [List.cons_append, totalCycles, ih, ← Nat.add_assoc]
    rfl

theorem completions_concat (s : Scene) (as : List Action) (a : Action) :
    s.completions (as ++ [a]) = s.completions as + (s.run as).completed a := by
  induction as generalizing s with
  | nil => exact Nat.add_comm _ _
  | cons b as ih =>
    rw [List.cons_append, completions, ih, ← Nat.add_assoc]
    rfl

theorem placed_act (h : s.picture.Placed s.line) {a : Action} (hle : a.cycles ≤ 456) :
    (s.act a).picture.Placed (s.act a).line := by
  by_cases hadvance : ∃ n, a = .advance n
  · obtain ⟨n, rfl⟩ := hadvance
    cases hon : on s.bus with
    | true => exact (h.step hon hle).1
    | false =>
      have hrests := rests hon n
      rw [hrests.line]
      exact PictureUnit.placed_zero hrests.counter
  · obtain ⟨hpicture, hline⟩ := s.write_cases (not_exists.1 hadvance)
    rw [hpicture]
    rcases hline with hline | hline
    · rw [hline]
      exact h
    · rw [hline]
      exact ⟨by decide, h.counter_pos, h.counter_le⟩

theorem completes_of_on (hon : on s.bus = true) (cycles : Nat) :
    (s.completes cycles = true ↔ s.line < 144 ∧ 144 ≤ (s.act (.advance cycles)).line) ∧
      (s.act (.advance cycles)).picture.frames =
        s.picture.frames + (s.completes cycles).toNat ∧
      ((s.act (.advance cycles)).bus.Requests .vBlank ↔
        s.bus.Requests .vBlank ∨ s.completes cycles = true) := by
  obtain ⟨p, bus⟩ := s
  have hstep := PictureUnit.step_advance p bus cycles
  have hstatus := PictureUnit.requests_updateStatus p.counter bus
  have hself : ∀ (b : Bus) v, (b.store lyAddress v).read lyAddress = v := fun b v =>
    Bus.read_store_self b v (by decide)
  simp only [act, line, completes]
  generalize p.step bus cycles = r at hstep
  cases hstep with
  | off hoff => exact absurd (hon.symm.trans hoff) (by decide)
  | within =>
    dsimp only
    rw [PictureUnit.read_updateStatus_of_ne _ _ (by decide) (by decide), hstatus]
    exact ⟨by grind, rfl, by simp⟩
  | drawn _ _ hline =>
    dsimp only
    rw [hself, Bus.requests_store, hstatus]
    exact ⟨by grind, rfl, by simp⟩
  | completed _ _ hline =>
    dsimp only
    rw [Bus.read_request_of_ne _ _ (by decide), hself, hline, Bus.requests_request,
      Bus.requests_store, hstatus]
    exact ⟨by decide, rfl, by simp⟩
  | blank _ _ hline =>
    dsimp only
    rw [Bus.requests_store, hstatus]
    exact ⟨by grind, rfl, by simp⟩

namespace Lit

variable (h : s.Lit)

include h

theorem act {a : Action} (hle : a.cycles ≤ 456) (hquiet : a.Quiet) :
    (s.act a).Lit ∧ (s.act a).position = (s.position + a.cycles) % pictureCycles := by
  have hplaced := placed_act h.placed hle
  by_cases hadvance : ∃ n, a = .advance n
  · obtain ⟨n, rfl⟩ := hadvance
    exact ⟨⟨on_act_advance h.display n, hplaced⟩, (h.placed.step h.display hle).2⟩
  · obtain ⟨hpicture, hon, hline⟩ := act_quiet (s := s) hquiet (not_exists.1 hadvance)
    have hcycles : a.cycles = 0 := by
      cases a with
      | advance n => exact absurd ⟨n, rfl⟩ hadvance
      | write | writeWord => rfl
    refine ⟨⟨hon.trans h.display, hplaced⟩, ?_⟩
    unfold position
    rw [hpicture, hline, hcycles, Int.natCast_zero, Int.add_zero, h.placed.position_emod]

theorem counts {cycles : Nat} (hle : cycles ≤ 456) : s.Counts cycles := by
  obtain ⟨hcompletes, hframes, hrequests⟩ := completes_of_on h.display cycles
  have hafter := (placed_act h.placed (a := .advance cycles) hle).position_lt_visibleCycles_iff
  have hbefore := h.placed.position_lt_visibleCycles_iff
  refine ⟨?_, hframes, hrequests⟩
  unfold position
  rw [hcompletes, hbefore, ← Int.not_lt, hafter, UInt8.not_lt]

theorem completed_eq {a : Action} (hle : a.cycles ≤ 456) :
    (s.completed a : Int) =
      (s.position + a.cycles + (pictureCycles - visibleCycles)) / pictureCycles -
        (s.position + (pictureCycles - visibleCycles)) / pictureCycles := by
  have hrange := h.placed.position_emod
  change s.position % pictureCycles = s.position at hrange
  cases a with
  | advance n =>
    have hle' : n ≤ 456 := hle
    have hcompletes := (h.counts hle').completes
    rw [(h.act hle trivial).2] at hcompletes
    simp only [completed, Action.cycles, pictureCycles, visibleCycles] at hrange hcompletes ⊢
    cases hc : s.completes n with
    | true =>
      have := hcompletes.1 hc
      simp only [Bool.toNat_true]
      omega
    | false =>
      have := mt hcompletes.2 (by simp [hc])
      simp only [Bool.toNat_false]
      omega
  | write | writeWord =>
    simp only [completed, Action.cycles, pictureCycles, visibleCycles] at hrange ⊢
    omega

/-! ## Runs -/

theorem run {as : List Action} (has : ∀ a ∈ as, a.cycles ≤ 456 ∧ a.Quiet) :
    (s.run as).Lit ∧ (s.run as).position = (s.position + totalCycles as) % pictureCycles := by
  induction as using List.reverseRecOn with
  | nil =>
    have hzero : s.position + totalCycles [] = s.position := Int.add_zero _
    rw [hzero]
    exact ⟨h, h.placed.position_emod.symm⟩
  | append_singleton as a ih =>
    obtain ⟨hlit, hposition⟩ := ih fun a ha => has a (List.mem_append_left _ ha)
    obtain ⟨hle, hquiet⟩ := has a (List.mem_append_right _ (List.mem_singleton_self a))
    obtain ⟨hlit', hposition'⟩ := hlit.act hle hquiet
    rw [run_concat]
    refine ⟨hlit', ?_⟩
    rw [hposition', hposition, Int.emod_add_emod, totalCycles_concat, Int.natCast_add,
      Int.add_assoc]

theorem completions_eq {as : List Action} (has : ∀ a ∈ as, a.cycles ≤ 456 ∧ a.Quiet) :
    (s.completions as : Int) =
      (s.position + totalCycles as + (pictureCycles - visibleCycles)) / pictureCycles -
        (s.position + (pictureCycles - visibleCycles)) / pictureCycles := by
  induction as using List.reverseRecOn with
  | nil =>
    have hzero : s.position + totalCycles [] = s.position := Int.add_zero _
    rw [hzero, Int.sub_self]
    rfl
  | append_singleton as a ih =>
    have has' : ∀ a ∈ as, a.cycles ≤ 456 ∧ a.Quiet := fun a ha => has a (List.mem_append_left _ ha)
    obtain ⟨hlit, hposition⟩ := h.run has'
    have hle := (has a (List.mem_append_right _ (List.mem_singleton_self a))).1
    have hcompleted := hlit.completed_eq hle
    rw [completions_concat, totalCycles_concat, Int.natCast_add, Int.natCast_add, ih has',
      hcompleted, hposition]
    dsimp only [pictureCycles, visibleCycles]
    omega

theorem completes_nth_iff (hstart : s.position = 0) {as : List Action}
    (has : ∀ a ∈ as, a.cycles ≤ 456 ∧ a.Quiet) {cycles : Nat} (hle : cycles ≤ 456) (k : Nat) :
    (s.run as).completes cycles = true ∧ s.completions as = k ↔
      totalCycles as < visibleCycles + pictureCycles * k ∧
        visibleCycles + pictureCycles * k ≤ totalCycles as + cycles := by
  obtain ⟨hlit, hposition⟩ := h.run has
  have hcompletes := (hlit.counts hle).completes
  have hcompletions := h.completions_eq has
  rw [(hlit.act (a := .advance cycles) hle trivial).2, hposition, hstart] at hcompletes
  rw [hstart] at hcompletions
  rw [hcompletes, ← Int.natCast_inj, hcompletions]
  dsimp only [Action.cycles, pictureCycles, visibleCycles]
  omega

end Lit

/-! ## From power-on, and after the display was off -/

theorem placed_run (h : s.picture.Placed s.line) {as : List Action}
    (has : ∀ a ∈ as, a.cycles ≤ 456) : (s.run as).picture.Placed (s.run as).line := by
  induction as generalizing s with
  | nil => exact h
  | cons a as ih =>
    obtain ⟨hle, has'⟩ := List.forall_mem_cons.1 has
    exact ih (placed_act h hle) has'

section PowerOn

variable (cartridge : Cartridge) (sound : Bool) (log : Log)

theorem lit_powerOn : (powerOn cartridge sound log).Lit := by
  refine ⟨on_powerOn cartridge sound log, ?_⟩
  rw [line_powerOn]
  exact PictureUnit.placed_zero rfl

theorem position_powerOn : (powerOn cartridge sound log).position = 0 := by
  unfold position PictureUnit.position
  rw [line_powerOn]
  rfl

end PowerOn

theorem run_writes {writes : List Action} (hwrites : ∀ w ∈ writes, ∀ n, w ≠ .advance n) :
    (s.run writes).picture = s.picture ∧ (s.line = 0 → (s.run writes).line = 0) := by
  induction writes generalizing s with
  | nil => exact ⟨rfl, id⟩
  | cons w writes ih =>
    obtain ⟨hpicture, hline⟩ := s.write_cases (hwrites w List.mem_cons_self)
    obtain ⟨hpicture', hline'⟩ := ih (s := s.act w) fun w hw =>
      hwrites w (List.mem_cons_of_mem _ hw)
    refine ⟨hpicture'.trans hpicture, fun hzero => hline' ?_⟩
    rcases hline with hline | hline
    · exact hline.trans hzero
    · exact hline

/-- A call with the display off, and then any writes, leave the unit at the start of line 0. -/
theorem restart (hoff : on s.bus = false) (cycles : Nat) {writes : List Action}
    (hwrites : ∀ w ∈ writes, ∀ n, w ≠ .advance n)
    (hon : on (s.run (.advance cycles :: writes)).bus = true) :
    (s.run (.advance cycles :: writes)).Lit ∧ (s.run (.advance cycles :: writes)).position = 0 := by
  have hrests := rests hoff cycles
  obtain ⟨hpicture, hline⟩ := run_writes (s := s.act (.advance cycles)) hwrites
  have hcounter : (s.run (.advance cycles :: writes)).picture.counter = lineCycles := by
    rw [← hrests.counter]
    exact congrArg PictureUnit.counter hpicture
  have hzero : (s.run (.advance cycles :: writes)).line = 0 := hline hrests.line
  refine ⟨⟨hon, ?_⟩, ?_⟩
  · rw [hzero]
    exact PictureUnit.placed_zero hcounter
  · unfold position PictureUnit.position
    rw [hzero, hcounter]
    rfl

theorem on_act_write_control (s : Scene) (v : UInt8) :
    on (s.act (.write 0xff40 v)).bus = (v &&& 0x80 != 0) := by
  have hread : (s.bus.write 0xff40 v).read 0xff40 = v :=
    Bus.read_write_self s.bus v (by decide) (by decide) (by decide) (by decide) (by decide)
  unfold on act
  rw [hread]

theorem position_write_control (s : Scene) (v : UInt8) :
    (s.act (.write 0xff40 v)).position = s.position := by
  have huntouched : ¬ Bus.Touches 0xff40 lyAddress := by decide
  have hline : (s.act (.write 0xff40 v)).line = s.line :=
    Bus.read_write_of_not_touches s.bus v huntouched
  unfold position
  rw [hline]
  rfl

theorem totalCycles_replicate (n cycles : Nat) :
    totalCycles (.replicate n (.advance cycles)) = n * cycles := by
  induction n with
  | zero => exact (Nat.zero_mul cycles).symm
  | succ n ih =>
    rw [List.replicate_succ, totalCycles, ih, Nat.add_comm, Nat.succ_mul]
    rfl

theorem quiet_replicate (n : Nat) {cycles bound : Nat} (hle : cycles ≤ bound) :
    ∀ a ∈ List.replicate n (Action.advance cycles), a.cycles ≤ bound ∧ a.Quiet := by
  intro a ha
  obtain rfl := List.eq_of_mem_replicate ha
  exact ⟨hle, trivial⟩

/-- With the display on, the cycles of a run move the place in the picture on, and the calls that
leave the visible lines complete a picture. With the display off no call does anything, and once one
was made the cycles since the display is on again say which call completes which picture. -/
theorem picture_timing (cartridge : Cartridge) (sound : Bool) (log : Log) {before : List Action}
    (hbefore : ∀ a ∈ before, a.cycles ≤ 456) :
    let s := (powerOn cartridge sound log).run before
    (on s.bus = true → ∀ as : List Action, (∀ a ∈ as, a.cycles ≤ 456 ∧ a.Quiet) →
      (s.run as).picture.Placed (s.run as).line ∧
        (s.run as).position = (s.position + totalCycles as) % pictureCycles ∧
        ∀ cycles ≤ 456, (s.run as).Counts cycles) ∧
    (on s.bus = false →
      (∀ cycles, s.Rests cycles) ∧
        ∀ (cycles : Nat) (writes : List Action), (∀ w ∈ writes, ∀ n, w ≠ .advance n) →
          let u := s.run (.advance cycles :: writes)
          on u.bus = true → ∀ as : List Action, (∀ a ∈ as, a.cycles ≤ 456 ∧ a.Quiet) →
            ∀ last ≤ 456, ∀ k : Nat,
              (u.run as).completes last = true ∧ u.completions as = k ↔
                totalCycles as < visibleCycles + pictureCycles * k ∧
                  visibleCycles + pictureCycles * k ≤ totalCycles as + last) := by
  intro s
  have hplaced : s.picture.Placed s.line :=
    placed_run (lit_powerOn cartridge sound log).placed hbefore
  refine ⟨fun hon as has => ?_, fun hoff => ⟨rests hoff, ?_⟩⟩
  · have hlit : s.Lit := ⟨hon, hplaced⟩
    obtain ⟨hlit', hposition⟩ := hlit.run has
    exact ⟨hlit'.placed, hposition, fun cycles hle => hlit'.counts hle⟩
  · intro cycles writes hwrites u hon as has last hlast k
    obtain ⟨hlit, hstart⟩ := restart hoff cycles hwrites hon
    exact hlit.completes_nth_iff hstart has hlast k

theorem picture_timing_after_off :
    (∀ a ∈ [Action.write 0xff40 0x11], a.cycles ≤ 456) ∧
      on ((powerOn default false {}).run [.write 0xff40 0x11]).bus = false ∧
      (((powerOn default false {}).run [.write 0xff40 0x11]).run
          (.advance 4 :: [.write 0xff40 0x91])).completions (.replicate 143 (.advance 456)) = 0 ∧
      ((((powerOn default false {}).run [.write 0xff40 0x11]).run
          (.advance 4 :: [.write 0xff40 0x91])).run
        (.replicate 143 (.advance 456))).completes 456 = true := by
  have hbefore : ∀ a ∈ [Action.write 0xff40 0x11], a.cycles ≤ 456 := by simp [Action.cycles]
  have hoff : on ((powerOn default false {}).run [.write 0xff40 0x11]).bus = false :=
    on_act_write_control (powerOn default false {}) 0x11
  have hon : on (((powerOn default false {}).run [.write 0xff40 0x11]).run
      (.advance 4 :: [.write 0xff40 0x91])).bus = true :=
    on_act_write_control
      (((powerOn default false {}).run [.write 0xff40 0x11]).act (.advance 4)) 0x91
  have hfirst := (((picture_timing default false {} hbefore).2 hoff).2 4 [.write 0xff40 0x91]
    (by simp) hon _ (quiet_replicate 143 (Nat.le_refl 456)) 456 (Nat.le_refl 456) 0).2
    (by rw [totalCycles_replicate]; decide)
  exact ⟨hbefore, hoff, hfirst.2, hfirst.1⟩

/-- Ten lines from power-on, after which the display is switched off. -/
def tenLinesThenOff : Scene :=
  (powerOn default false {}).run (.replicate 10 (.advance 456) ++ [.write 0xff40 0x11])

/-- Where the display is switched on again before any call, the picture goes on where it was. -/
theorem completes_early_of_no_call :
    on tenLinesThenOff.bus = false ∧ on (tenLinesThenOff.act (.write 0xff40 0x91)).bus = true ∧
      ¬ ∀ as : List Action, (∀ a ∈ as, a.cycles ≤ 456 ∧ a.Quiet) → ∀ last ≤ 456, ∀ k : Nat,
        ((tenLinesThenOff.act (.write 0xff40 0x91)).run as).completes last = true ∧
            (tenLinesThenOff.act (.write 0xff40 0x91)).completions as = k ↔
          totalCycles as < visibleCycles + pictureCycles * k ∧
            visibleCycles + pictureCycles * k ≤ totalCycles as + last := by
  have hten := (lit_powerOn default false {}).run (quiet_replicate 10 (Nat.le_refl 456))
  have hoff : on tenLinesThenOff.bus = false := by
    unfold tenLinesThenOff
    rw [run_concat]
    exact on_act_write_control _ 0x11
  have hon : on (tenLinesThenOff.act (.write 0xff40 0x91)).bus = true :=
    on_act_write_control _ 0x91
  have hposition : (tenLinesThenOff.act (.write 0xff40 0x91)).position = 4560 := by
    unfold tenLinesThenOff
    rw [run_concat, position_write_control, position_write_control, hten.2, position_powerOn,
      totalCycles_replicate]
    rfl
  have hlit : (tenLinesThenOff.act (.write 0xff40 0x91)).Lit := by
    refine ⟨hon, placed_act ?_ (by decide)⟩
    unfold tenLinesThenOff
    rw [run_concat]
    exact placed_act hten.1.placed (by decide)
  refine ⟨hoff, hon, fun hcycles => ?_⟩
  -- With the ten lines from before, 133 more lead to the last visible one.
  have hrun := hlit.run (quiet_replicate 133 (Nat.le_refl 456))
  have hcompletes : ((tenLinesThenOff.act (.write 0xff40 0x91)).run
      (.replicate 133 (.advance 456))).completes 456 = true := by
    rw [(hrun.1.counts (Nat.le_refl 456)).completes,
      (hrun.1.act (a := .advance 456) (Nat.le_refl 456) trivial).2, hrun.2, hposition,
      totalCycles_replicate]
    decide
  have hcompletions : (tenLinesThenOff.act (.write 0xff40 0x91)).completions
      (.replicate 133 (.advance 456)) = 0 := by
    have hcount := hlit.completions_eq (quiet_replicate 133 (Nat.le_refl 456))
    rw [hposition, totalCycles_replicate] at hcount
    dsimp only [pictureCycles, visibleCycles] at hcount
    omega
  have hreach := ((hcycles _ (quiet_replicate 133 (Nat.le_refl 456)) 456 (Nat.le_refl 456) 0).1
    ⟨hcompletes, hcompletions⟩).2
  rw [totalCycles_replicate] at hreach
  dsimp only [pictureCycles, visibleCycles] at hreach
  omega

end Scene

end Handheld
