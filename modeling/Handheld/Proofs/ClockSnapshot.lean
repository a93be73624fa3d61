import Handheld.Proofs.ClockTime
import Handheld.Proofs.Histories

/-!
# The snapshot of the cartridge clock

The program reads a copy of the clock, which the last write of 1 right after a 0 to the latch
register took. Nothing else changes it. No field of the clock or of the copy outgrows its bits.
-/

namespace Handheld.Cartridge

/-! ## Bits of the fields -/

namespace Clock

structure Fits (c : Clock) : Prop where
  seconds : c.seconds ≤ 63
  minutes : c.minutes ≤ 63
  hours : c.hours ≤ 31
  /-- Bits that the register does not have. -/
  dayHigh : c.dayHigh &&& 0x3e = 0

/-- One more fits into the byte of every field that is counted. -/
structure Countable (c : Clock) : Prop where
  seconds : (c.seconds + 1).toNat = c.seconds.toNat + 1
  minutes : (c.minutes + 1).toNat = c.minutes.toNat + 1
  hours : (c.hours + 1).toNat = c.hours.toNat + 1

variable {c : Clock}

theorem Fits.countable (h : c.Fits) : c.Countable := by
  obtain ⟨hseconds, hminutes, hhours, -⟩ := h
  simp only [UInt8.le_iff_toNat_le, UInt8.reduceToNat] at hseconds hminutes hhours
  refine ⟨?_, ?_, ?_⟩ <;> apply toNat_succ <;> omega

theorem Fits.nextDay (h : c.Fits) : c.nextDay.Fits := by
  obtain ⟨hs, hm, hh⟩ := c.fields_nextDay
  refine ⟨hs ▸ h.seconds, hm ▸ h.minutes, hh ▸ h.hours, ?_⟩
  have hlt := c.days_lt
  unfold Clock.nextDay
  split <;> dsimp only
  · rw [and_of_replaced _ (ofNat_and_of_lt_two (by omega) rfl) rfl]
    exact h.dayHigh
  · rw [and_of_replaced _ rfl rfl]
    exact h.dayHigh

theorem Fits.tick (h : c.Fits) : c.tick.Fits := by
  have hzero : (0 : UInt8) ≤ 63 := by decide
  have hbelow : ∀ {x y : UInt8}, x < y → y ≤ 64 → x ≤ 63 := by
    intro x y
    simp only [UInt8.lt_iff_toNat_lt, UInt8.le_iff_toNat_le, UInt8.reduceToNat]
    omega
  unfold Clock.tick
  split_ifs with hs hm hh
  · exact { h with seconds := hbelow hs (by decide) }
  · exact { h with seconds := hzero, minutes := hbelow hm (by decide) }
  · refine { h with seconds := hzero, minutes := hzero, hours := ?_ }
    simp only [UInt8.lt_iff_toNat_lt, UInt8.le_iff_toNat_le, UInt8.reduceToNat] at hh ⊢
    omega
  · exact Fits.nextDay { h with seconds := hzero, minutes := hzero, hours := by simp }

theorem Fits.advance (h : c.Fits) (n : Nat) : (c.advance n).Fits := by
  induction n generalizing c with
  | zero => exact h
  | succ n ih => exact ih h.tick

theorem Fits.write (h : c.Fits) (r : Register) (v : UInt8) : (c.write r v).Fits := by
  cases r with
  | seconds => exact { h with seconds := UInt8.and_le_right }
  | minutes => exact { h with minutes := UInt8.and_le_right }
  | hours => exact { h with hours := UInt8.and_le_right }
  | dayLow => exact { h with }
  | dayHigh =>
    refine { h with dayHigh := ?_ }
    simp only [Clock.write, UInt8.and_assoc]
    exact UInt8.and_zero

theorem fits_start : ({} : Clock).Fits := ⟨by decide, by decide, by decide, by decide⟩

end Clock

/-! ## When a snapshot is taken -/

namespace Controller

/-- What a call writes to the latch register, the last one of the ROM area. -/
def Call.latchWrite? : Call → Option UInt8
  | .control address v => if 0x6000 ≤ address then some v else none
  | .writeRam .. | .tick _ => none

/-- What the call with number `i` writes to the latch register. -/
def latchWrite? (calls : List Call) (i : Nat) : Option UInt8 := calls[i]?.bind Call.latchWrite?

/-- Of the writes to the latch register before call `n` the last one was a 0. -/
def Armed (calls : List Call) (n : Nat) : Prop :=
  ∃ j < n, latchWrite? calls j = some 0 ∧ ∀ m < n, j < m → latchWrite? calls m = none

/-- Call `i` is a write of 1 right after a 0. -/
def TakesSnapshot (calls : List Call) (i : Nat) : Prop :=
  latchWrite? calls i = some 1 ∧ Armed calls i

/-- Of the first `n` calls, call `i` is the last one that takes a snapshot. -/
def LastSnapshot (calls : List Call) (n i : Nat) : Prop :=
  i < n ∧ TakesSnapshot calls i ∧ ∀ j < n, i < j → ¬ TakesSnapshot calls j

instance (calls : List Call) (n : Nat) : Decidable (Armed calls n) :=
  inferInstanceAs (Decidable (∃ j < n, _))

instance (calls : List Call) (i : Nat) : Decidable (TakesSnapshot calls i) :=
  inferInstanceAs (Decidable (_ ∧ _))

instance (calls : List Call) (n i : Nat) : Decidable (LastSnapshot calls n i) :=
  inferInstanceAs (Decidable (_ ∧ _))

theorem armed_succ (calls : List Call) (n : Nat) :
    Armed calls (n + 1) ↔ (latchWrite? calls n).elim (Armed calls n) (· = 0) := by
  unfold Armed
  rw [since_succ]
  cases latchWrite? calls n with
  | none => simp
  | some v => simp

end Controller

namespace Mbc3

open Controller (Call latchWrite? Armed TakesSnapshot LastSnapshot armed_succ)

/-! ## Calls -/

def call (c : Mbc3) : Call → Mbc3
  | .control address v => c.control address v
  | .writeRam address v => c.writeRam address v
  | .tick cycles => c.tick cycles

def run (c : Mbc3) (calls : List Call) : Mbc3 := calls.foldl call c

theorem controller_run (c : Mbc3) (calls : List Call) :
    (Controller.mbc3 c).run calls = .mbc3 (c.run calls) := by
  induction calls generalizing c with
  | nil => rfl
  | cons k calls ih =>
    have hcall : (Controller.mbc3 c).call k = .mbc3 (c.call k) := by cases k <;> rfl
    exact (congrArg (Controller.run · calls) hcall).trans (ih (c.call k))

theorem run_take_succ (c : Mbc3) (calls : List Call) (n : Nat) :
    c.run (calls.take (n + 1)) =
      calls[n]?.elim (c.run (calls.take n)) (c.run (calls.take n)).call :=
  foldl_take_succ ..

theorem control_of_latch (c : Mbc3) {a : UInt16} (h : 0x6000 ≤ a) (v : UInt8) :
    c.control a v =
      { c with
        latched := if c.latches v then c.clock else c.latched
        latchArmed := v == 0 } := by
  have hlow : ¬ a < 0x6000 := UInt16.not_lt.2 h
  unfold control
  rw [if_neg (by grind), if_neg (by grind), if_neg hlow]

theorem latch_control_of_lt (c : Mbc3) {a : UInt16} (h : a < 0x6000) (v : UInt8) :
    (c.control a v).latched = c.latched ∧ (c.control a v).latchArmed = c.latchArmed := by
  unfold control
  split_ifs <;> exact ⟨rfl, rfl⟩

theorem latch_writeRam (c : Mbc3) (a : UInt16) (v : UInt8) :
    (c.writeRam a v).latched = c.latched ∧ (c.writeRam a v).latchArmed = c.latchArmed := by
  unfold writeRam
  split
  · split <;> exact ⟨rfl, rfl⟩
  · exact ⟨rfl, rfl⟩

theorem latch_tick (c : Mbc3) (cycles : Nat) :
    (c.tick cycles).latched = c.latched ∧ (c.tick cycles).latchArmed = c.latchArmed := by
  unfold tick
  split <;> exact ⟨rfl, rfl⟩

theorem latch_call (c : Mbc3) (k : Call) :
    (c.call k).latched =
        (if k.latchWrite? = some 1 ∧ c.latchArmed = true then c.clock else c.latched) ∧
      (c.call k).latchArmed = k.latchWrite?.elim c.latchArmed (· == 0) := by
  cases k with
  | writeRam a v => simpa [call, Call.latchWrite?] using c.latch_writeRam a v
  | tick cycles => simpa [call, Call.latchWrite?] using c.latch_tick cycles
  | control a v =>
    by_cases h : 0x6000 ≤ a
    · simp [call, Call.latchWrite?, h, control_of_latch, latches]
    · simpa [call, Call.latchWrite?, h] using c.latch_control_of_lt (UInt16.not_le.1 h) v

/-! ## The snapshot -/

section Snapshot

variable {c : Mbc3} (calls : List Call)

theorem latchArmed_run (hstart : c.latchArmed = false) (n : Nat) :
    (c.run (calls.take n)).latchArmed = true ↔ Armed calls n := by
  induction n with
  | zero => simp [run, hstart, Armed]
  | succ n ih =>
    rw [armed_succ, run_take_succ, latchWrite?]
    cases hk : calls[n]? with
    | none => exact ih
    | some k =>
      rw [Option.elim_some, (latch_call _ k).2, Option.bind_some]
      cases k.latchWrite? with
      | none => exact ih
      | some v => simp

theorem latched_run_succ (hstart : c.latchArmed = false) (n : Nat) :
    (c.run (calls.take (n + 1))).latched =
      if TakesSnapshot calls n then (c.run (calls.take n)).clock
      else (c.run (calls.take n)).latched := by
  have harmed := latchArmed_run calls hstart n
  rw [run_take_succ]
  cases hk : calls[n]? with
  | none =>
    have hnone : ¬ TakesSnapshot calls n := by simp [TakesSnapshot, latchWrite?, hk]
    simp [hnone]
  | some k =>
    have htakes : TakesSnapshot calls n ↔
        k.latchWrite? = some 1 ∧ (c.run (calls.take n)).latchArmed = true := by
      simp [TakesSnapshot, latchWrite?, hk, harmed]
    simp only [Option.elim_some, (latch_call _ k).1, htakes]

theorem latched_run_of_le (hstart : c.latchArmed = false) {m n : Nat} (hle : m ≤ n)
    (hnone : ∀ i < n, m ≤ i → ¬ TakesSnapshot calls i) :
    (c.run (calls.take n)).latched = (c.run (calls.take m)).latched := by
  obtain ⟨d, rfl⟩ := Nat.exists_eq_add_of_le hle
  induction d with
  | zero => rfl
  | succ d ih =>
    rw [← Nat.add_assoc, latched_run_succ calls hstart,
      if_neg (hnone (m + d) (by omega) (by omega))]
    exact ih (by omega) fun i hi => hnone i (by omega)

theorem latched_run_of_last (hstart : c.latchArmed = false) {n i : Nat}
    (h : LastSnapshot calls n i) :
    (c.run (calls.take n)).latched = (c.run (calls.take i)).clock := by
  obtain ⟨hi, htakes, hlast⟩ := h
  rw [latched_run_of_le calls hstart hi fun j hj => hlast j hj,
    latched_run_succ calls hstart, if_pos htakes]

end Snapshot

/-! ## Ranges -/

structure Fits (c : Mbc3) : Prop where
  clock : c.clock.Fits
  latched : c.latched.Fits

theorem Fits.call {c : Mbc3} (h : c.Fits) (k : Call) : (c.call k).Fits := by
  obtain ⟨hclock, hlatched⟩ := h
  refine ⟨?_, ?_⟩
  · cases k with
    | control a v =>
      change (c.control a v).clock.Fits
      unfold control
      split_ifs <;> exact hclock
    | writeRam a v =>
      change (c.writeRam a v).clock.Fits
      unfold writeRam
      split
      · split
        · exact hclock
        · exact hclock.write _ v
        · exact hclock
      · exact hclock
    | tick cycles =>
      change (c.tick cycles).clock.Fits
      unfold tick
      split
      · exact hclock
      · exact hclock.advance _
  · rw [(c.latch_call k).1]
    split
    · exact hclock
    · exact hlatched

theorem Fits.run {c : Mbc3} (h : c.Fits) (calls : List Call) : (c.run calls).Fits := by
  induction calls generalizing c with
  | nil => exact h
  | cons k calls ih => exact ih (h.call k)

/-! ## What the program reads -/

/-- The gate is open and a clock's selector is in place. -/
structure ClockInView (c : Mbc3) : Prop where
  gate : c.ramOpen = true
  clock : c.hasClock = true
  select : 0x08 ≤ c.select ∧ c.select ≤ 0x0c

/-- The selectors of the clock show the fields of `s`. -/
structure Shows (c : Mbc3) (s : Clock) : Prop where
  seconds : c.select = 0x08 → ∀ a, c.readRam a = s.seconds
  minutes : c.select = 0x09 → ∀ a, c.readRam a = s.minutes
  hours : c.select = 0x0a → ∀ a, c.readRam a = s.hours
  dayLow : c.select = 0x0b → ∀ a, c.readRam a = s.dayLow
  dayHigh : c.select = 0x0c → ∀ a, c.readRam a = s.dayHigh

theorem ClockInView.shows_latched {c : Mbc3} (h : c.ClockInView) : c.Shows c.latched := by
  constructor <;> intro hselect a <;>
    simp [readRam, shown, h.gate, h.clock, hselect, Clock.Register.ofSelector?, Clock.read]

theorem ClockInView.cases {c : Mbc3} (h : c.ClockInView) :
    c.select = 0x08 ∨ c.select = 0x09 ∨ c.select = 0x0a ∨ c.select = 0x0b ∨ c.select = 0x0c := by
  have hselect := h.select
  grind

theorem Shows.readRam_eq {c c' : Mbc3} {s : Clock} (hc : c.Shows s) (hc' : c'.Shows s)
    (hview : c.ClockInView) (hselect : c'.select = c.select) (a b : UInt16) :
    c'.readRam b = c.readRam a := by
  rcases hview.cases with h | h | h | h | h <;> rw [h] at hselect
  · rw [hc.seconds h, hc'.seconds hselect]
  · rw [hc.minutes h, hc'.minutes hselect]
  · rw [hc.hours h, hc'.hours hselect]
  · rw [hc.dayLow h, hc'.dayLow hselect]
  · rw [hc.dayHigh h, hc'.dayHigh hselect]

/-- From power-on the snapshot is the clock as the last write of 1 right after a 0 found it, and
blank before the first one. The clock's selectors show it, and the same between two snapshots
whatever was called. Every field of clock and snapshot keeps to its bits, at each second of a tick
too, and none runs over when it is counted. -/
theorem snapshot_eq_clock (ramSize : Nat) (hasClock : Bool) (clockHz : Nat) (calls : List Call) :
    let after n := (powerOn ramSize hasClock clockHz).run (calls.take n)
    (∀ n, (Controller.powerOn (.mbc3 hasClock) ramSize clockHz).run (calls.take n) =
        .mbc3 (after n)) ∧
      (∀ n i, LastSnapshot calls n i → (after n).latched = (after i).clock) ∧
      (∀ n, (∀ i < n, ¬ TakesSnapshot calls i) → (after n).latched = {}) ∧
      (∀ n, (after n).ClockInView → (after n).Shows (after n).latched) ∧
      (∀ m n, m ≤ n → (∀ i < n, m ≤ i → ¬ TakesSnapshot calls i) →
        (after m).ClockInView → (after n).ClockInView → (after n).select = (after m).select →
        ∀ a b, (after n).readRam b = (after m).readRam a) ∧
      ∀ n, (after n).latched.Fits ∧ ∀ seconds,
        ((after n).clock.advance seconds).Fits ∧ ((after n).clock.advance seconds).Countable := by
  intro after
  have hstart : (powerOn ramSize hasClock clockHz).latchArmed = false := rfl
  have hfits : (powerOn ramSize hasClock clockHz).Fits := ⟨Clock.fits_start, Clock.fits_start⟩
  refine ⟨fun n => controller_run _ _, fun n i => latched_run_of_last calls hstart, ?_, ?_, ?_, ?_⟩
  · intro n hnone
    exact latched_run_of_le calls hstart n.zero_le fun i hi _ => hnone i hi
  · intro n hview
    exact hview.shows_latched
  · intro m n hle hnone hm hn hselect
    have hlatched := latched_run_of_le calls hstart hle hnone
    exact hm.shows_latched.readRam_eq (hlatched ▸ hn.shows_latched) hm hselect
  · intro n
    obtain ⟨hclock, hlatched⟩ := hfits.run (calls.take n)
    refine ⟨hlatched, fun seconds => ?_⟩
    exact ⟨hclock.advance seconds, (hclock.advance seconds).countable⟩

/-- A 1 that follows another 1 takes no snapshot, and setting the clock does not show. -/
theorem snapshot_eq_clock_second_one :
    let calls : List Call := [.control 0x0000 0x0a, .control 0x4000 0x08, .tick 25,
      .control 0x6000 0, .tick 12, .control 0x2000 7, .control 0x7fff 1, .writeRam 0xa000 33,
      .tick 10, .control 0x6000 1]
    let after n := (powerOn 0 true 10).run (calls.take n)
    LastSnapshot calls 10 6 ∧ (after 10).ClockInView ∧ (after 10).clock.seconds = 34 ∧
      (after 10).readRam 0xa000 = 3 := by
  intro calls after
  have hlast : LastSnapshot calls 10 6 := by decide
  have hview : (after 10).ClockInView := ⟨by decide, by decide, by decide⟩
  obtain ⟨-, hlatched, -, hshows, -⟩ := snapshot_eq_clock 0 true 10 calls
  have hread := (hshows 10 hview).seconds (by decide) 0xa000
  rw [hlatched 10 6 hlast] at hread
  exact ⟨hlast, hview, by decide, hread.trans (by decide)⟩

end Mbc3

end Handheld.Cartridge
