import Handheld.Proofs.CartridgeClock
import Mathlib.Algebra.GroupWithZero.Nat

/-!
# The time on a cartridge clock

The five registers are one count of seconds. It goes up by one with each whole second that has
gathered, and starts over after 512 days with the carry set.
-/

namespace Handheld.Cartridge

namespace Clock

/-! ## The time -/

/-- The seconds of the 512 days that the day counter holds. -/
def timeRange : Nat := 512 * 86400

def time (c : Clock) : Nat :=
  ((c.days * 24 + c.hours.toNat) * 60 + c.minutes.toNat) * 60 + c.seconds.toNat

def carried (c : Clock) : Bool := c.dayHigh &&& 0x80 != 0

/-- The fields make a time of day. The day counter is always in its range. -/
structure InRange (c : Clock) : Prop where
  seconds : c.seconds < 60
  minutes : c.minutes < 60
  hours : c.hours < 24

/-- What a clock is so many seconds later. -/
structure Later (c : Clock) (seconds : Nat) (c' : Clock) : Prop where
  inRange : c'.InRange
  time : c'.time = (c.time + seconds) % timeRange
  carried : c'.carried = true ↔ c.carried = true ∨ timeRange ≤ c.time + seconds

theorem days_lt (c : Clock) : c.days < 512 := by
  have hlow := c.dayLow.toNat_lt
  unfold days
  omega

theorem InRange.time_lt {c : Clock} (h : c.InRange) : c.time < timeRange := by
  have hdays := c.days_lt
  have hseconds : c.seconds.toNat < 60 := h.seconds
  have hminutes : c.minutes.toNat < 60 := h.minutes
  have hhours : c.hours.toNat < 24 := h.hours
  unfold Clock.time timeRange
  omega

theorem InRange.later_zero {c : Clock} (h : c.InRange) : c.Later 0 c where
  inRange := h
  time := (Nat.mod_eq_of_lt h.time_lt).symm
  carried := by simp [Nat.not_le.2 h.time_lt]

theorem Later.trans {a b c : Clock} {m n : Nat} (hab : a.Later m b) (hbc : b.Later n c) :
    a.Later (m + n) c where
  inRange := hbc.inRange
  time := by rw [hbc.time, hab.time, Nat.mod_add_mod, Nat.add_assoc]
  carried := by
    rw [hbc.carried, hab.carried, hab.time, or_assoc]
    -- A count that has already run over is smaller, but then the carry is set anyhow.
    have hover : timeRange ≤ a.time + m ∨ timeRange ≤ (a.time + m) % timeRange + n ↔
        timeRange ≤ a.time + (m + n) := by
      unfold timeRange
      omega
    rw [hover]

/-! ## One second -/

theorem mod_two_of_replaced (x b : UInt8) : (x &&& 0xfe ||| b).toNat % 2 = b.toNat % 2 := by
  have hcleared : x &&& 0xfe &&& 1 = 0 := by
    rw [UInt8.and_assoc]
    exact UInt8.and_zero
  have hone : (x &&& 0xfe ||| b) &&& 1 = b &&& 1 := by
    rw [KeySet.or_and, hcleared, UInt8.zero_or]
  rw [← Nat.and_one_is_mod, ← Nat.and_one_is_mod]
  exact congrArg UInt8.toNat hone

theorem days_nextDay (c : Clock) : c.nextDay.days = (c.days + 1) % 512 := by
  have hlt := c.days_lt
  unfold nextDay
  split
  · have hhigh : (UInt8.ofNat ((c.days + 1) / 256)).toNat = (c.days + 1) / 256 :=
      UInt8.toNat_ofNat_of_lt' (by unfold UInt8.size; omega)
    rw [days, mod_two_of_replaced, hhigh, UInt8.toNat_ofNat']
    omega
  · have hlast : c.days = 511 := by omega
    rw [days, mod_two_of_replaced, hlast]
    dsimp only
    decide

theorem carried_nextDay (c : Clock) :
    c.nextDay.carried = true ↔ c.carried = true ∨ c.days = 511 := by
  have hlt := c.days_lt
  unfold nextDay carried
  split
  · have hhigh := ofNat_and_of_lt_two (n := (c.days + 1) / 256) (by omega) (m := 0x80) rfl
    have hbefore : c.days ≠ 511 := by omega
    dsimp only
    rw [and_of_replaced _ hhigh rfl]
    simp only [hbefore, or_false]
  · have hlast : c.days = 511 := by omega
    have hset : (c.dayHigh &&& 0xfe ||| 0x80) &&& 0x80 ≠ 0 := by
      rw [UInt8.or_comm]
      exact (Kept.or 0x80 _).and_ne_zero (by decide)
    simp only [hlast, or_true, iff_true, bne_iff_ne]
    exact hset

theorem fields_nextDay (c : Clock) :
    c.nextDay.seconds = c.seconds ∧ c.nextDay.minutes = c.minutes ∧ c.nextDay.hours = c.hours := by
  unfold nextDay
  split <;> exact ⟨rfl, rfl, rfl⟩

theorem time_nextDay {c : Clock} (hseconds : c.seconds = 0) (hminutes : c.minutes = 0)
    (hhours : c.hours = 0) :
    c.nextDay.InRange ∧ c.nextDay.time = (c.days + 1) % 512 * 86400 := by
  obtain ⟨hs, hm, hh⟩ := c.fields_nextDay
  have hzero : (0 : UInt8).toNat = 0 := rfl
  refine ⟨⟨?_, ?_, ?_⟩, ?_⟩
  · rw [hs, hseconds]
    decide
  · rw [hm, hminutes]
    decide
  · rw [hh, hhours]
    decide
  · rw [Clock.time, days_nextDay, hs, hm, hh, hseconds, hminutes, hhours, hzero]
    omega

theorem later_of_same_day {c c' : Clock} (h : c'.InRange) (hlow : c'.dayLow = c.dayLow)
    (hhigh : c'.dayHigh = c.dayHigh)
    (hday : (c'.hours.toNat * 60 + c'.minutes.toNat) * 60 + c'.seconds.toNat =
      (c.hours.toNat * 60 + c.minutes.toNat) * 60 + c.seconds.toNat + 1) : c.Later 1 c' := by
  have hlt := h.time_lt
  have htime : c'.time = c.time + 1 := by
    unfold Clock.time days
    rw [hlow, hhigh]
    omega
  rw [htime] at hlt
  refine ⟨h, htime.trans (Nat.mod_eq_of_lt hlt).symm, ?_⟩
  rw [or_iff_left (Nat.not_le.2 hlt), carried, hhigh]
  rfl

theorem toNat_succ {x : UInt8} (h : x.toNat < 255) : (x + 1).toNat = x.toNat + 1 := by
  rw [UInt8.toNat_add, UInt8.toNat_one]
  omega

theorem InRange.tick {c : Clock} (h : c.InRange) : c.Later 1 c.tick := by
  have hseconds : c.seconds.toNat < 60 := h.seconds
  have hminutes : c.minutes.toNat < 60 := h.minutes
  have hhours : c.hours.toNat < 24 := h.hours
  have hsecond := toNat_succ (Nat.lt_trans hseconds (by decide))
  have hminute := toNat_succ (Nat.lt_trans hminutes (by decide))
  have hhour := toNat_succ (Nat.lt_trans hhours (by decide))
  have hzero : (0 : UInt8) < 60 := by decide
  unfold Clock.tick
  simp only [UInt8.lt_iff_toNat_lt, hsecond, hminute, hhour, UInt8.reduceToNat]
  split_ifs with hs hm hh
  · refine later_of_same_day ⟨?_, h.minutes, h.hours⟩ rfl rfl ?_
    · rwa [UInt8.lt_iff_toNat_lt, hsecond]
    · dsimp only
      omega
  · refine later_of_same_day ⟨hzero, ?_, h.hours⟩ rfl rfl ?_
    · rwa [UInt8.lt_iff_toNat_lt, hminute]
    · dsimp only [UInt8.reduceToNat]
      omega
  · refine later_of_same_day ⟨hzero, hzero, ?_⟩ rfl rfl ?_
    · rwa [UInt8.lt_iff_toNat_lt, hhour]
    · dsimp only [UInt8.reduceToNat]
      omega
  · -- The last second of a day.
    obtain ⟨hinRange, htime⟩ :=
      time_nextDay (c := { c with seconds := 0, minutes := 0, hours := 0 }) rfl rfl rfl
    have hdays := c.days_lt
    have hend : c.time = c.days * 86400 + 86399 := by
      unfold Clock.time
      omega
    refine ⟨hinRange, ?_, ?_⟩
    · rw [htime, hend]
      change (c.days + 1) % 512 * 86400 = _
      unfold timeRange
      omega
    · have hlast : timeRange ≤ c.time + 1 ↔ c.days = 511 := by
        unfold timeRange
        omega
      rw [hlast]
      exact carried_nextDay _

theorem InRange.advance {c : Clock} (h : c.InRange) (n : Nat) : c.Later n (c.advance n) := by
  induction n generalizing c with
  | zero => exact h.later_zero
  | succ n ih =>
    have hlater := h.tick.trans (ih h.tick.inRange)
    rw [Nat.add_comm 1 n] at hlater
    exact hlater

end Clock

/-! ## Seconds that have gathered -/

namespace Timekeeper

def gather (k : Timekeeper) (cycles : Nat) : Timekeeper :=
  { k with subSecond := k.subSecond + cycles }

/-- Whole seconds pass one after another, as long as one has gathered. Each takes its cycles and
moves the clock on. -/
inductive Elapses : Timekeeper → Nat → Timekeeper → Prop
  | done {k : Timekeeper} (h : k.subSecond < k.clockHz) : Elapses k 0 k
  | second {k k' : Timekeeper} {n : Nat} (h : k.clockHz ≤ k.subSecond)
    (rest : Elapses { k with clock := k.clock.tick, subSecond := k.subSecond - k.clockHz } n k') :
    Elapses k (n + 1) k'

def settle (k : Timekeeper) : Timekeeper :=
  { k with
    clock := k.clock.advance (k.subSecond / k.clockHz)
    subSecond := k.subSecond % k.clockHz }

theorem settle_of_lt {k : Timekeeper} (h : k.subSecond < k.clockHz) : k.settle = k := by
  unfold settle
  rw [Nat.div_eq_of_lt h, Nat.mod_eq_of_lt h]
  rfl

theorem settle_of_le {k : Timekeeper} (hpos : 0 < k.clockHz) (h : k.clockHz ≤ k.subSecond) :
    { k with clock := k.clock.tick, subSecond := k.subSecond - k.clockHz }.settle = k.settle := by
  unfold settle
  rw [Nat.div_eq_sub_div hpos h, Nat.mod_eq_sub_mod h]
  rfl

theorem elapses_settle {k : Timekeeper} (hpos : 0 < k.clockHz) :
    k.Elapses (k.subSecond / k.clockHz) k.settle := by
  generalize hn : k.subSecond / k.clockHz = n
  induction n generalizing k with
  | zero =>
    have hlt : k.subSecond < k.clockHz := (Nat.div_eq_zero_iff_lt hpos).1 hn
    rw [settle_of_lt hlt]
    exact .done hlt
  | succ n ih =>
    have hle : k.clockHz ≤ k.subSecond := Nat.le_of_not_lt fun hlt => by
      rw [Nat.div_eq_of_lt hlt] at hn
      contradiction
    rw [Nat.div_eq_sub_div hpos hle] at hn
    rw [← settle_of_le hpos hle]
    exact .second hle (ih hpos (Nat.succ_inj.1 hn))

theorem elapses_iff {k k' : Timekeeper} (hpos : 0 < k.clockHz) {n : Nat} :
    k.Elapses n k' ↔ n = k.subSecond / k.clockHz ∧ k' = k.settle := by
  constructor
  · intro h
    induction h with
    | done hlt => exact ⟨(Nat.div_eq_of_lt hlt).symm, (settle_of_lt hlt).symm⟩
    | second hle rest ih =>
      obtain ⟨rfl, rfl⟩ := ih hpos
      exact ⟨(Nat.div_eq_sub_div hpos hle).symm, settle_of_le hpos hle⟩
  · rintro ⟨rfl, rfl⟩
    exact elapses_settle hpos

end Timekeeper

/-! ## Ticks of a controller -/

namespace Mbc3

def timekeeper (c : Mbc3) : Timekeeper := ⟨c.clock, c.subSecond, c.clockHz⟩

/-- A controller that calls have brought to its state since power-on. -/
def Reached (c : Mbc3) : Prop :=
  ∃ ramSize hasClock clockHz calls,
    (Controller.powerOn (.mbc3 hasClock) ramSize clockHz).run calls = .mbc3 c

variable {c : Mbc3}

theorem tick_of_halted (h : c.clock.halted = true) (cycles : Nat) : c.tick cycles = c := by
  simp only [tick, h, Bool.or_true, if_true]

theorem tick_of_fits {cycles : Nat} (hticks : (!c.hasClock || c.clock.halted) = false)
    (hfits : c.subSecond + cycles < 2 ^ 32) :
    c.tick cycles =
      { c with
        clock := c.clock.advance ((c.subSecond + cycles) / c.clockHz)
        subSecond := (c.subSecond + cycles) % c.clockHz } := by
  have hsum : (c.subSecond + cycles) % 4294967296 = c.subSecond + cycles := Nat.mod_eq_of_lt hfits
  simp only [tick, hticks, hsum, Bool.false_eq_true, if_false]

theorem tick_tick {m n : Nat} (hfits : c.subSecond + (m + n) < 2 ^ 32) :
    (c.tick m).tick n = c.tick (m + n) := by
  cases hrests : !c.hasClock || c.clock.halted with
  | true => simp only [tick, hrests, if_true]
  | false =>
    have hle := Nat.mod_le (c.subSecond + m) c.clockHz
    have hfirst : c.subSecond + m < 2 ^ 32 := by omega
    rw [tick_of_fits hrests hfits, tick_of_fits hrests hfirst,
      tick_of_fits (by simpa only [Clock.halted_advance] using hrests) (by dsimp only; omega)]
    dsimp only
    rw [← Clock.advance_add, Timekeeper.seconds_add, Nat.mod_add_mod, Nat.add_assoc]

theorem foldl_tick (c : Mbc3) (first : Nat) (ticks : List Nat)
    (hfits : c.subSecond + (first :: ticks).sum < 2 ^ 32) :
    (first :: ticks).foldl tick c = c.tick (first :: ticks).sum := by
  induction ticks generalizing first with
  | nil => rfl
  | cons second ticks ih =>
    simp only [List.sum_cons] at hfits ih ⊢
    have hjoined := ih (first + second) (by omega)
    rw [List.foldl_cons, ← tick_tick (by omega)] at hjoined
    rw [List.foldl_cons, List.foldl_cons, hjoined, Nat.add_assoc]

theorem Reached.subSecond_lt (h : c.Reached) (hclock : c.hasClock = true) :
    c.subSecond < c.clockHz := by
  obtain ⟨ramSize, hasClock, clockHz, calls, hrun⟩ := h
  have hrange := (Controller.clockInRange_powerOn (.mbc3 hasClock) ramSize clockHz).run calls
  rw [hrun] at hrange
  exact hrange c.timekeeper (if_pos hclock)

theorem tick_zero (h : c.subSecond < c.clockHz) (hfits : c.subSecond < 2 ^ 32) :
    c.tick 0 = c := by
  cases hrests : !c.hasClock || c.clock.halted with
  | true => simp only [tick, hrests, if_true]
  | false =>
    rw [tick_of_fits hrests hfits, Nat.add_zero, Nat.div_eq_of_lt h, Nat.mod_eq_of_lt h]
    rfl

theorem timekeeper_tick (hclock : c.hasClock = true) (hrunning : c.clock.halted = false)
    {cycles : Nat} (hfits : c.subSecond + cycles < 2 ^ 32) :
    (c.tick cycles).timekeeper = (c.timekeeper.gather cycles).settle := by
  rw [tick_of_fits (by simp [hclock, hrunning]) hfits]
  rfl

/-- With the clock running, ticks made one by one are one tick of their sum, as long as 32 bits hold
it, which counts the whole seconds that have gathered one after another, keeps what is left of them,
and moves the time on by them. With the clock halted a tick does nothing. -/
theorem ticks_count_seconds (hclock : c.hasClock = true) (hpos : 1 ≤ c.clockHz) :
    (c.clock.halted = false → ∀ ticks : List Nat, ticks ≠ [] ∨ c.Reached →
      c.subSecond + ticks.sum < 2 ^ 32 →
      let later := ticks.foldl tick c
      let seconds := (c.subSecond + ticks.sum) / c.clockHz
      later = c.tick ticks.sum ∧
        (∀ n k, (c.timekeeper.gather ticks.sum).Elapses n k ↔ n = seconds ∧ k = later.timekeeper) ∧
        later.subSecond = (c.subSecond + ticks.sum) % c.clockHz ∧
        (c.clock.InRange → c.clock.Later seconds later.clock) ∧
        later.clock.halted = false) ∧
      (c.clock.halted = true → ∀ cycles, c.tick cycles = c) := by
  refine ⟨fun hrunning ticks hsome hfits => ?_, fun hhalted => tick_of_halted hhalted⟩
  intro later seconds
  have hlater : later = c.tick ticks.sum := by
    cases ticks with
    | nil =>
      have hreached := hsome.resolve_left (fun hnil => hnil rfl)
      exact (tick_zero (hreached.subSecond_lt hclock) hfits).symm
    | cons first ticks => exact foldl_tick c first ticks hfits
  have htimekeeper : later.timekeeper = (c.timekeeper.gather ticks.sum).settle := by
    rw [hlater]
    exact timekeeper_tick hclock hrunning hfits
  have htime : later.clock = c.clock.advance seconds := congrArg Timekeeper.clock htimekeeper
  refine ⟨hlater, fun n k => ?_, congrArg Timekeeper.subSecond htimekeeper, fun hrange => ?_, ?_⟩
  · rw [htimekeeper]
    exact Timekeeper.elapses_iff (k := c.timekeeper.gather ticks.sum) hpos
  · rw [htime]
    exact hrange.advance seconds
  · rw [htime, Clock.halted_advance, hrunning]

def beforeLastMidnight : Mbc3 :=
  { ram := Ram.blank 0
    hasClock := true
    clock := { seconds := 59, minutes := 59, hours := 23, dayLow := 0xff, dayHigh := 0x01 }
    clockHz := 1000
    subSecond := 999 }

theorem ticks_count_seconds_midnight :
    beforeLastMidnight.hasClock = true ∧ 1 ≤ beforeLastMidnight.clockHz ∧
      beforeLastMidnight.clock.halted = false ∧ ([1, 2500] ≠ [] ∨ beforeLastMidnight.Reached) ∧
      beforeLastMidnight.clock.InRange ∧ beforeLastMidnight.subSecond + [1, 2500].sum < 2 ^ 32 ∧
      ([1, 2500].foldl tick beforeLastMidnight).subSecond = 500 ∧
      ([1, 2500].foldl tick beforeLastMidnight).clock.time = 2 ∧
      ([1, 2500].foldl tick beforeLastMidnight).clock.carried = true := by
  have hclock : beforeLastMidnight.hasClock = true := rfl
  have hpos : 1 ≤ beforeLastMidnight.clockHz := by decide
  have hrunning : beforeLastMidnight.clock.halted = false := rfl
  have hsome : [1, 2500] ≠ [] ∨ beforeLastMidnight.Reached := .inl (by decide)
  have hrange : beforeLastMidnight.clock.InRange := ⟨by decide, by decide, by decide⟩
  have hfits : beforeLastMidnight.subSecond + [1, 2500].sum < 2 ^ 32 := by decide
  obtain ⟨-, -, hleft, htime, -⟩ := (ticks_count_seconds hclock hpos).1 hrunning _ hsome hfits
  refine ⟨hclock, hpos, hrunning, hsome, hrange, hfits, hleft, (htime hrange).time, ?_⟩
  exact (htime hrange).carried.2 (.inr (by decide))

end Mbc3

end Handheld.Cartridge
