import Handheld.Proofs.MachineRanges

/-!
# The clock on a cartridge

It is moved on by ticks and set by the program, and nothing else reaches it. Ticks add up as long as
the sum in which they gather does not run over.
-/

namespace Handheld

namespace Cartridge

/-! ## Ticks -/

namespace Clock

theorem and_of_replaced (x : UInt8) {b m : UInt8} (hb : b &&& m = 0) (hm : 0xfe &&& m = m) :
    (x &&& 0xfe ||| b) &&& m = x &&& m := by
  rw [KeySet.or_and, hb, UInt8.or_zero, UInt8.and_assoc, hm]

theorem ofNat_and_of_lt_two {n : Nat} (hn : n < 2) {m : UInt8} (hm : 1 &&& m = 0) :
    UInt8.ofNat n &&& m = 0 := by
  have hcases : n = 0 ∨ n = 1 := by omega
  rcases hcases with rfl | rfl
  · exact UInt8.zero_and
  · exact hm

theorem halted_nextDay (c : Clock) : c.nextDay.halted = c.halted := by
  unfold nextDay halted
  split
  · rename_i hdays
    have hhigh := ofNat_and_of_lt_two (n := (c.days + 1) / 256) (by omega) (m := 0x40) rfl
    dsimp only
    rw [and_of_replaced _ hhigh rfl]
  · dsimp only
    rw [and_of_replaced _ rfl rfl]

theorem halted_tick (c : Clock) : c.tick.halted = c.halted := by
  unfold tick
  split_ifs
  · rfl
  · rfl
  · rfl
  · exact halted_nextDay _

theorem halted_advance (c : Clock) (n : Nat) : (c.advance n).halted = c.halted := by
  induction n generalizing c with
  | zero => rfl
  | succ n ih => rw [advance, ih, halted_tick]

theorem advance_add (c : Clock) (m n : Nat) : c.advance (m + n) = (c.advance m).advance n := by
  induction m generalizing c with
  | zero => rw [Nat.zero_add, advance]
  | succ m ih => rw [Nat.succ_add, advance, advance, ih]

end Clock

/-- What keeps time: the clock, the cycles since its last second, and those of one second. -/
structure Timekeeper where
  clock : Clock
  subSecond : Nat
  clockHz : Nat
deriving Repr, DecidableEq

namespace Timekeeper

def tick (k : Timekeeper) (cycles : Nat) : Timekeeper :=
  if k.clock.halted then k
  else
    let gathered := (k.subSecond + cycles) % 4294967296
    { k with clock := k.clock.advance (gathered / k.clockHz), subSecond := gathered % k.clockHz }

/-- As many cycles pass and none of them is lost. -/
def pass (k : Timekeeper) (cycles : Nat) : Timekeeper :=
  if k.clock.halted then k
  else
    { k with
      clock := k.clock.advance ((k.subSecond + cycles) / k.clockHz)
      subSecond := (k.subSecond + cycles) % k.clockHz }

/-- The sums in which the ticks gather, one after another, are kept whole. A halted clock makes
none. -/
def Holds (k : Timekeeper) : List Nat → Prop
  | [] => True
  | t :: ticks =>
    (k.clock.halted = false → k.subSecond + t < 2 ^ 32) ∧ (k.tick t).Holds ticks

theorem tick_eq_pass {k : Timekeeper} {cycles : Nat}
    (h : k.clock.halted = false → k.subSecond + cycles < 2 ^ 32) :
    k.tick cycles = k.pass cycles := by
  unfold tick pass
  cases hhalted : k.clock.halted with
  | true => rfl
  | false =>
    have hsum : (k.subSecond + cycles) % 4294967296 = k.subSecond + cycles :=
      Nat.mod_eq_of_lt (h hhalted)
    rw [hsum]

@[simp] theorem clockHz_tick (k : Timekeeper) (cycles : Nat) :
    (k.tick cycles).clockHz = k.clockHz := by
  unfold tick
  split <;> rfl

theorem seconds_add (start m n hz : Nat) :
    (start + m) / hz + ((start + m) % hz + n) / hz = (start + (m + n)) / hz := by
  rcases Nat.eq_zero_or_pos hz with rfl | hpos
  · simp only [Nat.div_zero]
  · rw [Nat.add_comm, ← Nat.add_mul_div_left _ _ hpos, Nat.add_right_comm, Nat.mod_add_div,
      Nat.add_assoc]

theorem pass_pass (k : Timekeeper) (m n : Nat) : (k.pass m).pass n = k.pass (m + n) := by
  cases hhalted : k.clock.halted with
  | true => simp only [pass, hhalted, if_true]
  | false =>
    simp only [pass, hhalted, Clock.halted_advance, Bool.false_eq_true, if_false]
    rw [← Clock.advance_add, seconds_add, Nat.mod_add_mod, Nat.add_assoc]

end Timekeeper

/-! ## Calls of the controller -/

namespace Controller

def timekeeper? : Controller → Option Timekeeper
  | mbc3 c => if c.hasClock then some ⟨c.clock, c.subSecond, c.clockHz⟩ else none
  | _ => none

/-- The RAM window shows a register of the clock, and writes reach it. -/
def showsClock : Controller → Bool
  | mbc3 c =>
    c.ramOpen &&
      match c.shown with
      | .clock _ => true
      | _ => false
  | _ => false

theorem timekeeper?_tick (c : Controller) (cycles : Nat) :
    (c.tick cycles).timekeeper? = c.timekeeper?.map (·.tick cycles) := by
  cases c with
  | unbanked | mbc1 | mbc2 => rfl
  | mbc3 c =>
    simp only [tick, timekeeper?, Mbc3.tick]
    cases hclock : c.hasClock with
    | false => simp [hclock]
    | true => cases hhalted : c.clock.halted <;> simp [hclock, hhalted, Timekeeper.tick]

theorem timekeeper?_control (c : Controller) (a : UInt16) (v : UInt8) :
    (c.control a v).timekeeper? = c.timekeeper? := by
  cases c with
  | unbanked | mbc1 | mbc2 => rfl
  | mbc3 c =>
    simp only [control, timekeeper?, Mbc3.control]
    split_ifs <;> rfl

theorem timekeeper?_writeRam {c : Controller} (h : c.showsClock = false) (a : UInt16) (v : UInt8) :
    (c.writeRam a v).timekeeper? = c.timekeeper? := by
  cases c with
  | unbanked | mbc1 | mbc2 => rfl
  | mbc3 c =>
    simp only [showsClock] at h
    simp only [writeRam, Mbc3.writeRam]
    cases hopen : c.ramOpen with
    | false => rfl
    | true =>
      rw [hopen] at h
      cases hshown : c.shown with
      | bank n => rfl
      | nothing => rfl
      | clock r =>
        rw [hshown] at h
        contradiction

end Controller

namespace Timekeeper

/-- No whole second is left to count. -/
def InRange (k : Timekeeper) : Prop := k.subSecond < k.clockHz

theorem InRange.tick {k : Timekeeper} (h : k.InRange) (cycles : Nat) : (k.tick cycles).InRange := by
  unfold Timekeeper.tick
  split
  · exact h
  · exact Nat.mod_lt _ (Nat.zero_lt_of_lt h)

theorem InRange.pass_zero {k : Timekeeper} (h : k.InRange) : k.pass 0 = k := by
  unfold InRange at h
  unfold Timekeeper.pass
  rw [Nat.add_zero, Nat.div_eq_of_lt h, Nat.mod_eq_of_lt h]
  split <;> rfl

theorem InRange.foldl_tick {k : Timekeeper} (h : k.InRange) {ticks : List Nat}
    (hholds : k.Holds ticks) : ticks.foldl Timekeeper.tick k = k.pass ticks.sum := by
  induction ticks generalizing k with
  | nil => exact h.pass_zero.symm
  | cons t ticks ih =>
    obtain ⟨hfirst, hrest⟩ := hholds
    rw [List.foldl_cons, ih (h.tick t) hrest, tick_eq_pass hfirst, pass_pass, List.sum_cons]

theorem InRange.holds {k : Timekeeper} (h : k.InRange) {most : Nat}
    (hroom : k.clockHz + most ≤ 2 ^ 32) {ticks : List Nat} (hmost : ∀ t ∈ ticks, t ≤ most) :
    k.Holds ticks := by
  induction ticks generalizing k with
  | nil => trivial
  | cons t ticks ih =>
    refine ⟨fun _ => ?_, ih (h.tick t) (by rwa [clockHz_tick]) fun u hu => ?_⟩
    · have hsub : k.subSecond < k.clockHz := h
      have ht := hmost t List.mem_cons_self
      omega
    · exact hmost u (List.mem_cons_of_mem _ hu)

end Timekeeper

namespace Controller

def ClockInRange (c : Controller) : Prop := ∀ k, c.timekeeper? = some k → k.InRange

theorem clockInRange_powerOn (kind : Kind) (ramSize clockHz : Nat) :
    (powerOn kind ramSize clockHz).ClockInRange := by
  intro k hk
  cases kind with
  | unbanked | mbc1 | mbc2 => contradiction
  | mbc3 hasClock =>
    simp only [powerOn, timekeeper?, Mbc3.powerOn] at hk
    split at hk
    · cases hk
      exact Nat.lt_of_lt_of_le Nat.zero_lt_one (Nat.le_max_right clockHz 1)
    · contradiction

theorem ClockInRange.writeRam {c : Controller} (h : c.ClockInRange) (a : UInt16) (v : UInt8) :
    (c.writeRam a v).ClockInRange := by
  cases hshows : c.showsClock with
  | false =>
    unfold ClockInRange
    rw [timekeeper?_writeRam hshows]
    exact h
  | true =>
    cases c with
    | unbanked | mbc1 | mbc2 => contradiction
    | mbc3 c =>
      simp only [showsClock, Bool.and_eq_true] at hshows
      obtain ⟨hopen, hshown⟩ := hshows
      split at hshown
      · rename_i r hr
        intro k hk
        simp only [Controller.writeRam, Mbc3.writeRam, hopen, hr, if_true, timekeeper?,
          Mbc3.writeClock] at hk
        split at hk
        · rename_i hclock
          have hbefore := h ⟨c.clock, c.subSecond, c.clockHz⟩ (by simp [timekeeper?, hclock])
          cases hk
          unfold Timekeeper.InRange at hbefore ⊢
          dsimp only at hbefore ⊢
          split
          · exact Nat.zero_lt_of_lt hbefore
          · exact hbefore
        · contradiction
      · contradiction

theorem ClockInRange.call {c : Controller} (h : c.ClockInRange) (k : Call) :
    (c.call k).ClockInRange := by
  cases k with
  | control a v =>
    unfold ClockInRange
    rw [Controller.call, timekeeper?_control]
    exact h
  | writeRam a v => exact h.writeRam a v
  | tick cycles =>
    intro k hk
    rw [Controller.call, timekeeper?_tick] at hk
    obtain ⟨before, hbefore, rfl⟩ := Option.map_eq_some_iff.1 hk
    exact (h before hbefore).tick cycles

theorem ClockInRange.run {c : Controller} (h : c.ClockInRange) (calls : List Call) :
    (c.run calls).ClockInRange := by
  induction calls generalizing c with
  | nil => exact h
  | cons k calls ih => exact ih (h.call k)

end Controller

/-! ## Stores -/

def timekeeper? (c : Cartridge) : Option Timekeeper := c.controller.timekeeper?

/-- What a store on the bus does to the cartridge. -/
def store (c : Cartridge) (s : Cpu.Store) : Cartridge :=
  match Region.ofAddress s.address with
  | .romFixed | .romBanked => c.control s.address s.value
  | .cartridgeRam => c.writeRam s.address s.value
  | _ => c

def storeAll (c : Cartridge) (stores : List Cpu.Store) : Cartridge := stores.foldl store c

/-- One of the stores, made one after another, sets a register of the clock. -/
def setsClock (c : Cartridge) : List Cpu.Store → Bool
  | [] => false
  | s :: stores =>
    Region.ofAddress s.address == .cartridgeRam && c.controller.showsClock ||
      (c.store s).setsClock stores

theorem timekeeper?_tick (c : Cartridge) (cycles : Nat) :
    (c.tick cycles).timekeeper? = c.timekeeper?.map (·.tick cycles) :=
  c.controller.timekeeper?_tick cycles

end Cartridge

namespace Bus

/-! ## The cartridge in a bus -/

theorem cartridge_tick (bus : Bus) (cycles : Nat) :
    (bus.tick cycles).cartridge = bus.cartridge.tick cycles := by
  unfold tick
  dsimp only
  split <;> rfl

/-- Less than a second has gathered on the cartridge since the clock's last one. -/
def ClockInRange (bus : Bus) : Prop := bus.cartridge.controller.ClockInRange

theorem ClockInRange.change {bus bus' : Bus} (hchange : Change bus bus') (h : bus.ClockInRange) :
    bus'.ClockInRange := by
  cases hchange with
  | store | timer | request | acknowledge | flags => exact h
  | cartridge call => exact Cartridge.Controller.ClockInRange.call h call
  | rest _ hcartridge =>
    unfold ClockInRange
    rw [hcartridge]
    exact h

theorem ClockInRange.tick {bus : Bus} (h : bus.ClockInRange) (cycles : Nat) :
    (bus.tick cycles).ClockInRange := by
  unfold ClockInRange
  rw [cartridge_tick]
  exact Cartridge.Controller.ClockInRange.call h (.tick cycles)

end Bus

namespace Machine

end Machine

end Handheld
