import Handheld.Proofs.InterruptFlags
import Handheld.Proofs.TimerSteps

/-!
# How often the timer overflows

Calls that are all of one size, so many of which make up a period, lose nothing at its end. The
counter then goes round from its modulo, and overflows once in each round.
-/

namespace Handheld

namespace Timer

/-! ## Rounds -/

theorem round_cases {q : Nat} (hq : 0 < q) (n : Nat) :
    (q ∣ n + 1 ∧ n % q + 1 = q ∧ (n + 1) % q = 0 ∧ (n + 1) / q = n / q + 1) ∨
      (¬ q ∣ n + 1 ∧ n % q + 1 < q ∧ (n + 1) % q = n % q + 1 ∧ (n + 1) / q = n / q) := by
  have hparts := Nat.div_add_mod n q
  have hnext := Nat.div_add_mod (n + 1) q
  have hlt := Nat.mod_lt (n + 1) hq
  by_cases hdvd : q ∣ n + 1
  · have hover : (n + 1) / q = n / q + 1 := Nat.succ_div_of_dvd hdvd
    have hzero : (n + 1) % q = 0 := Nat.mod_eq_zero_of_dvd hdvd
    rw [hover, hzero, Nat.mul_succ] at hnext
    exact .inl ⟨hdvd, by omega, hzero, hover⟩
  · have hsame : (n + 1) / q = n / q := Nat.succ_div_of_not_dvd hdvd
    rw [hsame] at hnext
    exact .inr ⟨hdvd, by omega, by omega, hsame⟩

/-- It takes `q` calls of this size to reach a bound. -/
structure Reaches (bound cycles q : Nat) : Prop where
  pos : 0 < q
  below : cycles * (q - 1) < bound
  reached : bound ≤ cycles * q

/-- A count that takes `q` calls starts over with every `q`-th one. -/
theorem Reaches.gather {bound cycles q : Nat} (h : Reaches bound cycles q) (n : Nat) :
    (bound ≤ cycles * (n % q) + cycles ↔ q ∣ n + 1) ∧
      Timer.gather bound (cycles * (n % q)) cycles = cycles * ((n + 1) % q) := by
  have hsum : cycles * (n % q) + cycles = cycles * (n % q + 1) := (Nat.mul_succ _ _).symm
  unfold Timer.gather
  rw [hsum]
  rcases round_cases h.pos n with ⟨hdvd, hlast, hzero, -⟩ | ⟨hdvd, hbefore, hnext, -⟩
  · have hfull : bound ≤ cycles * (n % q + 1) := by
      rw [hlast]
      exact h.reached
    simp [hfull, hdvd, hzero]
  · have hle : cycles * (n % q + 1) ≤ cycles * (q - 1) := Nat.mul_le_mul_left _ (by omega)
    have hbelow : ¬ bound ≤ cycles * (n % q + 1) := by
      have := h.below
      omega
    simp [hbelow, hdvd, hnext]

/-! ## Calls of one size -/

def after (t : Timer) (cycles : Nat) : Nat → Timer
  | 0 => t
  | n + 1 => ((t.after cycles n).advance cycles).2

section

variable (t : Timer) (cycles n : Nat)

theorem tac_after : (t.after cycles n).tac = t.tac := by
  induction n with
  | zero => rfl
  | succ n ih => rw [after, tac_advance, ih]

theorem tma_after : (t.after cycles n).tma = t.tma := by
  induction n with
  | zero => rfl
  | succ n ih => rw [after, tma_advance, ih]

theorem period_after : (t.after cycles n).period = t.period := by
  induction n with
  | zero => rfl
  | succ n ih => rw [after, period_advance, ih]

theorem enabled_after : (t.after cycles n).enabled = t.enabled := by
  unfold enabled
  rw [tac_after]

end

/-! ## The divider -/

theorem divider_after {t : Timer} (hdiv : t.div = 0) (hcycles : t.divCycles = 0)
    {cycles q : Nat} (hq : Reaches divPeriod cycles q) (n : Nat) :
    (t.after cycles n).divCycles = cycles * (n % q) ∧
      (t.after cycles n).div.toNat = n / q % 256 := by
  induction n with
  | zero => simp [after, hdiv, hcycles]
  | succ n ih =>
    obtain ⟨hcount, hvalue⟩ := ih
    obtain ⟨hfull, hgather⟩ := hq.gather n
    rw [after, divCycles_advance, div_advance, hcount]
    refine ⟨hgather, ?_⟩
    rcases round_cases hq.pos n with ⟨hdvd, -, -, hover⟩ | ⟨hdvd, -, -, hsame⟩
    · rw [if_pos (hfull.2 hdvd), UInt8.toNat_add, hvalue, hover]
      exact Nat.mod_add_mod _ _ _
    · rw [if_neg (mt hfull.1 hdvd), hvalue, hsame]

/-! ## The counter -/

/-- The number of values in a round: from the modulo up to 255. -/
def roundLength (tma : UInt8) : Nat := 256 - tma.toNat

theorem roundLength_pos (tma : UInt8) : 0 < roundLength tma := by
  have := tma.toNat_lt
  unfold roundLength
  omega

/-- What a counter shows `k` steps after it began with its modulo. -/
def Shows (tma tima : UInt8) (k : Nat) : Prop := tima.toNat = tma.toNat + k % roundLength tma

theorem Shows.next {tma tima : UInt8} {k : Nat} (h : Shows tma tima k) :
    (tima = 0xff ↔ roundLength tma ∣ k + 1) ∧
      Shows tma (if tima = 0xff then tma else tima + 1) (k + 1) := by
  have hlt := tma.toNat_lt
  have hlength : roundLength tma = 256 - tma.toNat := rfl
  have htop : tima = 0xff ↔ tima.toNat = 255 := UInt8.toNat_inj.symm
  unfold Shows at *
  rcases round_cases (roundLength_pos tma) k with ⟨hdvd, hlast, hzero, -⟩ | ⟨hdvd, hlast, hnext, -⟩
  · have hfull : tima = 0xff := htop.2 (by omega)
    simp [hfull, hdvd, hzero]
  · have hbelow : ¬ tima = 0xff := mt htop.1 (by omega)
    refine ⟨iff_of_false hbelow hdvd, ?_⟩
    rw [if_neg hbelow, UInt8.toNat_add, hnext]
    simp only [UInt8.reduceToNat]
    omega

/-- The timer is on, at the start of a period and of a round of its counter. -/
structure Fresh (t : Timer) : Prop where
  enabled : t.enabled = true
  period_eq : t.period = periodOf t.tac
  counter_eq : t.counterCycles = 0
  tima_eq : t.tima = t.tma

section

variable {t : Timer} {cycles q : Nat}

theorem Shows.advance (hon : t.enabled = true) (hq : Reaches t.period cycles q) {n : Nat}
    (hcount : t.counterCycles = cycles * (n % q)) (h : Shows t.tma t.tima (n / q)) :
    ((t.advance cycles).1 = true ↔ q ∣ n + 1 ∧ roundLength t.tma ∣ (n + 1) / q) ∧
      Shows t.tma (t.advance cycles).2.tima ((n + 1) / q) := by
  obtain ⟨hfull, -⟩ := hq.gather n
  rw [← hcount] at hfull
  rcases round_cases hq.pos n with ⟨hdvd, -, -, hover⟩ | ⟨hdvd, -, -, hsame⟩
  · obtain ⟨htop, hshows⟩ := h.next
    rw [advance_of_full hon (hfull.2 hdvd), bump_eq, advanceDiv_eq, hover]
    exact ⟨by simp [hdvd, htop], hshows⟩
  · rw [advance_of_below hon (mt hfull.1 hdvd), advanceDiv_eq, hsame]
    exact ⟨by simp [hdvd], h⟩

theorem Fresh.after (h : t.Fresh) (hq : Reaches t.period cycles q) (n : Nat) :
    (t.after cycles n).counterCycles = cycles * (n % q) ∧
      Shows t.tma (t.after cycles n).tima (n / q) := by
  induction n with
  | zero => simp [Timer.after, Shows, h.counter_eq, h.tima_eq]
  | succ n ih =>
    obtain ⟨hcount, hshows⟩ := ih
    have hon : (t.after cycles n).enabled = true := (t.enabled_after cycles n).trans h.enabled
    rw [← t.period_after cycles n] at hq
    rw [← t.tma_after cycles n] at hshows ⊢
    refine ⟨?_, (hshows.advance hon hq hcount).2⟩
    rw [Timer.after, counterCycles_advance, if_pos hon, hcount]
    exact (hq.gather n).2

theorem dvd_and_dvd_div_iff {k q n : Nat} : q ∣ n ∧ k ∣ n / q ↔ k * q ∣ n := by
  constructor
  · rintro ⟨hq, hk⟩
    rw [Nat.mul_comm]
    exact (Nat.dvd_div_iff_mul_dvd hq).1 hk
  · intro h
    have hq : q ∣ n := dvd_of_mul_left_dvd h
    rw [Nat.mul_comm] at h
    exact ⟨hq, (Nat.dvd_div_iff_mul_dvd hq).2 h⟩

theorem Fresh.advance_after (h : t.Fresh) (hcycles : cycles ∣ t.period) (n : Nat) :
    (((t.after cycles n).advance cycles).1 = true ↔
        (256 - t.tma.toNat) * t.period ∣ (n + 1) * cycles) ∧
      (t.after cycles (n + 1)).tima.toNat =
        t.tma.toNat + (n + 1) * cycles / t.period % (256 - t.tma.toNat) := by
  have hperiod : 0 < t.period := by
    rw [h.period_eq]
    exact periodOf_pos t.tac
  obtain ⟨q, hq⟩ := hcycles
  have hcycles : 0 < cycles := Nat.pos_of_mul_pos_right (hq ▸ hperiod)
  have hcalls : 0 < q := Nat.pos_of_mul_pos_left (hq ▸ hperiod)
  have hreaches : Reaches t.period cycles q := by
    refine ⟨hcalls, ?_, Nat.le_of_eq hq⟩
    rw [hq]
    exact Nat.mul_lt_mul_of_pos_left (by omega) hcycles
  have hon : (t.after cycles n).enabled = true := (t.enabled_after cycles n).trans h.enabled
  obtain ⟨hcount, hshows⟩ := h.after hreaches n
  rw [← t.period_after cycles n] at hreaches
  rw [← t.tma_after cycles n] at hshows
  obtain ⟨hoverflow, hnext⟩ := hshows.advance hon hreaches hcount
  rw [tma_after] at hoverflow hnext
  -- The size of a call drops out, and calls are left on both sides.
  rw [hq, Nat.mul_comm (n + 1) cycles, Nat.mul_left_comm, Nat.mul_div_mul_left _ _ hcycles,
    Nat.mul_dvd_mul_iff_left hcycles]
  exact ⟨hoverflow.trans dvd_and_dvd_div_iff, hnext⟩

end

end Timer

/-! ## On the bus -/

namespace Bus

def ticked (b : Bus) (cycles : Nat) : Nat → Bus
  | 0 => b
  | n + 1 => (b.ticked cycles n).tick cycles

theorem timer_ticked (b : Bus) (cycles n : Nat) :
    (b.ticked cycles n).timer = b.timer.after cycles n := by
  induction n with
  | zero => rfl
  | succ n ih => rw [ticked, timer_tick, ih, Timer.after]

theorem read_divider (b : Bus) : b.read 0xff04 = b.timer.div := rfl

theorem read_counter (b : Bus) : b.read 0xff05 = b.timer.tima := rfl

end Bus

namespace Timer

/-- From the start of a period and of a round, with ticks that are all of one size dividing the
period: the tick that ends a whole number of rounds overflows the counter and requests the
interrupt, and no other tick does. In between the counter reads its modulo and the periods that are
over in this round. The divider goes up every 256 cycles if they come in machine cycles. -/
theorem overflows_each_round :
    (∀ (t : Timer) (c : Nat), t.Fresh → c ∣ t.period → ∀ j,
      let m := t.tma.toNat
      (((t.after c j).advance c).1 = true ↔ (256 - m) * t.period ∣ (j + 1) * c) ∧
        (t.after c (j + 1)).tima.toNat = m + (j + 1) * c / t.period % (256 - m)) ∧
    (∀ (b : Bus) (c : Nat), b.timer.Fresh → c ∣ b.timer.period → ∀ j,
      let m := b.timer.tma.toNat
      ((b.ticked c (j + 1)).interruptFlags =
        if (256 - m) * b.timer.period ∣ (j + 1) * c then
          (b.ticked c j).interruptFlags ||| Interrupt.timer.mask
        else (b.ticked c j).interruptFlags) ∧
        ((b.ticked c (j + 1)).read 0xff05).toNat = m + (j + 1) * c / b.timer.period % (256 - m)) ∧
    (∀ t : Timer, t.div = 0 → t.divCycles = 0 → ∀ j,
      (t.after 4 j).div.toNat = 4 * j / 256 % 256) ∧
    ∀ b : Bus, b.timer.div = 0 → b.timer.divCycles = 0 → ∀ j,
      ((b.ticked 4 j).read 0xff04).toNat = 4 * j / 256 % 256 := by
  have hdivider : ∀ t : Timer, t.div = 0 → t.divCycles = 0 → ∀ j,
      (t.after 4 j).div.toNat = 4 * j / 256 % 256 := by
    intro t hdiv hcycles j
    have hsixtyfour : Reaches divPeriod 4 64 := ⟨by decide, by decide, by decide⟩
    rw [(divider_after hdiv hcycles hsixtyfour j).2]
    omega
  refine ⟨fun t c hfresh hc j => hfresh.advance_after hc j, ?_, hdivider, ?_⟩
  · intro b c hfresh hc j m
    obtain ⟨hoverflow, hshows⟩ := hfresh.advance_after hc j
    rw [Bus.read_counter, Bus.timer_ticked, Bus.ticked, Bus.interruptFlags_tick, Bus.timer_ticked]
    exact ⟨if_congr hoverflow rfl rfl, hshows⟩
  · intro b hdiv hcycles j
    rw [Bus.read_divider, Bus.timer_ticked]
    exact hdivider b.timer hdiv hcycles j

theorem overflows_each_round_of_two :
    let t := ((powerOn.write .tma 0xfe).write .tima 0xfe).write .tac 5
    let b : Bus := { (default : Bus) with timer := t }
    t.Fresh ∧ 8 ∣ t.period ∧ t.div = 0 ∧ t.divCycles = 0 ∧
      ((t.after 8 2).advance 8).1 = false ∧ (t.after 8 3).tima.toNat = 0xff ∧
      ((t.after 8 3).advance 8).1 = true ∧ (t.after 8 4).tima.toNat = 0xfe ∧
      (b.ticked 8 4).interruptFlags = (b.ticked 8 3).interruptFlags ||| 0x04 ∧
      (t.after 4 100000).div.toNat = 26 ∧ ((b.ticked 4 128).read 0xff04).toNat = 2 := by
  intro t b
  have hfresh : t.Fresh := ⟨by decide, by decide, by decide, by decide⟩
  have hperiod : 8 ∣ t.period := by decide
  obtain ⟨htimer, hbus, hdivider, hread⟩ := overflows_each_round
  have hthird := htimer t 8 hfresh hperiod 2
  have hfourth := htimer t 8 hfresh hperiod 3
  have hrequest := (hbus b 8 hfresh hperiod 3).1
  refine ⟨hfresh, hperiod, rfl, rfl, ?_, hthird.2.trans (by decide), ?_,
    hfourth.2.trans (by decide), ?_, ?_, ?_⟩
  · exact eq_false_of_ne_true (mt hthird.1.1 (by decide))
  · exact hfourth.1.2 (by decide)
  · rw [hrequest, if_pos (by decide)]
    rfl
  · exact hdivider t rfl rfl 100000
  · exact hread b rfl rfl 128

end Timer

end Handheld
