import Handheld.Timer
import Mathlib.Tactic.Common

/-!
# One call of the timer

What a write and what the passing of some cycles do to the two counts. Whatever is called, the
counts stay below their bounds.
-/

namespace Handheld.Timer

/-! ## The period -/

theorem periodOf_pos (tac : UInt8) : 0 < periodOf tac := by
  unfold periodOf
  split <;> decide

theorem periodOf_congr {v w : UInt8} (h : v &&& 3 = w &&& 3) : periodOf v = periodOf w := by
  unfold periodOf
  rw [h]

theorem periodOf_and_7 (v : UInt8) : periodOf (v &&& 7) = periodOf v := by
  apply periodOf_congr
  rw [UInt8.and_assoc]
  rfl

/-! ## A write -/

/-- A write either starts the counter's period over at another frequency, or leaves the counts and
the frequency alone. -/
theorem write_cases (t : Timer) (r : Register) (v : UInt8) :
    (t.write r v).divCycles = t.divCycles ∧
      (r = .tac ∧ v &&& 3 ≠ t.tac &&& 3 ∧ (t.write r v).period = periodOf (t.write r v).tac ∧
          (t.write r v).counterCycles = 0 ∨
        (t.write r v).period = t.period ∧ (t.write r v).tac &&& 3 = t.tac &&& 3 ∧
          (t.write r v).counterCycles = t.counterCycles) := by
  cases r with
  | div | tima | tma => exact ⟨rfl, .inr ⟨rfl, rfl, rfl⟩⟩
  | tac =>
    unfold write
    dsimp only
    split
    · rename_i hretunes
      have hother : t.tac &&& 3 ≠ v &&& 3 := by simpa [retunes] using hretunes
      exact ⟨rfl, .inl ⟨rfl, hother.symm, (periodOf_and_7 v).symm, rfl⟩⟩
    · rename_i hretunes
      have hsame : t.tac &&& 3 = v &&& 3 := by simpa [retunes] using hretunes
      refine ⟨rfl, .inr ⟨rfl, ?_, rfl⟩⟩
      rw [UInt8.and_assoc]
      exact hsame.symm

/-! ## Some cycles -/

/-- A count with some more cycles. At its bound it starts over. -/
def gather (bound count cycles : Nat) : Nat :=
  if bound ≤ count + cycles then 0 else count + cycles

theorem gather_lt {bound : Nat} (h : 0 < bound) (count cycles : Nat) :
    gather bound count cycles < bound := by
  unfold gather
  split
  · exact h
  · rename_i hbelow
    exact Nat.lt_of_not_le hbelow

theorem dvd_gather {k count cycles : Nat} (hcount : k ∣ count) (hcycles : k ∣ cycles)
    (bound : Nat) : k ∣ gather bound count cycles := by
  unfold gather
  split
  · exact Nat.dvd_zero k
  · exact Nat.dvd_add hcount hcycles

section

variable (t : Timer) (cycles : Nat)

theorem advanceDiv_eq :
    t.advanceDiv cycles =
      { t with
        div := if divPeriod ≤ t.divCycles + cycles then t.div + 1 else t.div
        divCycles := gather divPeriod t.divCycles cycles } := by
  unfold advanceDiv gather
  split <;> rfl

theorem bump_eq :
    t.bump = (t.tima == 0xff, { t with tima := if t.tima = 0xff then t.tma else t.tima + 1 }) := by
  unfold bump
  split
  · rename_i htop
    simp [htop]
  · rename_i hbelow
    simp [hbelow]

theorem tma_advance : (t.advance cycles).2.tma = t.tma := by
  unfold advance advanceCounter advanceDiv bump
  split_ifs <;> rfl

theorem tac_advance : (t.advance cycles).2.tac = t.tac := by
  unfold advance advanceCounter advanceDiv bump
  split_ifs <;> rfl

theorem period_advance : (t.advance cycles).2.period = t.period := by
  unfold advance advanceCounter advanceDiv bump
  split_ifs <;> rfl

theorem enabled_advance : (t.advance cycles).2.enabled = t.enabled := by
  unfold enabled
  rw [tac_advance]

theorem div_advance :
    (t.advance cycles).2.div = if divPeriod ≤ t.divCycles + cycles then t.div + 1 else t.div := by
  have hdiv : (t.advance cycles).2.div = (t.advanceDiv cycles).div := by
    unfold advance advanceCounter bump
    split_ifs <;> rfl
  rw [hdiv, advanceDiv_eq]

theorem divCycles_advance :
    (t.advance cycles).2.divCycles = gather divPeriod t.divCycles cycles := by
  have hdiv : (t.advance cycles).2.divCycles = (t.advanceDiv cycles).divCycles := by
    unfold advance advanceCounter bump
    split_ifs <;> rfl
  rw [hdiv, advanceDiv_eq]

end

section

variable {t : Timer} {cycles : Nat}

theorem advance_of_off (h : t.enabled = false) :
    t.advance cycles = (false, t.advanceDiv cycles) := by
  rw [enabled] at h
  simp [advance, advanceCounter, advanceDiv_eq, enabled, h]

theorem advance_of_full (hon : t.enabled = true) (hfull : t.period ≤ t.counterCycles + cycles) :
    t.advance cycles = bump { t.advanceDiv cycles with counterCycles := 0 } := by
  rw [enabled] at hon
  simp [advance, advanceCounter, advanceDiv_eq, enabled, hon, hfull]

theorem advance_of_below (hon : t.enabled = true) (hbelow : ¬ t.period ≤ t.counterCycles + cycles) :
    t.advance cycles =
      (false, { t.advanceDiv cycles with counterCycles := t.counterCycles + cycles }) := by
  rw [enabled] at hon
  simp [advance, advanceCounter, advanceDiv_eq, enabled, hon, hbelow]

end

theorem counterCycles_advance (t : Timer) (cycles : Nat) :
    (t.advance cycles).2.counterCycles =
      if t.enabled then gather t.period t.counterCycles cycles else t.counterCycles := by
  unfold gather
  cases hon : t.enabled with
  | false => simp [advance_of_off hon, advanceDiv_eq]
  | true =>
    by_cases hfull : t.period ≤ t.counterCycles + cycles
    · simp [advance_of_full hon hfull, bump_eq, hfull]
    · simp [advance_of_below hon hfull, hfull]

/-! ## Bounds -/

/-- The period is that of the frequency bits, and the counts have not reached their bounds. -/
structure Bounded (t : Timer) : Prop where
  period_eq : t.period = periodOf t.tac
  counter_lt : t.counterCycles < t.period
  div_lt : t.divCycles < divPeriod

namespace Bounded

variable {t : Timer}

theorem powerOn : powerOn.Bounded := ⟨rfl, by decide, by decide⟩

theorem write (h : t.Bounded) (r : Register) (v : UInt8) : (t.write r v).Bounded := by
  obtain ⟨hdiv, ⟨-, -, hperiod, hcounter⟩ | ⟨hperiod, hfrequency, hcounter⟩⟩ := t.write_cases r v
  · refine ⟨hperiod, ?_, hdiv ▸ h.div_lt⟩
    rw [hcounter, hperiod]
    exact periodOf_pos _
  · refine ⟨?_, ?_, hdiv ▸ h.div_lt⟩
    · rw [hperiod, h.period_eq, periodOf_congr hfrequency]
    · rw [hcounter, hperiod]
      exact h.counter_lt

theorem advance (h : t.Bounded) (cycles : Nat) : (t.advance cycles).2.Bounded := by
  refine ⟨?_, ?_, ?_⟩
  · rw [period_advance, tac_advance, h.period_eq]
  · rw [period_advance, counterCycles_advance]
    split
    · exact gather_lt (Nat.zero_lt_of_lt h.counter_lt) _ _
    · exact h.counter_lt
  · rw [divCycles_advance]
    exact gather_lt (by decide) _ _

end Bounded

end Handheld.Timer
