import Handheld.Proofs.TimerSteps
import Mathlib.Algebra.GroupWithZero.Nat

/-!
# How far the timer drifts

A count that reaches its bound starts over at zero and loses what it overshot. So a register behind
such a count falls behind the cycles that pass, by less than the longest call for each time that it
goes up.
-/

namespace Handheld.Timer

/-! ## Counts that start over -/

/-- How often a count starts over while cycles are added to it, some at a time. -/
def restarts (bound : Nat) : Nat → List Nat → Nat
  | _, [] => 0
  | count, c :: cs =>
    (decide (bound ≤ count + c)).toNat + restarts bound (gather bound count c) cs

section

variable {bound count : Nat}

/-- Each time a count starts over it has taken its bound at least. -/
theorem restarts_mul_le (bound count : Nat) (cs : List Nat) :
    restarts bound count cs * bound ≤ count + cs.sum := by
  induction cs generalizing count with
  | nil => simp [restarts]
  | cons c cs ih =>
    have hrest := ih (gather bound count c)
    unfold gather at hrest
    simp only [restarts, gather, List.sum_cons, Nat.add_mul]
    split at hrest
    · rename_i hfull
      simp only [hfull, decide_true, Bool.toNat_true, if_true]
      omega
    · rename_i hbelow
      simp only [hbelow, decide_false, Bool.toNat_false, if_false]
      omega

theorem le_restarts_mul {most : Nat} (hcount : count < bound) {cs : List Nat}
    (hmost : ∀ c ∈ cs, c ≤ most) :
    count + cs.sum ≤ restarts bound count cs * (bound + most - 1) + bound - 1 := by
  induction cs generalizing count with
  | nil =>
    simp only [restarts, List.sum_nil, Nat.zero_mul]
    omega
  | cons c cs ih =>
    have hc : c ≤ most := hmost c List.mem_cons_self
    have hnext : gather bound count c < bound := gather_lt (Nat.zero_lt_of_lt hcount) _ _
    have hrest := ih hnext fun c hc => hmost c (List.mem_cons_of_mem _ hc)
    unfold gather at hrest
    simp only [restarts, gather, List.sum_cons, Nat.add_mul]
    split at hrest
    · rename_i hfull
      simp only [hfull, decide_true, Bool.toNat_true, if_true]
      omega
    · rename_i hbelow
      simp only [hbelow, decide_false, Bool.toNat_false, if_false]
      omega

end

/-! ## Calls -/

inductive Call where
  | advance (cycles : Nat)
  | write (r : Register) (v : UInt8)
deriving Repr, DecidableEq

def call (t : Timer) : Call → Timer
  | .advance cycles => (t.advance cycles).2
  | .write r v => t.write r v

def run (t : Timer) (calls : List Call) : Timer := calls.foldl call t

/-- How many of the calls do `p` to the timer. -/
def tally (p : Timer → Call → Bool) : Timer → List Call → Nat
  | _, [] => 0
  | t, k :: ks => (p t k).toNat + tally p (t.call k) ks

def bumpsDiv (t : Timer) : Call → Bool
  | .advance cycles => (t.advance cycles).2.div != t.div
  | .write .. => false

/-- A call makes the counter go up, or overflow. -/
def bumpsCounter (t : Timer) : Call → Bool
  | .advance cycles => (t.advance cycles).1 || (t.advance cycles).2.tima != t.tima
  | .write .. => false

def passed : List Call → List Nat
  | [] => []
  | .advance cycles :: ks => cycles :: passed ks
  | .write .. :: ks => passed ks

/-- The cycles of those calls that find the timer on. -/
def counted : Timer → List Call → List Nat
  | _, [] => []
  | t, .advance cycles :: ks =>
    if t.enabled then cycles :: counted (t.call (.advance cycles)) ks
    else counted (t.call (.advance cycles)) ks
  | t, .write r v :: ks => counted (t.call (.write r v)) ks

theorem Bounded.run {t : Timer} (h : t.Bounded) (calls : List Call) : (t.run calls).Bounded := by
  induction calls generalizing t with
  | nil => exact h
  | cons k calls ih =>
    cases k with
    | advance cycles => exact ih (h.advance cycles)
    | write r v => exact ih (h.write r v)

/-! ## How often the registers go up -/

theorem bumpsDiv_advance (t : Timer) (cycles : Nat) :
    t.bumpsDiv (.advance cycles) = decide (divPeriod ≤ t.divCycles + cycles) := by
  unfold bumpsDiv
  dsimp only
  rw [div_advance]
  by_cases hfull : divPeriod ≤ t.divCycles + cycles
  · simp [hfull]
  · simp [hfull]

theorem bump_shows (t : Timer) : (t.bump.1 || t.bump.2.tima != t.tima) = true := by
  rw [bump_eq]
  by_cases htop : t.tima = 0xff
  · simp [htop]
  · simp [htop]

theorem bumpsCounter_advance (t : Timer) (cycles : Nat) :
    t.bumpsCounter (.advance cycles) =
      (t.enabled && decide (t.period ≤ t.counterCycles + cycles)) := by
  unfold bumpsCounter
  dsimp only
  cases hon : t.enabled with
  | false => simp [advance_of_off hon, advanceDiv_eq]
  | true =>
    by_cases hfull : t.period ≤ t.counterCycles + cycles
    · have hshows := bump_shows { t.advanceDiv cycles with counterCycles := 0 }
      rw [advanceDiv_eq] at hshows
      rw [advance_of_full hon hfull, advanceDiv_eq, hshows]
      simp [hfull]
    · simp [advance_of_below hon hfull, advanceDiv_eq, hfull]

theorem tally_bumpsDiv (t : Timer) (calls : List Call) :
    tally bumpsDiv t calls = restarts divPeriod t.divCycles (passed calls) := by
  induction calls generalizing t with
  | nil => rfl
  | cons k calls ih =>
    rw [tally, ih]
    cases k with
    | advance cycles =>
      rw [bumpsDiv_advance, call, divCycles_advance]
      rfl
    | write r v =>
      rw [call, (t.write_cases r v).1, passed, bumpsDiv]
      exact Nat.zero_add _

theorem tally_bumpsCounter {t : Timer} {calls : List Call}
    (h : ∀ v, .write .tac v ∈ calls → v &&& 3 = t.tac &&& 3) :
    tally bumpsCounter t calls = restarts t.period t.counterCycles (counted t calls) := by
  induction calls generalizing t with
  | nil => rfl
  | cons k calls ih =>
    have hlater : (t.call k).tac &&& 3 = t.tac &&& 3 →
        ∀ v, .write .tac v ∈ calls → v &&& 3 = (t.call k).tac &&& 3 := by
      intro htac v hv
      rw [htac]
      exact h v (List.mem_cons_of_mem _ hv)
    cases k with
    | advance cycles =>
      have htac : (t.call (.advance cycles)).tac &&& 3 = t.tac &&& 3 := by
        rw [call, tac_advance]
      rw [tally, ih (hlater htac), counted, bumpsCounter_advance, call, period_advance,
        counterCycles_advance]
      cases t.enabled with
      | false => simp
      | true => simp [restarts]
    | write r v =>
      -- Only another frequency would start the period over.
      rcases (t.write_cases r v).2 with ⟨rfl, hother, -, -⟩ | ⟨hperiod, htac, hcount⟩
      · exact absurd (h v List.mem_cons_self) hother
      · rw [tally, ih (hlater htac), counted, call, hcount, hperiod, bumpsCounter]
        exact Nat.zero_add _

/-- Whatever was called since power-on, the period is that of the frequency bits and neither count
has reached its bound. In a stretch of calls that keeps the frequency the counter goes up or
overflows so often that its periods, and for each time the longest call with the timer on, enclose
the cycles of the calls that found it on. Pauses, other writes and writes of the same frequency
make no difference. The divider does so with its own period in every stretch, over all calls. -/
theorem drift_bounds (before stretch : List Call) :
    let t := powerOn.run before
    (t.period = periodOf t.tac ∧ t.counterCycles < t.period ∧ t.divCycles < 255) ∧
      ((∀ v, .write .tac v ∈ stretch → v &&& 3 = t.tac &&& 3) →
        ∀ most, (∀ c ∈ counted t stretch, c ≤ most) →
          let bumps := tally bumpsCounter t stretch
          let cycles := t.counterCycles + (counted t stretch).sum
          bumps * t.period ≤ cycles ∧
            cycles ≤ bumps * (t.period + most - 1) + t.period - 1) ∧
      ∀ most, (∀ c ∈ passed stretch, c ≤ most) →
        let bumps := tally bumpsDiv t stretch
        let cycles := t.divCycles + (passed stretch).sum
        bumps * 255 ≤ cycles ∧ cycles ≤ bumps * (255 + most - 1) + 255 - 1 := by
  intro t
  obtain ⟨hperiod, hcounter, hdiv⟩ : t.Bounded := Bounded.powerOn.run before
  refine ⟨⟨hperiod, hcounter, hdiv⟩, ?_, ?_⟩
  · intro hsame most hmost bumps cycles
    have hbumps : bumps = restarts t.period t.counterCycles (counted t stretch) :=
      tally_bumpsCounter hsame
    rw [hbumps]
    exact ⟨restarts_mul_le _ _ _, le_restarts_mul hcounter hmost⟩
  · intro most hmost bumps cycles
    have hbumps : bumps = restarts divPeriod t.divCycles (passed stretch) :=
      tally_bumpsDiv t stretch
    rw [hbumps]
    exact ⟨restarts_mul_le _ _ _, le_restarts_mul hdiv hmost⟩

theorem drift_bounds_paused :
    let t := powerOn.run [.write .tac 5, .advance 10]
    let stretch : List Call := [.advance 9, .write .tac 1, .advance 100, .write .tima 0xff,
      .write .tac 5, .advance 12, .write .div 7, .advance 12]
    (∀ v, .write .tac v ∈ stretch → v &&& 3 = t.tac &&& 3) ∧ (∀ c ∈ counted t stretch, c ≤ 12) ∧
      (∀ c ∈ passed stretch, c ≤ 100) ∧
      tally bumpsCounter t stretch = 2 ∧ 2 * t.period ≤ t.counterCycles + (counted t stretch).sum ∧
      t.counterCycles + (counted t stretch).sum ≤ 2 * (t.period + 12 - 1) + t.period - 1 ∧
      tally bumpsDiv t stretch = 0 ∧ t.divCycles + (passed stretch).sum ≤ 254 := by
  intro t stretch
  have hsame : ∀ v, .write .tac v ∈ stretch → v &&& 3 = t.tac &&& 3 := by
    intro v hv
    simp only [stretch, List.mem_cons, reduceCtorEq, Call.write.injEq, true_and, false_and,
      List.not_mem_nil, or_false, false_or] at hv
    rcases hv with rfl | rfl <;> decide
  have hcounter : ∀ c ∈ counted t stretch, c ≤ 12 := by decide
  have hdiv : ∀ c ∈ passed stretch, c ≤ 100 := by decide
  have htwo : tally bumpsCounter t stretch = 2 := by decide
  have hnone : tally bumpsDiv t stretch = 0 := by decide
  obtain ⟨-, hbumps, hdivBumps⟩ := drift_bounds [.write .tac 5, .advance 10] stretch
  obtain ⟨hleast, hgreatest⟩ := hbumps hsame 12 hcounter
  have hrest := (hdivBumps 100 hdiv).2
  rw [htwo] at hleast hgreatest
  rw [hnone, Nat.zero_mul] at hrest
  exact ⟨hsame, hcounter, hdiv, htwo, hleast, hgreatest, hnone, hrest⟩

end Handheld.Timer
