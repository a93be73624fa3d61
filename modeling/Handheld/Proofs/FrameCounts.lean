import Handheld.Proofs.FrameBudget

/-!
# A frame counted in 32 bits

What a frame has spent is kept in 32 bits. While the budget leaves room for one more step, this is
the frame with the exact sum. Past that the sum can start over before the budget is spent.
-/

namespace Handheld.Machine

/-- A frame goes on from a machine, with so much spent, to its result. One that never ends has
none. -/
inductive Counts (budget : Nat) : Nat → Machine → EStateM.Result Fault Machine Nat → Prop
  | done {spent : Nat} {m : Machine} (hspent : budget ≤ spent) : Counts budget spent m (.ok spent m)
  | fails {spent : Nat} {m last : Machine} {fault : Fault} (hleft : spent < budget)
      (hstep : m.step = .error fault last) : Counts budget spent m (.error fault last)
  | step {spent t : Nat} {m next : Machine} {result : EStateM.Result Fault Machine Nat}
      (hleft : spent < budget) (hstep : m.step = .ok t next)
      (hrest : Counts budget ((spent + t) % 4294967296) next result) : Counts budget spent m result

variable {m : Machine} {budget spent : Nat} {result result' : EStateM.Result Fault Machine Nat}

theorem Counts.eq (h : Counts budget spent m result) (h' : Counts budget spent m result') :
    result = result' := by
  induction h with
  | done hspent =>
    cases h' with
    | done => rfl
    | fails hleft | step hleft => exact absurd hleft (Nat.not_lt_of_le hspent)
  | fails hleft hstep =>
    cases h' with
    | done hspent => exact absurd hleft (Nat.not_lt_of_le hspent)
    | fails _ hstep' => exact hstep.symm.trans hstep'
    | step _ hstep' => cases hstep.symm.trans hstep'
  | step hleft hstep hrest ih =>
    cases h' with
    | done hspent => exact absurd hleft (Nat.not_lt_of_le hspent)
    | fails _ hstep' => cases hstep.symm.trans hstep'
    | step _ hstep' hrest' =>
      cases hstep.symm.trans hstep'
      exact ih hrest'

theorem Steps.counts {n k : Nat} (run : Steps n) (hk : k ≤ n)
    (hwithin : ∀ i < n, run.spent i < budget) (hfits : ∀ i ≤ n, run.spent i < 4294967296)
    (hlast : Counts budget (run.spent n) (run.machine n) result) :
    Counts budget (run.spent k) (run.machine k) result := by
  -- From the last of the steps back to step `k`.
  induction hk using Nat.decreasingInduction with
  | self => exact hlast
  | of_succ k hk ih =>
    have hsum : (run.spent k + run.cycles k) % 4294967296 = run.spent (k + 1) := by
      rw [← run.spent_succ]
      exact Nat.mod_eq_of_lt (hfits (k + 1) hk)
    exact .step (hwithin k hk) (run.ok k hk) (hsum ▸ ih)

/-- While the budget leaves room for one more step, the frame is that with the exact sum. -/
theorem counts_iff_eq_runFrame (hroom : m.config.frameBudget ≤ 2 ^ 32 - 45) :
    Counts m.config.frameBudget 0 m result ↔ result = m.runFrame := by
  suffices hexact : Counts m.config.frameBudget 0 m m.runFrame from
    ⟨fun h => h.eq hexact, fun heq => heq ▸ hexact⟩
  obtain ⟨n, run, hfirst, hwithin, hends⟩ := exists_steps m m.config.frameBudget 0 m.board
  unfold Steps.Ends at hends
  simp only [Nat.zero_add] at hwithin hends
  have hfits : ∀ i ≤ n, run.spent i < 4294967296 := by
    intro i hi
    have hlt := run.spent_lt_of_within hwithin
    rcases Nat.lt_or_eq_of_le hi with hi | rfl
    · have := hwithin i hi
      omega
    · omega
  have hlast : Counts m.config.frameBudget (run.spent n) (run.machine n) m.runFrame := by
    rcases hends with ⟨hspent, last, hlast, hresult⟩ | ⟨hspent, fault, last, hstep, hresult⟩
    · rw [runFrame_of_runUntil_ok hresult, hlast]
      exact .done hspent
    · rw [runFrame_of_runUntil_error hresult]
      exact .fails hspent hstep
  have hcounts := run.counts (Nat.zero_le n) hwithin hfits hlast
  rw [hfirst] at hcounts
  exact hcounts

end Handheld.Machine
