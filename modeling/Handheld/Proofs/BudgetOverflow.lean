import Handheld.Proofs.FrameBudget
import Handheld.Proofs.WaitingTime

/-!
# When a frame has its full length

The cycles of a frame are counted in full and kept to 32 bits. As long as they fit, a faster machine
runs no fewer of them. Where they do not, whole multiples of 2^32 are lost, and nothing may be left.
-/

namespace Handheld

namespace Config

/-- Speed and rate are such that 32-bit sums and quotients with them are defined. -/
structure Countable (c : Config) : Prop where
  speed_lt : c.speed.toNat < 2 ^ 32 - 1
  fps_pos : 1 ≤ c.fps.toNat

/-- The cycles of one frame, however many. -/
def frameCycles (c : Config) : Nat := (c.speed.toNat + 1) * c.clockHz.toNat / c.fps.toNat

variable {c c' : Config}

theorem frameBudget_eq (hc : c.Countable) : c.frameBudget = c.frameCycles % 2 ^ 32 := by
  have hfactor : (c.speed + 1).toNat = c.speed.toNat + 1 := by
    have hlt := hc.speed_lt
    rw [UInt32.toNat_add]
    exact Nat.mod_eq_of_lt (by simp only [UInt32.reduceToNat]; omega)
  unfold frameBudget frameCycles clock rate
  rw [hfactor, Nat.max_eq_left hc.fps_pos]
  rfl

theorem frameBudget_eq_frameCycles_iff (hc : c.Countable) :
    c.frameBudget = c.frameCycles ↔ c.frameCycles < 2 ^ 32 := by
  rw [frameBudget_eq hc]
  exact Nat.mod_eq_iff_lt (by decide)

theorem frameBudget_eq_zero_iff (hc : c.Countable) :
    c.frameBudget = 0 ↔ 2 ^ 32 ∣ c.frameCycles := by
  rw [frameBudget_eq hc, Nat.dvd_iff_mod_eq_zero]

theorem frameCycles_pos_iff (hc : c.Countable) :
    0 < c.frameCycles ↔ c.fps.toNat ≤ (c.speed.toNat + 1) * c.clockHz.toNat :=
  Nat.div_pos_iff.trans (and_iff_right hc.fps_pos)

theorem frameCycles_mono (hc' : c'.Countable) (hspeed : c.speed ≤ c'.speed)
    (hclock : c.clockHz ≤ c'.clockHz) (hfps : c'.fps ≤ c.fps) : c.frameCycles ≤ c'.frameCycles := by
  have hproduct : (c.speed.toNat + 1) * c.clockHz.toNat ≤ (c'.speed.toNat + 1) * c'.clockHz.toNat :=
    Nat.mul_le_mul (Nat.succ_le_succ hspeed) hclock
  exact Nat.div_le_div hproduct hfps (Nat.ne_of_gt hc'.fps_pos)

theorem frameBudget_mono (hc : c.Countable) (hc' : c'.Countable) (hspeed : c.speed ≤ c'.speed)
    (hclock : c.clockHz ≤ c'.clockHz) (hfps : c'.fps ≤ c.fps) (hfits : c'.frameCycles < 2 ^ 32) :
    c.frameBudget ≤ c'.frameBudget := by
  rw [frameBudget_eq hc, (frameBudget_eq_frameCycles_iff hc').2 hfits]
  exact (Nat.mod_le _ _).trans (frameCycles_mono hc' hspeed hclock hfps)

end Config

namespace Machine

variable {m next : Machine} {t : Nat}

theorem exists_steps_of_runFrame (h : m.runFrame = .ok t next) :
    ∃ k, ∃ run : Steps k, run.machine 0 = m ∧ run.machine k = next ∧ run.spent k = t ∧
      (k = 0 ↔ m.config.frameBudget = 0) := by
  obtain ⟨k, run, hfirst, hwithin, hends⟩ := exists_steps m m.config.frameBudget 0 m.board
  unfold Steps.Ends at hends
  simp only [Nat.zero_add] at hwithin hends
  refine ⟨k, run, hfirst, ?_⟩
  rcases hends with ⟨hspent, last, hlast, hresult⟩ | ⟨-, fault, last, -, hresult⟩
  · rw [runFrame_of_runUntil_ok hresult] at h
    cases h
    refine ⟨hlast, rfl, ?_, ?_⟩
    · rintro rfl
      exact Nat.le_zero.1 hspent
    · intro hzero
      by_contra hsome
      have hfirst := hwithin 0 (Nat.pos_of_ne_zero hsome)
      rw [hzero] at hfirst
      exact Nat.not_lt_zero _ hfirst
  · rw [runFrame_of_runUntil_error hresult] at h
    contradiction

/-- A budget is what is left of the frame's cycles without the multiples of 2^32. It is exact if and
only if they fit into 32 bits, and then it is no less than with less speed, a slower clock or a
higher rate. It is zero if and only if they are such a multiple, and a frame that succeeds has a
step unless they are. -/
theorem frameBudget_exact_iff_fits (c : Config) (hc : c.Countable) :
    c.frameBudget = c.frameCycles % 2 ^ 32 ∧
      (c.frameBudget = c.frameCycles ↔ c.frameCycles < 2 ^ 32) ∧
      (0 < c.frameCycles ↔ c.fps.toNat ≤ (c.speed.toNat + 1) * c.clockHz.toNat) ∧
      (1 ≤ c.frameBudget ↔ ¬ 2 ^ 32 ∣ c.frameCycles) ∧
      (∀ c' : Config, c'.Countable → c'.speed ≤ c.speed → c'.clockHz ≤ c.clockHz → c.fps ≤ c'.fps →
        c.frameCycles < 2 ^ 32 → c'.frameBudget ≤ c.frameBudget) ∧
      ∀ (m next : Machine) (t : Nat), m.config = c → m.runFrame = .ok t next →
        ∃ k, ∃ run : Steps k, run.machine 0 = m ∧ run.machine k = next ∧ run.spent k = t ∧
          (1 ≤ k ↔ ¬ 2 ^ 32 ∣ c.frameCycles) := by
  have hnone := c.frameBudget_eq_zero_iff hc
  refine ⟨c.frameBudget_eq hc, c.frameBudget_eq_frameCycles_iff hc, c.frameCycles_pos_iff hc, ?_,
    ?_, ?_⟩
  · rw [← hnone]
    exact Nat.one_le_iff_ne_zero
  · intro c' hc' hspeed hclock hfps hfits
    exact Config.frameBudget_mono hc' hc hspeed hclock hfps hfits
  · rintro m next t rfl hframe
    obtain ⟨k, run, hfirst, hlast, hspent, hzero⟩ := exists_steps_of_runFrame hframe
    refine ⟨k, run, hfirst, hlast, hspent, ?_⟩
    rw [← hnone, ← hzero]
    exact Nat.one_le_iff_ne_zero

theorem frameBudget_exact_iff_fits_asleep :
    let c : Config := { fps := 1, speed := 1024 }
    let native : Config := { fps := 1 }
    let m : Machine :=
      { board := { cpu := { halted := true }, bus := default }, config := c, header := default }
    c.Countable ∧ native.Countable ∧ c.frameBudget = 4194304 ∧ c.frameBudget ≠ c.frameCycles ∧
      native.frameBudget ≤ ({ native with speed := 1022 } : Config).frameBudget ∧
      ∃ next, m.runFrame = .ok 4194304 next ∧
        ∃ k, ∃ run : Steps k, run.machine k = next ∧ 1 ≤ k := by
  intro c native m
  have hc : c.Countable := ⟨by decide, by decide⟩
  have hnative : native.Countable := ⟨by decide, by decide⟩
  have hfaster : ({ native with speed := 1022 } : Config).Countable := ⟨by decide, by decide⟩
  obtain ⟨hbudget, hfits, -, -, -, hsteps⟩ := frameBudget_exact_iff_fits c hc
  obtain ⟨-, -, -, -, hmono, -⟩ := frameBudget_exact_iff_fits { native with speed := 1022 } hfaster
  have hasleep : m.board.Asleep := ⟨rfl, rfl, by decide⟩
  have hframe := runFrame_of_asleep hasleep
  have hspent : 4 * ((m.config.frameBudget + 3) / 4) = 4194304 := by decide
  rw [hspent] at hframe
  obtain ⟨k, run, -, hlast, -, hsome⟩ := hsteps m _ _ rfl hframe
  refine ⟨hc, hnative, hbudget.trans (by decide), mt hfits.1 (by decide), ?_, _, hframe, k, run,
    hlast, hsome.2 (by decide)⟩
  exact hmono native hnative (by decide) (by decide) (by decide) (by decide)

/-- At 1024 times native speed a frame of one second has 2^32 cycles, and so none at all: the
machine stands still, though it runs at a little less speed. -/
theorem frameBudget_zero_at_high_speed :
    let c : Config := { fps := 1, speed := 1023 }
    c.Countable ∧ c.fps.toNat ≤ (c.speed.toNat + 1) * c.clockHz.toNat ∧
      (c.speed.toNat + 1) * c.clockHz.toNat / c.fps.toNat = 4294967296 ∧ c.frameBudget = 0 ∧
      ({ c with speed := 1022 } : Config).frameBudget = 4290772992 ∧
      ∃ m, ofImage blankImage c {} = .ok m ∧ m.runFrame = .ok 0 m := by
  intro c
  have hnone : c.frameBudget = 0 := by decide
  obtain ⟨m, hm⟩ : ∃ m, ofImage blankImage c {} = .ok m := ofImage_of_load (by decide +kernel)
  refine ⟨⟨by decide, by decide⟩, by decide, by decide, hnone, by decide, m, hm, ?_⟩
  apply runFrame_of_frameBudget_eq_zero
  rw [config_ofImage hm, hnone]

end Machine

end Handheld
