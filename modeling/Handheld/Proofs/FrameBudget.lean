import Handheld.Proofs.CycleAccounts
import Handheld.Proofs.RomWindows

/-!
# The budget of a frame

Every step takes at least one machine cycle, and not many. So the steps of a frame end, and they
spend little more than the budget.
-/

namespace Handheld

namespace Board

variable {board next : Board} {t : Nat}

theorem cycles_of_step (h : board.step = .ok t next) : 4 ∣ t ∧ 4 ≤ t ∧ t ≤ 44 := by
  obtain ⟨parts⟩ := parts_of_step h
  obtain ⟨hdvd, hfour, hle⟩ := Cpu.lasts_step parts.instruction
  have hcycles := parts.cycles
  split at hcycles <;> omega

theorem step_eq_error_iff (board next : Board) (fault : Fault) :
    board.step = .error fault next ↔
      board.cpu.halted = false ∧ board.bus.read board.cpu.regs.pc ∈ Cpu.Instruction.unassigned ∧
        fault = .illegalOpcode (board.bus.read board.cpu.regs.pc) board.cpu.regs.pc ∧
        next = { board with cpu := board.cpu.skip 1 } := by
  constructor
  · intro h
    obtain ⟨core, hcore, rfl⟩ := step_error h
    obtain ⟨hrunning, hopcode, rfl, rfl⟩ := (board.cpu.step_eq_error_iff _ _ _).1 hcore
    exact ⟨hrunning, hopcode, rfl, rfl⟩
  · rintro ⟨hrunning, hopcode, rfl, rfl⟩
    exact step_of_cpu_error ((board.cpu.step_eq_error_iff _ _ _).2 ⟨hrunning, hopcode, rfl, rfl⟩)

end Board

namespace Machine

namespace Steps

variable {n : Nat}

def nil (m : Machine) : Steps 0 where
  machine _ := m
  cycles _ := 0
  ok i hi := absurd hi (Nat.not_lt_zero i)

def cons {m : Machine} {t : Nat} (run : Steps n) (h : m.step = .ok t (run.machine 0)) :
    Steps (n + 1) where
  machine
    | 0 => m
    | i + 1 => run.machine i
  cycles
    | 0 => t
    | i + 1 => run.cycles i
  ok
    | 0, _ => h
    | i + 1, hi => run.ok i (Nat.lt_of_succ_lt_succ hi)

theorem spent_cons {m : Machine} {t : Nat} (run : Steps n) (h : m.step = .ok t (run.machine 0))
    (k : Nat) : (run.cons h).spent (k + 1) = t + run.spent k := by
  simp [spent, List.range_succ_eq_map, Function.comp_def, cons]

variable (run : Steps n)

theorem four_dvd_spent (k : Nat) (hk : k ≤ n) : 4 ∣ run.spent k := by
  induction k with
  | zero => exact Nat.dvd_zero 4
  | succ k ih =>
    have hcycles := Board.cycles_of_step (board_step_ok (run.ok k hk))
    rw [run.spent_succ]
    exact Nat.dvd_add (ih (Nat.le_of_lt hk)) hcycles.1

theorem four_mul_le_spent (k : Nat) (hk : k ≤ n) : 4 * k ≤ run.spent k := by
  induction k with
  | zero => exact Nat.zero_le _
  | succ k ih =>
    have hcycles := Board.cycles_of_step (board_step_ok (run.ok k hk))
    have hbefore := ih (Nat.le_of_lt hk)
    rw [run.spent_succ]
    omega

/-- The last step finds some of the budget left and cannot spend much more. -/
theorem spent_lt_of_within {budget : Nat} (h : ∀ i < n, run.spent i < budget) :
    run.spent n < budget + 44 := by
  cases n with
  | zero => exact Nat.lt_add_left budget (Nat.zero_lt_succ 43)
  | succ i =>
    have hcycles := Board.cycles_of_step (board_step_ok (run.ok i (Nat.lt_succ_self i)))
    have hbefore := h i (Nat.lt_succ_self i)
    rw [run.spent_succ]
    omega

end Steps

/-- What steps end with, if `spent` cycles are spent before them: with the budget, or with a step
that fails. -/
def Steps.Ends {n : Nat} (run : Steps n) (budget spent : Nat) (m : Machine)
    (result : EStateM.Result Fault Board Nat) : Prop :=
  (budget ≤ spent + run.spent n ∧ ∃ last, run.machine n = { m with board := last } ∧
    result = .ok (spent + run.spent n) last) ∨
  (spent + run.spent n < budget ∧ ∃ fault last,
    (run.machine n).step = .error fault { m with board := last } ∧ result = .error fault last)

theorem exists_steps (m : Machine) (budget spent : Nat) (board : Board) :
    ∃ k, ∃ run : Steps k, run.machine 0 = { m with board } ∧
      (∀ i < k, spent + run.spent i < budget) ∧
      run.Ends budget spent m (board.runUntil budget spent) := by
  induction spent, board using Board.runUntil.induct budget with
  | case1 spent board hlt t next hstep ih =>
    obtain ⟨k, run, hfirst, hwithin, hends⟩ := ih
    have hcons : ({ m with board } : Machine).step = .ok t (run.machine 0) := by
      rw [hfirst]
      exact step_of_board_step hstep
    refine ⟨k + 1, run.cons hcons, rfl, ?_, ?_⟩
    · intro i hi
      cases i with
      | zero => exact hlt
      | succ i =>
        rw [Steps.spent_cons, ← Nat.add_assoc]
        exact hwithin i (Nat.lt_of_succ_lt_succ hi)
    · unfold Steps.Ends at hends ⊢
      rw [Steps.spent_cons, ← Nat.add_assoc, Board.runUntil_of_step_ok hlt hstep]
      exact hends
  | case2 spent board hlt fault next hstep =>
    refine ⟨0, .nil { m with board }, rfl, fun i hi => absurd hi (Nat.not_lt_zero i), .inr ?_⟩
    exact ⟨hlt, fault, next, step_of_board_error hstep, Board.runUntil_of_step_error hlt hstep⟩
  | case3 spent board hlt =>
    refine ⟨0, .nil { m with board }, rfl, fun i hi => absurd hi (Nat.not_lt_zero i), .inl ?_⟩
    refine ⟨Nat.le_of_not_lt hlt, board, rfl, ?_⟩
    rw [Board.runUntil, if_neg hlt]
    rfl

/-! ## A frame -/

/-- An instruction costs 4 to 24 cycles, and a step with the entry into a handler up to 44. So a
frame takes at most a quarter of its budget in steps. It ends as soon as the budget is spent, or
with the first opcode that is no instruction, and then the machine is left as that step leaves it.
If the budget leaves room for one more step, 32 bits hold what is spent. -/
theorem frame_within_budget :
    (∀ (cpu : Cpu) (bus : Bus) (t : Nat) (core : Cpu.Core), cpu.step bus = .ok t core →
      4 ∣ t ∧ 4 ≤ t ∧ t ≤ 24) ∧
    (∀ (m next : Machine) (t : Nat), m.step = .ok t next → 4 ∣ t ∧ 4 ≤ t ∧ t ≤ 44) ∧
    ∀ m : Machine,
      let b := m.config.frameBudget
      (b = 0 → m.runFrame = .ok 0 m) ∧
      ∃ k, ∃ run : Steps k, run.machine 0 = m ∧
        (∀ i < k, run.spent i < b) ∧
        (b ≤ 2 ^ 32 - 45 → ∀ i ≤ k, run.spent i < 2 ^ 32) ∧
        ((m.runFrame = .ok (run.spent k) (run.machine k) ∧ k ≤ (b + 3) / 4 ∧
            4 ∣ run.spent k ∧ b ≤ run.spent k ∧ run.spent k < b + 44) ∨
          ∃ opcode pc next, m.runFrame = .error (.illegalOpcode opcode pc) next ∧
            (run.machine k).step = .error (.illegalOpcode opcode pc) next ∧
            k + 1 ≤ (b + 3) / 4) := by
  refine ⟨fun _ _ _ _ => Cpu.lasts_step, fun _ _ _ h => Board.cycles_of_step (board_step_ok h), ?_⟩
  intro m b
  obtain ⟨k, run, hfirst, hwithin, hends⟩ := exists_steps m b 0 m.board
  unfold Steps.Ends at hends
  simp only [Nat.zero_add] at hwithin hends
  have hsteps := run.four_mul_le_spent k (Nat.le_refl k)
  have hlt : run.spent k < b + 44 := run.spent_lt_of_within hwithin
  constructor
  · intro hb
    apply runFrame_of_runUntil_ok
    rw [show m.config.frameBudget = 0 from hb, Board.runUntil, if_neg (Nat.lt_irrefl 0)]
  refine ⟨k, run, hfirst, hwithin, ?_, ?_⟩
  · intro hb i hi
    rcases Nat.lt_or_eq_of_le hi with hi | rfl
    · have := hwithin i hi
      omega
    · omega
  · rcases hends with ⟨hspent, last, hlast, hresult⟩ | ⟨hspent, fault, last, hstep, hresult⟩
    · left
      rw [runFrame_of_runUntil_ok hresult, hlast]
      refine ⟨rfl, ?_, run.four_dvd_spent k (Nat.le_refl k), hspent, hlt⟩
      cases k with
      | zero => exact Nat.zero_le _
      | succ i =>
        have hbefore := hwithin i (Nat.lt_succ_self i)
        have hsteps := run.four_mul_le_spent i (Nat.le_succ i)
        omega
    · right
      obtain ⟨-, -, rfl, -⟩ := (Board.step_eq_error_iff _ _ _).1 (board_step_error hstep)
      rw [runFrame_of_runUntil_error hresult]
      exact ⟨_, _, _, rfl, hstep, by omega⟩

/-- No instruction, where the program starts. -/
def illegalImage : ByteArray := ⟨(Array.replicate 0x150 0).set! 0x100 0xd3⟩

theorem exists_illegal :
    ∃ m next, Reachable m ∧ m.config = {} ∧ m.step = .error (.illegalOpcode 0xd3 0x100) next := by
  obtain ⟨m, kind, hreach, hconfig, hwindow, hcpu, -⟩ :=
    exists_reachable illegalImage {} (by decide +kernel) 0 0
  have hopcode : m.board.bus.read m.board.cpu.regs.pc = 0xd3 := by
    rw [hcpu, (hwindow.read_lower (by decide)).2]
    decide +kernel
  have hpc : m.board.cpu.regs.pc = 0x100 := by rw [hcpu]; rfl
  have hboard := (m.board.step_eq_error_iff _ _).2
    ⟨by rw [hcpu]; rfl, by rw [hopcode]; decide, rfl, rfl⟩
  rw [hopcode, hpc] at hboard
  exact ⟨m, _, hreach, hconfig, step_of_board_error hboard⟩

theorem frame_within_budget_illegal :
    (∃ used core, interrupted.board.cpu.step interrupted.board.bus = .ok used core ∧ used ≤ 24) ∧
    (∃ t next, interrupted.step = .ok t next ∧ t ≤ 44) ∧
    ∃ m next, Reachable m ∧ m.step = .error (.illegalOpcode 0xd3 0x100) next ∧
      m.runFrame = .error (.illegalOpcode 0xd3 0x100) next ∧
      ({ m with config.clockHz := 0 } : Machine).runFrame =
        .ok 0 { m with config.clockHz := 0 } := by
  have hawakes : interrupted.board.Awakes := ⟨rfl, rfl, rfl, rfl, rfl, rfl⟩
  obtain ⟨hcpu, hstep, hframe⟩ := frame_within_budget
  refine ⟨?_, ?_, ?_⟩
  · have hwaits := Board.instruction_of_halted hawakes.halted
    exact ⟨_, _, hwaits, (hcpu _ _ _ _ hwaits).2.2⟩
  · obtain ⟨next, hwakes⟩ := hawakes.step
    have henters := step_of_board_step hwakes
    exact ⟨_, _, henters, (hstep _ _ _ henters).2.2⟩
  · obtain ⟨m, next, hreach, hconfig, hillegal⟩ := exists_illegal
    refine ⟨m, next, hreach, hillegal, ?_, (hframe { m with config.clockHz := 0 }).1 ?_⟩
    · have hbudget : m.config.frameBudget = 69905 := by rw [hconfig]; rfl
      obtain ⟨-, k, run, hfirst, -, -, hends⟩ := hframe m
      have hk : k = 0 := by
        by_contra hne
        have hok := run.ok 0 (Nat.pos_of_ne_zero hne)
        rw [hfirst, hillegal] at hok
        cases hok
      subst hk
      rcases hends with ⟨-, -, -, hspent, -⟩ | ⟨opcode, pc, last, hresult, hlast, -⟩
      · rw [hbudget] at hspent
        exact absurd hspent (by simp [Steps.spent])
      · rw [hfirst, hillegal] at hlast
        cases hlast
        exact hresult
    · simp [hconfig, Config.frameBudget, Config.clock]

end Machine

end Handheld
