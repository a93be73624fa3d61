import Handheld.Proofs.Histories
import Handheld.Proofs.InterruptFlags

/-!
# What a poll finds

A key is pressed while it is held down, and for twelve polls after its byte was injected. So the
history of a keypad tells what each poll finds, and which polls request the joypad's line.
-/

namespace Handheld

/-! ## Keys as bits -/

theorem Key.exists_index (i : Fin 8) : ∃ k : Key, k.index = i := by
  have hall : ∀ i : Fin 8, ∃ k ∈ Key.all, k.index = i := by decide
  obtain ⟨k, -, hk⟩ := hall i
  exact ⟨k, hk⟩

theorem Key.index_inj {k k' : Key} (h : k.index = k'.index) : k = k' := by
  revert h
  cases k <;> cases k' <;> decide

theorem Key.toNat_mask (k : Key) : k.mask.toNat = 2 ^ k.index.val := by
  cases k <;> rfl

namespace KeySet

theorem contains_eq_getLsbD (s : KeySet) (k : Key) :
    s.contains k = s.bits.toBitVec.getLsbD k.index := by
  have hbit := and_ne_zero_iff_testBit s.bits k.toNat_mask
  rw [Bool.eq_iff_iff, contains, bne_iff_ne]
  exact hbit

theorem testBit_register (s : KeySet) (k : Key) :
    s.register.toNat.testBit k.index = !s.contains k := by
  have hregister : s.register.toNat.testBit k.index = (~~~s.bits.toBitVec).getLsbD k.index := rfl
  rw [hregister, contains_eq_getLsbD, BitVec.getLsbD_not]
  simp

@[simp] theorem contains_diff (s t : KeySet) (k : Key) :
    (s.diff t).contains k = (s.contains k && !t.contains k) := by
  simp [contains_eq_getLsbD, diff]

theorem isEmpty_iff (s : KeySet) : s.isEmpty = true ↔ ∀ k, s.contains k = false := by
  constructor
  · intro h k
    have hbits : s.bits = 0 := by simpa [isEmpty] using h
    simp [contains, hbits]
  · intro h
    have hbits : s.bits.toBitVec = 0#8 := by
      apply BitVec.eq_of_getLsbD_eq
      intro i hi
      obtain ⟨k, hk⟩ := Key.exists_index ⟨i, hi⟩
      have hclear := h k
      rw [contains_eq_getLsbD, hk] at hclear
      simpa using hclear
    simpa [isEmpty] using UInt8.toBitVec_inj.1 hbits

end KeySet

namespace Keypad

/-! ## Histories -/

inductive Turn where
  | act (a : Action)
  | poll
deriving Repr, DecidableEq

def turn (p : Keypad) : Turn → Keypad
  | .act a => p.act a
  | .poll => p.poll.2

/-- The key that an injection presses: the one of its last byte. -/
def Turn.injected? : Turn → Option Key
  | .act (.inject bytes) => bytes.getLast?.bind Key.ofByte?
  | _ => none

/-- How many polls an injection of `k` still lasts. -/
def lasts (p : Keypad) (k : Key) : Nat := (p.held.get k.index).toNat

/-- A new keypad after the first `n` turns. -/
def after (turns : List Turn) (n : Nat) : Keypad := (turns.take n).foldl turn {}

section History

variable (turns : List Turn)

/-- Of the presses and releases of `k` in the first `n` turns the last one is a press. -/
def Down (n : Nat) (k : Key) : Prop :=
  ∃ i < n, turns[i]? = some (.act (.press k)) ∧
    ∀ j < n, i < j → turns[j]? ≠ some (.act (.release k))

def Injects (i : Nat) (k : Key) : Prop := turns[i]?.bind Turn.injected? = some k

/-- The polls after turn `i` and before turn `n`. -/
def pollsBetween (i n : Nat) : Nat :=
  (List.range n).countP fun j => i < j ∧ turns[j]? = some .poll

/-- An injection of `k` still lasts. -/
def Held (n : Nat) (k : Key) : Prop := ∃ i < n, Injects turns i k ∧ pollsBetween turns i n ≤ 11

/-- A poll after `n` turns finds `k` pressed. -/
def Pressed (n : Nat) (k : Key) : Prop := Down turns n k ∨ Held turns n k

/-- Turn `m` is the last poll before turn `n`. -/
def LastPoll (n m : Nat) : Prop :=
  m < n ∧ turns[m]? = some .poll ∧ ∀ j < n, m < j → turns[j]? ≠ some .poll

/-- There is a poll before turn `n`, and the last one found `k` pressed. -/
def WasPressed (n : Nat) (k : Key) : Prop := ∃ m, LastPoll turns n m ∧ Pressed turns m k

instance (i : Nat) (k : Key) : Decidable (Injects turns i k) :=
  inferInstanceAs (Decidable (_ = _))

instance (n : Nat) (k : Key) : Decidable (Pressed turns n k) :=
  inferInstanceAs (Decidable ((∃ i < n, _) ∨ ∃ i < n, _))

variable {turns} {n : Nat} {k : Key}

theorem after_succ (turns : List Turn) (n : Nat) :
    after turns (n + 1) = turns[n]?.elim (after turns n) (after turns n).turn :=
  foldl_take_succ ..

/-! ## Keys that are held down -/

theorem down_succ :
    Down turns (n + 1) k ↔
      turns[n]? = some (.act (.press k)) ∨
        turns[n]? ≠ some (.act (.release k)) ∧ Down turns n k :=
  since_succ

theorem down_inject (p : Keypad) (bytes : List UInt8) : (p.inject bytes).down = p.down := by
  unfold inject
  split <;> rfl

theorem contains_down (turns : List Turn) (n : Nat) (k : Key) :
    (after turns n).down.contains k = true ↔ Down turns n k := by
  induction n with
  | zero => simp [after, Down]
  | succ n ih =>
    rw [after_succ, down_succ, ← ih]
    cases turns[n]? with
    | none => simp
    | some t =>
      cases t with
      | poll => simp [turn, poll]
      | act a =>
        cases a with
        | press k' => simp [turn, act, press]
        | release k' => simp [turn, act, release]
        | inject bytes => simp [turn, act, down_inject]

/-! ## Keys that injections hold -/

theorem pollsBetween_succ (turns : List Turn) (i n : Nat) :
    pollsBetween turns i (n + 1) =
      pollsBetween turns i n + if i < n ∧ turns[n]? = some .poll then 1 else 0 := by
  simp [pollsBetween, List.range_succ]

theorem pollsBetween_eq_zero {i : Nat} (h : n ≤ i + 1) : pollsBetween turns i n = 0 := by
  unfold pollsBetween
  rw [List.countP_eq_zero]
  intro j hj
  have hlt := List.mem_range.1 hj
  simp only [decide_eq_true_eq, not_and]
  intro hij
  omega

theorem exists_injects_succ (m : Nat) :
    (∃ i < n + 1, Injects turns i k ∧ pollsBetween turns i (n + 1) + m < 12) ↔
      (Injects turns n k ∧ m < 12) ∨
        ∃ i < n, Injects turns i k ∧
          pollsBetween turns i n + (if turns[n]? = some .poll then 1 else 0) + m < 12 := by
  constructor
  · rintro ⟨i, hi, hinjects, hlasts⟩
    rcases Nat.lt_succ_iff_lt_or_eq.1 hi with hi | rfl
    · simp only [pollsBetween_succ, hi, true_and] at hlasts
      exact .inr ⟨i, hi, hinjects, hlasts⟩
    · rw [pollsBetween_eq_zero (Nat.le_refl _), Nat.zero_add] at hlasts
      exact .inl ⟨hinjects, hlasts⟩
  · rintro (⟨hinjects, hlasts⟩ | ⟨i, hi, hinjects, hlasts⟩)
    · refine ⟨n, Nat.lt_succ_self n, hinjects, ?_⟩
      rw [pollsBetween_eq_zero (Nat.le_refl _), Nat.zero_add]
      exact hlasts
    · refine ⟨i, Nat.lt_succ_of_lt hi, hinjects, ?_⟩
      simp only [pollsBetween_succ, hi, true_and]
      exact hlasts

theorem toNat_one_less (n : UInt8) : (if n = 0 then 0 else n - 1).toNat = n.toNat - 1 := by
  split
  · rename_i hzero
    rw [hzero]
    rfl
  · rename_i hne
    have hpos : n.toNat ≠ 0 := fun h => hne (UInt8.toNat_inj.1 h)
    apply UInt8.toNat_sub_of_le
    simp only [UInt8.le_iff_toNat_le, UInt8.reduceToNat]
    omega

theorem inject_of_some {bytes : List UInt8} (h : bytes.getLast?.bind Key.ofByte? = some k)
    (p : Keypad) :
    p.inject bytes = { p with held := p.held.set k.index holdPolls k.index.isLt } := by
  unfold inject
  split
  · rename_i k' hk
    cases hk.symm.trans h
    rfl
  · rename_i hnone
    cases hnone.symm.trans h

theorem inject_of_none {bytes : List UInt8} (h : bytes.getLast?.bind Key.ofByte? = none)
    (p : Keypad) : p.inject bytes = p := by
  unfold inject
  split
  · rename_i k hk
    cases hk.symm.trans h
  · rfl

theorem lasts_eq (p : Keypad) (k : Key) :
    p.lasts k = (getElem p.held k.index.val k.index.isLt).toNat := rfl

theorem lasts_turn (p : Keypad) (t : Turn) (k : Key) :
    (p.turn t).lasts k =
      if t.injected? = some k then 12
      else if t = .poll then p.lasts k - 1
      else p.lasts k := by
  cases t with
  | poll => simpa [lasts_eq, turn, poll, Turn.injected?] using toNat_one_less p.held[k.index]
  | act a =>
    cases a with
    | press k' | release k' => rfl
    | inject bytes =>
      rw [turn, act, Turn.injected?]
      cases hkey : bytes.getLast?.bind Key.ofByte? with
      | none => simp [inject_of_none hkey]
      | some k' =>
        rw [inject_of_some hkey]
        by_cases hk : k' = k
        · subst hk
          simp [lasts_eq, holdPolls]
        · have hindex : k'.index.val ≠ k.index.val := fun h => hk (Key.index_inj (Fin.ext h))
          simp [lasts_eq, hk, hindex]

theorem lt_lasts_iff (turns : List Turn) (n : Nat) (k : Key) (m : Nat) :
    m < (after turns n).lasts k ↔
      ∃ i < n, Injects turns i k ∧ pollsBetween turns i n + m < 12 := by
  induction n generalizing m with
  | zero => simp [after, lasts_eq]
  | succ n ih =>
    rw [after_succ, exists_injects_succ]
    unfold Injects at *
    cases ht : turns[n]? with
    | none => simpa using ih m
    | some t =>
      rw [Option.elim_some, lasts_turn, Option.bind_some]
      by_cases hinjected : t.injected? = some k
      · simp only [hinjected, if_true, true_and]
        constructor
        · intro hm
          exact .inl hm
        · rintro (hm | ⟨i, -, -, hlasts⟩) <;> omega
      · simp only [hinjected, if_false, false_and, false_or, Option.some.injEq]
        by_cases hpoll : t = .poll
        · simp only [hpoll, if_true, Nat.lt_sub_iff_add_lt, ih, Nat.add_assoc, Nat.add_comm 1 m]
        · simp only [hpoll, if_false, ih, Nat.add_zero]

theorem lasts_pos_iff (turns : List Turn) (n : Nat) (k : Key) :
    0 < (after turns n).lasts k ↔ Held turns n k := by
  have hlasts := lt_lasts_iff turns n k 0
  simp only [Nat.add_zero, Nat.lt_succ_iff] at hlasts
  exact hlasts

/-! ## Keys that are pressed -/

theorem contains_pressed (turns : List Turn) (n : Nat) (k : Key) :
    (after turns n).pressed.contains k = true ↔ Pressed turns n k := by
  unfold Pressed
  rw [← contains_down, ← lasts_pos_iff]
  simp only [pressed, KeySet.contains_filter, Bool.or_eq_true, decide_eq_true_eq]
  rfl

theorem last_turn_act (p : Keypad) (a : Action) : (p.act a).last = p.last := by
  cases a with
  | press k | release k => rfl
  | inject bytes =>
    unfold act inject
    dsimp only
    split <;> rfl

theorem lastPoll_succ_of_poll (h : turns[n]? = some .poll) (m : Nat) :
    LastPoll turns (n + 1) m ↔ m = n := by
  constructor
  · rintro ⟨hm, -, hlater⟩
    rcases Nat.lt_succ_iff_lt_or_eq.1 hm with hm | rfl
    · exact absurd h (hlater n (Nat.lt_succ_self n) hm)
    · rfl
  · rintro rfl
    refine ⟨Nat.lt_succ_self m, h, ?_⟩
    intro j hj hmj
    omega

theorem lastPoll_succ_of_ne (h : turns[n]? ≠ some .poll) (m : Nat) :
    LastPoll turns (n + 1) m ↔ LastPoll turns n m := by
  constructor
  · rintro ⟨hm, hpoll, hlater⟩
    have hne : m ≠ n := by
      rintro rfl
      exact h hpoll
    exact ⟨by omega, hpoll, fun j hj => hlater j (Nat.lt_succ_of_lt hj)⟩
  · rintro ⟨hm, hpoll, hlater⟩
    refine ⟨Nat.lt_succ_of_lt hm, hpoll, ?_⟩
    intro j hj hmj
    rcases Nat.lt_succ_iff_lt_or_eq.1 hj with hj | rfl
    · exact hlater j hj hmj
    · exact h

theorem contains_last (turns : List Turn) (n : Nat) (k : Key) :
    (after turns n).last.contains k = true ↔ WasPressed turns n k := by
  induction n with
  | zero => simp [after, WasPressed, LastPoll]
  | succ n ih =>
    rw [after_succ]
    unfold WasPressed at *
    cases ht : turns[n]? with
    | none =>
      have hne : turns[n]? ≠ some .poll := by simp [ht]
      simp only [lastPoll_succ_of_ne hne]
      exact ih
    | some t =>
      cases t with
      | poll =>
        simp only [lastPoll_succ_of_poll ht, exists_eq_left]
        exact contains_pressed turns n k
      | act a =>
        have hne : turns[n]? ≠ some .poll := by simp [ht]
        simp only [lastPoll_succ_of_ne hne, Option.elim_some, turn, last_turn_act]
        exact ih

theorem edge_iff (turns : List Turn) (n : Nat) :
    (after turns n).poll.1.edge = true ↔ ∃ k, Pressed turns n k ∧ ¬ WasPressed turns n k := by
  have hedge : (after turns n).poll.1.edge =
      !((after turns n).pressed.diff (after turns n).last).isEmpty := rfl
  rw [hedge, Bool.not_eq_true', ← Bool.not_eq_true, KeySet.isEmpty_iff]
  simp only [KeySet.contains_diff, not_forall, Bool.and_eq_true, Bool.not_eq_true',
    ← Bool.not_eq_true, contains_pressed, contains_last, not_not]

/-! ## Injections that follow one another -/

theorem pollsBetween_lt {i m : Nat} (hi : i < m) (hpoll : turns[m]? = some .poll) (hm : m < n) :
    pollsBetween turns i m < pollsBetween turns i n := by
  have hcounted : pollsBetween turns i (m + 1) = pollsBetween turns i m + 1 := by
    rw [pollsBetween_succ, if_pos ⟨hi, hpoll⟩]
  have hmore : pollsBetween turns i (m + 1) ≤ pollsBetween turns i n :=
    (List.range_sublist.2 hm).countP_le
  omega

theorem exists_lastPoll {i : Nat} (h : 0 < pollsBetween turns i n) :
    ∃ m, LastPoll turns n m ∧ i < m := by
  induction n with
  | zero => contradiction
  | succ n ih =>
    by_cases hpoll : turns[n]? = some .poll
    · refine ⟨n, (lastPoll_succ_of_poll hpoll n).2 rfl, ?_⟩
      by_contra hle
      rw [pollsBetween_eq_zero (by omega)] at h
      contradiction
    · rw [pollsBetween_succ, if_neg fun hboth => hpoll hboth.2] at h
      obtain ⟨m, hlast, hm⟩ := ih h
      exact ⟨m, (lastPoll_succ_of_ne hpoll m).2 hlast, hm⟩

/-- Between two injections of a key there are at most twelve polls, so each of these and of the
twelve after the second one finds it pressed. -/
theorem held_again {first again : Nat} (hfirst : Injects turns first k)
    (hagain : Injects turns again k) (horder : first < again) (hn : again < n)
    (hbetween : pollsBetween turns first again ≤ 12) (hlasts : pollsBetween turns again n ≤ 11) :
    Pressed turns n k ∧ (0 < pollsBetween turns first n → WasPressed turns n k) := by
  refine ⟨.inr ⟨again, hn, hagain, hlasts⟩, ?_⟩
  intro hsome
  obtain ⟨m, hlast, hm⟩ := exists_lastPoll hsome
  refine ⟨m, hlast, .inr ?_⟩
  obtain ⟨hlt, hpoll, -⟩ := hlast
  rcases Nat.lt_trichotomy m again with hbefore | rfl | hafter
  · have hfewer := pollsBetween_lt hm hpoll hbefore
    exact ⟨first, hm, hfirst, by omega⟩
  · simp [Injects, hpoll, Turn.injected?] at hagain
  · have hfewer := pollsBetween_lt hafter hpoll hlt
    exact ⟨again, hafter, hagain, by omega⟩

end History

/-- A poll finds a key pressed if and only if the last press or release of it was a press, or an
injection that ends in its byte has been followed by at most eleven polls. The register has the bits
of these keys clear. There is an edge when one of them was not pressed at the poll before, and then
the joypad's line is requested, and only then. Another injection while one lasts makes the press
longer, and no edge. -/
theorem polls_follow_history (turns : List Turn) :
    (∀ n,
      let found := (after turns n).poll.1
      (∀ k, found.register.toNat.testBit k.index = false ↔ Pressed turns n k) ∧
        (found.edge = true ↔ ∃ k, Pressed turns n k ∧ ¬ WasPressed turns n k) ∧
        ∀ board : Board,
          (board.applyPoll found).bus.joypad = found.register ∧
            (board.applyPoll found).bus.interruptFlags =
              if found.edge then board.bus.interruptFlags ||| Interrupt.joypad.mask
              else board.bus.interruptFlags) ∧
      ∀ first again n k, Injects turns first k → Injects turns again k → first < again →
        again < n → pollsBetween turns first again ≤ 12 → pollsBetween turns again n ≤ 11 →
        Pressed turns n k ∧ (0 < pollsBetween turns first n → WasPressed turns n k) := by
  refine ⟨fun n => ⟨?_, edge_iff turns n, ?_⟩, fun _ _ _ _ => held_again⟩
  · intro k
    have hregister : (after turns n).poll.1.register = (after turns n).pressed.register := rfl
    rw [hregister, KeySet.testBit_register, Bool.not_eq_false', contains_pressed]
  · intro board
    unfold Board.applyPoll
    split <;> exact ⟨rfl, rfl⟩

/-- The second injection comes right after the last poll that the first one reaches. The last poll
that it reaches itself finds the key pressed as before, the next one does not. -/
theorem polls_follow_history_again :
    let turns : List Turn := .act (.inject [0x1b, 0x5b, 0x41]) :: List.replicate 12 .poll ++
      [.act (.release .up), .act (.inject [0x41])] ++ List.replicate 12 .poll
    Injects turns 0 .up ∧ Injects turns 14 .up ∧ pollsBetween turns 0 14 ≤ 12 ∧
      pollsBetween turns 14 26 ≤ 11 ∧ 0 < pollsBetween turns 0 26 ∧ WasPressed turns 26 .up ∧
      (after turns 26).poll.1.register.toNat.testBit 2 = false ∧
      (after turns 27).poll.1.register.toNat.testBit 2 = true := by
  intro turns
  have hfirst : Injects turns 0 .up := by decide
  have hagain : Injects turns 14 .up := by decide
  have hbetween : pollsBetween turns 0 14 ≤ 12 := by decide
  have hlasts : pollsBetween turns 14 26 ≤ 11 := by decide
  have hsome : 0 < pollsBetween turns 0 26 := by decide
  have hreleased : ¬ Pressed turns 27 .up := by decide
  obtain ⟨hpolls, hlonger⟩ := polls_follow_history turns
  obtain ⟨hpressed, hwas⟩ :=
    hlonger 0 14 26 .up hfirst hagain (by decide) (by decide) hbetween hlasts
  refine ⟨hfirst, hagain, hbetween, hlasts, hsome, hwas hsome, ((hpolls 26).1 .up).2 hpressed, ?_⟩
  rw [← Bool.not_eq_false]
  exact fun hclear => hreleased (((hpolls 27).1 .up).1 hclear)

end Keypad

end Handheld
