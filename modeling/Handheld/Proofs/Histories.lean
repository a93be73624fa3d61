/-!
# Histories

A history is a list of turns. What it leads to, and what it says about the last turn of a kind,
follows from the same for a history that is one turn shorter.
-/

namespace Handheld

theorem foldl_take_succ {σ τ : Type} (f : σ → τ → σ) (s : σ) (turns : List τ) (n : Nat) :
    (turns.take (n + 1)).foldl f s =
      turns[n]?.elim ((turns.take n).foldl f s) (f ((turns.take n).foldl f s)) := by
  rw [List.take_add_one, List.foldl_append]
  cases turns[n]? <;> rfl

theorem foldlM_keeps {σ τ : Type} {f : σ → τ → Option σ} {P : Nat → σ → Prop}
    (hturn : ∀ {k s turn s'}, P k s → f s turn = some s' → P (k + 1) s') {turns : List τ} {k : Nat}
    {s s' : σ} (hs : P k s) (hrun : turns.foldlM f s = some s') : P (k + turns.length) s' := by
  induction turns generalizing k s with
  | nil =>
    cases hrun
    exact hs
  | cons turn turns ih =>
    rw [List.foldlM_cons] at hrun
    obtain ⟨mid, hmid, hrest⟩ := Option.bind_eq_some_iff.1 hrun
    rw [List.length_cons, Nat.add_comm turns.length, ← Nat.add_assoc]
    exact ih (hturn hs hmid) hrest

/-- There was a turn with `P`, and since then all turns had `R`: either the newest turn is the one,
or it goes on what there was before. -/
theorem since_succ {P R : Nat → Prop} {n : Nat} :
    (∃ i < n + 1, P i ∧ ∀ j < n + 1, i < j → R j) ↔
      P n ∨ R n ∧ ∃ i < n, P i ∧ ∀ j < n, i < j → R j := by
  constructor
  · rintro ⟨i, hi, hP, hR⟩
    rcases Nat.lt_succ_iff_lt_or_eq.1 hi with hi | rfl
    · refine .inr ⟨hR n (Nat.lt_succ_self n) hi, i, hi, hP, ?_⟩
      exact fun j hj => hR j (Nat.lt_succ_of_lt hj)
    · exact .inl hP
  · rintro (hP | ⟨hlast, i, hi, hP, hR⟩)
    · refine ⟨n, Nat.lt_succ_self n, hP, ?_⟩
      intro j hj hnj
      omega
    · refine ⟨i, Nat.lt_succ_of_lt hi, hP, ?_⟩
      intro j hj hij
      rcases Nat.lt_succ_iff_lt_or_eq.1 hj with hj | rfl
      · exact hR j hj hij
      · exact hlast

end Handheld
