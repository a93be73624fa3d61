import Handheld.Proofs.ScanlineTiming

/-!
# Completed pictures are whole

Two pictures change places, so the one being drawn still holds rows that are two pictures old. Yet
a completed picture shows none of them: each of its rows was drawn on the climb of the line register
that completed it.
-/

namespace Handheld

namespace Scene

open Picture (renderLine)

/-! ## Climbs -/

/-- The line register climbs from 0 to `top` without interruption, up to the end of the actions.
Line `y` is finished by the advance with number `finish y`. -/
structure Climb (s : Scene) (as : List Action) (finish : Nat → Nat) (top : Nat) : Prop where
  ends : finish top = as.length
  lt : ∀ y < top, finish y < finish (y + 1)
  advance : ∀ y < top, ∃ cycles, as[finish y]? = some (.advance cycles)
  line_at : ∀ y < top, (s.run (as.take (finish y))).line = UInt8.ofNat y
  line_after : ∀ y < top, ∀ m, finish y < m → m ≤ finish (y + 1) →
    (s.run (as.take m)).line = UInt8.ofNat (y + 1)

namespace Climb

variable {s : Scene} {as : List Action} {finish : Nat → Nat} {top : Nat}

theorem start (s : Scene) (as : List Action) : Climb s as (fun _ => as.length) 0 where
  ends := rfl
  lt := by simp
  advance := by simp
  line_at := by simp
  line_after := by simp

theorem finish_lt (h : Climb s as finish top) {y : Nat} (hy : y < top) : finish y < as.length := by
  obtain ⟨cycles, hcycles⟩ := h.advance y hy
  exact (List.getElem?_eq_some_iff.1 hcycles).1

theorem finish_le (h : Climb s as finish top) {y : Nat} (hy : y ≤ top) : finish y ≤ as.length := by
  rcases Nat.lt_or_eq_of_le hy with hlt | rfl
  · exact Nat.le_of_lt (h.finish_lt hlt)
  · exact Nat.le_of_eq h.ends

theorem take_concat (h : Climb s as finish top) (a : Action) {y : Nat} (hy : y ≤ top) :
    (as ++ [a]).take (finish y) = as.take (finish y) :=
  List.take_append_of_le_length (h.finish_le hy)

theorem stay (h : Climb s as finish top) {a : Action}
    (hline : (s.run (as ++ [a])).line = (s.run as).line) :
    Climb s (as ++ [a]) (Function.update finish top (as.length + 1)) top where
  ends := by simp
  lt := by
    intro y hy
    have hlt := h.finish_lt hy
    rw [Function.update_of_ne (Nat.ne_of_lt hy)]
    by_cases hnext : y + 1 = top
    · rw [hnext, Function.update_self]
      omega
    · rw [Function.update_of_ne hnext]
      exact h.lt y hy
  advance := by
    intro y hy
    rw [Function.update_of_ne (Nat.ne_of_lt hy), List.getElem?_append_left (h.finish_lt hy)]
    exact h.advance y hy
  line_at := by
    intro y hy
    rw [Function.update_of_ne (Nat.ne_of_lt hy), h.take_concat a (Nat.le_of_lt hy)]
    exact h.line_at y hy
  line_after := by
    intro y hy m hlow hhigh
    rw [Function.update_of_ne (Nat.ne_of_lt hy)] at hlow
    by_cases hnext : y + 1 = top
    · rw [hnext, Function.update_self] at hhigh
      have hold := h.line_after y hy
      rw [hnext, h.ends] at hold
      rcases Nat.lt_or_eq_of_le hhigh with hm | rfl
      · rw [List.take_append_of_le_length (Nat.le_of_lt_succ hm), hnext]
        exact hold m hlow (Nat.le_of_lt_succ hm)
      · -- The action that was added is the last one of the line.
        rw [List.take_of_length_le (by simp), hline, hnext]
        have := hold as.length (h.finish_lt hy) (Nat.le_refl _)
        rwa [List.take_length] at this
    · rw [Function.update_of_ne hnext] at hhigh
      rw [List.take_append_of_le_length (Nat.le_trans hhigh (h.finish_le hy))]
      exact h.line_after y hy m hlow hhigh

/-- An advance that finishes the line where the climb has got to goes on with it. -/
theorem rise (h : Climb s as finish top) {cycles : Nat}
    (hbefore : (s.run as).line = UInt8.ofNat top)
    (hafter : (s.run (as ++ [.advance cycles])).line = UInt8.ofNat (top + 1)) :
    Climb s (as ++ [.advance cycles]) (Function.update finish (top + 1) (as.length + 1))
      (top + 1) where
  ends := by simp
  lt := by
    intro y hy
    rw [Function.update_of_ne (Nat.ne_of_lt hy)]
    rcases Nat.lt_or_eq_of_le (Nat.le_of_lt_succ hy) with hlt | rfl
    · rw [Function.update_of_ne (by omega)]
      exact h.lt y hlt
    · rw [Function.update_self, h.ends]
      exact Nat.lt_succ_self _
  advance := by
    intro y hy
    rw [Function.update_of_ne (Nat.ne_of_lt hy)]
    rcases Nat.lt_or_eq_of_le (Nat.le_of_lt_succ hy) with hlt | rfl
    · rw [List.getElem?_append_left (h.finish_lt hlt)]
      exact h.advance y hlt
    · exact ⟨cycles, by rw [h.ends, List.getElem?_concat_length]⟩
  line_at := by
    intro y hy
    rw [Function.update_of_ne (Nat.ne_of_lt hy), h.take_concat _ (Nat.le_of_lt_succ hy)]
    rcases Nat.lt_or_eq_of_le (Nat.le_of_lt_succ hy) with hlt | rfl
    · exact h.line_at y hlt
    · rw [h.ends, List.take_length]
      exact hbefore
  line_after := by
    intro y hy m hlow hhigh
    rw [Function.update_of_ne (Nat.ne_of_lt hy)] at hlow
    rcases Nat.lt_or_eq_of_le (Nat.le_of_lt_succ hy) with hlt | rfl
    · rw [Function.update_of_ne (by omega)] at hhigh
      rw [List.take_append_of_le_length (Nat.le_trans hhigh (h.finish_le hlt))]
      exact h.line_after y hlt m hlow hhigh
    · rw [Function.update_self] at hhigh
      rw [h.ends] at hlow
      rw [List.take_of_length_le (by simp; omega)]
      exact hafter

end Climb

/-! ## What the drawing holds -/

/-- The rows below `top` were drawn on the climb, each by the advance that finished its line. -/
def DrawnOn (s : Scene) (as : List Action) (finish : Nat → Nat) (top : Nat)
    (f : Picture.Frame) : Prop :=
  ∀ y : Fin 144, y < top →
    f.row y = renderLine (s.run (as.take (finish y))).bus.read (UInt8.ofNat y)

/-- As long as the line register is on a visible line, it is on a climb, and the drawing holds the
rows that were drawn on it. -/
def OnClimb (s : Scene) (as : List Action) : Prop :=
  (s.run as).line < 144 → ∃ finish, Climb s as finish (s.run as).line.toNat ∧
    DrawnOn s as finish (s.run as).line.toNat (s.run as).picture.drawing

theorem onClimb_of_line_zero {s : Scene} {as : List Action} (h : (s.run as).line = 0) :
    OnClimb s as := by
  intro _
  rw [h]
  exact ⟨_, .start s as, fun y hy => absurd hy (Nat.not_lt_zero _)⟩

theorem onClimb_of_line_eq {s : Scene} {as : List Action} {a : Action} (h : OnClimb s as)
    (hline : (s.run (as ++ [a])).line = (s.run as).line)
    (hdrawing : (s.run (as ++ [a])).picture.drawing = (s.run as).picture.drawing) :
    OnClimb s (as ++ [a]) := by
  intro hvisible
  rw [hline] at hvisible ⊢
  obtain ⟨finish, hclimb, hrows⟩ := h hvisible
  refine ⟨_, hclimb.stay hline, ?_⟩
  intro y hy
  rw [Function.update_of_ne (Nat.ne_of_lt hy), hclimb.take_concat a (Nat.le_of_lt hy), hdrawing]
  exact hrows y hy

theorem DrawnOn.setRow {s : Scene} {as : List Action} {finish : Nat → Nat} {top : Nat}
    {f : Picture.Frame} (hrows : DrawnOn s as finish top f) (hclimb : Climb s as finish top)
    (a : Action) :
    DrawnOn s (as ++ [a]) (Function.update finish (top + 1) (as.length + 1)) (top + 1)
      (f.setRow top (renderLine (s.run as).bus.read (UInt8.ofNat top))) := by
  intro y hy
  rw [Function.update_of_ne (Nat.ne_of_lt hy), hclimb.take_concat a (Nat.le_of_lt_succ hy)]
  rcases Nat.lt_or_eq_of_le (Nat.le_of_lt_succ hy) with hlt | rfl
  · rw [Picture.Frame.row_setRow_of_ne _ _ (Nat.ne_of_gt hlt)]
    exact hrows y hlt
  · rw [Picture.Frame.row_setRow_self, hclimb.ends, List.take_length]

theorem onClimb_of_drawn {s : Scene} {as : List Action} {cycles : Nat} (h : OnClimb s as)
    (hvisible : (s.run as).line < 143)
    (hline : (s.run (as ++ [.advance cycles])).line = (s.run as).line + 1)
    (hdrawing : (s.run (as ++ [.advance cycles])).picture.drawing =
      (s.run as).picture.drawing.setRow (s.run as).line.toNat
        (renderLine (s.run as).bus.read (s.run as).line)) :
    OnClimb s (as ++ [.advance cycles]) := by
  obtain ⟨finish, hclimb, hrows⟩ := h (by grind)
  have hlt : (s.run as).line.toNat < 143 := UInt8.lt_iff_toNat_lt.1 hvisible
  have htop : ((s.run as).line + 1).toNat = (s.run as).line.toNat + 1 := by
    rw [UInt8.toNat_add, UInt8.toNat_one]
    omega
  intro _
  rw [hline, htop, hdrawing]
  refine ⟨_, hclimb.rise UInt8.ofNat_toNat.symm ?_, ?_⟩
  · rw [hline, ← htop, UInt8.ofNat_toNat]
  · have hnew := hrows.setRow hclimb (.advance cycles)
    rwa [UInt8.ofNat_toNat] at hnew

theorem onClimb_act {s : Scene} {as : List Action} (h : OnClimb s as) (a : Action) :
    OnClimb s (as ++ [a]) := by
  have hrun := s.run_concat as a
  by_cases ha : ∃ cycles, a = .advance cycles
  · obtain ⟨cycles, rfl⟩ := ha
    rcases (s.run as).advance_cases cycles with
      ⟨hline, hdrawing⟩ | hzero | ⟨hvisible, hline, hdrawing⟩ | hpast
    · rw [← hrun] at hline hdrawing
      exact onClimb_of_line_eq h hline hdrawing
    · rw [← hrun] at hzero
      exact onClimb_of_line_zero hzero
    · rw [← hrun] at hline hdrawing
      exact onClimb_of_drawn h hvisible hline hdrawing
    · rw [← hrun] at hpast
      exact fun hlt => absurd hlt (UInt8.not_lt.2 hpast)
  · obtain ⟨hpicture, hline | hzero⟩ := (s.run as).write_cases fun cycles hc => ha ⟨cycles, hc⟩
    · rw [← hrun] at hline hpicture
      exact onClimb_of_line_eq h hline (congrArg (·.drawing) hpicture)
    · rw [← hrun] at hzero
      exact onClimb_of_line_zero hzero

theorem onClimb {s : Scene} (h : s.line = 0) (as : List Action) : OnClimb s as := by
  induction as using List.reverseRecOn with
  | nil => exact onClimb_of_line_zero h
  | append_singleton as a ih => exact onClimb_act ih a

/-! ## Completed pictures -/

theorem completes_lines (cartridge : Cartridge) (sound : Bool) (log : Log) :
    ((powerOn cartridge sound log).run (.replicate 143 (.advance 456))).completes 456 = true := by
  have hfirst := (lit_powerOn cartridge sound log).completes_nth_iff
    (position_powerOn cartridge sound log) (quiet_replicate 143 (Nat.le_refl 456))
    (Nat.le_refl 456) 0
  rw [totalCycles_replicate] at hfirst
  exact (hfirst.2 (by decide)).1

/-- An advance that completes a picture ends a climb over all 144 lines, and each row it shows is
the line as it was drawn from the bus by the advance that finished it on that climb. An advance that
completes none leaves what is shown. -/
theorem shown_of_completes (cartridge : Cartridge) (sound : Bool) (log : Log) (as : List Action)
    (cycles : Nat) :
    (((powerOn cartridge sound log).run as).completes cycles = true →
      ∃ finish, Climb (powerOn cartridge sound log) (as ++ [.advance cycles]) finish 144 ∧
        finish 143 = as.length ∧
        ∀ y : Fin 144,
          ((powerOn cartridge sound log).run (as ++ [.advance cycles])).picture.shown.row y =
            renderLine ((powerOn cartridge sound log).run (as.take (finish y))).bus.read
              (UInt8.ofNat y)) ∧
      (((powerOn cartridge sound log).run as).completes cycles = false →
        ((powerOn cartridge sound log).run (as ++ [.advance cycles])).picture.shown =
          ((powerOn cartridge sound log).run as).picture.shown) := by
  have hzero := line_powerOn cartridge sound log
  generalize powerOn cartridge sound log = s at hzero
  constructor
  · intro h
    obtain ⟨hline, hnext, hshown⟩ := (s.run as).of_completes h
    obtain ⟨finish, hclimb, hrows⟩ := onClimb hzero as (by rw [hline]; decide)
    have htop : (143 : UInt8).toNat = 143 := rfl
    rw [hline, htop] at hclimb hrows
    rw [← s.run_concat] at hnext hshown
    refine ⟨_, hclimb.rise hline hnext, ?_, ?_⟩
    · rw [Function.update_of_ne (by decide), hclimb.ends]
    · intro y
      have hrow := hrows.setRow hclimb (.advance cycles) y y.isLt
      rw [Function.update_of_ne (Nat.ne_of_lt y.isLt),
        hclimb.take_concat _ (Nat.le_of_lt_succ y.isLt)] at hrow
      rw [hshown, Function.update_of_ne (Nat.ne_of_lt y.isLt)]
      exact hrow
  · intro h
    rw [s.run_concat]
    exact PictureUnit.shown_step_of_not_completed _ _ _ h

theorem shown_of_completes_lines :
    ((powerOn default false {}).run (.replicate 143 (.advance 456))).completes 456 = true ∧
      ∃ finish, Climb (powerOn default false {})
          (.replicate 143 (.advance 456) ++ [.advance 456]) finish 144 ∧
        finish 143 = (List.replicate 143 (Action.advance 456)).length ∧
        ∀ y : Fin 144,
          ((powerOn default false {}).run
              (.replicate 143 (.advance 456) ++ [.advance 456])).picture.shown.row y =
            renderLine ((powerOn default false {}).run
              ((List.replicate 143 (.advance 456)).take (finish y))).bus.read (UInt8.ofNat y) := by
  have hcompletes := completes_lines default false {}
  exact ⟨hcompletes, (shown_of_completes default false {} _ 456).1 hcompletes⟩

end Scene

end Handheld
