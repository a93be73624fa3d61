import Handheld.Proofs.PictureRuns

/-!
# The place in the picture

The line and the cycles left of it make one number, the cycles since the first line began. While the
display is on the picture unit adds to it what it moves on by.
-/

namespace Handheld

namespace PictureUnit

def pictureCycles : Int := 70224

def position (p : PictureUnit) (line : UInt8) : Int :=
  line.toNat * lineCycles + (lineCycles - p.counter)

/-- On one of the lines, with some of its cycles left. -/
structure Placed (p : PictureUnit) (line : UInt8) : Prop where
  line_le : line ≤ lastLine
  counter_pos : 0 < p.counter
  counter_le : p.counter ≤ lineCycles

variable {p : PictureUnit}

theorem Placed.position_emod {line : UInt8} (h : p.Placed line) :
    p.position line % pictureCycles = p.position line := by
  have hline : line.toNat ≤ 153 := h.line_le
  have hpos := h.counter_pos
  have hle := h.counter_le
  unfold position
  dsimp only [lineCycles, pictureCycles] at hle ⊢
  omega

theorem toNat_add_one_of_lt {line : UInt8} (h : line < lastLine) :
    (line + 1).toNat = line.toNat + 1 := by
  have hlt : line.toNat < 153 := h
  rw [UInt8.toNat_add]
  simp only [UInt8.reduceToNat]
  omega

theorem le_lastLine_add_one {line : UInt8} (h : line < lastLine) : line + 1 ≤ lastLine := by
  have hnext := toNat_add_one_of_lt h
  have hlt : line.toNat < 153 := h
  have hle : (line + 1).toNat ≤ 153 := by omega
  exact hle

theorem Placed.wrap {line : UInt8} (h : p.Placed line) {cycles : Nat} (hle : cycles ≤ 456)
    (hleft : p.counter - cycles ≤ 0) {q : PictureUnit}
    (hq : q.counter = p.counter - cycles + lineCycles) {next : UInt8}
    (hnext : line < lastLine ∧ next = line + 1 ∨ line = lastLine ∧ next = 0) :
    q.Placed next ∧ q.position next = (p.position line + cycles) % pictureCycles := by
  have hpos := h.counter_pos
  have hcounter := h.counter_le
  dsimp only [lineCycles] at hcounter
  have hplaced : 0 < q.counter ∧ q.counter ≤ lineCycles := by
    rw [hq]
    dsimp only [lineCycles]
    omega
  unfold position
  rw [hq]
  dsimp only [lineCycles, pictureCycles]
  -- The cycles beyond the end of the line count on the next one, which after the last is line 0.
  rcases hnext with ⟨hlt, rfl⟩ | ⟨rfl, rfl⟩
  · have hlt' : line.toNat < 153 := hlt
    refine ⟨⟨le_lastLine_add_one hlt, hplaced.1, hplaced.2⟩, ?_⟩
    rw [toNat_add_one_of_lt hlt]
    omega
  · have hlast : lastLine.toNat = 153 := rfl
    have hfirst : (0 : UInt8).toNat = 0 := rfl
    refine ⟨⟨by decide, hplaced.1, hplaced.2⟩, ?_⟩
    rw [hlast, hfirst]
    omega

/-- With the display on, an advance of at most a line stays on its line, or ends it and goes on to
the next, which after the last is line 0. -/
theorem Placed.step_cases {bus : Bus} (h : p.Placed (bus.read lyAddress)) (hon : on bus = true)
    {cycles : Nat} (hle : cycles ≤ 456) :
    ((p.step bus cycles).2.2.read lyAddress = bus.read lyAddress ∧
        (p.step bus cycles).2.1.counter = p.counter - cycles ∧ 0 < p.counter - cycles) ∨
      (p.counter - cycles ≤ 0 ∧
        (p.step bus cycles).2.1.counter = p.counter - cycles + lineCycles ∧
        (bus.read lyAddress < lastLine ∧
            (p.step bus cycles).2.2.read lyAddress = bus.read lyAddress + 1 ∨
          bus.read lyAddress = lastLine ∧ (p.step bus cycles).2.2.read lyAddress = 0)) := by
  have hlast := h.line_le
  have hsigned : signed32 cycles = cycles := signed32_of_lt (by omega)
  have hself : ∀ (b : Bus) v, (b.store lyAddress v).read lyAddress = v := fun b v =>
    Bus.read_store_self b v (by decide)
  have hstep := step_advance p bus cycles
  generalize p.step bus cycles = r at hstep
  cases hstep with
  | off hoff => exact absurd (hon.symm.trans hoff) (by decide)
  | within _ hleft =>
    rw [hsigned] at hleft ⊢
    exact .inl ⟨read_updateStatus_of_ne _ _ (by decide) (by decide), rfl, hleft⟩
  | drawn _ hleft hline =>
    rw [hsigned] at hleft ⊢
    exact .inr ⟨hleft, rfl, .inl ⟨by grind [lastLine], hself _ _⟩⟩
  | completed _ hleft hline =>
    rw [hsigned] at hleft ⊢
    dsimp only
    rw [Bus.read_request_of_ne _ _ (by decide), hself, hline]
    exact .inr ⟨hleft, rfl, .inl ⟨by decide, rfl⟩⟩
  | blank _ hleft hline =>
    rw [hsigned] at hleft ⊢
    dsimp only
    rw [hself]
    refine .inr ⟨hleft, rfl, ?_⟩
    split
    · exact .inr ⟨by grind [lastLine], rfl⟩
    · exact .inl ⟨by grind [lastLine], rfl⟩

theorem Placed.step {bus : Bus} (h : p.Placed (bus.read lyAddress)) (hon : on bus = true)
    {cycles : Nat} (hle : cycles ≤ 456) :
    (p.step bus cycles).2.1.Placed ((p.step bus cycles).2.2.read lyAddress) ∧
      (p.step bus cycles).2.1.position ((p.step bus cycles).2.2.read lyAddress) =
        (p.position (bus.read lyAddress) + cycles) % pictureCycles := by
  rcases h.step_cases hon hle with ⟨hline, hcounter, hleft⟩ | ⟨hended, hcounter, hnext⟩
  · have hpos := h.counter_pos
    have hle' := h.counter_le
    have hlast : (bus.read lyAddress).toNat ≤ 153 := h.line_le
    rw [hline]
    refine ⟨⟨h.line_le, by omega, by omega⟩, ?_⟩
    unfold position
    rw [hcounter]
    dsimp only [lineCycles, pictureCycles] at hle' ⊢
    omega
  · exact h.wrap hle hended hcounter hnext

end PictureUnit

end Handheld
