import Handheld.Picture.Unit
import Handheld.Proofs.BusReads
import Handheld.Proofs.PictureReads

/-!
# What the picture unit does

What one advance of the picture unit can do to the line register, the pictures and the bus, and
runs in which the program writes in between.
-/

namespace Handheld

namespace PictureUnit

open Picture (renderLine SameSource)

/-! ## The bus -/

theorem read_updateStatus_of_ne (counter : Int) (bus : Bus) {a : UInt16} (hstat : a ≠ 0xff41)
    (hflags : a ≠ 0xff0f) : (updateStatus counter bus).read a = bus.read a := by
  have hne : statAddress ≠ a := hstat.symm
  unfold updateStatus
  dsimp only
  rw [Bus.read_store_of_ne _ _ hne]
  split
  · exact Bus.read_request_of_ne _ _ hflags
  · rfl

theorem sameSource_updateStatus (counter : Int) (bus : Bus) :
    SameSource (updateStatus counter bus).read bus.read := by
  intro a ha
  apply read_updateStatus_of_ne <;> (rintro rfl; revert ha; simp [Picture.Source])

theorem read_offBus_lyAddress (bus : Bus) : (offBus bus).read lyAddress = 0 := by
  unfold offBus
  rw [Bus.read_store_of_ne _ _ (by decide)]
  exact Bus.read_store_self _ _ (by decide)

/-! ## One advance -/

/-- What an advance can do, by what it starts from. The line that ends is drawn from the bus as it
is before the advance. -/
inductive Advance (p : PictureUnit) (bus : Bus) (cycles : Nat) : Bool × PictureUnit × Bus → Prop
  | off (hoff : on bus = false) :
    Advance p bus cycles (false, { p with counter := lineCycles }, offBus bus)
  | within (hon : on bus = true) (hleft : 0 < p.counter - signed32 cycles) :
    Advance p bus cycles
      (false, { p with counter := p.counter - signed32 cycles }, updateStatus p.counter bus)
  | drawn (hon : on bus = true) (hleft : p.counter - signed32 cycles ≤ 0)
      (hline : bus.read lyAddress < 143) :
    Advance p bus cycles
      (false,
        { p with
          counter := p.counter - signed32 cycles + lineCycles
          drawing := p.drawing.setRow (bus.read lyAddress).toNat
            (renderLine bus.read (bus.read lyAddress)) },
        (updateStatus p.counter bus).store lyAddress (bus.read lyAddress + 1))
  | completed (hon : on bus = true) (hleft : p.counter - signed32 cycles ≤ 0)
      (hline : bus.read lyAddress = 143) :
    Advance p bus cycles
      (true,
        { shown := p.drawing.setRow 143 (renderLine bus.read 143)
          drawing := p.shown
          counter := p.counter - signed32 cycles + lineCycles
          frames := p.frames + 1 },
        ((updateStatus p.counter bus).store lyAddress 144).request .vBlank)
  | blank (hon : on bus = true) (hleft : p.counter - signed32 cycles ≤ 0)
      (hline : 144 ≤ bus.read lyAddress) :
    Advance p bus cycles
      (false, { p with counter := p.counter - signed32 cycles + lineCycles },
        (updateStatus p.counter bus).store lyAddress
          (if lastLine < bus.read lyAddress + 1 then 0 else bus.read lyAddress + 1))

theorem advance_endLine (p : PictureUnit) (bus : Bus) (cycles : Nat) (hon : on bus = true)
    (hleft : p.counter - signed32 cycles ≤ 0) :
    Advance p bus cycles
      (endLine { p with counter := p.counter - signed32 cycles + lineCycles }
        (updateStatus p.counter bus)) := by
  have hly : (updateStatus p.counter bus).read lyAddress = bus.read lyAddress :=
    read_updateStatus_of_ne _ _ (by decide) (by decide)
  have hrow := fun line => Picture.renderLine_congr (sameSource_updateStatus p.counter bus) line
  unfold endLine
  simp only [hly, hrow]
  have hcases : bus.read lyAddress < 143 ∨ bus.read lyAddress = 143 ∨ 144 ≤ bus.read lyAddress := by
    grind
  rcases hcases with hline | hline | hline
  · have hdraw : bus.read lyAddress < 144 := by grind
    have hnext : bus.read lyAddress + 1 ≠ 144 := by grind
    have hlast : ¬ lastLine < bus.read lyAddress + 1 := by grind [lastLine]
    simp only [hdraw, hnext, hlast, if_true, if_false]
    exact .drawn hon hleft hline
  · simp only [hline]
    exact .completed hon hleft hline
  · have hdraw : ¬ bus.read lyAddress < 144 := by grind
    have hnext : bus.read lyAddress + 1 ≠ 144 := by grind
    simp only [hdraw, hnext, if_false]
    exact .blank hon hleft hline

theorem step_advance (p : PictureUnit) (bus : Bus) (cycles : Nat) :
    Advance p bus cycles (p.step bus cycles) := by
  unfold step
  split
  · rename_i hon
    dsimp only
    split
    · rename_i hleft
      exact .within hon hleft
    · rename_i hleft
      exact advance_endLine p bus cycles hon (Int.not_lt.1 hleft)
  · rename_i hoff
    exact .off (by simpa using hoff)

theorem step_of_off (p : PictureUnit) {bus : Bus} (hoff : on bus = false) (cycles : Nat) :
    p.step bus cycles = (false, { p with counter := lineCycles }, offBus bus) := by
  unfold step
  rw [hoff]
  rfl

/-- With the display on, what an advance does after the status register concerns the line register
and the interrupt of the picture. -/
theorem apply_step_of_on {β : Type} {f : Bus → β} (hline : ∀ b v, f (Bus.store b lyAddress v) = f b)
    (hrequest : ∀ b, f (Bus.request b .vBlank) = f b) (p : PictureUnit) {bus : Bus}
    (hon : on bus = true) (cycles : Nat) :
    f (p.step bus cycles).2.2 = f (updateStatus p.counter bus) := by
  have hstep := step_advance p bus cycles
  generalize p.step bus cycles = r at hstep
  cases hstep with
  | off hoff => exact absurd (hon.symm.trans hoff) (by decide)
  | within => rfl
  | drawn | blank => exact hline _ _
  | completed => exact (hrequest _).trans (hline _ _)

theorem shown_step_of_not_completed (p : PictureUnit) (bus : Bus) (cycles : Nat)
    (h : (p.step bus cycles).1 = false) : (p.step bus cycles).2.1.shown = p.shown := by
  have hstep := step_advance p bus cycles
  generalize p.step bus cycles = r at h hstep
  cases hstep with
  | off | within | drawn | blank => rfl
  | completed => contradiction

end PictureUnit

/-! ## Runs -/

/-- The picture unit and the bus it draws from. -/
structure Scene where
  picture : PictureUnit
  bus : Bus

inductive Scene.Action where
  | advance (cycles : Nat)
  | write (address : UInt16) (v : UInt8)
  | writeWord (address v : UInt16)
deriving Repr, DecidableEq

namespace Scene

open Picture (renderLine)
open PictureUnit (on lyAddress)

def powerOn (cartridge : Cartridge) (sound : Bool) (log : Log) : Scene :=
  { picture := .powerOn, bus := .powerOn cartridge sound log }

def act (s : Scene) : Action → Scene
  | .advance cycles =>
    let (_, picture, bus) := s.picture.step s.bus cycles
    { picture, bus }
  | .write address v => { s with bus := s.bus.write address v }
  | .writeWord address v => { s with bus := s.bus.writeWord address v }

def run (s : Scene) (actions : List Action) : Scene := actions.foldl act s

def line (s : Scene) : UInt8 := s.bus.read lyAddress

def completes (s : Scene) (cycles : Nat) : Bool := (s.picture.step s.bus cycles).1

theorem run_append (s : Scene) (as bs : List Action) : s.run (as ++ bs) = (s.run as).run bs := by
  unfold run
  rw [List.foldl_append]

theorem run_concat (s : Scene) (as : List Action) (a : Action) :
    s.run (as ++ [a]) = (s.run as).act a := by
  rw [run_append]
  rfl

/-! ## The line register -/

theorem read_lyAddress_write (bus : Bus) (a : UInt16) (v : UInt8) :
    (bus.write a v).read lyAddress = bus.read lyAddress ∨ (bus.write a v).read lyAddress = 0 := by
  by_cases h : a = lyAddress
  · subst h
    right
    exact Bus.read_write_self bus v (by decide) (by decide) (by decide) (by decide) (by decide)
  · left
    have hne : ¬ a = 0xff44 := h
    exact Bus.read_write_of_not_touches bus v (by grind [Bus.Touches, PictureUnit.lyAddress])

theorem read_lyAddress_writeWord (bus : Bus) (a v : UInt16) :
    (bus.writeWord a v).read lyAddress = bus.read lyAddress ∨
      (bus.writeWord a v).read lyAddress = 0 := by
  unfold Bus.writeWord
  rcases read_lyAddress_write (bus.write a (Word.low v)) (a + 1) (Word.high v) with h | h
  · rw [h]
    exact read_lyAddress_write bus a (Word.low v)
  · exact Or.inr h

theorem line_powerOn (cartridge : Cartridge) (sound : Bool) (log : Log) :
    (powerOn cartridge sound log).line = 0 := by
  have huntouched : ∀ w ∈ Bus.powerOnWrites, ¬ Bus.Touches w.1 lyAddress := by
    simp [Bus.powerOnWrites, Bus.Touches, lyAddress]
  unfold line powerOn Bus.powerOn
  rw [Bus.read_writes_of_not_touches _ _ huntouched, Bus.read_eq_cell _ (by decide)]
  simp only [Cells.get_ofFn]
  rfl

theorem on_powerOn (cartridge : Cartridge) (sound : Bool) (log : Log) :
    on (Bus.powerOn cartridge sound log) = true := by
  -- The display is switched on in the middle of the power-on sequence and left alone after.
  have hsplit : Bus.powerOnWrites =
      Bus.powerOnWrites.take 21 ++ (0xff40, 0x91) :: Bus.powerOnWrites.drop 22 := rfl
  have huntouched : ∀ w ∈ Bus.powerOnWrites.drop 22, ¬ Bus.Touches w.1 0xff40 := by
    simp [Bus.powerOnWrites, Bus.Touches]
  have hread : (Bus.powerOn cartridge sound log).read 0xff40 = 0x91 := by
    unfold Bus.powerOn
    rw [hsplit, List.foldl_append, List.foldl_cons,
      Bus.read_writes_of_not_touches _ _ huntouched]
    exact Bus.read_write_self _ _ (by decide) (by decide) (by decide) (by decide) (by decide)
  unfold on
  rw [hread]
  rfl

/-! ## What an action draws -/

/-- An advance either leaves the drawing and the line register, or starts over at line 0, or draws
a line before the last visible one and goes on to the next, or leaves the visible lines. -/
theorem advance_cases (s : Scene) (cycles : Nat) :
    ((s.act (.advance cycles)).line = s.line ∧
        (s.act (.advance cycles)).picture.drawing = s.picture.drawing) ∨
      (s.act (.advance cycles)).line = 0 ∨
      (s.line < 143 ∧ (s.act (.advance cycles)).line = s.line + 1 ∧
        (s.act (.advance cycles)).picture.drawing =
          s.picture.drawing.setRow s.line.toNat (renderLine s.bus.read s.line)) ∨
      144 ≤ (s.act (.advance cycles)).line := by
  obtain ⟨p, bus⟩ := s
  have hstep := PictureUnit.step_advance p bus cycles
  simp only [act, line]
  generalize p.step bus cycles = r at hstep
  cases hstep with
  | off => exact Or.inr (Or.inl (PictureUnit.read_offBus_lyAddress bus))
  | within =>
    exact Or.inl ⟨PictureUnit.read_updateStatus_of_ne _ _ (by decide) (by decide), rfl⟩
  | drawn hon hleft hline =>
    exact Or.inr (Or.inr (Or.inl ⟨hline, Bus.read_store_self _ _ (by decide), rfl⟩))
  | completed =>
    refine Or.inr (Or.inr (Or.inr ?_))
    rw [Bus.read_request_of_ne _ _ (by decide), Bus.read_store_self _ _ (by decide)]
    decide
  | blank hon hleft hline =>
    dsimp only
    rw [Bus.read_store_self _ _ (by decide)]
    have hnext : bus.read lyAddress + 1 = 0 ∨ 144 ≤ bus.read lyAddress + 1 := by grind
    split
    · exact Or.inr (Or.inl rfl)
    · exact Or.inr (hnext.imp_right Or.inr)

theorem write_cases (s : Scene) {a : Action} (h : ∀ cycles, a ≠ .advance cycles) :
    (s.act a).picture = s.picture ∧ ((s.act a).line = s.line ∨ (s.act a).line = 0) := by
  cases a with
  | advance cycles => exact absurd rfl (h cycles)
  | write address v => exact ⟨rfl, read_lyAddress_write _ _ _⟩
  | writeWord address v => exact ⟨rfl, read_lyAddress_writeWord _ _ _⟩

theorem of_completes (s : Scene) {cycles : Nat} (h : s.completes cycles = true) :
    s.line = 143 ∧ (s.act (.advance cycles)).line = 144 ∧
      (s.act (.advance cycles)).picture.shown =
        s.picture.drawing.setRow 143 (renderLine s.bus.read 143) := by
  obtain ⟨p, bus⟩ := s
  have hstep := PictureUnit.step_advance p bus cycles
  simp only [completes] at h
  simp only [act, line]
  generalize p.step bus cycles = r at h hstep
  cases hstep with
  | off | within | drawn | blank => contradiction
  | completed hon hleft hline =>
    refine ⟨hline, ?_, rfl⟩
    rw [Bus.read_request_of_ne _ _ (by decide), Bus.read_store_self _ _ (by decide)]

end Scene

end Handheld
