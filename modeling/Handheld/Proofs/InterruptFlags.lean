import Handheld.Machine
import Handheld.Proofs.PictureRuns
import Mathlib.Data.Nat.Bitwise

/-!
# The interrupt flags

Who changes them. The hardware only sets bits, and of the writes only the one at 0xff0f matters.
-/

namespace Handheld

/-! ## Bits that stay set -/

/-- Every bit that is set stays set. -/
def Kept (before after : UInt8) : Prop := before &&& after = before

theorem Kept.refl (flags : UInt8) : Kept flags flags := UInt8.and_self

theorem Kept.trans {a b c : UInt8} (hab : Kept a b) (hbc : Kept b c) : Kept a c := by
  unfold Kept at *
  rw [← hab, UInt8.and_assoc, hbc]

theorem Kept.or (flags m : UInt8) : Kept flags (flags ||| m) := by
  apply UInt8.toBitVec_inj.1
  ext i
  simp only [UInt8.toBitVec_and, UInt8.toBitVec_or, BitVec.getElem_and, BitVec.getElem_or]
  cases flags.toBitVec[i] <;> rfl

theorem Kept.and_ne_zero {a b m : UInt8} (h : Kept a b) (ha : a &&& m ≠ 0) : b &&& m ≠ 0 := by
  intro hb
  apply ha
  rw [← h, UInt8.and_assoc, hb, UInt8.and_zero]

theorem or_and_of_and_eq_zero (a : UInt8) {b m : UInt8} (h : b &&& m = 0) :
    (a ||| b) &&& m = a &&& m := by
  rw [KeySet.or_and, h, UInt8.or_zero]

theorem and_ne_zero_iff_testBit (b : UInt8) {m : UInt8} {i : Nat} (hm : m.toNat = 2 ^ i) :
    b &&& m ≠ 0 ↔ b.toNat.testBit i = true := by
  rw [ne_eq, ← UInt8.toNat_inj, UInt8.toNat_and, hm, Nat.and_two_pow]
  cases b.toNat.testBit i <;> simp

theorem Interrupt.clear_and_mask (flags : UInt8) {i j : Interrupt} (h : i ≠ j) :
    flags &&& ~~~i.mask &&& j.mask = flags &&& j.mask := by
  have hmask : ~~~i.mask &&& j.mask = j.mask := by
    cases i <;> cases j <;> first | exact absurd rfl h | decide
  rw [UInt8.and_assoc, hmask]

namespace Bus

/-- A line is requested. -/
def Requests (b : Bus) (i : Interrupt) : Prop := b.interruptFlags &&& i.mask ≠ 0

instance (b : Bus) (i : Interrupt) : Decidable (b.Requests i) :=
  inferInstanceAs (Decidable (_ ≠ _))

theorem Requests.kept {b b' : Bus} {i : Interrupt} (h : b.Requests i)
    (hkept : Kept b.interruptFlags b'.interruptFlags) : b'.Requests i :=
  hkept.and_ne_zero h

/-! ## Writes -/

@[simp] theorem interruptFlags_store (b : Bus) (a : UInt16) (v : UInt8) :
    (b.store a v).interruptFlags = b.interruptFlags := rfl

@[simp] theorem interruptFlags_report (b : Bus) (e : Event) :
    (b.report e).interruptFlags = b.interruptFlags := rfl

theorem interruptFlags_request (b : Bus) (i : Interrupt) :
    (b.request i).interruptFlags = b.interruptFlags ||| i.mask := rfl

theorem requests_store (b : Bus) (a : UInt16) (v : UInt8) (i : Interrupt) :
    (b.store a v).Requests i ↔ b.Requests i := by
  unfold Requests
  rw [interruptFlags_store]

theorem requests_request (b : Bus) (i j : Interrupt) :
    (b.request i).Requests j ↔ b.Requests j ∨ i = j := by
  unfold Requests
  rw [interruptFlags_request]
  by_cases h : i = j
  · subst h
    have hmask : i.mask &&& i.mask ≠ 0 := by cases i <;> decide
    have hkept : Kept i.mask (b.interruptFlags ||| i.mask) := by
      rw [UInt8.or_comm]
      exact Kept.or _ _
    exact iff_of_true (hkept.and_ne_zero hmask) (.inr rfl)
  · have hmask : i.mask &&& j.mask = 0 := by
      cases i <;> cases j <;> first | exact absurd rfl h | decide
    rw [or_and_of_and_eq_zero _ hmask]
    simp only [h, or_false]

@[simp] theorem interruptFlags_hear (b : Bus) (a : UInt16) (v : UInt8) :
    (b.hear a v).interruptFlags = b.interruptFlags :=
  apply_hear (fun _ _ => rfl) b a v

@[simp] theorem interruptFlags_serialControl (b : Bus) (v : UInt8) :
    (b.serialControl v).interruptFlags = b.interruptFlags :=
  apply_serialControl (fun _ _ => rfl) interruptFlags_report b v

@[simp] theorem interruptFlags_dma (b : Bus) (v : UInt8) :
    (b.dma v).interruptFlags = b.interruptFlags :=
  apply_dma interruptFlags_store interruptFlags_report b v

theorem interruptFlags_write (b : Bus) {a : UInt16} (v : UInt8) (h : a ≠ 0xff0f) :
    (b.write a v).interruptFlags = b.interruptFlags := by
  cases ha : Region.ofAddress a <;> simp only [write, ha]
  case interruptFlags => exact absurd (Region.covers_of_eq ha) h
  case serialControl => rw [interruptFlags_serialControl, interruptFlags_store]
  case sound => rw [interruptFlags_hear, interruptFlags_store]
  case dma => exact interruptFlags_dma b v
  all_goals rfl

theorem interruptFlags_storeAll (b : Bus) (stores : List Cpu.Store)
    (h : ∀ s ∈ stores, s.address ≠ 0xff0f) :
    (b.storeAll stores).interruptFlags = b.interruptFlags := by
  unfold storeAll
  induction stores generalizing b with
  | nil => rfl
  | cons s stores ih =>
    rw [List.foldl_cons, ih _ fun s hs => h s (List.mem_cons_of_mem _ hs)]
    exact interruptFlags_write b _ (h s List.mem_cons_self)

/-! ## The hardware -/

theorem timer_tick (b : Bus) (cycles : Nat) :
    (b.tick cycles).timer = (b.timer.advance cycles).2 := by
  unfold tick
  dsimp only
  split <;> rfl

theorem interruptFlags_tick (b : Bus) (cycles : Nat) :
    (b.tick cycles).interruptFlags =
      if (b.timer.advance cycles).1 then b.interruptFlags ||| Interrupt.timer.mask
      else b.interruptFlags := by
  unfold tick
  dsimp only
  split <;> rfl

theorem kept_tick (b : Bus) (cycles : Nat) :
    Kept b.interruptFlags (b.tick cycles).interruptFlags := by
  rw [interruptFlags_tick]
  split
  · exact Kept.or b.interruptFlags _
  · exact Kept.refl b.interruptFlags

theorem kept_serial (b : Bus) (cycles : Nat) :
    Kept b.interruptFlags (b.serial cycles).interruptFlags := by
  unfold serial
  cases b.plug with
  | none => exact Kept.refl _
  | some plug =>
    dsimp only
    split
    · rw [completeTransfer, interruptFlags_report, interruptFlags_request]
      exact Kept.or b.interruptFlags _
    · exact Kept.refl b.interruptFlags

end Bus

namespace PictureUnit

theorem kept_updateStatus (counter : Int) (bus : Bus) :
    Kept bus.interruptFlags (updateStatus counter bus).interruptFlags := by
  unfold updateStatus
  dsimp only
  rw [Bus.interruptFlags_store]
  split
  · rw [Bus.interruptFlags_request]
    exact Kept.or bus.interruptFlags _
  · exact Kept.refl _

theorem kept_step (p : PictureUnit) (bus : Bus) (cycles : Nat) :
    Kept bus.interruptFlags (p.step bus cycles).2.2.interruptFlags := by
  have hstep := step_advance p bus cycles
  have hstatus := kept_updateStatus p.counter bus
  generalize p.step bus cycles = r at hstep
  cases hstep with
  | off => exact Kept.refl bus.interruptFlags
  | within => exact hstatus
  | drawn | blank =>
    dsimp only
    rw [Bus.interruptFlags_store]
    exact hstatus
  | completed =>
    dsimp only
    rw [Bus.interruptFlags_request, Bus.interruptFlags_store]
    exact hstatus.trans (Kept.or _ _)

end PictureUnit

theorem Board.kept_applyPoll (board : Board) (found : Keypad.Poll) :
    Kept board.bus.interruptFlags (board.applyPoll found).bus.interruptFlags := by
  unfold applyPoll
  dsimp only
  split
  · rw [Bus.interruptFlags_request]
    exact Kept.or board.bus.interruptFlags _
  · exact Kept.refl board.bus.interruptFlags

end Handheld
