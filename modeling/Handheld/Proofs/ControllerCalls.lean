import Handheld.Cartridge.Controller
import Mathlib.Tactic.Common

/-!
# Calls of a controller

What the bus does with a bank controller, in any order and any number of times, and the ROM banks
that can be in place then.
-/

namespace Handheld.Cartridge

/-! ## Bank numbers -/

theorem toNat_and_0x1f (x : UInt8) : (x &&& 0x1f).toNat = x.toNat % 32 :=
  Nat.and_two_pow_sub_one_eq_mod x.toNat 5

theorem toNat_and_0x60 (x : UInt8) : (x &&& 0x60).toNat = 32 * (x.toNat / 32 % 4) := by
  have h : ∀ n < 256, n &&& 0x60 = 32 * (n / 32 % 4) := by decide +kernel
  exact h x.toNat x.toNat_lt

theorem toNat_or_low {x y : UInt8} {n : Nat} (hx : x.toNat = 32 * n) (hy : y.toNat < 32) :
    (x ||| y).toNat = 32 * n + y.toNat := by
  rw [UInt8.toNat_or, hx]
  exact (Nat.two_pow_add_eq_or_of_lt (i := 5) hy n).symm

theorem toNat_one_for_zero {x : UInt8} {n : Nat} (hx : x.toNat = n) :
    (if x = 0 then 1 else x).toNat = if n = 0 then 1 else n := by
  subst hx
  by_cases h : x = 0
  · rw [if_pos h, h]
    rfl
  · have hne : x.toNat ≠ 0 := fun h0 => h (UInt8.toNat_inj.1 h0)
    rw [if_neg h, if_neg hne]

theorem Mbc1.toNat_lowBank (v : UInt8) :
    (lowBank v).toNat = if v.toNat % 32 = 0 then 1 else v.toNat % 32 :=
  toNat_one_for_zero (toNat_and_0x1f v)

theorem Mbc2.toNat_bank (v : UInt8) :
    (bank v).toNat = if v.toNat % 16 = 0 then 1 else v.toNat % 16 :=
  toNat_one_for_zero (Nat.and_two_pow_sub_one_eq_mod v.toNat 4)

theorem Mbc3.toNat_bank (v : UInt8) :
    (bank v).toNat = if v.toNat % 128 = 0 then 1 else v.toNat % 128 :=
  toNat_one_for_zero (Nat.and_two_pow_sub_one_eq_mod v.toNat 7)

theorem Mbc1.toNat_setLow (bank v : UInt8) :
    (bank &&& 0x60 ||| lowBank v).toNat = 32 * (bank.toNat / 32 % 4) + (lowBank v).toNat := by
  have hlow := toNat_lowBank v
  exact toNat_or_low (toNat_and_0x60 bank) (by split at hlow <;> omega)

theorem Mbc1.toNat_setHigh (bank v : UInt8) :
    (bank &&& 0x1f ||| (v &&& 0x03) * 32).toNat = 32 * (v.toNat % 4) + bank.toNat % 32 := by
  have hv : (v &&& 0x03).toNat = v.toNat % 4 := Nat.and_two_pow_sub_one_eq_mod v.toNat 2
  have hhigh : ((v &&& 0x03) * 32).toNat = 32 * (v.toNat % 4) := by
    rw [UInt8.toNat_mul, hv]
    simp only [UInt8.reduceToNat]
    omega
  rw [UInt8.or_comm, ← toNat_and_0x1f]
  refine toNat_or_low hhigh ?_
  rw [toNat_and_0x1f]
  omega

namespace Controller

/-! ## Calls -/

inductive Call where
  | control (address : UInt16) (v : UInt8)
  | writeRam (address : UInt16) (v : UInt8)
  | tick (cycles : Nat)
deriving Repr, DecidableEq

def call (c : Controller) : Call → Controller
  | .control address v => c.control address v
  | .writeRam address v => c.writeRam address v
  | .tick cycles => c.tick cycles

def run (c : Controller) (calls : List Call) : Controller := calls.foldl call c

def kind : Controller → Kind
  | unbanked _ => .unbanked
  | mbc1 _ => .mbc1
  | mbc2 _ => .mbc2
  | mbc3 c => .mbc3 c.hasClock

theorem kind_powerOn (kind : Kind) (ramSize clockHz : Nat) :
    (powerOn kind ramSize clockHz).kind = kind := by
  cases kind <;> rfl

theorem kind_control (c : Controller) (a : UInt16) (v : UInt8) : (c.control a v).kind = c.kind := by
  cases c with
  | unbanked | mbc1 | mbc2 => rfl
  | mbc3 c =>
    simp only [control, kind, Mbc3.control]
    split_ifs <;> rfl

theorem kind_writeRam (c : Controller) (a : UInt16) (v : UInt8) :
    (c.writeRam a v).kind = c.kind := by
  cases c with
  | unbanked | mbc1 | mbc2 => rfl
  | mbc3 c =>
    simp only [writeRam, kind, Mbc3.writeRam]
    split
    · split <;> rfl
    · rfl

theorem kind_tick (c : Controller) (cycles : Nat) : (c.tick cycles).kind = c.kind := by
  cases c with
  | unbanked | mbc1 | mbc2 => rfl
  | mbc3 c =>
    simp only [tick, kind, Mbc3.tick]
    split <;> rfl

theorem kind_call (c : Controller) (k : Call) : (c.call k).kind = c.kind := by
  cases k with
  | control a v => exact kind_control c a v
  | writeRam a v => exact kind_writeRam c a v
  | tick cycles => exact kind_tick c cycles

theorem kind_run (c : Controller) (calls : List Call) : (c.run calls).kind = c.kind := by
  induction calls generalizing c with
  | nil => rfl
  | cons k calls ih => exact (ih (c.call k)).trans (kind_call c k)

/-! ## The ROM bank in place -/

theorem romBank_writeRam (c : Controller) (a : UInt16) (v : UInt8) :
    (c.writeRam a v).romBank = c.romBank := by
  cases c with
  | unbanked c => rfl
  | mbc1 c =>
    simp only [writeRam, romBank, Mbc1.writeRam]
    split <;> rfl
  | mbc2 c =>
    simp only [writeRam, romBank, Mbc2.writeRam]
    split <;> rfl
  | mbc3 c =>
    simp only [writeRam, romBank, Mbc3.writeRam]
    split
    · split <;> rfl
    · rfl

theorem romBank_tick (c : Controller) (cycles : Nat) : (c.tick cycles).romBank = c.romBank := by
  cases c with
  | unbanked | mbc1 | mbc2 => rfl
  | mbc3 c =>
    simp only [tick, romBank, Mbc3.tick]
    split <;> rfl

end Controller

/-- The ROM banks that a controller of a kind can show. Bank 0 is never among them, nor is any bank
of an MBC1 whose low five bits are 0. -/
def Kind.Selects : Kind → Nat → Prop
  | unbanked, k => k = 1
  | mbc1, k => 1 ≤ k ∧ k ≤ 127 ∧ k % 32 ≠ 0
  | mbc2, k => 1 ≤ k ∧ k ≤ 15
  | mbc3 _, k => 1 ≤ k ∧ k ≤ 127

theorem Mbc1.selects_control {c : Mbc1} (h : Kind.mbc1.Selects c.romBank.toNat) (a : UInt16)
    (v : UInt8) : Kind.mbc1.Selects (c.control a v).romBank.toNat := by
  obtain ⟨hpos, hle, hlow⟩ := h
  unfold control
  split_ifs
  · exact ⟨hpos, hle, hlow⟩
  · have hbank := toNat_setLow c.romBank v
    rw [toNat_lowBank] at hbank
    dsimp only [Kind.Selects]
    split at hbank <;> omega
  · cases c.mode with
    | ram => exact ⟨hpos, hle, hlow⟩
    | rom =>
      have hbank := toNat_setHigh c.romBank v
      dsimp only [Kind.Selects]
      omega
  · exact ⟨hpos, hle, hlow⟩
  · exact ⟨hpos, hle, hlow⟩

theorem Mbc2.selects_control {c : Mbc2} (h : Kind.mbc2.Selects c.romBank.toNat) (a : UInt16)
    (v : UInt8) : Kind.mbc2.Selects (c.control a v).romBank.toNat := by
  unfold control
  split_ifs
  · exact h
  · exact h
  · have hbank := toNat_bank v
    dsimp only [Kind.Selects]
    split at hbank <;> omega

theorem Mbc3.selects_control {c : Mbc3} {clock : Bool}
    (h : (Kind.mbc3 clock).Selects c.romBank.toNat) (a : UInt16) (v : UInt8) :
    (Kind.mbc3 clock).Selects (c.control a v).romBank.toNat := by
  unfold control
  split_ifs
  · exact h
  · have hbank := toNat_bank v
    dsimp only [Kind.Selects]
    split at hbank <;> omega
  all_goals exact h

namespace Controller

theorem selects_powerOn (kind : Kind) (ramSize clockHz : Nat) :
    kind.Selects (powerOn kind ramSize clockHz).romBank := by
  cases kind <;> simp [Kind.Selects, powerOn, romBank, Mbc1.powerOn, Mbc2.powerOn, Mbc3.powerOn]

theorem selects_call {c : Controller} (h : c.kind.Selects c.romBank) (k : Call) :
    c.kind.Selects (c.call k).romBank := by
  cases k with
  | control a v =>
    cases c with
    | unbanked c => exact h
    | mbc1 c => exact Mbc1.selects_control h a v
    | mbc2 c => exact Mbc2.selects_control h a v
    | mbc3 c => exact Mbc3.selects_control h a v
  | writeRam a v =>
    rw [call, romBank_writeRam]
    exact h
  | tick cycles =>
    rw [call, romBank_tick]
    exact h

end Controller

end Handheld.Cartridge
