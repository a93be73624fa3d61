import Handheld.Proofs.CarryChains

/-!
# Packed decimals

Two decimal digits share a byte. After each addition or subtraction in binary the adjustment makes
the byte decimal again and the carry a decimal one.
-/

namespace Handheld

namespace Numeral

def decimal : Numeral where
  base := 100
  digit b := b.toNat / 16 * 10 + b.toNat % 16
  IsDigit b := b.toNat / 16 ≤ 9 ∧ b.toNat % 16 ≤ 9
  one_lt_base := by decide
  digit_lt {b} h := by omega

@[simp] theorem base_decimal : decimal.base = 100 := rfl

end Numeral

open Numeral (decimal base_decimal)

namespace Cpu

/-! ## One byte -/

namespace Alu

/-- The low digit is adjusted: it had to borrow or carry, or it is over 9 still. -/
def adjustsLow (a : UInt8) (f : Flags) : Bool := f.h || (!f.n && decide (9 < a.toNat % 16))

/-- The high digit is adjusted: the byte had to borrow or carry, or it is over 99 still. -/
def adjustsHigh (a : UInt8) (f : Flags) : Bool := f.c || (!f.n && decide (0x99 < a.toNat))

theorem toNat_decimalAdjustment (a : UInt8) (f : Flags) :
    (decimalAdjustment a f).toNat =
      6 * (adjustsLow a f).toNat + 96 * (adjustsHigh a f).toNat := by
  have hlow : decide (9 < a &&& 0x0f) = decide (9 < a.toNat % 16) := by
    rw [decide_eq_decide, UInt8.lt_iff_toNat_lt, UInt8.toNat_and,
      ← Nat.and_two_pow_sub_one_eq_mod a.toNat 4]
    rfl
  have hhigh : decide (0x99 < a) = decide (0x99 < a.toNat) :=
    decide_eq_decide.2 UInt8.lt_iff_toNat_lt
  unfold decimalAdjustment adjustsLow adjustsHigh
  rw [hlow, hhigh]
  split <;> split <;> simp [*]

theorem carry_decimalAdjust (a : UInt8) (f : Flags) :
    (decimalAdjust a f).2.c = adjustsHigh a f := by
  simp [decimalAdjust, adjustsHigh, UInt8.lt_iff_toNat_lt]

variable {x y : UInt8} (c : Bool) (hx : decimal.IsDigit x) (hy : decimal.IsDigit y)

theorem adjustsLow_sub :
    adjustsLow (sub x y c).1 (sub x y c).2 = decide (x.toNat % 16 < y.toNat % 16 + c.toNat) :=
  Bool.or_false _

theorem adjustsHigh_sub :
    adjustsHigh (sub x y c).1 (sub x y c).2 = decide (x.toNat < y.toNat + c.toNat) :=
  Bool.or_false _

include hx hy

theorem adjustsLow_add :
    adjustsLow (add x y c).1 (add x y c).2 =
      decide (9 < x.toNat % 16 + y.toNat % 16 + c.toNat) := by
  obtain ⟨hx1, hx0⟩ := hx
  obtain ⟨hy1, hy0⟩ := hy
  have hc := c.toNat_lt
  have hsum := toNat_add x y c
  rw [Bool.eq_iff_iff]
  simp [adjustsLow, add] at hsum ⊢
  omega

theorem adjustsHigh_add :
    adjustsHigh (add x y c).1 (add x y c).2 = decide (0x99 < x.toNat + y.toNat + c.toNat) := by
  obtain ⟨hx1, hx0⟩ := hx
  obtain ⟨hy1, hy0⟩ := hy
  have hc := c.toNat_lt
  have hsum := toNat_add x y c
  rw [Bool.eq_iff_iff]
  simp [adjustsHigh, add] at hsum ⊢
  omega

/-- A low digit that went over 9 counts 6 more, and a byte that went over 99 has 160 less. -/
theorem toNat_decimalAdjust_add :
    let s := add x y c
    let r := decimalAdjust s.1 s.2
    r.1.toNat + 160 * (adjustsHigh s.1 s.2).toNat =
      x.toNat + y.toNat + c.toNat + 6 * (adjustsLow s.1 s.2).toNat := by
  intro s r
  have hlow : adjustsLow s.1 s.2 = _ := adjustsLow_add c hx hy
  have hhigh : adjustsHigh s.1 s.2 = _ := adjustsHigh_add c hx hy
  have hsum : s.1.toNat + 256 * s.2.c.toNat = _ := toNat_add x y c
  have hresult : r.1.toNat = _ := UInt8.toNat_add s.1 (decimalAdjustment s.1 s.2)
  have hc := c.toNat_lt
  obtain ⟨hx1, hx0⟩ := hx
  obtain ⟨hy1, hy0⟩ := hy
  rw [hresult, toNat_decimalAdjustment, hlow, hhigh]
  clear hresult
  -- Which digits are adjusted says how often the byte wraps.
  by_cases h0 : 9 < x.toNat % 16 + y.toNat % 16 + c.toNat <;>
    by_cases h1 : 0x99 < x.toNat + y.toNat + c.toNat <;>
    simp only [h0, h1, decide_true, decide_false, Bool.toNat_true, Bool.toNat_false] <;> omega

theorem toNat_decimalAdjust_sub :
    let s := sub x y c
    let r := decimalAdjust s.1 s.2
    r.1.toNat + (y.toNat + c.toNat) + 6 * (adjustsLow s.1 s.2).toNat =
      x.toNat + 160 * (adjustsHigh s.1 s.2).toNat := by
  intro s r
  have hlow : adjustsLow s.1 s.2 = _ := adjustsLow_sub c
  have hhigh : adjustsHigh s.1 s.2 = _ := adjustsHigh_sub c
  have hborrow : s.2.c = decide (x.toNat < y.toNat + c.toNat) := rfl
  have hdifference : s.1.toNat + _ = _ + 256 * s.2.c.toNat := toNat_sub x y c
  have hresult : r.1.toNat = _ := UInt8.toNat_sub s.1 (decimalAdjustment s.1 s.2)
  have hc := c.toNat_lt
  obtain ⟨hx1, hx0⟩ := hx
  obtain ⟨hy1, hy0⟩ := hy
  rw [hborrow] at hdifference
  rw [hresult, toNat_decimalAdjustment, hlow, hhigh]
  clear hresult
  by_cases h0 : x.toNat % 16 < y.toNat % 16 + c.toNat <;>
    by_cases h1 : x.toNat < y.toNat + c.toNat <;>
    simp only [h0, h1, decide_true, decide_false, Bool.toNat_true, Bool.toNat_false]
      at hdifference ⊢ <;> omega

theorem digit_decimalAdjust_add :
    let s := add x y c
    let r := decimalAdjust s.1 s.2
    decimal.IsDigit r.1 ∧
      decimal.digit r.1 + 100 * r.2.c.toNat =
        decimal.digit x + (decimal.digit y + c.toNat) := by
  intro s r
  have hbalance : r.1.toNat + _ = _ := toNat_decimalAdjust_add c hx hy
  have hcarry : r.2.c = _ := carry_decimalAdjust s.1 s.2
  have hc := c.toNat_lt
  rw [adjustsLow_add c hx hy, adjustsHigh_add c hx hy] at hbalance
  rw [adjustsHigh_add c hx hy] at hcarry
  obtain ⟨hx1, hx0⟩ := hx
  obtain ⟨hy1, hy0⟩ := hy
  rw [hcarry]
  simp only [decimal]
  by_cases h0 : 9 < x.toNat % 16 + y.toNat % 16 + c.toNat <;>
    by_cases h1 : 0x99 < x.toNat + y.toNat + c.toNat <;>
    simp only [h0, h1, decide_true, decide_false, Bool.toNat_true, Bool.toNat_false]
      at hbalance ⊢ <;> omega

theorem digit_decimalAdjust_sub :
    let s := sub x y c
    let r := decimalAdjust s.1 s.2
    decimal.IsDigit r.1 ∧
      decimal.digit r.1 + (decimal.digit y + c.toNat) =
        decimal.digit x + 100 * r.2.c.toNat := by
  intro s r
  have hbalance : r.1.toNat + _ + _ = _ := toNat_decimalAdjust_sub c hx hy
  have hcarry : r.2.c = _ := carry_decimalAdjust s.1 s.2
  have hc := c.toNat_lt
  rw [adjustsLow_sub c, adjustsHigh_sub c] at hbalance
  rw [adjustsHigh_sub c] at hcarry
  obtain ⟨hx1, hx0⟩ := hx
  obtain ⟨hy1, hy0⟩ := hy
  rw [hcarry]
  simp only [decimal]
  by_cases h0 : x.toNat % 16 < y.toNat % 16 + c.toNat <;>
    by_cases h1 : x.toNat < y.toNat + c.toNat <;>
    simp only [h0, h1, decide_true, decide_false, Bool.toNat_true, Bool.toNat_false]
      at hbalance ⊢ <;> omega

end Alu

/-! ## Long numbers -/

/-- The accumulator is loaded with the first byte, takes the second one to it and is made decimal
again. -/
def combineDecimal (view : View) (op : Alu.Op) (cpu : Cpu) (xy : UInt8 × UInt8) : UInt8 × Cpu :=
  let next := ((cpu.combine op xy).2.execute view .daa).cpu
  (next.regs.a, next)

variable (view : View) (cpu : Cpu) {xy : UInt8 × UInt8}

theorem fst_combineDecimal (op : Alu.Op) (xy : UInt8 × UInt8) :
    (cpu.combineDecimal view op xy).1 =
      (Alu.decimalAdjust (op.apply xy.1 xy.2 cpu.regs.flags).1
        (op.apply xy.1 xy.2 cpu.regs.flags).2).1 :=
  congrArg (fun f => (Alu.decimalAdjust _ f).1) (flags_combine op cpu xy)

theorem carry_combineDecimal (op : Alu.Op) (xy : UInt8 × UInt8) :
    (cpu.combineDecimal view op xy).2.carry =
      (Alu.decimalAdjust (op.apply xy.1 xy.2 cpu.regs.flags).1
        (op.apply xy.1 xy.2 cpu.regs.flags).2).2.c :=
  (congrArg Flags.c (flags_setFlags _ _)).trans
    (congrArg (fun f => (Alu.decimalAdjust _ f).2.c) (flags_combine op cpu xy))

theorem place_adc_daa (hx : decimal.IsDigit xy.1) (hy : decimal.IsDigit xy.2) :
    decimal.Place 1 cpu xy.1 xy.2 (cpu.combineDecimal view .adc xy) := by
  obtain ⟨hdigit, hbalance⟩ := Alu.digit_decimalAdjust_add cpu.carry hx hy
  constructor
  · rw [fst_combineDecimal]
    exact hdigit
  · rw [fst_combineDecimal, carry_combineDecimal, base_decimal]
    simp only [Alu.Op.apply, carry] at hbalance ⊢
    omega

theorem place_sbc_daa (hx : decimal.IsDigit xy.1) (hy : decimal.IsDigit xy.2) :
    decimal.Place (-1) cpu xy.1 xy.2 (cpu.combineDecimal view .sbc xy) := by
  obtain ⟨hdigit, hbalance⟩ := Alu.digit_decimalAdjust_sub cpu.carry hx hy
  constructor
  · rw [fst_combineDecimal]
    exact hdigit
  · rw [fst_combineDecimal, carry_combineDecimal, base_decimal]
    simp only [Alu.Op.apply, carry] at hbalance ⊢
    omega

/-- Two decimal numbers of equally many bytes are added and subtracted through the carry flag. -/
theorem decimal_chains (xs ys : List UInt8) (hlen : xs.length = ys.length)
    (hxs : ∀ x ∈ xs, decimal.IsDigit x) (hys : ∀ y ∈ ys, decimal.IsDigit y) :
    let n := xs.length
    let X := decimal.value xs
    let Y := decimal.value ys
    let c := cpu.carry.toNat
    decimal.IsSum n (X + Y + c) (cpu.passUp (combineDecimal view .adc) (xs.zip ys)) ∧
    decimal.IsDifference n X (Y + c) (cpu.passUp (combineDecimal view .sbc) (xs.zip ys)) := by
  have hdigits : ∀ xy ∈ xs.zip ys, decimal.IsDigit xy.1 ∧ decimal.IsDigit xy.2 := by
    rintro ⟨x, y⟩ hxy
    exact ⟨hxs x (List.of_mem_zip hxy).1, hys y (List.of_mem_zip hxy).2⟩
  constructor
  · apply Numeral.isSum_passUp hlen
    intro cpu xy hxy
    exact place_adc_daa view cpu (hdigits xy hxy).1 (hdigits xy hxy).2
  · apply Numeral.isDifference_passUp hlen
    intro cpu xy hxy
    exact place_sbc_daa view cpu (hdigits xy hxy).1 (hdigits xy hxy).2

theorem decimal_chains_two_bytes :
    let xys : List (UInt8 × UInt8) := [(0x99, 0x00), (0x27, 0x73)]
    (powerOn.passUp (combineDecimal (fun _ => 0) .adc) xys).2.carry = true ∧
    decimal.value (powerOn.passUp (combineDecimal (fun _ => 0) .adc) xys).1 = 100 ∧
    (powerOn.passUp (combineDecimal (fun _ => 0) .sbc) xys).2.carry = true ∧
    decimal.value (powerOn.passUp (combineDecimal (fun _ => 0) .sbc) xys).1 = 5498 := by
  obtain ⟨hsum, hdifference⟩ :=
    decimal_chains (fun _ => 0) powerOn [0x99, 0x27] [0x00, 0x73] rfl (by simp [decimal])
      (by simp [decimal])
  refine ⟨hsum.carry.2 (by decide +kernel), ?_, hdifference.carry.2 (by decide +kernel), ?_⟩
  · exact hsum.value.trans (by decide +kernel)
  · exact Int.ofNat_inj.1 (hdifference.value.trans (by decide +kernel))

end Cpu

end Handheld
