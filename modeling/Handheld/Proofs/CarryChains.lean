import Handheld.Cpu.Execute
import Handheld.Proofs.InterruptFlags
import Mathlib.Data.Nat.Digits.Defs
import Mathlib.Tactic.LinearCombination

/-!
# Numbers of many bytes

A number of any length is added, subtracted or shifted one byte at a time, and the carry flag takes
what one byte leaves to the next. All of them together compute what they would in one go, and the
carry that is left at the end is what did not fit.
-/

namespace Handheld

/-! ## Numbers in bytes -/

/-- A way to write numbers in bytes. Those that are digits count for less than the base. -/
structure Numeral where
  base : Nat
  digit : UInt8 → Nat
  IsDigit : UInt8 → Prop
  one_lt_base : 1 < base
  digit_lt : ∀ {b : UInt8}, IsDigit b → digit b < base

namespace Numeral

def binary : Numeral where
  base := 256
  digit := UInt8.toNat
  IsDigit _ := True
  one_lt_base := by decide
  digit_lt {b} _ := b.toNat_lt

@[simp] theorem base_binary : binary.base = 256 := rfl

variable (N : Numeral)

/-- The number that bytes stand for, the low one first. -/
def value (bs : List UInt8) : Nat := Nat.ofDigits N.base (bs.map N.digit)

@[simp] theorem value_nil : N.value [] = 0 := rfl

@[simp] theorem value_cons (b : UInt8) (bs : List UInt8) :
    N.value (b :: bs) = N.digit b + N.base * N.value bs := Nat.ofDigits_cons

variable {N}

theorem value_lt {bs : List UInt8} (h : ∀ b ∈ bs, N.IsDigit b) :
    N.value bs < N.base ^ bs.length := by
  rw [← bs.length_map N.digit]
  apply Nat.ofDigits_lt_base_pow_length N.one_lt_base
  intro d hd
  obtain ⟨b, hb, rfl⟩ := List.mem_map.1 hd
  exact N.digit_lt (h b hb)

theorem binary_value_lt (bs : List UInt8) : binary.value bs < 256 ^ bs.length :=
  value_lt (N := binary) fun _ _ => trivial

theorem eq_of_binary_value_eq {xs ys : List UInt8} (hlen : xs.length = ys.length)
    (h : binary.value xs = binary.value ys) : xs = ys := by
  have hdigit : ∀ bs : List UInt8, ∀ d ∈ bs.map UInt8.toNat, d < 256 := by
    intro bs d hd
    obtain ⟨b, -, rfl⟩ := List.mem_map.1 hd
    exact b.toNat_lt
  apply List.map_injective_iff.2 fun _ _ => UInt8.toNat_inj.1
  exact Nat.ofDigits_inj_of_len_eq (by decide) (by simpa using hlen) (hdigit xs) (hdigit ys) h

end Numeral

/-! ## Passes -/

namespace Cpu

def carry (cpu : Cpu) : Bool := cpu.regs.flags.c

@[simp] theorem flags_setFlags (cpu : Cpu) (f : Flags) : (cpu.setFlags f).regs.flags = f :=
  f.ofByte_toByte

variable {α : Type}

/-- Makes a byte of each item, from the first one on. The processor goes from item to item. -/
def passUp (f : Cpu → α → UInt8 × Cpu) (cpu : Cpu) : List α → List UInt8 × Cpu
  | [] => ([], cpu)
  | a :: as =>
    let (b, next) := f cpu a
    let (bs, last) := passUp f next as
    (b :: bs, last)

/-- Makes a byte of each item, from the last one on. -/
def passDown (f : Cpu → α → UInt8 × Cpu) (cpu : Cpu) : List α → List UInt8 × Cpu
  | [] => ([], cpu)
  | a :: as =>
    let (bs, next) := passDown f cpu as
    let (b, last) := f next a
    (b :: bs, last)

/-- The accumulator is loaded with the first byte and takes the second one to it. -/
def combine (op : Alu.Op) (cpu : Cpu) (xy : UInt8 × UInt8) : UInt8 × Cpu :=
  let next := ((cpu.setA xy.1).accumulate op xy.2).cpu
  (next.regs.a, next)

/-- Shifts a byte, as a shift does before it puts the byte back where it was. -/
def shift (s : Alu.Shift) (cpu : Cpu) (x : UInt8) : UInt8 × Cpu :=
  let (v, f) := s.apply x cpu.regs.flags
  (v, cpu.setFlags f)

@[simp] theorem fst_combine (op : Alu.Op) (cpu : Cpu) (xy : UInt8 × UInt8) :
    (cpu.combine op xy).1 = (op.apply xy.1 xy.2 cpu.regs.flags).1 := rfl

theorem flags_combine (op : Alu.Op) (cpu : Cpu) (xy : UInt8 × UInt8) :
    (cpu.combine op xy).2.regs.flags = (op.apply xy.1 xy.2 cpu.regs.flags).2 :=
  flags_setFlags _ _

@[simp] theorem carry_combine (op : Alu.Op) (cpu : Cpu) (xy : UInt8 × UInt8) :
    (cpu.combine op xy).2.carry = (op.apply xy.1 xy.2 cpu.regs.flags).2.c :=
  congrArg Flags.c (flags_combine op cpu xy)

@[simp] theorem fst_shift (s : Alu.Shift) (cpu : Cpu) (x : UInt8) :
    (cpu.shift s x).1 = s.result x cpu.carry := rfl

@[simp] theorem carry_shift (s : Alu.Shift) (cpu : Cpu) (x : UInt8) :
    (cpu.shift s x).2.carry = s.carryOut x :=
  congrArg Flags.c (flags_setFlags _ _)

theorem length_passUp (f : Cpu → α → UInt8 × Cpu) (cpu : Cpu) (as : List α) :
    (cpu.passUp f as).1.length = as.length := by
  induction as generalizing cpu with
  | nil => rfl
  | cons a as ih => simp [passUp, ih]

theorem length_passDown (f : Cpu → α → UInt8 × Cpu) (cpu : Cpu) (as : List α) :
    (cpu.passDown f as).1.length = as.length := by
  induction as with
  | nil => rfl
  | cons a as ih => simp [passDown, ih]

end Cpu

/-! ## Long addition and subtraction -/

namespace Numeral

variable {N : Numeral} {sign : Int} {α : Type}

/-- One place of a sum, or of a difference if `sign` is -1: the carry comes in with the second
digit, and goes out if the place has no room for the result. -/
structure Place (N : Numeral) (sign : Int) (cpu : Cpu) (x y : UInt8) (out : UInt8 × Cpu) :
    Prop where
  isDigit : N.IsDigit out.1
  balance : N.digit out.1 + sign * (N.base * out.2.carry.toNat) =
    N.digit x + sign * (N.digit y + cpu.carry.toNat)

theorem isDigit_passUp {f : Cpu → α → UInt8 × Cpu} {x y : α → UInt8} {as : List α}
    (h : ∀ cpu, ∀ a ∈ as, N.Place sign cpu (x a) (y a) (f cpu a)) (cpu : Cpu) :
    ∀ b ∈ (cpu.passUp f as).1, N.IsDigit b := by
  induction as generalizing cpu with
  | nil => simp [Cpu.passUp]
  | cons a as ih =>
    have hrest := ih (fun cpu a ha => h cpu a (List.mem_cons_of_mem _ ha)) (f cpu a).2
    intro b hb
    rcases List.mem_cons.1 hb with rfl | hb
    · exact (h cpu a List.mem_cons_self).isDigit
    · exact hrest b hb

/-- The carries between the places cancel out. -/
theorem balance_passUp {f : Cpu → α → UInt8 × Cpu} {x y : α → UInt8} {as : List α}
    (h : ∀ cpu, ∀ a ∈ as, N.Place sign cpu (x a) (y a) (f cpu a)) (cpu : Cpu) :
    (N.value (cpu.passUp f as).1 : Int) +
        sign * (N.base ^ as.length * (cpu.passUp f as).2.carry.toNat) =
      N.value (as.map x) + sign * (N.value (as.map y) + cpu.carry.toNat) := by
  induction as generalizing cpu with
  | nil => simp [Cpu.passUp]
  | cons a as ih =>
    have hrest := ih (fun cpu a ha => h cpu a (List.mem_cons_of_mem _ ha)) (f cpu a).2
    have hplace := (h cpu a List.mem_cons_self).balance
    simp only [Cpu.passUp, List.map_cons, List.length_cons, value_cons]
    push_cast
    linear_combination hplace + N.base * hrest

/-- What `n` bytes and a carry are after an addition. -/
structure IsSum (N : Numeral) (n total : Nat) (out : List UInt8 × Cpu) : Prop where
  length : out.1.length = n
  isDigit : ∀ b ∈ out.1, N.IsDigit b
  value : N.value out.1 = total % N.base ^ n
  carry : out.2.carry = true ↔ N.base ^ n ≤ total

/-- What `n` bytes and a borrow are after a subtraction. -/
structure IsDifference (N : Numeral) (n x y : Nat) (out : List UInt8 × Cpu) : Prop where
  length : out.1.length = n
  isDigit : ∀ b ∈ out.1, N.IsDigit b
  value : (N.value out.1 : Int) = ((x : Int) - y) % (N.base : Int) ^ n
  carry : out.2.carry = true ↔ x < y

theorem isSum_of_balance {n total : Nat} {out : List UInt8 × Cpu} (hlen : out.1.length = n)
    (hdigit : ∀ b ∈ out.1, N.IsDigit b)
    (h : N.value out.1 + N.base ^ n * out.2.carry.toNat = total) : N.IsSum n total out := by
  have hlt := value_lt hdigit
  rw [hlen] at hlt
  refine ⟨hlen, hdigit, ?_, ?_⟩
  · rw [← h, Nat.add_mul_mod_self_left, Nat.mod_eq_of_lt hlt]
  · cases hcarry : out.2.carry <;> simp [hcarry] at h ⊢ <;> omega

theorem isDifference_of_balance {n x y : Nat} {out : List UInt8 × Cpu} (hlen : out.1.length = n)
    (hdigit : ∀ b ∈ out.1, N.IsDigit b)
    (h : (N.value out.1 : Int) - N.base ^ n * out.2.carry.toNat = x - y) :
    N.IsDifference n x y out := by
  have hlt : (N.value out.1 : Int) < N.base ^ n := by
    rw [← hlen]
    exact_mod_cast value_lt hdigit
  refine ⟨hlen, hdigit, ?_, ?_⟩
  · rw [← h, Int.sub_mul_emod_self_left, Int.emod_eq_of_lt (by omega) hlt]
  · cases hcarry : out.2.carry <;> simp [hcarry] at h ⊢ <;> omega

theorem isSum_passUp {f : Cpu → UInt8 × UInt8 → UInt8 × Cpu} {xs ys : List UInt8}
    (hlen : xs.length = ys.length)
    (h : ∀ cpu, ∀ xy ∈ xs.zip ys, N.Place 1 cpu xy.1 xy.2 (f cpu xy)) (cpu : Cpu) :
    N.IsSum xs.length (N.value xs + N.value ys + cpu.carry.toNat) (cpu.passUp f (xs.zip ys)) := by
  have hzip : (xs.zip ys).length = xs.length := by simp [hlen]
  have hbalance := balance_passUp h cpu
  rw [List.map_fst_zip hlen.le, List.map_snd_zip hlen.ge, hzip] at hbalance
  refine isSum_of_balance ?_ (isDigit_passUp h cpu) ?_
  · rw [Cpu.length_passUp, hzip]
  · zify
    linear_combination hbalance

theorem isDifference_passUp {f : Cpu → UInt8 × UInt8 → UInt8 × Cpu} {xs ys : List UInt8}
    (hlen : xs.length = ys.length)
    (h : ∀ cpu, ∀ xy ∈ xs.zip ys, N.Place (-1) cpu xy.1 xy.2 (f cpu xy)) (cpu : Cpu) :
    N.IsDifference xs.length (N.value xs) (N.value ys + cpu.carry.toNat)
      (cpu.passUp f (xs.zip ys)) := by
  have hzip : (xs.zip ys).length = xs.length := by simp [hlen]
  have hbalance := balance_passUp h cpu
  rw [List.map_fst_zip hlen.le, List.map_snd_zip hlen.ge, hzip] at hbalance
  refine isDifference_of_balance ?_ (isDigit_passUp h cpu) ?_
  · rw [Cpu.length_passUp, hzip]
  · push_cast
    linear_combination hbalance

end Numeral

/-! ## One byte -/

theorem bne_zero_eq_testBit (x : UInt8) {m : UInt8} {i : Nat} (hm : m.toNat = 2 ^ i) :
    (x &&& m != 0) = x.toNat.testBit i := by
  rw [Bool.eq_iff_iff, bne_iff_ne]
  exact and_ne_zero_iff_testBit x hm

namespace Cpu

namespace Alu

theorem toNat_toUInt8 (b : Bool) : b.toUInt8.toNat = b.toNat := by cases b <;> rfl

theorem toNat_add (x y : UInt8) (c : Bool) :
    (add x y c).1.toNat + 256 * (add x y c).2.c.toNat = x.toNat + (y.toNat + c.toNat) := by
  have hx := x.toNat_lt
  have hy := y.toNat_lt
  have hc := c.toNat_lt
  simp only [add, UInt8.toNat_add, toNat_toUInt8]
  by_cases h : 255 < x.toNat + y.toNat + c.toNat <;> simp [h] <;> omega

theorem toNat_sub (x y : UInt8) (c : Bool) :
    (sub x y c).1.toNat + (y.toNat + c.toNat) = x.toNat + 256 * (sub x y c).2.c.toNat := by
  have hx := x.toNat_lt
  have hy := y.toNat_lt
  have hc := c.toNat_lt
  simp only [sub, UInt8.toNat_sub, toNat_toUInt8]
  by_cases h : x.toNat < y.toNat + c.toNat <;> simp [h] <;> omega

theorem toNat_rl (x : UInt8) (c : Bool) :
    (Shift.rl.result x c).toNat + 256 * (Shift.rl.carryOut x).toNat =
      x.toNat + (x.toNat + c.toNat) := by
  have hx := x.toNat_lt
  have hc := c.toNat_lt
  have hcarry : Shift.rl.carryOut x = x.toNat.testBit 7 := bne_zero_eq_testBit x rfl
  have hresult : (Shift.rl.result x c).toNat = 2 * x.toNat % 256 + c.toNat := by
    have heven : 2 * x.toNat % 256 = 2 ^ 1 * (x.toNat % 128) := by omega
    rw [heven, Nat.two_pow_add_eq_or_of_lt hc, ← heven]
    simp [Shift.result, toNat_toUInt8, Nat.shiftLeft_eq, Nat.mul_comm]
  rw [hresult, hcarry, Nat.toNat_testBit]
  omega

theorem toNat_rr (x : UInt8) (c : Bool) :
    2 * (Shift.rr.result x c).toNat + (Shift.rr.carryOut x).toNat = x.toNat + 256 * c.toNat := by
  have hx := x.toNat_lt
  have hcarry : Shift.rr.carryOut x = x.toNat.testBit 0 := bne_zero_eq_testBit x rfl
  have hresult : (Shift.rr.result x c).toNat = 2 ^ 7 * c.toNat + x.toNat / 2 := by
    have hlow : x.toNat / 2 < 2 ^ 7 := by omega
    have htop : (c.toUInt8 <<< 7).toNat = 2 ^ 7 * c.toNat := by cases c <;> rfl
    rw [Nat.two_pow_add_eq_or_of_lt hlow, ← htop, Nat.or_comm]
    simp [Shift.result, Nat.shiftRight_eq_div_pow]
  rw [hresult, hcarry, Nat.toNat_testBit]
  omega

end Alu

open Numeral (binary base_binary)

theorem place_adc (cpu : Cpu) (xy : UInt8 × UInt8) :
    binary.Place 1 cpu xy.1 xy.2 (cpu.combine .adc xy) := by
  refine ⟨trivial, ?_⟩
  have hbyte := Alu.toNat_add xy.1 xy.2 cpu.carry
  simp only [carry_combine]
  simp only [fst_combine, binary, Alu.Op.apply, carry] at hbyte ⊢
  omega

theorem place_sbc (cpu : Cpu) (xy : UInt8 × UInt8) :
    binary.Place (-1) cpu xy.1 xy.2 (cpu.combine .sbc xy) := by
  refine ⟨trivial, ?_⟩
  have hbyte := Alu.toNat_sub xy.1 xy.2 cpu.carry
  simp only [carry_combine]
  simp only [fst_combine, binary, Alu.Op.apply, carry] at hbyte ⊢
  omega

theorem place_rl (cpu : Cpu) (x : UInt8) : binary.Place 1 cpu x x (cpu.shift .rl x) := by
  refine ⟨trivial, ?_⟩
  have hbyte := Alu.toNat_rl x cpu.carry
  simp only [fst_shift, carry_shift, binary]
  omega

/-! ## Shifts of long numbers -/

theorem balance_rl (cpu : Cpu) (xs : List UInt8) :
    binary.value (cpu.passUp (shift .rl) xs).1 +
        256 ^ xs.length * (cpu.passUp (shift .rl) xs).2.carry.toNat =
      2 * binary.value xs + cpu.carry.toNat := by
  have hplace : ∀ cpu : Cpu, ∀ x ∈ xs, binary.Place 1 cpu (id x) (id x) (cpu.shift .rl x) :=
    fun cpu x _ => cpu.place_rl x
  have hbalance := Numeral.balance_passUp hplace cpu
  rw [List.map_id, base_binary] at hbalance
  zify
  push_cast at hbalance
  linear_combination hbalance

theorem balance_rr (cpu : Cpu) (xs : List UInt8) :
    2 * binary.value (cpu.passDown (shift .rr) xs).1 +
        (cpu.passDown (shift .rr) xs).2.carry.toNat =
      binary.value xs + 256 ^ xs.length * cpu.carry.toNat := by
  induction xs with
  | nil => simp [passDown]
  | cons x xs ih =>
    have hbyte := Alu.toNat_rr x (cpu.passDown (shift .rr) xs).2.carry
    simp only [passDown, Numeral.value_cons, List.length_cons, fst_shift, carry_shift]
    simp only [binary] at ih ⊢
    linear_combination hbyte + 256 * ih

theorem isSum_rl (cpu : Cpu) (xs : List UInt8) :
    binary.IsSum xs.length (2 * binary.value xs + cpu.carry.toNat)
      (cpu.passUp (shift .rl) xs) :=
  Numeral.isSum_of_balance (length_passUp _ cpu xs) (fun _ _ => trivial) (cpu.balance_rl xs)

theorem carry_rl_eq_testBit (cpu : Cpu) {xs : List UInt8} (h : 0 < xs.length) :
    (cpu.passUp (shift .rl) xs).2.carry = (binary.value xs).testBit (8 * xs.length - 1) := by
  have hcarry : _ ↔ 256 ^ xs.length ≤ _ := (cpu.isSum_rl xs).carry
  have hlt := Numeral.binary_value_lt xs
  have hc := cpu.carry.toNat_lt
  have hpow : 256 ^ xs.length = 2 * 2 ^ (8 * xs.length - 1) := by
    rw [← pow_succ', Nat.sub_add_cancel (by omega), pow_mul]
    rfl
  rw [hpow] at hlt hcarry
  rw [Bool.eq_iff_iff, hcarry, Nat.testBit_eq_decide_div_mod_eq, decide_eq_true_iff]
  -- the number is below twice its top place, so that place is written 0 or 1
  by_cases htop : 2 ^ (8 * xs.length - 1) ≤ binary.value xs
  · have hone : binary.value xs / 2 ^ (8 * xs.length - 1) = 1 :=
      Nat.div_eq_of_lt_le (by omega) (by omega)
    rw [hone]
    omega
  · rw [Nat.div_eq_of_lt (by omega)]
    omega

theorem rr_rl (cpu : Cpu) (xs : List UInt8) :
    let up := cpu.passUp (shift .rl) xs
    (up.2.passDown (shift .rr) up.1).1 = xs ∧
      (up.2.passDown (shift .rr) up.1).2.carry = cpu.carry := by
  intro up
  have hlen : up.1.length = xs.length := length_passUp _ cpu xs
  have hup : binary.value up.1 + 256 ^ xs.length * up.2.carry.toNat = _ := cpu.balance_rl xs
  have hdown := balance_rr up.2 up.1
  rw [hlen, hup] at hdown
  have hcarry : (up.2.passDown (shift .rr) up.1).2.carry = cpu.carry := by
    cases hc : cpu.carry <;> cases hd : (up.2.passDown (shift .rr) up.1).2.carry <;>
      simp [hc, hd] at hdown ⊢ <;> omega
  refine ⟨Numeral.eq_of_binary_value_eq ?_ ?_, hcarry⟩
  · rw [length_passDown, hlen]
  · rw [hcarry] at hdown
    omega

theorem rl_rr (cpu : Cpu) (xs : List UInt8) :
    let down := cpu.passDown (shift .rr) xs
    (down.2.passUp (shift .rl) down.1).1 = xs ∧
      (down.2.passUp (shift .rl) down.1).2.carry = cpu.carry := by
  intro down
  have hlen : down.1.length = xs.length := length_passDown _ cpu xs
  have hlen' : (down.2.passUp (shift .rl) down.1).1.length = xs.length := by
    rw [length_passUp, hlen]
  have hdown : 2 * binary.value down.1 + down.2.carry.toNat = _ := cpu.balance_rr xs
  have hup := balance_rl down.2 down.1
  rw [hlen, hdown] at hup
  -- a number of `n` bytes and a carry above it are known from their sum
  have hx := Numeral.binary_value_lt xs
  have hs := Numeral.binary_value_lt (down.2.passUp (shift .rl) down.1).1
  rw [hlen'] at hs
  have hcarry : (down.2.passUp (shift .rl) down.1).2.carry = cpu.carry := by
    cases hc : cpu.carry <;> cases hd : (down.2.passUp (shift .rl) down.1).2.carry <;>
      simp [hc, hd] at hup ⊢ <;> omega
  refine ⟨Numeral.eq_of_binary_value_eq hlen' ?_, hcarry⟩
  rw [hcarry] at hup
  omega

/-! ## Long arithmetic -/

/-- Two numbers of equally many bytes are added and subtracted, and one of them shifted, through
the carry flag. Without bytes there is no top bit and no last one, and the carry stays. -/
theorem carry_chains (cpu : Cpu) (xs ys : List UInt8) (hlen : xs.length = ys.length) :
    let n := xs.length
    let X := binary.value xs
    let Y := binary.value ys
    let c := cpu.carry.toNat
    binary.IsSum n (X + Y + c) (cpu.passUp (combine .adc) (xs.zip ys)) ∧
    binary.IsDifference n X (Y + c) (cpu.passUp (combine .sbc) (xs.zip ys)) ∧
    (let up := cpu.passUp (shift .rl) xs
     binary.IsSum n (2 * X + c) up ∧
     (0 < n → up.2.carry = X.testBit (8 * n - 1)) ∧
     (up.2.passDown (shift .rr) up.1).1 = xs ∧
     (up.2.passDown (shift .rr) up.1).2.carry = cpu.carry) ∧
    (let down := cpu.passDown (shift .rr) xs
     down.1.length = n ∧
     binary.value down.1 = (c * 256 ^ n + X) / 2 ∧
     down.2.carry.toNat = (c * 256 ^ n + X) % 2 ∧
     (0 < n → down.2.carry.toNat = X % 2) ∧
     (down.2.passUp (shift .rl) down.1).1 = xs ∧
     (down.2.passUp (shift .rl) down.1).2.carry = cpu.carry) := by
  intro n X Y c
  have hadc := Numeral.isSum_passUp hlen (fun cpu xy _ => cpu.place_adc xy) cpu
  have hsbc := Numeral.isDifference_passUp hlen (fun cpu xy _ => cpu.place_sbc xy) cpu
  refine ⟨hadc, hsbc, ⟨cpu.isSum_rl xs, cpu.carry_rl_eq_testBit, cpu.rr_rl xs⟩, ?_⟩
  intro down
  have hd := down.2.carry.toNat_lt
  have hdown : 2 * binary.value down.1 + down.2.carry.toNat = c * 256 ^ n + X := by
    rw [cpu.balance_rr xs, Nat.add_comm, Nat.mul_comm]
  refine ⟨length_passDown _ cpu xs, by omega, by omega, ?_, cpu.rl_rr xs⟩
  intro hn
  have heven : c * 256 ^ n % 2 = 0 := by
    obtain ⟨k, hk⟩ := Nat.exists_eq_succ_of_ne_zero hn.ne'
    rw [hk, pow_succ, ← Nat.mul_assoc]
    omega
  omega

theorem carry_chains_two_bytes :
    (passUp (combine .adc) powerOn [(0xff, 0x01), (0x12, 0xed)]).1 = [0x01, 0x00] ∧
    (passUp (combine .adc) powerOn [(0xff, 0x01), (0x12, 0xed)]).2.carry = true ∧
    (passUp (combine .sbc) powerOn [(0xff, 0x01), (0x12, 0xed)]).2.carry = true ∧
    (passUp (shift .rl) powerOn [0xff, 0x12]).2.carry = false := by
  have h := powerOn.carry_chains [0xff, 0x12] [0x01, 0xed] rfl
  obtain ⟨hadc, hsbc, ⟨-, hrl, -⟩, -⟩ := h
  refine ⟨Numeral.eq_of_binary_value_eq hadc.length ?_, hadc.carry.2 ?_, hsbc.carry.2 ?_, ?_⟩
  · exact hadc.value.trans (by decide +kernel)
  · decide +kernel
  · decide +kernel
  · exact (hrl (by decide)).trans (by decide +kernel)

end Cpu

end Handheld
