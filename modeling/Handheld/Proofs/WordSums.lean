import Handheld.Proofs.CarryChains

/-!
# Sums of words

A word is added to HL in one go, but the result and the flags are those of two sums of bytes. An
offset is signed, and its flags are still those of a sum of bytes.
-/

namespace Handheld

/-- As an offset a byte counts for its own number, or for 256 less if that is negative. -/
theorem offset_cases (b : UInt8) :
    (¬ b.toInt8 < 0 ∧ b.toInt8.toInt = b.toNat ∧ (signExtend b).toNat = b.toNat) ∨
      (b.toInt8 < 0 ∧ b.toInt8.toInt = b.toNat - 256 ∧
        (signExtend b).toNat = b.toNat + 0xff00) := by
  have hb := b.toNat_lt
  have hint : b.toInt8.toInt = if 2 * b.toNat < 256 then (b.toNat : Int) else b.toNat - 256 :=
    BitVec.toInt_eq_toNat_cond b.toBitVec
  have hneg : b.toInt8 < 0 ↔ b.toInt8.toInt < 0 := Int8.lt_iff_toInt_lt
  have hext : b < 128 ↔ b.toNat < 128 := UInt8.lt_iff_toNat_lt
  by_cases h : b.toNat < 128
  · left
    rw [if_pos (by omega)] at hint
    rw [hneg, hint, signExtend, if_pos (hext.2 h)]
    exact ⟨by omega, rfl, b.toNat_toUInt16⟩
  · right
    rw [if_neg (by omega)] at hint
    rw [hneg, hint, signExtend, if_neg (mt hext.1 h), UInt16.toNat_add, b.toNat_toUInt16]
    exact ⟨by omega, rfl, Nat.mod_eq_of_lt (by simp; omega)⟩

namespace Cpu

/-! ## A word to HL -/

def addByte (cpu : Cpu) (x y : UInt8) : UInt8 × Flags :=
  let (sum, next) := cpu.combine .add (x, y)
  (sum, next.regs.flags)

/-- The sum of HL and a word by bytes, the low ones first and the high ones with the carry. -/
def addBytes (cpu : Cpu) (n : UInt16) : UInt16 × Flags :=
  let (low, next) := cpu.combine .add (cpu.regs.l, Word.low n)
  let (high, last) := next.combine .adc (cpu.regs.h, Word.high n)
  (Word.ofBytes high low, last.regs.flags)

theorem addByte_eq (cpu : Cpu) (x y : UInt8) : cpu.addByte x y = Alu.add x y false := by
  simp [addByte, flags_combine, Alu.Op.apply]

theorem addBytes_eq (cpu : Cpu) (n : UInt16) :
    let low := Alu.add cpu.regs.l (Word.low n) false
    let high := Alu.add cpu.regs.h (Word.high n) low.2.c
    cpu.addBytes n = (Word.ofBytes high.1 low.1, high.2) := by
  simp [addBytes, flags_combine, Alu.Op.apply]

theorem Alu.addWord_ofBytes (h l : UInt8) (n : UInt16) (f : Flags) :
    let low := add l (Word.low n) false
    let high := add h (Word.high n) low.2.c
    addWord (Word.ofBytes h l) n f = (Word.ofBytes high.1 low.1, { high.2 with z := f.z }) := by
  intro low high
  have hlow : low.1.toNat + 256 * low.2.c.toNat = l.toNat + (n.toNat % 256 + 0) := by
    rw [← Word.toNat_low]
    exact toNat_add l (Word.low n) false
  have hhigh : high.1.toNat + 256 * high.2.c.toNat = h.toNat + (n.toNat / 256 + low.2.c.toNat) := by
    rw [← Word.toNat_high]
    exact toNat_add h (Word.high n) low.2.c
  have hl := l.toNat_lt
  have hlow_lt := low.1.toNat_lt
  have hhigh_lt := high.1.toNat_lt
  have hword : Word.ofBytes h l + n = Word.ofBytes high.1 low.1 := by
    apply UInt16.toNat_inj.1
    rw [UInt16.toNat_add, Word.toNat_ofBytes, Word.toNat_ofBytes]
    omega
  have hhalf : 0xfff < (Word.ofBytes h l).toNat % 0x1000 + n.toNat % 0x1000 ↔
      15 < h.toNat % 16 + (Word.high n).toNat % 16 + low.2.c.toNat := by
    rw [Word.toNat_ofBytes, Word.toNat_high]
    omega
  have hcarry : 0xffff < (Word.ofBytes h l).toNat + n.toNat ↔
      255 < h.toNat + (Word.high n).toNat + low.2.c.toNat := by
    rw [Word.toNat_ofBytes, Word.toNat_high]
    omega
  simp only [addWord, hword, hhalf, hcarry, high, add]

/-! ## An offset to the stack pointer -/

/-- What a word with an offset added to it is, and the flags are, by the sum of its low byte and
the offset. -/
structure IsOffsetSum (sp : UInt16) (offset : UInt8) (sum : UInt8 × Flags)
    (out : UInt16 × Flags) : Prop where
  z : out.2.z = false
  n : out.2.n = false
  h : out.2.h = sum.2.h
  c : out.2.c = sum.2.c
  low : Word.low out.1 = sum.1
  high : Word.high out.1 = Word.high sp + sum.2.c.toUInt8 - if offset.toInt8 < 0 then 1 else 0
  toNat : (out.1.toNat : Int) = (sp.toNat + offset.toInt8.toInt) % 65536

theorem Alu.isOffsetSum_addOffset (sp : UInt16) (offset : UInt8) :
    IsOffsetSum sp offset (add (Word.low sp) offset false) (addOffset sp offset) := by
  let sum := add (Word.low sp) offset false
  let w := (addOffset sp offset).1
  have hsum : sum.1.toNat + 256 * sum.2.c.toNat = sp.toNat % 256 + (offset.toNat + 0) := by
    rw [← Word.toNat_low]
    exact toNat_add (Word.low sp) offset false
  have hw : w.toNat = (sp.toNat + (signExtend offset).toNat) % 65536 := UInt16.toNat_add ..
  have hsp := sp.toNat_lt
  have hoffset := offset.toNat_lt
  have hsum_lt := sum.1.toNat_lt
  refine ⟨rfl, rfl, ?_, ?_, ?_, ?_, ?_⟩
  · simp [addOffset, add, Word.toNat_low]
  · simp [addOffset, add, Word.toNat_low]
  · apply UInt8.toNat_inj.1
    change (Word.low w).toNat = sum.1.toNat
    rw [Word.toNat_low, hw]
    obtain ⟨-, -, hext⟩ | ⟨-, -, hext⟩ := offset_cases offset <;> rw [hext] <;> omega
  · apply UInt8.toNat_inj.1
    change (Word.high w).toNat = (Word.high sp + sum.2.c.toUInt8 - _).toNat
    rw [Word.toNat_high, hw, UInt8.toNat_sub, UInt8.toNat_add, Word.toNat_high, toNat_toUInt8]
    obtain ⟨hneg, -, hext⟩ | ⟨hneg, -, hext⟩ := offset_cases offset
    · rw [hext, if_neg hneg, UInt8.toNat_zero]
      omega
    · rw [hext, if_pos hneg, UInt8.toNat_one]
      omega
  · change (w.toNat : Int) = _
    rw [hw]
    obtain ⟨-, hint, hext⟩ | ⟨-, hint, hext⟩ := offset_cases offset <;> rw [hext, hint] <;> omega

/-! ## In the instructions -/

theorem execute_addHl (cpu : Cpu) (view : View) (p : Pair) :
    let last := (cpu.execute view (.addHl p)).cpu
    (last.regs.hl, last.regs.flags) =
      Alu.addWord cpu.regs.hl (cpu.regs.pair p) cpu.regs.flags :=
  Prod.ext (Word.ofBytes_high_low _) (flags_setFlags _ _)

theorem execute_addSp (cpu : Cpu) (view : View) :
    let last := (cpu.execute view .addSp).cpu
    (last.regs.sp, last.regs.flags) = Alu.addOffset cpu.regs.sp (cpu.immediate view) :=
  Prod.ext rfl (flags_setFlags _ _)

theorem execute_loadHlSp (cpu : Cpu) (view : View) :
    let last := (cpu.execute view .loadHlSp).cpu
    (last.regs.hl, last.regs.flags) = Alu.addOffset cpu.regs.sp (cpu.immediate view) :=
  Prod.ext (Word.ofBytes_high_low _) (flags_setFlags _ _)

/-- Sums of words agree with sums of bytes, on any operands and as the instructions that take
them. -/
theorem word_sums (cpu : Cpu) (view : View) :
    let keepingZ (out : UInt16 × Flags) := (out.1, { out.2 with z := cpu.regs.flags.z })
    let lowSum (offset : UInt8) := cpu.addByte (Word.low cpu.regs.sp) offset
    (∀ n, Alu.addWord cpu.regs.hl n cpu.regs.flags = keepingZ (cpu.addBytes n)) ∧
    (∀ p,
      let last := (cpu.execute view (.addHl p)).cpu
      (last.regs.hl, last.regs.flags) = keepingZ (cpu.addBytes (cpu.regs.pair p))) ∧
    (∀ offset,
      IsOffsetSum cpu.regs.sp offset (lowSum offset) (Alu.addOffset cpu.regs.sp offset)) ∧
    (let offset := cpu.immediate view
     let last := (cpu.execute view .addSp).cpu
     IsOffsetSum cpu.regs.sp offset (lowSum offset) (last.regs.sp, last.regs.flags)) ∧
    (let offset := cpu.immediate view
     let last := (cpu.execute view .loadHlSp).cpu
     IsOffsetSum cpu.regs.sp offset (lowSum offset) (last.regs.hl, last.regs.flags)) := by
  intro keepingZ lowSum
  have hword : ∀ n, Alu.addWord cpu.regs.hl n cpu.regs.flags = keepingZ (cpu.addBytes n) := by
    intro n
    rw [addBytes_eq]
    exact Alu.addWord_ofBytes cpu.regs.h cpu.regs.l n cpu.regs.flags
  have hoffset : ∀ offset,
      IsOffsetSum cpu.regs.sp offset (lowSum offset) (Alu.addOffset cpu.regs.sp offset) := by
    intro offset
    change IsOffsetSum _ _ (cpu.addByte _ _) _
    rw [addByte_eq]
    exact Alu.isOffsetSum_addOffset cpu.regs.sp offset
  refine ⟨hword, ?_, hoffset, ?_, ?_⟩
  · intro p last
    rw [execute_addHl]
    exact hword (cpu.regs.pair p)
  · intro offset last
    rw [execute_addSp]
    exact hoffset offset
  · intro offset last
    rw [execute_loadHlSp]
    exact hoffset offset

end Cpu

end Handheld
