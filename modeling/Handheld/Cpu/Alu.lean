import Handheld.Cpu.Registers

/-!
# Arithmetic and logic

The operations on bytes and words with the flags that each one leaves.
-/

namespace Handheld.Cpu.Alu

def add (a n : UInt8) (carry : Bool) : UInt8 × Flags :=
  let result := a + n + carry.toUInt8
  (result,
    { z := result == 0
      n := false
      h := 15 < a.toNat % 16 + n.toNat % 16 + carry.toNat
      c := 255 < a.toNat + n.toNat + carry.toNat })

def sub (a n : UInt8) (borrow : Bool) : UInt8 × Flags :=
  let result := a - n - borrow.toUInt8
  (result,
    { z := result == 0
      n := true
      h := a.toNat % 16 < n.toNat % 16 + borrow.toNat
      c := a.toNat < n.toNat + borrow.toNat })

inductive Op where
  | add
  | adc
  | sub
  | sbc
  | and
  | xor
  | or
  | cp
deriving Repr, DecidableEq, Inhabited

def Op.ofCode (code : UInt8) : Op :=
  match code &&& 7 with
  | 0 => .add
  | 1 => .adc
  | 2 => .sub
  | 3 => .sbc
  | 4 => .and
  | 5 => .xor
  | 6 => .or
  | _ => .cp

/-- The accumulator and the flags after an operation. A comparison leaves the accumulator as it
was. -/
def Op.apply (op : Op) (a n : UInt8) (f : Flags) : UInt8 × Flags :=
  match op with
  | .add => Alu.add a n false
  | .adc => Alu.add a n f.c
  | .sub => Alu.sub a n false
  | .sbc => Alu.sub a n f.c
  | .and => (a &&& n, { z := a &&& n == 0, n := false, h := true, c := false })
  | .xor => (a ^^^ n, { z := a ^^^ n == 0, n := false, h := false, c := false })
  | .or => (a ||| n, { z := a ||| n == 0, n := false, h := false, c := false })
  | .cp => (a, (Alu.sub a n false).2)

def inc (n : UInt8) (f : Flags) : UInt8 × Flags :=
  (n + 1, { z := n + 1 == 0, n := false, h := n &&& 0x0f == 0x0f, c := f.c })

def dec (n : UInt8) (f : Flags) : UInt8 × Flags :=
  (n - 1, { z := n - 1 == 0, n := true, h := n &&& 0x0f == 0, c := f.c })

/-- The sum of two words. The zero flag stays. -/
def addWord (a n : UInt16) (f : Flags) : UInt16 × Flags :=
  (a + n,
    { z := f.z
      n := false
      h := 0xfff < a.toNat % 0x1000 + n.toNat % 0x1000
      c := 0xffff < a.toNat + n.toNat })

/-- A word plus a signed offset. The flags are those of the unsigned sum of the low bytes. -/
def addOffset (a : UInt16) (offset : UInt8) : UInt16 × Flags :=
  (a + signExtend offset,
    { z := false
      n := false
      h := 15 < a.toNat % 16 + offset.toNat % 16
      c := 255 < a.toNat % 256 + offset.toNat })

/-- What turns a binary sum or difference of packed decimals into a decimal one. -/
def decimalAdjustment (a : UInt8) (f : Flags) : UInt8 :=
  (if f.h || (!f.n && 9 < a &&& 0x0f) then 0x06 else 0) |||
    (if f.c || (!f.n && 0x99 < a) then 0x60 else 0)

/-- Makes the accumulator packed decimal after an addition or subtraction. -/
def decimalAdjust (a : UInt8) (f : Flags) : UInt8 × Flags :=
  let adjustment := decimalAdjustment a f
  let result := if f.n then a - adjustment else a + adjustment
  (result, { z := result == 0, n := f.n, h := false, c := f.c || (!f.n && 0x99 < a) })

inductive Shift where
  | rlc
  | rrc
  | rl
  | rr
  | sla
  | sra
  | swap
  | srl
deriving Repr, DecidableEq, Inhabited

def Shift.ofCode (code : UInt8) : Shift :=
  match code &&& 7 with
  | 0 => .rlc
  | 1 => .rrc
  | 2 => .rl
  | 3 => .rr
  | 4 => .sla
  | 5 => .sra
  | 6 => .swap
  | _ => .srl

def Shift.result (s : Shift) (n : UInt8) (carry : Bool) : UInt8 :=
  match s with
  | .rlc => n <<< 1 ||| n >>> 7
  | .rrc => n >>> 1 ||| n <<< 7
  | .rl => n <<< 1 ||| carry.toUInt8
  | .rr => n >>> 1 ||| carry.toUInt8 <<< 7
  | .sla => n <<< 1
  | .sra => n >>> 1 ||| (n &&& 0x80)
  | .swap => n <<< 4 ||| n >>> 4
  | .srl => n >>> 1

def Shift.carryOut (s : Shift) (n : UInt8) : Bool :=
  match s with
  | .rlc | .rl | .sla => n &&& 0x80 != 0
  | .rrc | .rr | .sra | .srl => n &&& 0x01 != 0
  | .swap => false

def Shift.apply (s : Shift) (n : UInt8) (f : Flags) : UInt8 × Flags :=
  let result := s.result n f.c
  (result, { z := result == 0, n := false, h := false, c := s.carryOut n })

def bitMask (i : Fin 8) : UInt8 := 1 <<< UInt8.ofNat i

/-- The flags after a test of bit `i`. The carry stays. -/
def testBit (i : Fin 8) (n : UInt8) (f : Flags) : Flags :=
  { z := n &&& bitMask i == 0, n := false, h := true, c := f.c }

end Handheld.Cpu.Alu
