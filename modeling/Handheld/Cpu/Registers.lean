import Handheld.Word

/-!
# Processor registers

Eight byte registers, in part paired to words, the stack pointer and the program counter. The
flags are the top four bits of `f`.
-/

namespace Handheld.Cpu

/-- The flags: zero, subtraction, half carry, carry. -/
structure Flags where
  z : Bool
  n : Bool
  h : Bool
  c : Bool
deriving Repr, DecidableEq, Inhabited

namespace Flags

/-- The flags as register `f` holds them. -/
def toByte (f : Flags) : UInt8 :=
  (if f.z then 0x80 else 0) ||| (if f.n then 0x40 else 0) |||
    (if f.h then 0x20 else 0) ||| (if f.c then 0x10 else 0)

def ofByte (b : UInt8) : Flags :=
  { z := b &&& 0x80 != 0
    n := b &&& 0x40 != 0
    h := b &&& 0x20 != 0
    c := b &&& 0x10 != 0 }

@[simp] theorem ofByte_toByte (f : Flags) : ofByte f.toByte = f := by
  obtain ⟨z, n, h, c⟩ := f
  cases z <;> cases n <;> cases h <;> cases c <;> rfl

end Flags

structure Registers where
  a : UInt8
  b : UInt8
  c : UInt8
  d : UInt8
  e : UInt8
  f : UInt8
  h : UInt8
  l : UInt8
  sp : UInt16
  pc : UInt16
deriving Repr, DecidableEq, Inhabited

/-- The register words that an opcode can name. -/
inductive Pair where
  | bc
  | de
  | hl
  | sp
deriving Repr, DecidableEq, Inhabited

namespace Registers

/-- The values the machine starts with. -/
def powerOn : Registers :=
  { a := 0x01, f := 0xb0, b := 0x00, c := 0x13, d := 0x00, e := 0xd8, h := 0x01, l := 0x4d
    sp := 0xfffe, pc := 0x0100 }

def af (r : Registers) : UInt16 := Word.ofBytes r.a r.f
def bc (r : Registers) : UInt16 := Word.ofBytes r.b r.c
def de (r : Registers) : UInt16 := Word.ofBytes r.d r.e
def hl (r : Registers) : UInt16 := Word.ofBytes r.h r.l

/-- The low four bits of `f` do not exist. -/
def setAf (r : Registers) (w : UInt16) : Registers :=
  { r with a := Word.high w, f := Word.low w &&& 0xf0 }

def setBc (r : Registers) (w : UInt16) : Registers := { r with b := Word.high w, c := Word.low w }
def setDe (r : Registers) (w : UInt16) : Registers := { r with d := Word.high w, e := Word.low w }
def setHl (r : Registers) (w : UInt16) : Registers := { r with h := Word.high w, l := Word.low w }

def pair (r : Registers) : Pair → UInt16
  | .bc => r.bc
  | .de => r.de
  | .hl => r.hl
  | .sp => r.sp

def setPair (r : Registers) (p : Pair) (w : UInt16) : Registers :=
  match p with
  | .bc => r.setBc w
  | .de => r.setDe w
  | .hl => r.setHl w
  | .sp => { r with sp := w }

def incHl (r : Registers) : Registers := r.setHl (r.hl + 1)
def decHl (r : Registers) : Registers := r.setHl (r.hl - 1)

def flags (r : Registers) : Flags := Flags.ofByte r.f

def setFlags (r : Registers) (f : Flags) : Registers := { r with f := f.toByte }

/-- The program counter moves on by `n` bytes. -/
def skip (r : Registers) (n : UInt16) : Registers := { r with pc := r.pc + n }

def text (r : Registers) : String :=
  s!"AF={Hex.word r.af} BC={Hex.word r.bc} DE={Hex.word r.de} HL={Hex.word r.hl} " ++
    s!"SP={Hex.word r.sp} PC={Hex.word r.pc}"

end Registers

/-- The register word behind two bits of an opcode. -/
def Pair.ofCode (code : UInt8) : Pair :=
  match code &&& 3 with
  | 0 => .bc
  | 1 => .de
  | 2 => .hl
  | _ => .sp

end Handheld.Cpu
