/-!
# Bytes and words

A word is two bytes, the high one counting 256s. Their texts are lower case hexadecimal digits, a
fixed number of them.
-/

namespace Handheld

namespace Word

def high (w : UInt16) : UInt8 := (w / 256).toUInt8

def low (w : UInt16) : UInt8 := w.toUInt8

def ofBytes (hi lo : UInt8) : UInt16 := hi.toUInt16 * 256 + lo.toUInt16

theorem toNat_high (w : UInt16) : (high w).toNat = w.toNat / 256 := by
  have := w.toNat_lt
  simp only [high, UInt16.toNat_toUInt8, UInt16.toNat_div, UInt16.reduceToNat]
  omega

theorem toNat_low (w : UInt16) : (low w).toNat = w.toNat % 256 := by
  simp only [low, UInt16.toNat_toUInt8]

theorem toNat_ofBytes (hi lo : UInt8) : (ofBytes hi lo).toNat = hi.toNat * 256 + lo.toNat := by
  have := hi.toNat_lt
  have := lo.toNat_lt
  simp only [ofBytes, UInt16.toNat_add, UInt16.toNat_mul, UInt8.toNat_toUInt16,
    UInt16.reduceToNat]
  omega

@[simp] theorem ofBytes_high_low (w : UInt16) : ofBytes (high w) (low w) = w := by
  apply UInt16.toNat_inj.1
  rw [toNat_ofBytes, toNat_high, toNat_low]
  omega

end Word

def bit (b : UInt8) (i : UInt8) : Bool := (b >>> i) &&& 1 != 0

/-- The word a byte stands for when it is read as a signed offset. -/
def signExtend (b : UInt8) : UInt16 :=
  if b < 128 then b.toUInt16 else b.toUInt16 + 0xff00

/-- A cycle count read as a signed 32-bit number. -/
def signed32 (n : Nat) : Int := Int.bmod n 4294967296

theorem signed32_of_lt {n : Nat} (h : n < 2147483648) : signed32 n = n := by
  apply Int.bmod_eq_of_le <;> omega

/-! ## Views -/

/-- What the address space reads at each address, without what lies behind it. Instructions and
pictures depend on the machine through a view only. -/
abbrev View := UInt16 → UInt8

/-- The word at an address, low byte first. -/
def View.word (view : View) (address : UInt16) : UInt16 :=
  Word.ofBytes (view (address + 1)) (view address)

/-! ## Text -/

namespace Hex

/-- The digit of a number below sixteen. -/
def digit (n : Nat) : Char :=
  if n < 10 then Char.ofNat (48 + n) else Char.ofNat (87 + n)

/-- The lowest `k` digits of `n`, most significant first. -/
def digits : Nat → Nat → List Char
  | 0, _ => []
  | k + 1, n => digits k (n / 16) ++ [digit (n % 16)]

def byte (b : UInt8) : String := String.ofList (digits 2 b.toNat)

def word (w : UInt16) : String := String.ofList (digits 4 w.toNat)

def bytes (bs : List UInt8) : String :=
  String.ofList (bs.flatMap fun b => digits 2 b.toNat)

end Hex

end Handheld
