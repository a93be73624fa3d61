import Handheld.Fault

/-!
# Cartridge headers

The part of the header at 0x134 to 0x149: title, type code, and the sizes of ROM and RAM.
-/

namespace Handheld.Cartridge

structure Header where
  title : String
  kind : UInt8
  /-- ROM banks of 16 KB. -/
  romBanks : Nat
  /-- RAM banks of 8 KB. -/
  ramBanks : Nat
deriving Repr, DecidableEq, Inhabited

namespace Header

/-- The size of the smallest image that holds a header. -/
def endOffset : Nat := 0x150

def romBanks? (code : UInt8) : Option Nat :=
  if code ≤ 8 then some (2 <<< code.toNat)
  else match code with
    | 0x52 => some 72
    | 0x53 => some 80
    | 0x54 => some 96
    | _ => none

def ramBanks? (code : UInt8) : Option Nat :=
  match code with
  | 0x00 => some 0
  | 0x01 => some 1
  | 0x02 => some 1
  | 0x03 => some 4
  | 0x04 => some 16
  | 0x05 => some 8
  | _ => none

/-- White space among the first 256 characters. -/
def isBlank (b : UInt8) : Bool :=
  (0x09 ≤ b && b ≤ 0x0d) || b == 0x20 || b == 0x85 || b == 0xa0

def trimEnd (bs : List UInt8) : List UInt8 := (bs.reverse.dropWhile isBlank).reverse

/-- The title in its sixteen bytes: it ends at the first NUL, and each byte is the character of the
same number. -/
def titleOf (field : List UInt8) : String :=
  String.ofList ((trimEnd (field.takeWhile (· != 0))).map fun b => Char.ofNat b.toNat)

/-- The header of an image. Of several faults the size comes first, then the ROM size code. -/
def parse (image : ByteArray) : Except Fault Header :=
  if h : image.size < endOffset then .error (.imageTooSmall image.size)
  else
    have big : 0x150 ≤ image.size := Nat.not_lt.1 h
    match romBanks? image[0x148] with
    | none => .error (.romSize image[0x148])
    | some romBanks =>
      match ramBanks? image[0x149] with
      | none => .error (.ramSize image[0x149])
      | some ramBanks =>
        let field := List.ofFn fun i : Fin 16 => image[0x134 + i.val]
        .ok { title := titleOf field, kind := image[0x147], romBanks, ramBanks }

end Header

end Handheld.Cartridge
