/-!
# ROM and RAM in banks

A bank of ROM is 16 KB. Bank numbers wrap around the image, and what lies past its end reads as
0xff. A bank of RAM is 8 KB. A cell past the end of the RAM reads as 0 and cannot be written.
-/

namespace Handheld.Cartridge

namespace Rom

def bankSize : Nat := 0x4000

def bankCount (image : ByteArray) : Nat := max ((image.size + (bankSize - 1)) / bankSize) 1

def byteAt (image : ByteArray) (i : Nat) : UInt8 := if h : i < image.size then image[i] else 0xff

/-- Where an address of the 16 KB window over `bank` lies in the image. -/
def offset (image : ByteArray) (bank : Nat) (address : UInt16) : Nat :=
  bank % bankCount image * bankSize + address.toNat % bankSize

def read (image : ByteArray) (bank : Nat) (address : UInt16) : UInt8 :=
  byteAt image (offset image bank address)

end Rom

structure Ram where
  cells : Array UInt8
deriving Repr, DecidableEq, Inhabited

namespace Ram

def bankSize : Nat := 0x2000

def blank (size : Nat) : Ram := ⟨Array.replicate size 0⟩

/-- Where an address of the 8 KB window over `bank` lies in the RAM. -/
def offset (bank : Nat) (address : UInt16) : Nat :=
  bank * bankSize + address.toNat % bankSize

def cell (ram : Ram) (i : Nat) : UInt8 := ram.cells.getD i 0

def read (ram : Ram) (bank : Nat) (address : UInt16) : UInt8 := ram.cell (offset bank address)

def write (ram : Ram) (bank : Nat) (address : UInt16) (v : UInt8) : Ram :=
  ⟨ram.cells.setIfInBounds (offset bank address) v⟩

@[simp] theorem cell_blank (size i : Nat) : (blank size).cell i = 0 := by
  unfold cell blank
  by_cases h : i < size <;> simp [h]

theorem cell_write (ram : Ram) (bank : Nat) (address : UInt16) (v : UInt8) (i : Nat) :
    (ram.write bank address v).cell i =
      if offset bank address = i ∧ i < ram.cells.size then v else ram.cell i := by
  unfold cell write
  simp only [Array.getD_eq_getD_getElem?, Array.getElem?_setIfInBounds]
  by_cases h : offset bank address = i <;> by_cases hi : i < ram.cells.size <;> simp [h, hi]

@[simp] theorem size_write (ram : Ram) (bank : Nat) (address : UInt16) (v : UInt8) :
    (ram.write bank address v).cells.size = ram.cells.size := by
  simp [write]

end Ram

/-- Whether a write to a controller's gate register opens the RAM: the low four bits are 0xa. -/
def opensRam (v : UInt8) : Bool := v &&& 0x0f == 0x0a

end Handheld.Cartridge
