/-!
# Pictures

A frame has 144 rows of 160 pixels, each in one of four shades.
-/

namespace Handheld.Picture

inductive Shade where
  | white
  | light
  | dark
  | black
deriving Repr, DecidableEq, Inhabited

namespace Shade

/-- The shade behind two bits of a palette. -/
def ofCode (code : UInt8) : Shade :=
  match code &&& 3 with
  | 0 => white
  | 1 => light
  | 2 => dark
  | _ => black

def ofPalette (palette index : UInt8) : Shade := ofCode (palette >>> (index * 2))

/-- The place in the order from white to black. -/
def number : Shade → Nat
  | white => 0
  | light => 1
  | dark => 2
  | black => 3

/-- The grey that stands for the shade: its red, green and blue are equal. -/
def grey : Shade → UInt8
  | white => 0xff
  | light => 0xcc
  | dark => 0x77
  | black => 0x00

end Shade

def width : Nat := 160

def height : Nat := 144

/-- The pixels of one line, from the left. -/
abbrev Row := Vector Shade 160

/-- The lines of a picture, from the top. -/
structure Frame where
  rows : Vector Row 144
deriving DecidableEq

namespace Frame

def blank : Frame := ⟨Vector.replicate 144 (Vector.replicate 160 .white)⟩

instance : Inhabited Frame := ⟨blank⟩

/-- The picture with another row `y`; there is no row past the last. -/
def setRow (f : Frame) (y : Nat) (row : Row) : Frame := ⟨f.rows.setIfInBounds y row⟩

def row (f : Frame) (y : Fin 144) : Row := f.rows[y]

theorem row_setRow_self (f : Frame) (y : Fin 144) (row : Row) : (f.setRow y row).row y = row := by
  simp only [Frame.row, setRow, Fin.getElem_fin, Vector.getElem_setIfInBounds_self]

theorem row_setRow_of_ne (f : Frame) {n : Nat} {y : Fin 144} (row : Row) (h : n ≠ y) :
    (f.setRow n row).row y = f.row y := by
  simp only [Frame.row, setRow, Fin.getElem_fin, Vector.getElem_setIfInBounds_ne _ h]

theorem setRow_setRow (f : Frame) (y : Nat) (row row' : Row) :
    (f.setRow y row).setRow y row' = f.setRow y row' := by
  simp only [setRow, Vector.setIfInBounds_setIfInBounds]

theorem setRow_row (f : Frame) (y : Fin 144) : f.setRow y (f.row y) = f := by
  apply congrArg Frame.mk
  ext i hi : 1
  rw [Vector.getElem_setIfInBounds]
  split
  · rename_i hy
    subst hy
    rfl
  · rfl

def pixels (f : Frame) : List Shade := f.rows.toList.flatMap Vector.toList

/-- The pixel at column `x` counted from the start of row `y`: past the right edge the count goes on
in the next row, and past the last row there is nothing. -/
def pixel? (f : Frame) (x y : Nat) : Option Shade :=
  (f.rows[(y * width + x) / width]?).bind (·[(y * width + x) % width]?)

end Frame

end Handheld.Picture
