import Handheld.Proofs.PictureReads
import Mathlib.Data.Nat.Bitwise

/-!
# The shade of a pixel

Which tile, sprite and palette decide what is left at a pixel once a line is drawn, in plain numbers
and without any order of painting.
-/

namespace Handheld.Picture

/-! ## The rule -/

def shadeNumbered : Nat → Shade
  | 0 => .white
  | 1 => .light
  | 2 => .dark
  | _ => .black

/-- The shade that a palette gives to a colour index: two of its bits. -/
def shadeThrough (palette : UInt8) (index : Nat) : Shade :=
  shadeNumbered (palette.toNat / 4 ^ index % 4)

def numberAt (view : View) (address : Nat) : Nat := (view (UInt16.ofNat address)).toNat

def controlBit (view : View) (k : Nat) : Bool := (view 0xff40).toNat.testBit k

/-- The colour index at a place of the tile whose bytes start at an address. Each row is two bytes,
the low and the high bits of its pixels, with the leftmost one on top. -/
def tilePixel (view : View) (tile row column : Nat) : Nat :=
  2 * ((numberAt view (tile + 2 * row + 1)).testBit (7 - column)).toNat +
    ((numberAt view (tile + 2 * row)).testBit (7 - column)).toNat

/-- The colour index at a place of a map of 32 by 32 tiles. Tile numbers count from 0x8000, or are
signed and count from 0x9000. -/
def mapPixel (view : View) (map x y : Nat) : Nat :=
  let number := numberAt view (map + 32 * (y / 8) + x / 8)
  let tile :=
    if controlBit view 4 then 0x8000 + 16 * number else (0x9000 + 16 * Int.bmod number 256).toNat
  tilePixel view tile (y % 8) (x % 8)

/-- Whether the window is enabled and reaches a pixel. -/
def InWindow (view : View) (line x : Nat) : Prop :=
  controlBit view 5 = true ∧ numberAt view 0xff4a ≤ line ∧ numberAt view 0xff4b ≤ x + 7

instance (view : View) (line x : Nat) : Decidable (InWindow view line x) :=
  inferInstanceAs (Decidable (_ ∧ _))

/-- The colour index of the window where it reaches, else of the background, which is scrolled and
wraps around; 0 if both are off. -/
def groundIndex (view : View) (line x : Nat) : Nat :=
  if controlBit view 0 = false then 0
  else if InWindow view line x then
    mapPixel view (if controlBit view 6 then 0x9c00 else 0x9800) (x + 7 - numberAt view 0xff4b)
      (line - numberAt view 0xff4a)
  else
    mapPixel view (if controlBit view 3 then 0x9c00 else 0x9800)
      ((x + numberAt view 0xff43) % 256) ((line + numberAt view 0xff42) % 256)

def groundShade (view : View) (line x : Nat) : Shade :=
  if controlBit view 0 then shadeThrough (view 0xff47) (groundIndex view line x) else .white

/-- Byte `k` of an entry of the sprite table: the top edge plus 16, the left edge plus 8, the tile
number and the attributes. -/
def entryByte (view : View) (i k : Nat) : Nat := numberAt view (0xfe00 + 4 * i + k)

def spriteRows (view : View) : Nat := if controlBit view 2 then 16 else 8

/-- Whether a pixel lies in the box of entry `i`. -/
def Covers (view : View) (i line x : Nat) : Prop :=
  (entryByte view i 0 : Int) - 16 ≤ line ∧
    (line : Int) < (entryByte view i 0 : Int) - 16 + spriteRows view ∧
    (entryByte view i 1 : Int) - 8 ≤ x ∧ x < entryByte view i 1

instance (view : View) (i line x : Nat) : Decidable (Covers view i line x) :=
  inferInstanceAs (Decidable (_ ∧ _))

/-- The colour index of entry `i` at a pixel in its box, after its flips. A tall sprite is two
tiles, the first of even number. -/
def spriteIndex (view : View) (i line x : Nat) : Nat :=
  let row := line + 16 - entryByte view i 0
  let column := x + 8 - entryByte view i 1
  let number := entryByte view i 2
  tilePixel view
    (0x8000 + 16 * if controlBit view 2 then number / 2 * 2 else number)
    (if (entryByte view i 3).testBit 6 then spriteRows view - 1 - row else row)
    (if (entryByte view i 3).testBit 5 then 7 - column else column)

/-- Whether entry `i` may decide a pixel: it covers it and is not transparent there, and neither is
it behind a background that is not 0. -/
def Shows (view : View) (i line x : Nat) : Prop :=
  controlBit view 1 = true ∧ Covers view i line x ∧ spriteIndex view i line x ≠ 0 ∧
    ((entryByte view i 3).testBit 7 = false ∨ groundIndex view line x = 0)

instance (view : View) (i line x : Nat) : Decidable (Shows view i line x) :=
  inferInstanceAs (Decidable (_ ∧ _))

def spriteShade (view : View) (i line x : Nat) : Shade :=
  shadeThrough (if (entryByte view i 3).testBit 4 then view 0xff49 else view 0xff48)
    (spriteIndex view i line x)

/-- The last of the 40 entries that may decide a pixel does. -/
def topEntry? (view : View) (line x : Nat) : Option Nat :=
  (List.range 40).reverse.find? fun i => Shows view i line x

def pixelShade (view : View) (line x : Nat) : Shade :=
  match topEntry? view line x with
  | some i => spriteShade view i line x
  | none => groundShade view line x

/-! ## Bits and palettes -/

theorem toNat_shift_and_1 (b : UInt8) {i : UInt8} (hi : i < 8) :
    (b >>> i &&& 1).toNat = (b.toNat.testBit i.toNat).toNat := by
  have hi' : i.toNat % 8 = i.toNat := Nat.mod_eq_of_lt hi
  rw [UInt8.toNat_and, UInt8.toNat_shiftRight, hi', UInt8.toNat_one, Nat.and_one_is_mod,
    Nat.shiftRight_eq_div_pow, Nat.toNat_testBit]

theorem bit_eq_testBit (b : UInt8) {i : UInt8} (hi : i < 8) :
    bit b i = b.toNat.testBit i.toNat := by
  have h := toNat_shift_and_1 b hi
  rw [bit, Bool.eq_iff_iff, bne_iff_ne, ne_eq, ← UInt8.toNat_inj, h]
  cases b.toNat.testBit i.toNat <;> decide

theorem toNat_colourIndex (lo hi : UInt8) {i : UInt8} (h : i < 8) :
    (colourIndex lo hi i).toNat =
      2 * (hi.toNat.testBit i.toNat).toNat + (lo.toNat.testBit i.toNat).toNat := by
  have hlow := (lo.toNat.testBit i.toNat).toNat_le
  have hhigh := (hi.toNat.testBit i.toNat).toNat_le
  simp only [colourIndex, UInt8.toNat_add, UInt8.toNat_mul, toNat_shift_and_1 _ h,
    UInt8.reduceToNat]
  omega

theorem colourIndex_lt (lo hi : UInt8) {i : UInt8} (h : i < 8) : colourIndex lo hi i < 4 := by
  have hlow := (lo.toNat.testBit i.toNat).toNat_le
  have hhigh := (hi.toNat.testBit i.toNat).toNat_le
  have hindex := toNat_colourIndex lo hi h
  have hlt : (colourIndex lo hi i).toNat < 4 := by omega
  exact hlt

theorem ofCode_ofNat : ∀ n < 256, Shade.ofCode (UInt8.ofNat n) = shadeNumbered (n % 4) := by
  decide +kernel

theorem ofPalette_eq_shadeThrough (palette : UInt8) {index : UInt8} (h : index < 4) :
    Shade.ofPalette palette index = shadeThrough palette index.toNat := by
  have hindex : index.toNat < 4 := h
  have hdouble : (index * 2).toNat % 8 = 2 * index.toNat := by
    simp only [UInt8.toNat_mul, UInt8.reduceToNat]
    omega
  have hcode := ofCode_ofNat _ (palette >>> (index * 2)).toNat_lt
  rw [UInt8.ofNat_toNat, UInt8.toNat_shiftRight, hdouble, Nat.shiftRight_eq_div_pow,
    Nat.pow_mul] at hcode
  exact hcode

/-! ## Tiles and maps -/

theorem toNat_colourIndex_at (view : View) {address : UInt16} {tile row column : Nat} {i : UInt8}
    (haddress : address.toNat = tile + 2 * row) (hi : i.toNat = 7 - column) :
    (colourIndex (view address) (view (address + 1)) i).toNat = tilePixel view tile row column := by
  have hlow : UInt16.ofNat (tile + 2 * row) = address := by
    rw [← haddress, UInt16.ofNat_toNat]
  have hhigh : UInt16.ofNat (tile + 2 * row + 1) = address + 1 := by
    rw [UInt16.ofNat_add, hlow]
    rfl
  have hlt : i.toNat < 8 := by omega
  rw [toNat_colourIndex _ _ hlt, hi, tilePixel, numberAt, numberAt, hlow, hhigh]

namespace MapPoint

theorem tileNumberAddress_eq (p : MapPoint) :
    p.tileNumberAddress = UInt16.ofNat (p.map.toNat + 32 * (p.y.toNat / 8) + p.x.toNat / 8) := by
  apply UInt16.toNat_inj.1
  simp only [tileNumberAddress, UInt16.toNat_add, UInt16.toNat_mul, UInt8.toNat_toUInt16,
    UInt8.toNat_div, UInt8.reduceToNat, UInt16.reduceToNat, UInt16.toNat_ofNat']
  omega

theorem toNat_tileAddress (unsigned : Bool) (tile : UInt8) :
    (tileAddress unsigned tile).toNat =
      if unsigned then 0x8000 + 16 * tile.toNat
      else (0x9000 + 16 * Int.bmod tile.toNat 256).toNat := by
  have ht := tile.toNat_lt
  unfold tileAddress signExtend
  split
  · simp only [UInt16.toNat_add, UInt16.toNat_mul, UInt8.toNat_toUInt16, UInt16.reduceToNat]
    omega
  · split <;> rename_i h <;> simp only [UInt8.lt_iff_toNat_lt, UInt8.reduceToNat] at h <;>
      simp only [UInt16.toNat_add, UInt16.toNat_mul, UInt8.toNat_toUInt16, UInt16.reduceToNat,
        Int.bmod_def] <;>
      omega

theorem toNat_column (p : MapPoint) : (7 - p.x % 8).toNat = 7 - p.x.toNat % 8 := by
  have hle : p.x % 8 ≤ 7 := by
    rw [UInt8.le_iff_toNat_le, UInt8.toNat_mod]
    exact Nat.le_of_lt_succ (Nat.mod_lt _ (by decide))
  rw [UInt8.toNat_sub_of_le _ _ hle, UInt8.toNat_mod]
  rfl

theorem colour_lt (p : MapPoint) (unsigned : Bool) (view : View) : p.colour unsigned view < 4 := by
  have hlt : (7 - p.x % 8).toNat < 8 := by
    rw [toNat_column]
    omega
  exact colourIndex_lt _ _ hlt

theorem toNat_colour (view : View) (p : MapPoint) :
    (p.colour (controlBit view 4) view).toNat = mapPixel view p.map.toNat p.x.toNat p.y.toNat := by
  have htile := toNat_tileAddress (controlBit view 4) (view p.tileNumberAddress)
  have hbounds := tileAddress_bounds (controlBit view 4) (view p.tileNumberAddress)
  have hrow : (p.y % 8).toUInt16.toNat = p.y.toNat % 8 := by
    rw [UInt8.toNat_toUInt16, UInt8.toNat_mod]
    rfl
  unfold colour mapPixel
  rw [tileNumberAddress_eq] at htile hbounds ⊢
  refine toNat_colourIndex_at view ?_ p.toNat_column
  unfold rowAddress numberAt
  rw [← htile, UInt16.toNat_add, UInt16.toNat_mul, hrow]
  simp only [UInt16.reduceToNat]
  omega

end MapPoint

/-! ## Background and window -/

namespace Lcd

variable (view : View)

theorem bit_control {i : UInt8} (hi : i < 8) : bit (view 0xff40) i = controlBit view i.toNat :=
  bit_eq_testBit _ hi

theorem inWindow_iff (line : UInt8) (x : Nat) :
    (ofView view).inWindow line x = true ↔ InWindow view line.toNat x := by
  have hon : (ofView view).windowOn = controlBit view 5 := bit_control view (by decide)
  unfold inWindow InWindow
  rw [hon, Bool.and_eq_true, Bool.and_eq_true, decide_eq_true_iff, decide_eq_true_iff, and_assoc]
  rfl

theorem toNat_windowMap :
    (ofView view).windowMap.toNat = if controlBit view 6 then 0x9c00 else 0x9800 := by
  have hbit : bit (ofView view).control 6 = controlBit view 6 := bit_control view (by decide)
  rw [windowMap, hbit]
  split <;> rfl

theorem toNat_backgroundMap :
    (ofView view).backgroundMap.toNat = if controlBit view 3 then 0x9c00 else 0x9800 := by
  have hbit : bit (ofView view).control 3 = controlBit view 3 := bit_control view (by decide)
  rw [backgroundMap, hbit]
  split <;> rfl

theorem toNat_tileColour (line : UInt8) {x : Nat} (hx : x < 160) :
    ((ofView view).tileColour view line x).toNat = groundIndex view line.toNat x := by
  have htiles : (ofView view).tilesOn = controlBit view 0 := bit_control view (by decide)
  have hunsigned : (ofView view).unsignedTiles = controlBit view 4 := bit_control view (by decide)
  have hwindow := inWindow_iff view line x
  unfold tileColour groundIndex
  rw [htiles, hunsigned]
  cases controlBit view 0 with
  | false => rfl
  | true =>
    rw [if_pos rfl, if_neg (by decide), MapPoint.toNat_colour]
    unfold pointAt
    by_cases hin : InWindow view line.toNat x
    · have hx' : (UInt8.ofNat (x + 7 - (ofView view).windowX.toNat)).toNat =
          x + 7 - numberAt view 0xff4b :=
        UInt8.toNat_ofNat_of_lt' (by unfold UInt8.size; omega)
      have hy' : (line - (ofView view).windowY).toNat = line.toNat - numberAt view 0xff4a :=
        UInt8.toNat_sub_of_le _ _ hin.2.1
      rw [if_pos hin, if_pos (hwindow.2 hin), toNat_windowMap, hx', hy']
    · have hx' : (UInt8.ofNat x + (ofView view).scrollX).toNat =
          (x + numberAt view 0xff43) % 256 := by
        rw [UInt8.toNat_add, UInt8.toNat_ofNat', Nat.mod_add_mod]
        rfl
      rw [if_neg hin, if_neg (mt hwindow.1 hin), toNat_backgroundMap, hx', UInt8.toNat_add]
      rfl

theorem tileShade_eq_groundShade (line : UInt8) {x : Nat} (hx : x < 160) :
    (ofView view).tileShade view line x = groundShade view line.toNat x := by
  have htiles : (ofView view).tilesOn = controlBit view 0 := bit_control view (by decide)
  unfold tileShade groundShade
  rw [htiles, ← toNat_tileColour view line hx]
  split
  · rename_i hon
    have hlt : (ofView view).tileColour view line x < 4 := by
      rw [tileColour, htiles, if_pos hon]
      exact MapPoint.colour_lt ..
    exact ofPalette_eq_shadeThrough _ hlt
  · rfl

end Lcd

/-! ## Painting over -/

/-- Where each item paints over a pixel or leaves it, the last one that paints it decides. -/
theorem getElem_foldl_paint {α : Type} {paint : Row → α → Row} {paints : α → Bool}
    {shade : α → Shade} {x : Fin 160}
    (hpaint : ∀ pixels a, (paint pixels a)[x] = if paints a then shade a else pixels[x])
    (items : List α) (pixels : Row) :
    (items.foldl paint pixels)[x] = (items.reverse.find? paints).elim pixels[x] shade := by
  induction items generalizing pixels with
  | nil => rfl
  | cons a items ih =>
    rw [List.foldl_cons, ih, List.reverse_cons, List.find?_append]
    cases items.reverse.find? paints with
    | some b => rfl
    | none =>
      rw [Option.none_or, Option.elim_none, hpaint, List.find?_singleton]
      split <;> rfl

theorem elim_find?_of_unique {paints : Nat → Bool} {shade : Nat → Shade} {items : List Nat}
    {k : Nat} (hk : ∀ a, paints a = true → a = k) (old : Shade) :
    (items.find? paints).elim old shade = if k ∈ items ∧ paints k = true then shade k else old := by
  cases hfind : items.find? paints with
  | some a =>
    have ha := List.find?_some hfind
    obtain rfl := hk a ha
    rw [if_pos ⟨List.mem_of_find?_eq_some hfind, ha⟩]
    rfl
  | none =>
    have hnone := List.find?_eq_none.1 hfind
    rw [if_neg fun h => hnone k h.1 h.2]
    rfl

/-! ## Sprites -/

/-- A step of `paintSprite`. -/
def paintColumn (lcd : Lcd) (view : View) (line : UInt8) (s : Sprite) (lo hi : UInt8) (row : Row)
    (column : Nat) : Row :=
  let index := colourIndex lo hi (s.pixelBit column)
  let x := s.x.toNat + column - 8
  if s.x.toNat + column < 8 || index == 0 || (s.behind && lcd.tileColour view line x != 0) then row
  else row.setIfInBounds x (.ofPalette (s.palette lcd) index)

/-- Column `k` of a sprite, of some colour index, paints pixel `x`. -/
def PaintsAt (lcd : Lcd) (view : View) (line : UInt8) (s : Sprite) (index : UInt8) (x k : Nat) :
    Prop :=
  s.x.toNat + k = x + 8 ∧ index ≠ 0 ∧ (s.behind = false ∨ lcd.tileColour view line x = 0)

instance (lcd : Lcd) (view : View) (line : UInt8) (s : Sprite) (index : UInt8) (x k : Nat) :
    Decidable (PaintsAt lcd view line s index x k) :=
  inferInstanceAs (Decidable (_ ∧ _))

theorem getElem_paintColumn (lcd : Lcd) (view : View) (line : UInt8) (s : Sprite) (lo hi : UInt8)
    (x : Fin 160) (row : Row) (k : Nat) :
    (paintColumn lcd view line s lo hi row k)[x] =
      if decide (PaintsAt lcd view line s (colourIndex lo hi (s.pixelBit k)) x k) then
        Shade.ofPalette (s.palette lcd) (colourIndex lo hi (s.pixelBit k))
      else row[x] := by
  unfold paintColumn
  dsimp only
  generalize colourIndex lo hi (s.pixelBit k) = index
  by_cases hat : PaintsAt lcd view line s index x k
  · have ⟨hcolumn, hindex, hfront⟩ := hat
    have hx : s.x.toNat + k - 8 = x := by omega
    have hright : ¬ s.x.toNat + k < 8 := by omega
    have hhidden : (s.behind && lcd.tileColour view line x != 0) = false := by
      rcases hfront with h | h <;> simp [h]
    rw [if_pos (decide_eq_true hat), hx, hhidden, if_neg (by simp [hright, hindex])]
    exact Vector.getElem_setIfInBounds_self ..
  · rw [if_neg (mt of_decide_eq_true hat)]
    split
    · rfl
    · rename_i hpaints
      have hne : s.x.toNat + k - 8 ≠ x := by
        intro hx
        rw [hx] at hpaints
        simp only [Bool.or_eq_true, decide_eq_true_iff, beq_iff_eq, Bool.and_eq_true, bne_iff_ne,
          not_or, not_and, not_not] at hpaints
        obtain ⟨⟨hright, hindex⟩, hfront⟩ := hpaints
        refine hat ⟨by omega, hindex, ?_⟩
        cases hbehind : s.behind with
        | false => exact .inl rfl
        | true => exact .inr (hfront hbehind)
      exact Vector.getElem_setIfInBounds_ne _ hne

theorem getElem_paintSprite (lcd : Lcd) (view : View) (line : UInt8) (s : Sprite) (lo hi : UInt8)
    (pixels : Row) (x : Fin 160) :
    (paintSprite lcd view line s lo hi pixels)[x] =
      if x + 8 - s.x.toNat < 8 ∧
          PaintsAt lcd view line s (colourIndex lo hi (s.pixelBit (x + 8 - s.x.toNat))) x
            (x + 8 - s.x.toNat) then
        Shade.ofPalette (s.palette lcd) (colourIndex lo hi (s.pixelBit (x + 8 - s.x.toNat)))
      else pixels[x] := by
  have hcolumn := getElem_paintColumn lcd view line s lo hi x
  have hunique : ∀ k,
      decide (PaintsAt lcd view line s (colourIndex lo hi (s.pixelBit k)) x k) = true →
        k = x + 8 - s.x.toNat := by
    intro k hk
    have hat := (of_decide_eq_true hk).1
    omega
  refine (getElem_foldl_paint hcolumn (List.range 8) pixels).trans ?_
  rw [elim_find?_of_unique hunique]
  simp only [List.mem_reverse, List.mem_range, decide_eq_true_iff]

namespace Sprite

/-- The colour index that a column of a row of the sprite shows. -/
def columnIndex (s : Sprite) (view : View) (height row column : Nat) : UInt8 :=
  colourIndex (view (s.rowAddress height row)) (view (s.rowAddress height row + 1))
    (s.pixelBit column)

theorem toNat_pixelBit (s : Sprite) {column : Nat} (h : column < 8) :
    (s.pixelBit column).toNat = if s.flipsX then column else 7 - column := by
  have hnat : (UInt8.ofNat column).toNat = column :=
    UInt8.toNat_ofNat_of_lt' (Nat.lt_trans h (by decide))
  have hle : UInt8.ofNat column ≤ 7 := by
    rw [UInt8.le_iff_toNat_le, hnat]
    exact Nat.le_of_lt_succ h
  unfold pixelBit
  split
  · exact hnat
  · rw [UInt8.toNat_sub_of_le _ _ hle, hnat]
    rfl

theorem pixelBit_lt (s : Sprite) {column : Nat} (h : column < 8) : s.pixelBit column < 8 := by
  have hbit := s.toNat_pixelBit h
  have hlt : (s.pixelBit column).toNat < 8 := by
    rw [hbit]
    split <;> omega
  exact hlt

variable (view : View) (i : Nat)

theorem entryByte_eq (k : Nat) :
    entryByte view i k = (view (0xfe00 + UInt16.ofNat i * 4 + UInt16.ofNat k)).toNat := by
  rw [entryByte, numberAt, UInt16.ofNat_add, UInt16.ofNat_add, UInt16.ofNat_mul, UInt16.mul_comm]
  rfl

theorem toNat_y : (ofView view i).y.toNat = entryByte view i 0 := by
  have hbase : ∀ a : UInt16, a + UInt16.ofNat 0 = a := UInt16.add_zero
  rw [entryByte_eq, hbase]
  rfl

theorem toNat_x : (ofView view i).x.toNat = entryByte view i 1 := (entryByte_eq view i 1).symm

theorem toNat_tile : (ofView view i).tile.toNat = entryByte view i 2 := (entryByte_eq view i 2).symm

theorem bit_attributes {k : UInt8} (hk : k < 8) :
    bit (ofView view i).attributes k = (entryByte view i 3).testBit k.toNat := by
  rw [bit_eq_testBit _ hk, entryByte_eq]
  rfl

theorem toNat_and_0xfe : ∀ n < 256, (UInt8.ofNat n &&& 0xfe).toNat = n / 2 * 2 := by
  decide +kernel

theorem toNat_rowAddress {row : Nat} (hrow : row < spriteRows view) :
    ((ofView view i).rowAddress (spriteRows view) row).toNat =
      0x8000 + 16 * (if controlBit view 2 then entryByte view i 2 / 2 * 2 else entryByte view i 2) +
        2 * (if (entryByte view i 3).testBit 6 then spriteRows view - 1 - row else row) := by
  have hflip : (ofView view i).flipsY = (entryByte view i 3).testBit 6 :=
    bit_attributes view i (by decide)
  have hlt := (ofView view i).tile.toNat_lt
  have heven := toNat_and_0xfe _ hlt
  rw [UInt8.ofNat_toNat, toNat_tile] at heven
  rw [toNat_tile] at hlt
  unfold rowAddress
  rw [hflip]
  unfold spriteRows at hrow ⊢
  generalize controlBit view 2 = tall at hrow ⊢
  cases tall <;> cases (entryByte view i 3).testBit 6 <;>
    simp only [if_true, if_false, Bool.false_eq_true, UInt16.toNat_add, UInt16.toNat_mul,
      UInt8.toNat_toUInt16, UInt16.toNat_ofNat', UInt16.reduceToNat, heven, toNat_tile,
      Nat.reduceEqDiff] at hrow ⊢ <;>
    omega

theorem toNat_pixelBit_ofView {column : Nat} (hcolumn : column < 8) :
    ((ofView view i).pixelBit column).toNat =
      7 - if (entryByte view i 3).testBit 5 then 7 - column else column := by
  have hflip : (ofView view i).flipsX = (entryByte view i 3).testBit 5 :=
    bit_attributes view i (by decide)
  rw [(ofView view i).toNat_pixelBit hcolumn, hflip]
  split <;> omega

theorem toNat_columnIndex {line : UInt8} {row x : Nat}
    (hrow : (ofView view i).row? (spriteRows view) line = some row)
    (hcolumn : x + 8 - entryByte view i 1 < 8) :
    ((ofView view i).columnIndex view (spriteRows view) row (x + 8 - entryByte view i 1)).toNat =
      spriteIndex view i line.toNat x := by
  have haddress := toNat_rowAddress view i (row?_lt hrow)
  have hrow' : row = line.toNat + 16 - entryByte view i 0 := by
    unfold row? at hrow
    rw [toNat_y] at hrow
    split at hrow
    · injection hrow with hrow
      exact hrow.symm
    · contradiction
  rw [hrow'] at haddress ⊢
  exact toNat_colourIndex_at view haddress (toNat_pixelBit_ofView view i hcolumn)

theorem covers_iff (line : UInt8) (x : Nat) :
    Covers view i line.toNat x ↔
      (∃ row, (ofView view i).row? (spriteRows view) line = some row) ∧
        x + 8 - entryByte view i 1 < 8 ∧
          entryByte view i 1 + (x + 8 - entryByte view i 1) = x + 8 := by
  unfold Covers row?
  rw [toNat_y]
  split
  · simp only [Option.some.injEq, exists_eq', true_and]
    omega
  · simp only [reduceCtorEq, exists_false, false_and, iff_false]
    omega

end Sprite

section Entry

variable (view : View) {i row x : Nat} {line : UInt8}
  (hrow : (Sprite.ofView view i).row? (spriteRows view) line = some row)

include hrow

theorem paintsAt_iff_shows (hon : controlBit view 1 = true) {x : Fin 160} :
    (x + 8 - entryByte view i 1 < 8 ∧
      PaintsAt (Lcd.ofView view) view line (Sprite.ofView view i)
        ((Sprite.ofView view i).columnIndex view (spriteRows view) row
          (x + 8 - entryByte view i 1)) x (x + 8 - entryByte view i 1)) ↔
      Shows view i line.toNat x := by
  have hbehind : (Sprite.ofView view i).behind = (entryByte view i 3).testBit 7 :=
    Sprite.bit_attributes view i (by decide)
  have hground := Lcd.toNat_tileColour view line x.isLt
  have hcovers := Sprite.covers_iff view i line x
  by_cases hcolumn : x + 8 - entryByte view i 1 < 8
  · have hindex := Sprite.toNat_columnIndex view i hrow hcolumn
    have hzero : ∀ c : UInt8, c = 0 ↔ c.toNat = 0 := fun _ => UInt8.toNat_inj.symm
    unfold PaintsAt Shows
    rw [hcovers, ← hindex, ← hground, Sprite.toNat_x, hbehind, ne_eq, hzero, hzero]
    simp only [hcolumn, hon, hrow, true_and, exists_eq', Option.some.injEq, ne_eq]
  · have hout : ¬ Shows view i line.toNat x := fun h => hcolumn (hcovers.1 h.2.1).2.1
    simp only [hcolumn, hout, false_and]

theorem ofPalette_eq_spriteShade (hcolumn : x + 8 - entryByte view i 1 < 8) :
    Shade.ofPalette ((Sprite.ofView view i).palette (Lcd.ofView view))
      ((Sprite.ofView view i).columnIndex view (spriteRows view) row
        (x + 8 - entryByte view i 1)) =
      spriteShade view i line.toNat x := by
  have hpalette : (Sprite.ofView view i).palette (Lcd.ofView view) =
      if (entryByte view i 3).testBit 4 then view 0xff49 else view 0xff48 := by
    rw [Sprite.palette, Sprite.bit_attributes view i (by decide)]
    rfl
  have hbit : ((Sprite.ofView view i).pixelBit (x + 8 - entryByte view i 1)).toNat < 8 := by
    rw [Sprite.toNat_pixelBit_ofView view i hcolumn]
    omega
  have hindex : (Sprite.ofView view i).columnIndex view (spriteRows view) row
      (x + 8 - entryByte view i 1) < 4 := colourIndex_lt _ _ hbit
  rw [ofPalette_eq_shadeThrough _ hindex, hpalette,
    Sprite.toNat_columnIndex view i hrow hcolumn]
  rfl

end Entry

theorem getElem_paintEntry (view : View) (line : UInt8) (hon : controlBit view 1 = true)
    (x : Fin 160) (pixels : Row) (i : Nat) :
    (paintEntry (Lcd.ofView view) view line pixels i)[x] =
      if Shows view i line.toNat x then spriteShade view i line.toNat x else pixels[x] := by
  have hheight : (Lcd.ofView view).spriteHeight = spriteRows view := by
    have hbit : (Lcd.ofView view).tallSprites = controlBit view 2 :=
      Lcd.bit_control view (by decide)
    rw [Lcd.spriteHeight, hbit]
    rfl
  have hcovers := Sprite.covers_iff view i line x
  unfold paintEntry
  dsimp only
  rw [hheight]
  cases hrow : (Sprite.ofView view i).row? (spriteRows view) line with
  | none =>
    have hout : ¬ Shows view i line.toNat x := by
      rintro ⟨-, hcover, -⟩
      obtain ⟨⟨row, hsome⟩, -⟩ := hcovers.1 hcover
      simp [hrow] at hsome
    rw [if_neg hout]
  | some row =>
    have hpaints := paintsAt_iff_shows view hrow hon (x := x)
    dsimp only
    rw [getElem_paintSprite, Sprite.toNat_x, ← Sprite.columnIndex]
    by_cases hshows : Shows view i line.toNat x
    · have hcolumn := (hpaints.2 hshows).1
      rw [if_pos hshows, if_pos (hpaints.2 hshows)]
      exact ofPalette_eq_spriteShade view hrow hcolumn
    · rw [if_neg hshows, if_neg (mt hpaints.1 hshows)]

/-! ## The line -/

theorem topEntry?_eq_some_iff {view : View} {line x i : Nat} :
    topEntry? view line x = some i ↔
      i < 40 ∧ Shows view i line x ∧ ∀ j, i < j → j < 40 → ¬ Shows view j line x := by
  unfold topEntry?
  rw [List.find?_eq_some_iff_getElem]
  simp only [List.getElem_reverse, List.getElem_range, List.length_reverse, List.length_range,
    decide_eq_true_iff, Bool.not_eq_true', decide_eq_false_iff_not]
  constructor
  · rintro ⟨hshows, k, hk, rfl, hlater⟩
    refine ⟨by omega, hshows, fun j hj hlt => ?_⟩
    have hnot := hlater (39 - j) (by omega)
    have hback : 40 - 1 - (39 - j) = j := by omega
    rwa [hback] at hnot
  · rintro ⟨hlt, hshows, hlater⟩
    exact ⟨hshows, 39 - i, by omega, by omega, fun j hj => hlater _ (by omega) (by omega)⟩

theorem getElem_renderLine (view : View) (line : UInt8) (x : Fin 160) :
    (renderLine view line)[x] = pixelShade view line.toNat x := by
  have hsprites : (Lcd.ofView view).spritesOn = controlBit view 1 :=
    Lcd.bit_control view (by decide)
  have hground : ((Lcd.ofView view).tileRow view line)[x] = groundShade view line.toNat x := by
    rw [← Lcd.tileShade_eq_groundShade view line x.isLt, Lcd.tileRow]
    exact Vector.getElem_ofFn ..
  unfold renderLine pixelShade
  dsimp only
  rw [hsprites]
  split
  · rename_i hon
    have hpaint := fun pixels i => getElem_paintEntry view line hon x pixels i
    have hdecide : ∀ pixels i, (paintEntry (Lcd.ofView view) view line pixels i)[x] =
        if decide (Shows view i line.toNat x) then spriteShade view i line.toNat x
        else pixels[x] := by
      simpa only [decide_eq_true_iff] using hpaint
    rw [getElem_foldl_paint hdecide, hground]
    unfold topEntry? Sprite.count
    cases (List.range 40).reverse.find? fun i => Shows view i line.toNat x <;> rfl
  · rename_i hoff
    have hnone : topEntry? view line.toNat x = none :=
      List.find?_eq_none.2 fun i _ h => hoff (of_decide_eq_true h).1
    rw [hnone, hground]

/-- A line that is drawn holds at every pixel the shade of the sprite that decides it, the one of
the highest number among those that may, or else that of window or background. -/
theorem row_setRow_renderLine (view : View) (f : Frame) (line : Fin 144) (x : Fin 160) :
    ((f.setRow line (renderLine view (UInt8.ofNat line))).row line)[x] =
        (match topEntry? view line x with
          | some i => spriteShade view i line x
          | none => groundShade view line x) ∧
      ∀ i, topEntry? view line x = some i ↔
        i < 40 ∧ Shows view i line x ∧ ∀ j, i < j → j < 40 → ¬ Shows view j line x := by
  have hline : (UInt8.ofNat line).toNat = line :=
    UInt8.toNat_ofNat_of_lt' (Nat.lt_trans line.isLt (by decide))
  refine ⟨?_, fun i => topEntry?_eq_some_iff⟩
  rw [Frame.row_setRow_self, getElem_renderLine, hline]
  rfl

end Handheld.Picture
