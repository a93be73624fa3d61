import Handheld.Proofs.PixelLaw

/-!
# Drawing in place

The picture unit draws a line pixel by pixel on the picture and keeps a note of the columns whose
background has colour index 0. Here it does so with sums that fail where they do not fit, reads that
fail outside the tiles and the sprite table, and buffers that fail outside their bounds. It never
fails, and what it draws is the row of `renderLine`.
-/

namespace Handheld.Picture

/-! ## Numbers that fit -/

def byte? (n : Int) : Option UInt8 :=
  if 0 ≤ n ∧ n < 256 then some (UInt8.ofNat n.toNat) else none

def word? (n : Int) : Option UInt16 :=
  if 0 ≤ n ∧ n < 65536 then some (UInt16.ofNat n.toNat) else none

def subByte? (a b : UInt8) : Option UInt8 := byte? (a.toNat - b.toNat)

def addWord? (a b : UInt16) : Option UInt16 := word? (a.toNat + b.toNat)

def mulWord? (a b : UInt16) : Option UInt16 := word? (a.toNat * b.toNat)

theorem byte?_eq {n : Int} {b : UInt8} (h : n = b.toNat) : byte? n = some b := by
  have hb := b.toNat_lt
  rw [byte?, if_pos (by omega), h, Int.toNat_natCast, UInt8.ofNat_toNat]

theorem word?_eq {n : Int} {w : UInt16} (h : n = w.toNat) : word? n = some w := by
  have hw := w.toNat_lt
  rw [word?, if_pos (by omega), h, Int.toNat_natCast, UInt16.ofNat_toNat]

theorem byte?_natCast {n : Nat} (h : n < 256) : byte? n = some (UInt8.ofNat n) :=
  byte?_eq (congrArg Nat.cast (UInt8.toNat_ofNat_of_lt' h).symm)

theorem subByte?_eq {a b : UInt8} (h : b ≤ a) : subByte? a b = some (a - b) := by
  have hle : b.toNat ≤ a.toNat := h
  apply byte?_eq
  rw [UInt8.toNat_sub_of_le _ _ h]
  omega

theorem toNat_add_of_lt {a b : UInt16} (h : a.toNat + b.toNat < 65536) :
    (a + b).toNat = a.toNat + b.toNat := by
  rw [UInt16.toNat_add, Nat.mod_eq_of_lt h]

theorem toNat_mul_of_lt {a b : UInt16} (h : a.toNat * b.toNat < 65536) :
    (a * b).toNat = a.toNat * b.toNat := by
  rw [UInt16.toNat_mul, Nat.mod_eq_of_lt h]

theorem addWord?_eq {a b : UInt16} (h : a.toNat + b.toNat < 65536) :
    addWord? a b = some (a + b) := by
  apply word?_eq
  rw [toNat_add_of_lt h]
  rfl

theorem mulWord?_eq {a b : UInt16} (h : a.toNat * b.toNat < 65536) :
    mulWord? a b = some (a * b) := by
  apply word?_eq
  rw [toNat_mul_of_lt h]
  rfl

/-! ## Steps and loops -/

theorem bind_of_eq_some {α β : Type} {x : Option α} {a : α} (h : x = some a) (f : α → Option β) :
    (x >>= f) = f a := by
  rw [h]
  rfl

theorem foldlM_range {β : Type} {f : β → Nat → Option β} (state : Nat → β) {n : Nat}
    (hstep : ∀ k < n, f (state k) k = some (state (k + 1))) :
    (List.range n).foldlM f (state 0) = some (state n) := by
  induction n with
  | zero => rfl
  | succ n ih =>
    rw [List.range_succ, List.foldlM_append,
      bind_of_eq_some (ih fun k hk => hstep k (Nat.lt_succ_of_lt hk)), List.foldlM_cons,
      bind_of_eq_some (hstep n (Nat.lt_succ_self n))]
    rfl

/-! ## Reads -/

/-- The byte at an address, if it is one from `low` up to `high`. -/
def byteWithin? (view : View) (low high a : UInt16) : Option UInt8 :=
  if low ≤ a ∧ a ≤ high then some (view a) else none

def tileByte? (view : View) (a : UInt16) : Option UInt8 := byteWithin? view 0x8000 0x9fff a

def spriteByte? (view : View) (a : UInt16) : Option UInt8 := byteWithin? view 0xfe00 0xfe9f a

def planes? (view : View) (a : UInt16) : Option (UInt8 × UInt8) := do
  let lo ← tileByte? view a
  let hi ← tileByte? view (← addWord? a 1)
  some (lo, hi)

def colourIndex? (lo hi i : UInt8) : Option UInt8 :=
  if i < 8 then some (colourIndex lo hi i) else none

def shades : Vector Shade 4 := #v[.white, .light, .dark, .black]

def shade? (palette index : UInt8) : Option Shade :=
  if index < 4 then shades[(palette >>> (index * 2) &&& 3).toNat]? else none

theorem tileByte?_eq (view : View) {a : UInt16} (hlow : 0x8000 ≤ a.toNat)
    (hhigh : a.toNat < 0xa000) : tileByte? view a = some (view a) :=
  if_pos ⟨hlow, Nat.le_of_lt_succ hhigh⟩

theorem planes?_eq (view : View) {a : UInt16} (hlow : 0x8000 ≤ a.toNat) (hhigh : a.toNat < 0x9fff) :
    planes? view a = some (view a, view (a + 1)) := by
  have hone : (1 : UInt16).toNat = 1 := rfl
  have hsum : a.toNat + (1 : UInt16).toNat < 65536 := by omega
  have hnext := toNat_add_of_lt hsum
  rw [planes?, bind_of_eq_some (tileByte?_eq view hlow (by omega)),
    bind_of_eq_some (addWord?_eq hsum),
    bind_of_eq_some (tileByte?_eq view (by omega) (by omega))]

theorem colourIndex?_eq (lo hi : UInt8) {i : UInt8} (h : i < 8) :
    colourIndex? lo hi i = some (colourIndex lo hi i) := if_pos h

theorem shade?_eq (palette : UInt8) {index : UInt8} (h : index < 4) :
    shade? palette index = some (.ofPalette palette index) := by
  have hlt : palette >>> (index * 2) &&& 3 < 4 := by
    rw [UInt8.lt_iff_toNat_lt, UInt8.toNat_and]
    exact Nat.lt_of_le_of_lt Nat.and_le_right (by decide)
  rw [shade?, if_pos h, Shade.ofPalette, Shade.ofCode]
  generalize palette >>> (index * 2) &&& 3 = code at hlt
  have hcases : code = 0 ∨ code = 1 ∨ code = 2 ∨ code = 3 := by grind
  rcases hcases with rfl | rfl | rfl | rfl <;> rfl

/-! ## Buffers -/

/-- The picture that is drawn on, and the columns of the line whose background has colour
index 0. -/
structure Canvas where
  drawing : Frame
  zero : Vector Bool 160

namespace Canvas

def paint? (c : Canvas) (x y : Nat) (shade : Shade) : Option Canvas :=
  if h : x < 160 ∧ y < 144 then
    some { c with drawing := c.drawing.setRow y ((c.drawing.row ⟨y, h.2⟩).setIfInBounds x shade) }
  else none

def note? (c : Canvas) (x : Nat) (zero : Bool) : Option Canvas :=
  if x < 160 then some { c with zero := c.zero.setIfInBounds x zero } else none

theorem note?_eq (c : Canvas) {x : Nat} (hx : x < 160) (zero : Bool) :
    c.note? x zero = some { c with zero := c.zero.setIfInBounds x zero } := if_pos hx

theorem paint?_eq {line : UInt8} (hline : line < 144) (f : Frame) (row : Row)
    (zero : Vector Bool 160) {x : Nat} (hx : x < 160) (shade : Shade) :
    (Canvas.mk (f.setRow line.toNat row) zero).paint? x line.toNat shade =
      some ⟨f.setRow line.toNat (row.setIfInBounds x shade), zero⟩ := by
  have hself := f.row_setRow_self ⟨line.toNat, hline⟩ row
  dsimp only at hself
  unfold paint?
  rw [dif_pos ⟨hx, hline⟩]
  dsimp only
  rw [hself, Frame.setRow_setRow]

end Canvas

def overwritten {α : Type} {n : Nat} (v : Vector α n) (f : Nat → α) (k : Nat) : Vector α n :=
  Vector.ofFn fun i => if i < k then f i else v[i]

section Overwritten

variable {α : Type} {n : Nat} (v : Vector α n) (f : Nat → α)

theorem overwritten_zero : overwritten v f 0 = v := by
  ext i hi
  simp [overwritten]

theorem overwritten_succ (k : Nat) :
    (overwritten v f k).setIfInBounds k (f k) = overwritten v f (k + 1) := by
  ext i hi
  simp only [overwritten, Vector.getElem_setIfInBounds, Vector.getElem_ofFn]
  grind

theorem overwritten_all : overwritten v f n = Vector.ofFn fun i => f i := by
  ext i hi
  simp [overwritten]

end Overwritten

/-! ## Background and window -/

namespace MapPoint

def tileNumberAddress? (p : MapPoint) : Option UInt16 := do
  let row ← addWord? p.map (← mulWord? (p.y / 8).toUInt16 32)
  addWord? row (p.x / 8).toUInt16

def tileAddress? (unsigned : Bool) (tile : UInt8) : Option UInt16 :=
  if unsigned then do addWord? 0x8000 (← mulWord? tile.toUInt16 16)
  else word? (0x9000 + Int.bmod tile.toNat 256 * 16)

def rowAddress? (p : MapPoint) (unsigned : Bool) (tile : UInt8) : Option UInt16 := do
  addWord? (← tileAddress? unsigned tile) (← mulWord? (p.y % 8).toUInt16 2)

def colour? (p : MapPoint) (unsigned : Bool) (view : View) : Option UInt8 := do
  let tile ← tileByte? view (← p.tileNumberAddress?)
  let (lo, hi) ← planes? view (← p.rowAddress? unsigned tile)
  colourIndex? lo hi (← subByte? 7 (p.x % 8))

theorem tileNumberAddress?_eq (p : MapPoint) (hmap : p.map = 0x9800 ∨ p.map = 0x9c00) :
    p.tileNumberAddress? = some p.tileNumberAddress := by
  have heighth : ∀ b : UInt8, (b / 8).toUInt16.toNat < 32 := by
    intro b
    have := b.toNat_lt
    simp only [UInt8.toNat_toUInt16, UInt8.toNat_div, UInt8.reduceToNat]
    omega
  have hx := heighth p.x
  have hy := heighth p.y
  have hmap' : p.map.toNat ≤ 0x9c00 := by
    rcases hmap with h | h <;> simp only [h, UInt16.reduceToNat] <;> omega
  have hproduct : (p.y / 8).toUInt16.toNat * (32 : UInt16).toNat < 65536 := by
    simp only [UInt16.reduceToNat]
    omega
  have hrow : ((p.y / 8).toUInt16 * 32).toNat = (p.y / 8).toUInt16.toNat * 32 :=
    toNat_mul_of_lt hproduct
  have hsum : p.map.toNat + ((p.y / 8).toUInt16 * 32).toNat < 65536 := by omega
  have hstart := toNat_add_of_lt hsum
  rw [tileNumberAddress?, bind_of_eq_some (mulWord?_eq hproduct),
    bind_of_eq_some (addWord?_eq hsum), addWord?_eq (by omega)]
  rfl

theorem tileAddress?_eq (unsigned : Bool) (tile : UInt8) :
    tileAddress? unsigned tile = some (tileAddress unsigned tile) := by
  have ht := tile.toNat_lt
  have haddress := toNat_tileAddress unsigned tile
  unfold tileAddress?
  split
  · rename_i hunsigned
    have hbase : (0x8000 : UInt16).toNat = 0x8000 := rfl
    have hproduct : tile.toUInt16.toNat * (16 : UInt16).toNat < 65536 := by
      simp only [UInt8.toNat_toUInt16, UInt16.reduceToNat]
      omega
    have hoffset : (tile.toUInt16 * 16).toNat = tile.toNat * 16 := by
      rw [toNat_mul_of_lt hproduct, UInt8.toNat_toUInt16]
      rfl
    rw [bind_of_eq_some (mulWord?_eq hproduct), addWord?_eq (by omega), tileAddress,
      if_pos hunsigned]
  · rename_i hsigned
    rw [if_neg hsigned] at haddress
    apply word?_eq
    rw [haddress, Int.bmod_def]
    omega

/-- A row of a tile is two bytes, and the last one of a tall sprite is the sixteenth. -/
theorem tileRow?_eq (unsigned : Bool) (tile : UInt8) {row : UInt16} (h : row.toNat < 16) :
    (do addWord? (← tileAddress? unsigned tile) (← mulWord? row 2)) =
      some (tileAddress unsigned tile + row * 2) := by
  have hbounds := tileAddress_bounds unsigned tile
  have hproduct : row.toNat * (2 : UInt16).toNat < 65536 := by
    simp only [UInt16.reduceToNat]
    omega
  have hoffset : (row * 2).toNat = row.toNat * 2 := toNat_mul_of_lt hproduct
  rw [bind_of_eq_some (tileAddress?_eq unsigned tile), bind_of_eq_some (mulWord?_eq hproduct),
    addWord?_eq (by omega)]

theorem rowAddress?_eq (p : MapPoint) (unsigned : Bool) (tile : UInt8) :
    p.rowAddress? unsigned tile = some (p.rowAddress unsigned tile) := by
  apply tileRow?_eq
  rw [UInt8.toNat_toUInt16, UInt8.toNat_mod]
  exact Nat.lt_trans (Nat.mod_lt _ (by decide)) (by decide)

theorem colour?_eq (p : MapPoint) (hmap : p.map = 0x9800 ∨ p.map = 0x9c00) (unsigned : Bool)
    (view : View) : p.colour? unsigned view = some (p.colour unsigned view) := by
  obtain ⟨hlow, hhigh⟩ := p.tileNumberAddress_bounds hmap
  have hread := tileByte?_eq view (Nat.le_trans (by decide) hlow) hhigh
  obtain ⟨hrow, hrow'⟩ := p.rowAddress_bounds unsigned (view p.tileNumberAddress)
  have hle : p.x % 8 ≤ 7 := by
    rw [UInt8.le_iff_toNat_le, UInt8.toNat_mod]
    exact Nat.le_of_lt_succ (Nat.mod_lt _ (by decide))
  have hcolumn : 7 - p.x % 8 < 8 := by
    rw [UInt8.lt_iff_toNat_lt, toNat_column]
    exact Nat.lt_of_le_of_lt (Nat.sub_le _ _) (by decide)
  rw [colour?, bind_of_eq_some (p.tileNumberAddress?_eq hmap), bind_of_eq_some hread,
    bind_of_eq_some (p.rowAddress?_eq unsigned _),
    bind_of_eq_some (planes?_eq view hrow (by omega))]
  dsimp only
  rw [bind_of_eq_some (subByte?_eq hle), colourIndex?_eq _ _ hcolumn]
  rfl

end MapPoint

/-- Only the two sums with a scroll register wrap. -/
def Lcd.pointAt? (lcd : Lcd) (line : UInt8) (x : Nat) : Option MapPoint :=
  if lcd.inWindow line x then do
    let px ← byte? ((x + 7 : Nat) - lcd.windowX.toNat)
    let py ← subByte? line lcd.windowY
    some { map := lcd.windowMap, x := px, y := py }
  else do
    let px ← byte? x
    some { map := lcd.backgroundMap, x := px + lcd.scrollX, y := line + lcd.scrollY }

theorem Lcd.pointAt?_eq (lcd : Lcd) (line : UInt8) {x : Nat} (hx : x < 160) :
    lcd.pointAt? line x = some (lcd.pointAt line x) := by
  unfold pointAt? pointAt
  split
  · rename_i hin
    unfold inWindow at hin
    simp only [Bool.and_eq_true, decide_eq_true_iff] at hin
    obtain ⟨⟨-, hline⟩, hcolumn⟩ := hin
    rw [← Int.ofNat_sub hcolumn, bind_of_eq_some (byte?_natCast (by omega)),
      bind_of_eq_some (subByte?_eq hline)]
  · rw [bind_of_eq_some (byte?_natCast (by omega))]

namespace Canvas

def drawTile? (lcd : Lcd) (view : View) (line : UInt8) (c : Canvas) (x : Nat) : Option Canvas := do
  let index ← (← lcd.pointAt? line x).colour? lcd.unsignedTiles view
  let c ← c.note? x (index == 0)
  c.paint? x line.toNat (← shade? lcd.backgroundPalette index)

def drawTiles? (lcd : Lcd) (view : View) (line : UInt8) (c : Canvas) : Option Canvas := do
  if lcd.tilesOn then (List.range 160).foldlM (drawTile? lcd view line) c
  else
    let c ← (List.range 160).foldlM (fun c x => c.paint? x line.toNat .white) c
    some { c with zero := .replicate 160 true }

/-- A picture with a row drawn over, and the columns where the background has colour index 0. -/
def noted (lcd : Lcd) (view : View) (line : UInt8) (f : Frame) (row : Row) : Canvas :=
  { drawing := f.setRow line.toNat row
    zero := .ofFn fun x => lcd.tileColour view line x == 0 }

variable {lcd : Lcd} {view : View} {line : UInt8}

theorem drawTile?_eq (hline : line < 144) (f : Frame) (row : Row) (zero : Vector Bool 160)
    (hon : lcd.tilesOn = true) {x : Nat} (hx : x < 160) :
    drawTile? lcd view line ⟨f.setRow line.toNat row, zero⟩ x =
      some ⟨f.setRow line.toNat (row.setIfInBounds x (lcd.tileShade view line x)),
        zero.setIfInBounds x (lcd.tileColour view line x == 0)⟩ := by
  have hcolour := MapPoint.colour?_eq _ (lcd.pointAt_map line x) lcd.unsignedTiles view
  have hlt := MapPoint.colour_lt (lcd.pointAt line x) lcd.unsignedTiles view
  unfold drawTile? Lcd.tileShade Lcd.tileColour
  rw [bind_of_eq_some (lcd.pointAt?_eq line hx), bind_of_eq_some hcolour,
    bind_of_eq_some (note?_eq _ hx _), bind_of_eq_some (shade?_eq _ hlt), paint?_eq hline _ _ _ hx,
    if_pos hon, if_pos hon]

theorem drawTiles?_eq (hline : line < 144) (c : Canvas) :
    drawTiles? lcd view line c =
      some (noted lcd view line c.drawing (lcd.tileRow view line)) := by
  obtain ⟨f, zero⟩ := c
  have hself : f.setRow line.toNat (f.row ⟨line.toNat, hline⟩) = f :=
    f.setRow_row ⟨line.toNat, hline⟩
  unfold drawTiles?
  split
  · rename_i hon
    -- After `k` pixels the first `k` places are drawn, and noted where the index is 0.
    have hloop := foldlM_range (f := drawTile? lcd view line) (n := 160)
      (fun k => ⟨f.setRow line.toNat (overwritten (f.row ⟨line.toNat, hline⟩)
          (lcd.tileShade view line) k),
        overwritten zero (fun x => lcd.tileColour view line x == 0) k⟩)
      fun k hk => by
        rw [drawTile?_eq hline f _ _ hon hk, overwritten_succ,
          overwritten_succ zero fun x => lcd.tileColour view line x == 0]
    rw [overwritten_zero, overwritten_zero, overwritten_all, overwritten_all, hself] at hloop
    exact hloop
  · rename_i hoff
    have hloop := foldlM_range (f := fun c x => paint? c x line.toNat .white) (n := 160)
      (fun k => ⟨f.setRow line.toNat (overwritten (f.row ⟨line.toNat, hline⟩)
        (fun _ => .white) k), zero⟩)
      fun k hk => by
        rw [paint?_eq hline f _ _ hk, overwritten_succ (f.row _) fun _ => .white]
    rw [overwritten_zero, overwritten_all, hself] at hloop
    have hrow : lcd.tileRow view line = .ofFn fun _ => .white := by
      unfold Lcd.tileRow Lcd.tileShade
      simp only [if_neg hoff]
    have hzero : (Vector.ofFn fun x : Fin 160 => lcd.tileColour view line x == 0) =
        .replicate 160 true := by
      ext x hx
      simp [Lcd.tileColour, if_neg hoff]
    unfold noted
    rw [hrow, hzero]
    exact bind_of_eq_some hloop _

end Canvas

/-! ## Sprites -/

namespace Sprite

def ofView? (view : View) (i : Nat) : Option Sprite := do
  let base ← addWord? 0xfe00 (← mulWord? (UInt16.ofNat i) 4)
  let y ← spriteByte? view base
  let x ← spriteByte? view (← addWord? base 1)
  let tile ← spriteByte? view (← addWord? base 2)
  let attributes ← spriteByte? view (← addWord? base 3)
  some { y, x, tile, attributes }

def rowAddress? (s : Sprite) (height : Nat) (row : Int) : Option UInt16 := do
  let tile := if height = 16 then s.tile &&& 0xfe else s.tile
  let row ← word? (if s.flipsY then height - 1 - row else row)
  addWord? (← MapPoint.tileAddress? true tile) (← mulWord? row 2)

def pixelBit? (s : Sprite) (column : Nat) : Option UInt8 :=
  byte? (if s.flipsX then column else 7 - column)

theorem ofView?_eq (view : View) {i : Nat} (hi : i < count) :
    ofView? view i = some (ofView view i) := by
  have hcount : i < 40 := hi
  have hn : (UInt16.ofNat i).toNat = i := UInt16.toNat_ofNat_of_lt (Nat.lt_trans hi (by decide))
  -- The table ends before 0xfea0, so no address of it runs over.
  have hproduct : (UInt16.ofNat i).toNat * (4 : UInt16).toNat < 65536 := by
    simp only [hn, UInt16.reduceToNat]
    omega
  have hoffset : (UInt16.ofNat i * 4).toNat = i * 4 := by
    rw [toNat_mul_of_lt hproduct, hn]
    rfl
  have hsum : (0xfe00 : UInt16).toNat + (UInt16.ofNat i * 4).toNat < 65536 := by
    simp only [hoffset, UInt16.reduceToNat]
    omega
  have hbase : (0xfe00 + UInt16.ofNat i * 4).toNat = 0xfe00 + i * 4 := by
    rw [toNat_add_of_lt hsum, hoffset]
    rfl
  have hnext : ∀ k : UInt16, k.toNat < 4 →
      addWord? (0xfe00 + UInt16.ofNat i * 4) k = some (0xfe00 + UInt16.ofNat i * 4 + k) :=
    fun k hk => addWord?_eq (by omega)
  have hread : ∀ k : UInt16, k.toNat < 4 →
      spriteByte? view (0xfe00 + UInt16.ofNat i * 4 + k) =
        some (view (0xfe00 + UInt16.ofNat i * 4 + k)) := by
    intro k hk
    have hentry : (0xfe00 + UInt16.ofNat i * 4 + k).toNat = 0xfe00 + i * 4 + k.toNat := by
      rw [toNat_add_of_lt (by omega), hbase]
    refine if_pos ⟨?_, ?_⟩ <;>
      simp only [UInt16.le_iff_toNat_le, hentry, UInt16.reduceToNat] <;>
      omega
  have hfirst := hread 0 (by decide)
  rw [UInt16.add_zero] at hfirst
  rw [ofView?, bind_of_eq_some (mulWord?_eq hproduct), bind_of_eq_some (addWord?_eq hsum),
    bind_of_eq_some hfirst, bind_of_eq_some (hnext 1 (by decide)),
    bind_of_eq_some (hread 1 (by decide)), bind_of_eq_some (hnext 2 (by decide)),
    bind_of_eq_some (hread 2 (by decide)), bind_of_eq_some (hnext 3 (by decide)),
    bind_of_eq_some (hread 3 (by decide))]
  rfl

theorem rowAddress?_eq (s : Sprite) {height row : Nat} (hheight : height = 8 ∨ height = 16)
    (hrow : row < height) : s.rowAddress? height row = some (s.rowAddress height row) := by
  have hflip : (if s.flipsY then (height : Int) - 1 - row else row) =
      (if s.flipsY then height - 1 - row else row : Nat) := by
    split <;> omega
  have hplace : (if s.flipsY then height - 1 - row else row) < 16 := by split <;> omega
  have hword := UInt16.toNat_ofNat_of_lt (Nat.lt_trans hplace (by decide))
  unfold rowAddress?
  rw [hflip]
  dsimp only
  rw [bind_of_eq_some (word?_eq (congrArg Nat.cast hword.symm))]
  exact MapPoint.tileRow?_eq true _ (by rw [hword]; exact hplace)

theorem pixelBit?_eq (s : Sprite) {column : Nat} (h : column < 8) :
    s.pixelBit? column = some (s.pixelBit column) := by
  apply byte?_eq
  rw [s.toNat_pixelBit h]
  split <;> omega

theorem row?_eq_some {s : Sprite} {height row : Nat} {line : UInt8}
    (h : s.row? height line = some row) : (line.toNat : Int) - (s.y.toNat - 16) = row := by
  unfold row? at h
  split at h
  · injection h with h
    omega
  · contradiction

theorem row?_eq_none {s : Sprite} {height : Nat} {line : UInt8} (h : s.row? height line = none) :
    line.toNat < (s.y.toNat - 16 : Int) ∨ (s.y.toNat - 16 : Int) + height ≤ line.toNat := by
  unfold row? at h
  split at h
  · contradiction
  · omega

end Sprite

namespace Canvas

def drawColumn? (lcd : Lcd) (line : UInt8) (s : Sprite) (lo hi : UInt8) (c : Canvas)
    (column : Nat) : Option Canvas := do
  let x : Int := s.x.toNat - 8 + column
  if x < 0 ∨ 160 ≤ x then return c
  let index ← colourIndex? lo hi (← s.pixelBit? column)
  if index = 0 then return c
  if s.behind then
    let zero ← c.zero[x.toNat]?
    if !zero then return c
  c.paint? x.toNat line.toNat (← shade? (s.palette lcd) index)

def drawSprite? (lcd : Lcd) (view : View) (line : UInt8) (c : Canvas) (i : Nat) :
    Option Canvas := do
  let s ← Sprite.ofView? view i
  let top : Int := s.y.toNat - 16
  if line.toNat < top ∨ top + lcd.spriteHeight ≤ line.toNat then return c
  let (lo, hi) ← planes? view (← s.rowAddress? lcd.spriteHeight (line.toNat - top))
  (List.range 8).foldlM (drawColumn? lcd line s lo hi) c

variable {lcd : Lcd} {view : View} {line : UInt8} (s : Sprite) (lo hi : UInt8) (row : Row)

theorem paintColumn_of_outside {column : Nat}
    (h : s.x.toNat + column < 8 ∨ 168 ≤ s.x.toNat + column) :
    paintColumn lcd view line s lo hi row column = row := by
  unfold paintColumn
  dsimp only
  split
  · rfl
  · rename_i hpaints
    have hright : ¬ s.x.toNat + column < 8 := fun hleft => hpaints (by simp [hleft])
    exact Vector.setIfInBounds_eq_of_size_le (by omega)

theorem paintColumn_of_inside {column x : Nat} (h : s.x.toNat + column = x + 8) :
    paintColumn lcd view line s lo hi row column =
      let index := colourIndex lo hi (s.pixelBit column)
      if index = 0 ∨ s.behind = true ∧ lcd.tileColour view line x ≠ 0 then row
      else row.setIfInBounds x (.ofPalette (s.palette lcd) index) := by
  have hright : ¬ x + 8 < 8 := by omega
  unfold paintColumn
  rw [h, Nat.add_sub_cancel]
  simp [hright]

theorem drawColumn?_eq (hline : line < 144) (f : Frame) {column : Nat} (hcolumn : column < 8) :
    drawColumn? lcd line s lo hi (noted lcd view line f row) column =
      some (noted lcd view line f (paintColumn lcd view line s lo hi row column)) := by
  unfold drawColumn?
  by_cases hout : s.x.toNat + column < 8 ∨ 168 ≤ s.x.toNat + column
  · rw [paintColumn_of_outside s lo hi row hout]
    exact if_pos (by omega)
  · obtain ⟨x, hx⟩ : ∃ x, s.x.toNat + column = x + 8 := ⟨s.x.toNat + column - 8, by omega⟩
    have hlt : x < 160 := by omega
    have hx' : ((s.x.toNat : Int) - 8 + column).toNat = x := by omega
    have hbit := s.pixelBit_lt hcolumn
    have hpaint : ∀ shade, (noted lcd view line f row).paint? x line.toNat shade =
        some (noted lcd view line f (row.setIfInBounds x shade)) := fun shade =>
      paint?_eq hline f row _ hlt shade
    have hread : (noted lcd view line f row).zero[x]? = some (lcd.tileColour view line x == 0) := by
      unfold noted
      rw [Vector.getElem?_eq_getElem hlt, Vector.getElem_ofFn]
    rw [paintColumn_of_inside s lo hi row hx]
    dsimp only
    rw [if_neg (by omega), bind_of_eq_some (s.pixelBit?_eq hcolumn),
      bind_of_eq_some (colourIndex?_eq lo hi hbit), hx', bind_of_eq_some hread,
      bind_of_eq_some (shade?_eq _ (colourIndex_lt lo hi hbit)), hpaint]
    generalize colourIndex lo hi (s.pixelBit column) = index
    by_cases hindex : index = 0
    · simp [hindex]
    · cases s.behind <;> by_cases hground : lcd.tileColour view line x = 0 <;>
        simp [hindex, hground]

theorem drawColumns?_eq (hline : line < 144) (f : Frame) :
    (List.range 8).foldlM (drawColumn? lcd line s lo hi) (noted lcd view line f row) =
      some (noted lcd view line f (paintSprite lcd view line s lo hi row)) :=
  foldlM_range
    (fun k => noted lcd view line f ((List.range k).foldl (paintColumn lcd view line s lo hi) row))
    fun k hk => by
      rw [drawColumn?_eq s lo hi _ hline f hk, List.range_succ, List.foldl_append]
      rfl

theorem drawSprite?_eq (hline : line < 144) (f : Frame) {i : Nat} (hi : i < Sprite.count) :
    drawSprite? lcd view line (noted lcd view line f row) i =
      some (noted lcd view line f (paintEntry lcd view line row i)) := by
  unfold drawSprite? paintEntry
  rw [bind_of_eq_some (Sprite.ofView?_eq view hi)]
  dsimp only
  generalize Sprite.ofView view i = s
  cases hrow : s.row? lcd.spriteHeight line with
  | none =>
    rw [if_pos (Sprite.row?_eq_none hrow)]
    rfl
  | some k =>
    have hplace := Sprite.row?_eq_some hrow
    have hk := Sprite.row?_lt hrow
    obtain ⟨hlow, hhigh⟩ := s.rowAddress_bounds lcd.spriteHeight_eq hk
    rw [if_neg (by omega), hplace, bind_of_eq_some (s.rowAddress?_eq lcd.spriteHeight_eq hk),
      bind_of_eq_some (planes?_eq view hlow hhigh)]
    exact drawColumns?_eq s _ _ row hline f

/-! ## A line -/

/-- Draws a line in place. -/
def drawLine? (view : View) (line : UInt8) (c : Canvas) : Option Canvas := do
  let lcd := Lcd.ofView view
  let c ← c.drawTiles? lcd view line
  if lcd.spritesOn then (List.range Sprite.count).foldlM (drawSprite? lcd view line) c
  else some c

theorem drawLine?_eq (hline : line < 144) (c : Canvas) :
    drawLine? view line c =
      some (noted (Lcd.ofView view) view line c.drawing (renderLine view line)) := by
  unfold drawLine? renderLine
  dsimp only
  rw [bind_of_eq_some (drawTiles?_eq hline c)]
  split
  · exact foldlM_range
      (fun i => noted (Lcd.ofView view) view line c.drawing
        ((List.range i).foldl (paintEntry (Lcd.ofView view) view line)
          ((Lcd.ofView view).tileRow view line)))
      fun i hi => by
        rw [drawSprite?_eq _ hline c.drawing hi, List.range_succ, List.foldl_append]
        rfl
  · rfl

/-- For any contents of the address space and of the buffers no sum wraps but those with a scroll
register, no read is outside of what is drawn from and no index outside its buffer. What is drawn is
the row of `renderLine`, alike where what it is drawn from is alike, and the other rows stay. -/
theorem drawn_alike {v v' : View} (h : SameSource v v') {line : UInt8} (hline : line < 144)
    (c c' : Canvas) :
    ∃ d d', drawLine? v line c = some d ∧ drawLine? v' line c' = some d' ∧
      d.drawing = c.drawing.setRow line.toNat (renderLine v line) ∧
      d'.drawing = c'.drawing.setRow line.toNat (renderLine v' line) ∧
      d.drawing.row ⟨line.toNat, hline⟩ = d'.drawing.row ⟨line.toNat, hline⟩ ∧
      ∀ y : Fin 144, line.toNat ≠ y →
        d.drawing.row y = c.drawing.row y ∧ d'.drawing.row y = c'.drawing.row y := by
  refine ⟨_, _, drawLine?_eq hline c, drawLine?_eq hline c', rfl, rfl, ?_, fun y hy => ⟨?_, ?_⟩⟩
  · rw [renderLine_congr h line]
    exact (c.drawing.row_setRow_self ⟨line.toNat, hline⟩ _).trans
      (c'.drawing.row_setRow_self ⟨line.toNat, hline⟩ _).symm
  · exact c.drawing.row_setRow_of_ne _ hy
  · exact c'.drawing.row_setRow_of_ne _ hy

theorem drawn_alike_last_line :
    SameSource UInt16.toUInt8 (fun a => if 0xc000 ≤ a ∧ a < 0xe000 then 0 else a.toUInt8) ∧
      (143 : UInt8) < 144 ∧
      ∃ d d',
        drawLine? UInt16.toUInt8 143 ⟨.blank, .replicate 160 true⟩ = some d ∧
        drawLine? (fun a => if 0xc000 ≤ a ∧ a < 0xe000 then 0 else a.toUInt8) 143
          ⟨⟨.replicate 144 (.replicate 160 .black)⟩, .replicate 160 false⟩ = some d' ∧
        d.drawing.row 143 = d'.drawing.row 143 ∧
        d.drawing.row 142 = .replicate 160 .white ∧ d'.drawing.row 142 = .replicate 160 .black := by
  have hsame : SameSource UInt16.toUInt8
      (fun a => if 0xc000 ≤ a ∧ a < 0xe000 then 0 else a.toUInt8) := by
    intro a ha
    have hout : ¬ (0xc000 ≤ a ∧ a < 0xe000) := by grind [Source]
    exact (if_neg hout).symm
  have hline : (143 : UInt8) < 144 := by decide
  have hrow : ∀ shade, (Frame.mk (.replicate 144 (.replicate 160 shade))).row 142 =
      .replicate 160 shade := fun shade => Vector.getElem_replicate _
  obtain ⟨d, d', hd, hd', -, -, hlast, hother⟩ := drawn_alike hsame hline
    ⟨.blank, .replicate 160 true⟩ ⟨⟨.replicate 144 (.replicate 160 .black)⟩, .replicate 160 false⟩
  obtain ⟨hwhite, hblack⟩ := hother 142 (by decide)
  exact ⟨hsame, hline, d, d', hd, hd', hlast, hwhite.trans (hrow .white),
    hblack.trans (hrow .black)⟩

end Canvas

end Handheld.Picture
