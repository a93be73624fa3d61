import Handheld.Picture.Scanline
import Mathlib.Data.List.Basic

/-!
# What a picture is drawn from

A line depends on the tiles and maps, the sprite table and eight registers, and on nothing else
that the address space reads.
-/

namespace Handheld.Picture

/-- The addresses that a picture is drawn from. -/
def Source (a : UInt16) : Prop :=
  (0x8000 ≤ a ∧ a < 0xa000) ∨ (0xfe00 ≤ a ∧ a < 0xfea0) ∨
    a = 0xff40 ∨ a = 0xff42 ∨ a = 0xff43 ∨ (0xff47 ≤ a ∧ a ≤ 0xff4b)

/-- Two views that show the same wherever a picture is drawn from. -/
def SameSource (v v' : View) : Prop := ∀ a, Source a → v a = v' a

def SameTiles (v v' : View) : Prop := ∀ a, 0x8000 ≤ a → a < 0xa000 → v a = v' a

def SameSprites (v v' : View) : Prop := ∀ a, 0xfe00 ≤ a → a < 0xfea0 → v a = v' a

theorem SameSource.tiles {v v' : View} (h : SameSource v v') : SameTiles v v' :=
  fun a hlow hhigh => h a (Or.inl ⟨hlow, hhigh⟩)

theorem SameSource.sprites {v v' : View} (h : SameSource v v') : SameSprites v v' :=
  fun a hlow hhigh => h a (Or.inr (Or.inl ⟨hlow, hhigh⟩))

theorem SameTiles.planes {v v' : View} (h : SameTiles v v') {a : UInt16}
    (hlow : 0x8000 ≤ a.toNat) (hhigh : a.toNat < 0x9fff) : v a = v' a ∧ v (a + 1) = v' (a + 1) := by
  refine ⟨h a ?_ ?_, h (a + 1) ?_ ?_⟩ <;>
    simp only [UInt16.le_iff_toNat_le, UInt16.lt_iff_toNat_lt, UInt16.toNat_add,
      UInt16.reduceToNat] <;>
    omega

/-! ## Background and window -/

theorem Lcd.ofView_congr {v v' : View} (h : SameSource v v') : ofView v = ofView v' := by
  unfold ofView
  rw [h 0xff40 (by simp [Source]), h 0xff42 (by simp [Source]), h 0xff43 (by simp [Source]),
    h 0xff47 (by simp [Source]), h 0xff48 (by simp [Source]), h 0xff49 (by simp [Source]),
    h 0xff4a (by simp [Source]), h 0xff4b (by simp [Source])]

namespace MapPoint

theorem tileNumberAddress_bounds (p : MapPoint) (h : p.map = 0x9800 ∨ p.map = 0x9c00) :
    0x9800 ≤ p.tileNumberAddress ∧ p.tileNumberAddress < 0xa000 := by
  have hy := p.y.toNat_lt
  have hx := p.x.toNat_lt
  rw [UInt16.le_iff_toNat_le, UInt16.lt_iff_toNat_lt]
  rcases h with h | h <;>
    simp only [tileNumberAddress, h, UInt16.toNat_add, UInt16.toNat_mul, UInt8.toNat_toUInt16,
      UInt8.toNat_div, UInt8.reduceToNat, UInt16.reduceToNat] <;>
    omega

theorem tileAddress_bounds (unsigned : Bool) (tile : UInt8) :
    0x8000 ≤ (tileAddress unsigned tile).toNat ∧ (tileAddress unsigned tile).toNat ≤ 0x97f0 := by
  have ht := tile.toNat_lt
  unfold tileAddress signExtend
  split
  · simp only [UInt16.toNat_add, UInt16.toNat_mul, UInt8.toNat_toUInt16, UInt16.reduceToNat]
    omega
  · split <;> rename_i h <;> simp only [UInt8.lt_iff_toNat_lt, UInt8.reduceToNat] at h <;>
      simp only [UInt16.toNat_add, UInt16.toNat_mul, UInt8.toNat_toUInt16, UInt16.reduceToNat] <;>
      omega

theorem rowAddress_bounds (p : MapPoint) (unsigned : Bool) (tile : UInt8) :
    0x8000 ≤ (p.rowAddress unsigned tile).toNat ∧
      (p.rowAddress unsigned tile).toNat < 0x9800 - 1 := by
  have := tileAddress_bounds unsigned tile
  simp only [rowAddress, UInt16.toNat_add, UInt16.toNat_mul, UInt8.toNat_toUInt16,
    UInt8.toNat_mod, UInt8.reduceToNat, UInt16.reduceToNat]
  omega

theorem colour_congr {v v' : View} (h : SameTiles v v') (p : MapPoint)
    (hmap : p.map = 0x9800 ∨ p.map = 0x9c00) (unsigned : Bool) :
    p.colour unsigned v = p.colour unsigned v' := by
  obtain ⟨hlow, hhigh⟩ := p.tileNumberAddress_bounds hmap
  have hnumber : v p.tileNumberAddress = v' p.tileNumberAddress :=
    h _ (UInt16.le_trans (by decide) hlow) hhigh
  have hrow := p.rowAddress_bounds unsigned (v' p.tileNumberAddress)
  obtain ⟨hlo, hhi⟩ := h.planes hrow.1 (by omega)
  simp only [colour, hnumber, hlo, hhi]

end MapPoint

namespace Lcd

theorem pointAt_map (lcd : Lcd) (line : UInt8) (x : Nat) :
    (lcd.pointAt line x).map = 0x9800 ∨ (lcd.pointAt line x).map = 0x9c00 := by
  unfold pointAt
  split
  · unfold windowMap
    split <;> simp
  · unfold backgroundMap
    split <;> simp

theorem tileColour_congr {v v' : View} (h : SameTiles v v') (lcd : Lcd) (line : UInt8) (x : Nat) :
    lcd.tileColour v line x = lcd.tileColour v' line x := by
  unfold tileColour
  rw [MapPoint.colour_congr h _ (lcd.pointAt_map line x)]

theorem tileRow_congr {v v' : View} (h : SameTiles v v') (lcd : Lcd) (line : UInt8) :
    lcd.tileRow v line = lcd.tileRow v' line := by
  unfold tileRow tileShade
  simp only [tileColour_congr h]

theorem spriteHeight_eq (lcd : Lcd) : lcd.spriteHeight = 8 ∨ lcd.spriteHeight = 16 := by
  unfold spriteHeight
  split <;> simp

end Lcd

/-! ## Sprites -/

namespace Sprite

theorem ofView_congr {v v' : View} (h : SameSprites v v') {i : Nat} (hi : i < count) :
    ofView v i = ofView v' i := by
  have hn : (UInt16.ofNat i).toNat = i := UInt16.toNat_ofNat_of_lt (Nat.lt_trans hi (by decide))
  have hcount : i < 40 := hi
  have entry : ∀ k : UInt16, k.toNat < 4 →
      v (0xfe00 + UInt16.ofNat i * 4 + k) = v' (0xfe00 + UInt16.ofNat i * 4 + k) := by
    intro k hk
    refine h _ ?_ ?_ <;>
      simp only [UInt16.le_iff_toNat_le, UInt16.lt_iff_toNat_lt, UInt16.toNat_add, UInt16.toNat_mul,
        hn, UInt16.reduceToNat] <;>
      omega
  have h0 := entry 0 (by decide)
  rw [UInt16.add_zero] at h0
  simp only [ofView, h0, entry 1 (by decide), entry 2 (by decide), entry 3 (by decide)]

theorem row?_lt {s : Sprite} {height : Nat} {line : UInt8} {row : Nat}
    (h : s.row? height line = some row) : row < height := by
  unfold row? at h
  split at h
  · injection h with h
    omega
  · contradiction

theorem rowAddress_bounds (s : Sprite) {height row : Nat} (hheight : height = 8 ∨ height = 16)
    (hrow : row < height) :
    0x8000 ≤ (s.rowAddress height row).toNat ∧ (s.rowAddress height row).toNat < 0x9fff := by
  have ht := s.tile.toNat_lt
  have hmask : (s.tile &&& 0xfe).toNat ≤ s.tile.toNat := by
    rw [UInt8.toNat_and]
    exact Nat.and_le_left
  have hrow' : (UInt16.ofNat (if s.flipsY then height - 1 - row else row)).toNat < 16 := by
    rw [UInt16.toNat_ofNat']
    split <;> omega
  unfold rowAddress
  dsimp only
  split <;> simp only [UInt16.toNat_add, UInt16.toNat_mul, UInt8.toNat_toUInt16,
      UInt16.reduceToNat] <;> omega

end Sprite

theorem paintSprite_congr {v v' : View} (h : SameTiles v v') (lcd : Lcd) (line : UInt8)
    (s : Sprite) (lo hi : UInt8) (pixels : Row) :
    paintSprite lcd v line s lo hi pixels = paintSprite lcd v' line s lo hi pixels := by
  simp only [paintSprite, Lcd.tileColour_congr h]

theorem paintEntry_congr {v v' : View} (h : SameSource v v') (lcd : Lcd) (line : UInt8)
    (pixels : Row) {i : Nat} (hi : i < Sprite.count) :
    paintEntry lcd v line pixels i = paintEntry lcd v' line pixels i := by
  unfold paintEntry
  rw [Sprite.ofView_congr h.sprites hi]
  dsimp only
  split
  · rfl
  · rename_i row hrow
    have hb := (Sprite.ofView v' i).rowAddress_bounds lcd.spriteHeight_eq (Sprite.row?_lt hrow)
    obtain ⟨hlo, hhi⟩ := h.tiles.planes hb.1 hb.2
    rw [hlo, hhi, paintSprite_congr h.tiles]

theorem renderLine_congr {v v' : View} (h : SameSource v v') (line : UInt8) :
    renderLine v line = renderLine v' line := by
  unfold renderLine
  dsimp only
  rw [Lcd.ofView_congr h, Lcd.tileRow_congr h.tiles]
  split
  · apply List.foldl_ext
    intro pixels i hi
    exact paintEntry_congr h _ _ _ (List.mem_range.1 hi)
  · rfl

end Handheld.Picture
