import Handheld.Proofs.BusReads
import Handheld.Proofs.PixelLaw

/-!
# Scrolling

The background is a picture of 256 by 256 pixels that wraps around, and a line shows a part of it.
The scroll registers say which, and the window does not follow them.
-/

namespace Handheld

namespace Bus

def scrollTo (bus : Bus) (x y : UInt8) : Bus := (bus.write 0xff43 x).write 0xff42 y

theorem read_scrollTo_of_ne (bus : Bus) (x y : UInt8) {a : UInt16} (hx : a ≠ 0xff43)
    (hy : a ≠ 0xff42) : (bus.scrollTo x y).read a = bus.read a := by
  have htouchesX : ¬ Touches 0xff43 a := hx
  have htouchesY : ¬ Touches 0xff42 a := hy
  rw [scrollTo, read_write_of_not_touches _ _ htouchesY, read_write_of_not_touches _ _ htouchesX]

theorem read_scrollTo_scrollX (bus : Bus) (x y : UInt8) : (bus.scrollTo x y).read 0xff43 = x := by
  rw [scrollTo, read_write_of_not_touches _ _ (by decide)]
  exact read_write_self bus x (by decide) (by decide) (by decide) (by decide) (by decide)

theorem read_scrollTo_scrollY (bus : Bus) (x y : UInt8) : (bus.scrollTo x y).read 0xff42 = y :=
  read_write_self _ y (by decide) (by decide) (by decide) (by decide) (by decide)

end Bus

namespace Picture

/-! ## The registers -/

def Lcd.scrolled (lcd : Lcd) (x y : UInt8) : Lcd := { lcd with scrollX := x, scrollY := y }

theorem Lcd.ofView_scrollTo (bus : Bus) (x y : UInt8) :
    ofView (bus.scrollTo x y).read = (ofView bus.read).scrolled x y := by
  unfold ofView scrolled
  rw [bus.read_scrollTo_scrollX, bus.read_scrollTo_scrollY]
  simp (disch := decide) only [bus.read_scrollTo_of_ne x y]

theorem sameTiles_scrollTo (bus : Bus) (x y : UInt8) :
    SameTiles (bus.scrollTo x y).read bus.read := by
  intro a hlow hhigh
  apply bus.read_scrollTo_of_ne <;> grind

theorem sameSprites_scrollTo (bus : Bus) (x y : UInt8) :
    SameSprites (bus.scrollTo x y).read bus.read := by
  intro a hlow hhigh
  apply bus.read_scrollTo_of_ne <;> grind

/-! ## The background -/

namespace Lcd

variable {lcd : Lcd}

/-- The shade at a place of the background, white if it is off. -/
def backgroundShade (lcd : Lcd) (view : View) (x y : UInt8) : Shade :=
  if lcd.tilesOn then
    .ofPalette lcd.backgroundPalette
      ((MapPoint.mk lcd.backgroundMap x y).colour lcd.unsignedTiles view)
  else .white

theorem backgroundShade_congr {v v' : View} (h : SameTiles v v') (lcd : Lcd) (x y : UInt8) :
    lcd.backgroundShade v x y = lcd.backgroundShade v' x y := by
  have hmap : lcd.backgroundMap = 0x9800 ∨ lcd.backgroundMap = 0x9c00 := by
    unfold backgroundMap
    split <;> simp
  unfold backgroundShade
  rw [MapPoint.colour_congr h _ hmap]

theorem tileShade_of_window_off (hwindow : lcd.windowOn = false) (view : View) (line : UInt8)
    (x : Nat) :
    lcd.tileShade view line x =
      lcd.backgroundShade view (UInt8.ofNat x + lcd.scrollX) (line + lcd.scrollY) := by
  have hout : lcd.inWindow line x = false := by
    unfold inWindow
    rw [hwindow]
    rfl
  unfold tileShade tileColour backgroundShade pointAt
  rw [hout]
  split <;> rfl

end Lcd

theorem getElem_renderLine_of_sprites_off {view : View}
    (hsprites : (Lcd.ofView view).spritesOn = false) (line : UInt8) {x : Nat} (hx : x < 160) :
    (renderLine view line)[x] = (Lcd.ofView view).tileShade view line x := by
  unfold renderLine
  dsimp only
  rw [hsprites]
  exact Vector.getElem_ofFn ..

theorem getElem_renderLine_scrollTo {bus : Bus}
    (hsprites : (Lcd.ofView bus.read).spritesOn = false)
    (hwindow : (Lcd.ofView bus.read).windowOn = false) (s t line : UInt8) {x : Nat} (hx : x < 160) :
    (renderLine (bus.scrollTo s t).read line)[x] =
      (Lcd.ofView bus.read).backgroundShade bus.read (UInt8.ofNat x + s) (line + t) := by
  have hlcd := Lcd.ofView_scrollTo bus s t
  have hsprites' : (Lcd.ofView (bus.scrollTo s t).read).spritesOn = false := by
    rw [hlcd]
    exact hsprites
  have hwindow' : ((Lcd.ofView bus.read).scrolled s t).windowOn = false := hwindow
  rw [getElem_renderLine_of_sprites_off hsprites' line hx, hlcd,
    Lcd.tileShade_of_window_off hwindow']
  exact Lcd.backgroundShade_congr (sameTiles_scrollTo bus s t) _ _ _

/-! ## The window -/

theorem getElem_foldl_congr {α : Type} {paint paint' : Row → α → Row} {x : Nat} (hx : x < 160)
    {items : List α}
    (hpaint : ∀ a ∈ items, ∀ p p' : Row, p[x] = p'[x] → (paint p a)[x] = (paint' p' a)[x])
    {p p' : Row} (h : p[x] = p'[x]) : (items.foldl paint p)[x] = (items.foldl paint' p')[x] := by
  induction items generalizing p p' with
  | nil => exact h
  | cons a items ih =>
    obtain ⟨hfirst, hrest⟩ := List.forall_mem_cons.1 hpaint
    exact ih hrest (hfirst p p' h)

section Window

variable {v v' : View} (htiles : SameTiles v v') (hsprites : SameSprites v v') {lcd : Lcd}
  {sx sy line : UInt8} {x : Nat} (hx : x < 160)

include htiles hsprites

theorem getElem_paintEntry_congr
    (hground : lcd.tileColour v line x = (lcd.scrolled sx sy).tileColour v' line x) {i : Nat}
    (hi : i < Sprite.count) {p p' : Row} (h : p[x] = p'[x]) :
    (paintEntry lcd v line p i)[x] = (paintEntry (lcd.scrolled sx sy) v' line p' i)[x] := by
  have hheight : (lcd.scrolled sx sy).spriteHeight = lcd.spriteHeight := rfl
  unfold paintEntry
  rw [Sprite.ofView_congr hsprites hi, hheight]
  dsimp only
  split
  · exact h
  · rename_i row hrow
    have hb := (Sprite.ofView v' i).rowAddress_bounds lcd.spriteHeight_eq (Sprite.row?_lt hrow)
    obtain ⟨hlo, hhi⟩ := htiles.planes hb.1 hb.2
    rw [hlo, hhi]
    refine (getElem_paintSprite _ _ _ _ _ _ p ⟨x, hx⟩).trans
      (Eq.trans ?_ (getElem_paintSprite _ _ _ _ _ _ p' ⟨x, hx⟩).symm)
    refine if_congr (and_congr_right fun _ => ?_) rfl h
    unfold PaintsAt
    rw [hground]

/-- A pixel that shows the same place whatever the scroll offsets is drawn alike. -/
theorem getElem_renderLine_congr (hlcd : Lcd.ofView v' = (Lcd.ofView v).scrolled sx sy)
    (hpoint : (Lcd.ofView v').pointAt line x = (Lcd.ofView v).pointAt line x) :
    (renderLine v line)[x] = (renderLine v' line)[x] := by
  have hcolour : (Lcd.ofView v).tileColour v line x = (Lcd.ofView v').tileColour v' line x := by
    rw [Lcd.tileColour_congr htiles]
    unfold Lcd.tileColour
    rw [hpoint, hlcd]
    rfl
  have hrow : ((Lcd.ofView v).tileRow v line)[x] = ((Lcd.ofView v').tileRow v' line)[x] := by
    simp only [Lcd.tileRow, Lcd.tileShade, Vector.getElem_ofFn, hcolour, hlcd]
    rfl
  unfold renderLine
  dsimp only
  rw [hlcd] at hrow hcolour ⊢
  have hspritesOn : ((Lcd.ofView v).scrolled sx sy).spritesOn = (Lcd.ofView v).spritesOn := rfl
  rw [hspritesOn]
  split
  · refine getElem_foldl_congr hx (fun i hi p p' h => ?_) hrow
    exact getElem_paintEntry_congr htiles hsprites hx hcolour (List.mem_range.1 hi) h
  · exact hrow

end Window

theorem getElem_renderLine_of_inWindow {bus : Bus} {line : UInt8} {x : Nat} (hx : x < 160)
    (hin : (Lcd.ofView bus.read).inWindow line x = true) (s t : UInt8) :
    (renderLine (bus.scrollTo s t).read line)[x] = (renderLine bus.read line)[x] := by
  have hlcd := Lcd.ofView_scrollTo bus s t
  have hin' : (Lcd.ofView (bus.scrollTo s t).read).inWindow line x = true := by
    rw [hlcd]
    exact hin
  refine (getElem_renderLine_congr (fun a hlow hhigh => ?_) (fun a hlow hhigh => ?_) hx hlcd
    ?_).symm
  · exact (sameTiles_scrollTo bus s t a hlow hhigh).symm
  · exact (sameSprites_scrollTo bus s t a hlow hhigh).symm
  · unfold Lcd.pointAt
    rw [if_pos hin', if_pos hin, hlcd]
    rfl

/-! ## Both -/

/-- With sprites and window off, a line that is scrolled further shows what was as much further to
the right and down, and every pixel is one of a picture that wraps around. The pixels inside the
window are the same whatever the scroll offsets. -/
theorem scrolled_pixels (bus : Bus) :
    (bit (bus.read 0xff40) 1 = false → bit (bus.read 0xff40) 5 = false →
      (∀ (s t : UInt8) (line x i j : Nat) (_ : x + i < 160), line + j < 144 →
        (renderLine (bus.scrollTo (s + UInt8.ofNat i) (t + UInt8.ofNat j)).read
            (UInt8.ofNat line))[x] =
          (renderLine (bus.scrollTo s t).read (UInt8.ofNat (line + j)))[x + i]) ∧
        ∃ torus : UInt8 → UInt8 → Shade, ∀ (s t : UInt8) (line x : Nat) (_ : x < 160), line < 144 →
          (renderLine (bus.scrollTo s t).read (UInt8.ofNat line))[x] =
            torus (UInt8.ofNat x + s) (UInt8.ofNat line + t)) ∧
      (bit (bus.read 0xff40) 5 = true → ∀ (s t : UInt8) (line x : Nat) (_ : x < 160), line < 144 →
        bus.read 0xff4a ≤ UInt8.ofNat line → (bus.read 0xff4b).toNat ≤ x + 7 →
          (renderLine (bus.scrollTo s t).read (UInt8.ofNat line))[x] =
            (renderLine bus.read (UInt8.ofNat line))[x]) := by
  refine ⟨fun hsprites hwindow => ⟨?_, ?_⟩, ?_⟩
  · intro s t line x i j hx _
    rw [getElem_renderLine_scrollTo hsprites hwindow _ _ _ (by omega),
      getElem_renderLine_scrollTo hsprites hwindow _ _ _ hx, UInt8.ofNat_add, UInt8.ofNat_add]
    congr 1 <;> ac_rfl
  · exact ⟨(Lcd.ofView bus.read).backgroundShade bus.read, fun s t line x hx _ =>
      getElem_renderLine_scrollTo hsprites hwindow s t _ hx⟩
  · intro hwindow s t line x hx _ hy hleft
    have hin : (Lcd.ofView bus.read).inWindow (UInt8.ofNat line) x = true := by
      unfold Lcd.inWindow
      rw [Bool.and_eq_true, Bool.and_eq_true, decide_eq_true_iff, decide_eq_true_iff]
      exact ⟨⟨hwindow, hy⟩, hleft⟩
    exact getElem_renderLine_of_inWindow hx hin s t

theorem scrolled_pixels_past_the_edge :
    let background := (default : Bus).write 0xff40 0x91
    let window := (default : Bus).write 0xff40 0xb1
    bit (background.read 0xff40) 1 = false ∧ bit (background.read 0xff40) 5 = false ∧
      (renderLine (background.scrollTo (250 + 20) (251 + 7)).read 5)[10] =
        (renderLine (background.scrollTo 250 251).read 12)[30] ∧
      bit (window.read 0xff40) 5 = true ∧ window.read 0xff4a ≤ 5 ∧
      (window.read 0xff4b).toNat ≤ 10 + 7 ∧
      (renderLine (window.scrollTo 250 251).read 5)[10] = (renderLine window.read 5)[10] := by
  intro background window
  have hwritten : ∀ v, ((default : Bus).write 0xff40 v).read 0xff40 = v := fun v =>
    Bus.read_write_self _ v (by decide) (by decide) (by decide) (by decide) (by decide)
  have hzero : ∀ v, ((default : Bus).write 0xff40 v).read 0xff4a = 0 ∧
      ((default : Bus).write 0xff40 v).read 0xff4b = 0 := by
    intro v
    have hcell : ∀ a, (default : Bus).cells.get a = 0 := fun a => Cells.get_ofFn (fun _ => 0) a
    rw [Bus.read_write_of_not_touches _ _ (by decide),
      Bus.read_write_of_not_touches _ _ (by decide), Bus.read_eq_cell _ (by decide),
      Bus.read_eq_cell _ (by decide), hcell, hcell]
    exact ⟨rfl, rfl⟩
  have hsprites : bit (background.read 0xff40) 1 = false := by
    rw [hwritten]
    rfl
  have hoff : bit (background.read 0xff40) 5 = false := by
    rw [hwritten]
    rfl
  have hon : bit (window.read 0xff40) 5 = true := by
    rw [hwritten]
    rfl
  have hy : window.read 0xff4a ≤ 5 := by
    rw [(hzero _).1]
    decide
  have hx : (window.read 0xff4b).toNat ≤ 10 + 7 := by
    rw [(hzero _).2]
    decide
  exact ⟨hsprites, hoff,
    ((scrolled_pixels background).1 hsprites hoff).1 250 251 5 10 20 7 (by decide) (by decide), hon,
    hy, hx, (scrolled_pixels window).2 hon 250 251 5 10 (by decide) (by decide) hy hx⟩

end Picture

end Handheld
