import Handheld.Picture.Frame
import Handheld.Word

/-!
# Drawing a line

A row of pixels is the background, or the window over it, and then the sprites painted on top in
the order of their table. All of it depends on nothing but what the address space reads.
-/

namespace Handheld.Picture

/-- The registers that say how a line is drawn. -/
structure Lcd where
  control : UInt8
  scrollY : UInt8
  scrollX : UInt8
  windowY : UInt8
  /-- The window's left edge, plus 7. -/
  windowX : UInt8
  backgroundPalette : UInt8
  spritePalette0 : UInt8
  spritePalette1 : UInt8
deriving Repr, DecidableEq, Inhabited

namespace Lcd

def ofView (view : View) : Lcd :=
  { control := view 0xff40
    scrollY := view 0xff42
    scrollX := view 0xff43
    windowY := view 0xff4a
    windowX := view 0xff4b
    backgroundPalette := view 0xff47
    spritePalette0 := view 0xff48
    spritePalette1 := view 0xff49 }

def tilesOn (lcd : Lcd) : Bool := bit lcd.control 0
def spritesOn (lcd : Lcd) : Bool := bit lcd.control 1
def tallSprites (lcd : Lcd) : Bool := bit lcd.control 2

def backgroundMap (lcd : Lcd) : UInt16 := if bit lcd.control 3 then 0x9c00 else 0x9800

/-- Tile numbers count from 0x8000. Otherwise they are signed and count from 0x9000. -/
def unsignedTiles (lcd : Lcd) : Bool := bit lcd.control 4

def windowOn (lcd : Lcd) : Bool := bit lcd.control 5

def windowMap (lcd : Lcd) : UInt16 := if bit lcd.control 6 then 0x9c00 else 0x9800

def spriteHeight (lcd : Lcd) : Nat := if lcd.tallSprites then 16 else 8

def inWindow (lcd : Lcd) (line : UInt8) (x : Nat) : Bool :=
  lcd.windowOn && lcd.windowY ≤ line && lcd.windowX.toNat ≤ x + 7

end Lcd

/-- Two bit planes give the colour index of pixel `i`, of which pixel 7 is the leftmost. -/
def colourIndex (lo hi : UInt8) (i : UInt8) : UInt8 :=
  ((hi >>> i) &&& 1) * 2 + ((lo >>> i) &&& 1)

/-! ## Background and window -/

/-- A place on a tile map of 256 by 256 pixels. -/
structure MapPoint where
  map : UInt16
  x : UInt8
  y : UInt8
deriving Repr, DecidableEq, Inhabited

namespace MapPoint

/-- Where the number of the tile under the point is. -/
def tileNumberAddress (p : MapPoint) : UInt16 :=
  p.map + (p.y / 8).toUInt16 * 32 + (p.x / 8).toUInt16

def tileAddress (unsigned : Bool) (tile : UInt8) : UInt16 :=
  if unsigned then 0x8000 + tile.toUInt16 * 16 else 0x9000 + signExtend tile * 16

/-- Where the two bytes of the pixel row under the point are. -/
def rowAddress (p : MapPoint) (unsigned : Bool) (tile : UInt8) : UInt16 :=
  tileAddress unsigned tile + (p.y % 8).toUInt16 * 2

def colour (p : MapPoint) (unsigned : Bool) (view : View) : UInt8 :=
  let address := p.rowAddress unsigned (view p.tileNumberAddress)
  colourIndex (view address) (view (address + 1)) (7 - p.x % 8)

end MapPoint

/-- The place that a pixel shows: the window where it covers the pixel, else the background, which
is scrolled and wraps around. -/
def Lcd.pointAt (lcd : Lcd) (line : UInt8) (x : Nat) : MapPoint :=
  if lcd.inWindow line x then
    { map := lcd.windowMap
      x := UInt8.ofNat (x + 7 - lcd.windowX.toNat)
      y := line - lcd.windowY }
  else
    { map := lcd.backgroundMap
      x := UInt8.ofNat x + lcd.scrollX
      y := line + lcd.scrollY }

/-- The colour index of background or window at a pixel, 0 if they are off. -/
def Lcd.tileColour (lcd : Lcd) (view : View) (line : UInt8) (x : Nat) : UInt8 :=
  if lcd.tilesOn then (lcd.pointAt line x).colour lcd.unsignedTiles view else 0

/-- The shade of background or window at a pixel, white if they are off. -/
def Lcd.tileShade (lcd : Lcd) (view : View) (line : UInt8) (x : Nat) : Shade :=
  if lcd.tilesOn then .ofPalette lcd.backgroundPalette (lcd.tileColour view line x) else .white

def Lcd.tileRow (lcd : Lcd) (view : View) (line : UInt8) : Row :=
  Vector.ofFn fun x => lcd.tileShade view line x.val

/-! ## Sprites -/

structure Sprite where
  /-- The top edge, plus 16. -/
  y : UInt8
  /-- The left edge, plus 8. -/
  x : UInt8
  tile : UInt8
  attributes : UInt8
deriving Repr, DecidableEq, Inhabited

namespace Sprite

def count : Nat := 40

def ofView (view : View) (i : Nat) : Sprite :=
  let base : UInt16 := 0xfe00 + UInt16.ofNat i * 4
  { y := view base
    x := view (base + 1)
    tile := view (base + 2)
    attributes := view (base + 3) }

/-- Shows only over colour index 0. -/
def behind (s : Sprite) : Bool := bit s.attributes 7
def flipsY (s : Sprite) : Bool := bit s.attributes 6
def flipsX (s : Sprite) : Bool := bit s.attributes 5

def palette (s : Sprite) (lcd : Lcd) : UInt8 :=
  if bit s.attributes 4 then lcd.spritePalette1 else lcd.spritePalette0

/-- The row of the sprite that a line shows, counted from its top. -/
def row? (s : Sprite) (height : Nat) (line : UInt8) : Option Nat :=
  if s.y.toNat ≤ line.toNat + 16 ∧ line.toNat + 16 < s.y.toNat + height then
    some (line.toNat + 16 - s.y.toNat)
  else none

/-- Where the two bytes of a row of the sprite are. A tall sprite is two tiles, the first of even
number. -/
def rowAddress (s : Sprite) (height row : Nat) : UInt16 :=
  let tile := if height = 16 then s.tile &&& 0xfe else s.tile
  let row := if s.flipsY then height - 1 - row else row
  0x8000 + tile.toUInt16 * 16 + UInt16.ofNat row * 2

/-- The bit of a row of the sprite that its column shows. -/
def pixelBit (s : Sprite) (column : Nat) : UInt8 :=
  if s.flipsX then UInt8.ofNat column else 7 - UInt8.ofNat column

end Sprite

/-- Paints a row of a sprite, given as two bit planes, on a line. Index 0 is transparent, and so is
all of a sprite behind a background that is not 0. -/
def paintSprite (lcd : Lcd) (view : View) (line : UInt8) (s : Sprite) (lo hi : UInt8)
    (pixels : Row) : Row :=
  (List.range 8).foldl (fun pixels column =>
    let index := colourIndex lo hi (s.pixelBit column)
    let x := s.x.toNat + column - 8
    if s.x.toNat + column < 8 || index == 0 ||
        (s.behind && lcd.tileColour view line x != 0) then pixels
    else pixels.setIfInBounds x (.ofPalette (s.palette lcd) index)) pixels

/-- Paints entry `i` of the sprite table on a line, if it is on that line. -/
def paintEntry (lcd : Lcd) (view : View) (line : UInt8) (pixels : Row) (i : Nat) : Row :=
  let s := Sprite.ofView view i
  match s.row? lcd.spriteHeight line with
  | none => pixels
  | some row =>
    let address := s.rowAddress lcd.spriteHeight row
    paintSprite lcd view line s (view address) (view (address + 1)) pixels

def renderLine (view : View) (line : UInt8) : Row :=
  let lcd := Lcd.ofView view
  let pixels := lcd.tileRow view line
  if lcd.spritesOn then (List.range Sprite.count).foldl (paintEntry lcd view line) pixels
  else pixels

end Handheld.Picture
