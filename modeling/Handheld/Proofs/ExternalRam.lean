import Handheld.Proofs.ControllerCalls

/-!
# External RAM

Behind its gate a controller holds bytes in banks. A read gives what was last written to the same
place of the same bank, whatever was called in between.
-/

namespace Handheld.Cartridge

theorem toNat_and_0x1fff (a : UInt16) : (a &&& 0x1fff).toNat = a.toNat % 0x2000 :=
  Nat.and_two_pow_sub_one_eq_mod a.toNat 13

theorem toNat_and_0x1ff (a : UInt16) : (a &&& 0x1ff).toNat = a.toNat % 512 :=
  Nat.and_two_pow_sub_one_eq_mod a.toNat 9

namespace Ram

theorem offset_of_lt (bank : Nat) {place : UInt16} (h : place.toNat < 0x2000) :
    offset bank place = bank * 0x2000 + place.toNat := by
  unfold offset bankSize
  omega

theorem offset_and (bank : Nat) (a : UInt16) : offset bank (a &&& 0x1fff) = offset bank a := by
  unfold offset bankSize
  rw [toNat_and_0x1fff, Nat.mod_mod]

theorem write_and (ram : Ram) (bank : Nat) (a : UInt16) (v : UInt8) :
    ram.write bank (a &&& 0x1fff) v = ram.write bank a v := by
  unfold write
  rw [offset_and]

theorem write_of_size_le {ram : Ram} {bank : Nat} {a : UInt16}
    (h : ram.cells.size ≤ offset bank a) (v : UInt8) : ram.write bank a v = ram := by
  unfold write
  rw [Array.setIfInBounds, dif_neg (Nat.not_lt.2 h)]

theorem cell_of_size_le (ram : Ram) {i : Nat} (h : ram.cells.size ≤ i) : ram.cell i = 0 := by
  unfold cell
  simp [Array.getD_eq_getD_getElem?, h]

end Ram

structure RamCell where
  bank : Nat
  place : UInt16
deriving Repr, DecidableEq

theorem RamCell.offset_inj {cell cell' : RamCell} (h : cell.place.toNat < 0x2000)
    (h' : cell'.place.toNat < 0x2000) :
    Ram.offset cell.bank cell.place = Ram.offset cell'.bank cell'.place ↔ cell = cell' := by
  obtain ⟨bank, place⟩ := cell
  obtain ⟨bank', place'⟩ := cell'
  dsimp only at h h' ⊢
  rw [Ram.offset_of_lt bank h, Ram.offset_of_lt bank' h']
  constructor
  · intro heq
    have hbank : bank = bank' := by omega
    have hplace : place = place' := UInt16.toNat_inj.1 (by omega)
    rw [hbank, hplace]
  · rintro ⟨⟩
    rfl

namespace Kind

/-- Where an address of the RAM window lies in its bank. -/
def place (kind : Kind) (address : UInt16) : UInt16 :=
  match kind with
  | mbc2 => address &&& 0x1ff
  | _ => address &&& 0x1fff

/-- The bits of a byte that a cell keeps. -/
def keeps (kind : Kind) (v : UInt8) : UInt8 :=
  match kind with
  | mbc2 => v &&& 0x0f
  | _ => v

/-- What a byte of a cell reads as. -/
def fills (kind : Kind) (v : UInt8) : UInt8 :=
  match kind with
  | mbc2 => v ||| 0xf0
  | _ => v

/-- The number of cells, which an MBC2 does not leave to the cartridge. -/
def ramCells (kind : Kind) (ramSize : Nat) : Nat :=
  match kind with
  | mbc2 => 512
  | _ => ramSize

/-- What a cell reads as that was last written with `last`, or never. -/
def shows (kind : Kind) (ramSize : Nat) (cell : RamCell) (last : Option UInt8) : UInt8 :=
  match kind with
  | mbc2 => last.getD 0 &&& 0x0f ||| 0xf0
  | _ => if cell.bank * 0x2000 + cell.place.toNat < ramSize then last.getD 0 else 0

theorem toNat_place_lt (kind : Kind) (address : UInt16) : (kind.place address).toNat < 0x2000 := by
  have h := toNat_and_0x1fff address
  have h' := toNat_and_0x1ff address
  cases kind <;> simp only [place] <;> omega

end Kind

theorem Mbc2.offset_and (a : UInt16) : Ram.offset 0 (a &&& 0x1ff) = (cellOf a).val := by
  have hplace := toNat_and_0x1ff a
  rw [Ram.offset_of_lt 0 (by omega), hplace, Nat.zero_mul, Nat.zero_add]
  rfl

namespace Controller

/-! ## What a call stores -/

def gateOpen : Controller → Bool
  | unbanked _ => true
  | mbc1 c => c.ramOpen
  | mbc2 c => c.ramOpen
  | mbc3 c => c.ramOpen

/-- The RAM bank in the window, unless that shows something else. -/
def ramBank? : Controller → Option Nat
  | unbanked _ => some 0
  | mbc1 c => some c.ramBank.toNat
  | mbc2 _ => some 0
  | mbc3 c => if c.select < 4 then some c.select.toNat else none

def ram : Controller → Ram
  | unbanked c => c.ram
  | mbc1 c => c.ram
  | mbc2 c => ⟨c.ram.toArray⟩
  | mbc3 c => c.ram

/-- The cell behind an address, if the gate is open and a RAM bank is in the window. -/
def cell? (c : Controller) (address : UInt16) : Option RamCell :=
  if c.gateOpen then c.ramBank?.map fun bank => ⟨bank, c.kind.place address⟩ else none

/-- The cell that a call writes, with what is written. -/
def stores? (c : Controller) : Call → Option (RamCell × UInt8)
  | .writeRam address v => (c.cell? address).map fun cell => (cell, v)
  | .control .. | .tick _ => none

def writes? (c : Controller) (cell : RamCell) (k : Call) : Option UInt8 :=
  (c.stores? k).bind fun stored => if stored.1 = cell then some stored.2 else none

/-- The value last written to a cell by calls that start from a controller. -/
def lastWritten (c : Controller) (cell : RamCell) : List Call → Option UInt8
  | [] => none
  | k :: calls => ((c.call k).lastWritten cell calls).or (c.writes? cell k)

theorem ramBank?_mbc3 (c : Mbc3) :
    (mbc3 c).ramBank? =
      match c.shown with
      | .bank n => some n
      | .clock _ | .nothing => none := by
  unfold ramBank? Mbc3.shown
  dsimp only
  split_ifs with hbank hclock
  · rfl
  · cases Clock.Register.ofSelector? c.select <;> rfl
  · rfl

theorem ram_control (c : Controller) (a : UInt16) (v : UInt8) : (c.control a v).ram = c.ram := by
  cases c with
  | unbanked c => rfl
  | mbc1 c =>
    simp only [control, ram, Mbc1.control]
    split_ifs
    · rfl
    · rfl
    · cases c.mode <;> rfl
    · rfl
    · rfl
  | mbc2 c =>
    simp only [control, ram, Mbc2.control]
    split_ifs <;> rfl
  | mbc3 c =>
    simp only [control, ram, Mbc3.control]
    split_ifs <;> rfl

theorem ram_tick (c : Controller) (cycles : Nat) : (c.tick cycles).ram = c.ram := by
  cases c with
  | unbanked | mbc1 | mbc2 => rfl
  | mbc3 c =>
    simp only [tick, ram, Mbc3.tick]
    split <;> rfl

theorem ram_writeRam (c : Controller) (a : UInt16) (v : UInt8) :
    (c.writeRam a v).ram =
      (c.cell? a).elim c.ram fun cell => c.ram.write cell.bank cell.place (c.kind.keeps v) := by
  cases c with
  | unbanked c => exact (Ram.write_and c.ram 0 a v).symm
  | mbc1 c =>
    unfold writeRam cell? gateOpen
    dsimp only
    unfold Mbc1.writeRam
    split
    · exact (Ram.write_and c.ram c.ramBank.toNat a v).symm
    · rfl
  | mbc2 c =>
    unfold writeRam cell? gateOpen
    dsimp only
    unfold Mbc2.writeRam
    split
    · have hset : (c.ram.set (Mbc2.cellOf a) (v &&& 0x0f)).toArray =
          c.ram.toArray.setIfInBounds (Ram.offset 0 (a &&& 0x1ff)) (v &&& 0x0f) := by
        rw [Mbc2.offset_and, Vector.toArray_set, Array.setIfInBounds, dif_pos]
      exact congrArg Ram.mk hset
    · rfl
  | mbc3 c =>
    unfold writeRam cell? gateOpen
    dsimp only
    unfold Mbc3.writeRam
    rw [ramBank?_mbc3]
    split
    · cases c.shown with
      | bank n => exact (Ram.write_and c.ram n a v).symm
      | clock r => rfl
      | nothing => rfl
    · rfl

theorem ram_call (c : Controller) (k : Call) :
    (c.call k).ram =
      (c.stores? k).elim c.ram fun (cell, v) =>
        c.ram.write cell.bank cell.place (c.kind.keeps v) := by
  cases k with
  | control a v => exact ram_control c a v
  | tick cycles => exact ram_tick c cycles
  | writeRam a v =>
    rw [call, ram_writeRam, stores?]
    cases c.cell? a <;> rfl

theorem size_ram_call (c : Controller) (k : Call) :
    (c.call k).ram.cells.size = c.ram.cells.size := by
  rw [ram_call]
  cases c.stores? k with
  | none => rfl
  | some stored => exact Ram.size_write ..

theorem toNat_place_of_stores? {c : Controller} {k : Call} {cell : RamCell} {v : UInt8}
    (h : c.stores? k = some (cell, v)) : cell.place.toNat < 0x2000 := by
  cases k with
  | control | tick => contradiction
  | writeRam a v' =>
    obtain ⟨cell', hcell, hstored⟩ := Option.map_eq_some_iff.1 h
    cases hstored
    unfold cell? at hcell
    split at hcell
    · obtain ⟨bank, -, rfl⟩ := Option.map_eq_some_iff.1 hcell
      exact c.kind.toNat_place_lt a
    · contradiction

theorem cell_call (c : Controller) (k : Call) {cell : RamCell} (hplace : cell.place.toNat < 0x2000)
    (hsize : Ram.offset cell.bank cell.place < c.ram.cells.size) :
    (c.call k).ram.cell (Ram.offset cell.bank cell.place) =
      (c.writes? cell k).elim (c.ram.cell (Ram.offset cell.bank cell.place)) c.kind.keeps := by
  rw [ram_call, writes?]
  cases hstores : c.stores? k with
  | none => rfl
  | some stored =>
    have hinj := RamCell.offset_inj (toNat_place_of_stores? hstores) hplace
    rw [Option.elim_some, Ram.cell_write, Option.bind_some]
    by_cases heq : stored.1 = cell
    · rw [if_pos heq, if_pos ⟨hinj.2 heq, hsize⟩]
      rfl
    · rw [if_neg heq, if_neg fun h => heq (hinj.1 h.1)]
      rfl

theorem cell_run (c : Controller) (calls : List Call) (cell : RamCell)
    (hplace : cell.place.toNat < 0x2000)
    (hsize : Ram.offset cell.bank cell.place < c.ram.cells.size) :
    (c.run calls).ram.cell (Ram.offset cell.bank cell.place) =
      (c.lastWritten cell calls).elim (c.ram.cell (Ram.offset cell.bank cell.place))
        c.kind.keeps := by
  induction calls generalizing c with
  | nil => rfl
  | cons k calls ih =>
    have hrun : c.run (k :: calls) = (c.call k).run calls := rfl
    rw [hrun, ih (c.call k) (by rw [size_ram_call]; exact hsize), lastWritten, kind_call]
    cases (c.call k).lastWritten cell calls with
    | some v => rfl
    | none =>
      rw [Option.none_or]
      exact cell_call c k hplace hsize

/-! ## What a read gives -/

theorem readRam_of_gate_closed {c : Controller} (h : c.gateOpen = false) (a : UInt16) :
    c.readRam a = 0 := by
  cases c with
  | unbanked => contradiction
  | mbc1 c => exact if_neg (Bool.eq_false_iff.1 h)
  | mbc2 c => exact if_neg (Bool.eq_false_iff.1 h)
  | mbc3 c => exact if_neg (Bool.eq_false_iff.1 h)

theorem readRam_of_ramBank? {c : Controller} {bank : Nat} (hgate : c.gateOpen = true)
    (hbank : c.ramBank? = some bank) (a : UInt16) :
    c.readRam a = c.kind.fills (c.ram.cell (Ram.offset bank (c.kind.place a))) := by
  cases c with
  | unbanked c =>
    cases hbank
    exact congrArg c.ram.cell (Ram.offset_and 0 a).symm
  | mbc1 c =>
    cases hbank
    have hread : c.readRam a = c.ram.read c.ramBank.toNat a := if_pos hgate
    exact hread.trans (congrArg c.ram.cell (Ram.offset_and _ a).symm)
  | mbc2 c =>
    cases hbank
    have hread : c.readRam a = c.ram[Mbc2.cellOf a] ||| 0xf0 := if_pos hgate
    have hcell : (Ram.mk c.ram.toArray).cell (Ram.offset 0 (a &&& 0x1ff)) =
        c.ram[Mbc2.cellOf a] := by
      rw [Mbc2.offset_and, Ram.cell, Array.getD_eq_getD_getElem?]
      simp
    exact hread.trans (congrArg (· ||| 0xf0) hcell.symm)
  | mbc3 c =>
    rw [ramBank?_mbc3] at hbank
    have hread : c.readRam a = c.ram.read bank a := by
      refine (if_pos hgate).trans ?_
      cases hshown : c.shown with
      | bank n =>
        rw [hshown] at hbank
        cases hbank
        rfl
      | clock | nothing =>
        rw [hshown] at hbank
        contradiction
    exact hread.trans (congrArg c.ram.cell (Ram.offset_and bank a).symm)

theorem ram_powerOn (kind : Kind) (ramSize clockHz : Nat) :
    (powerOn kind ramSize clockHz).ram = Ram.blank (kind.ramCells ramSize) := by
  cases kind <;> rfl

theorem size_ram_run (c : Controller) (calls : List Call) :
    (c.run calls).ram.cells.size = c.ram.cells.size := by
  induction calls generalizing c with
  | nil => rfl
  | cons k calls ih => exact (ih (c.call k)).trans (size_ram_call c k)

theorem ramBank?_of_kind_mbc2 {c : Controller} (h : c.kind = .mbc2) : c.ramBank? = some 0 := by
  cases c with
  | mbc2 c => rfl
  | unbanked | mbc1 | mbc3 => contradiction

theorem shows_of_lt {kind : Kind} {ramSize : Nat} (cell : RamCell) (last : Option UInt8)
    (h : cell.bank * 0x2000 + cell.place.toNat < kind.ramCells ramSize) :
    kind.shows ramSize cell last = kind.fills (last.elim 0 kind.keeps) := by
  cases kind with
  | mbc2 => cases last <;> rfl
  | unbanked | mbc1 | mbc3 =>
    refine (if_pos h).trans ?_
    cases last <;> rfl

theorem shows_of_le {kind : Kind} {ramSize : Nat} (cell : RamCell) (last : Option UInt8)
    (hkind : kind ≠ .mbc2) (h : kind.ramCells ramSize ≤ cell.bank * 0x2000 + cell.place.toNat) :
    kind.shows ramSize cell last = kind.fills 0 := by
  cases kind with
  | mbc2 => contradiction
  | unbanked | mbc1 | mbc3 => exact if_neg (Nat.not_lt.2 h)

theorem readRam_eq_shows {c : Controller} {ramSize bank : Nat} {a : UInt16} {last : Option UInt8}
    (hgate : c.gateOpen = true) (hbank : c.ramBank? = some bank)
    (hsize : c.ram.cells.size = c.kind.ramCells ramSize)
    (hholds : Ram.offset bank (c.kind.place a) < c.ram.cells.size →
      c.ram.cell (Ram.offset bank (c.kind.place a)) = last.elim 0 c.kind.keeps) :
    c.readRam a = c.kind.shows ramSize ⟨bank, c.kind.place a⟩ last := by
  have hoffset := Ram.offset_of_lt bank (c.kind.toNat_place_lt a)
  rw [readRam_of_ramBank? hgate hbank]
  by_cases hlt : bank * 0x2000 + (c.kind.place a).toNat < c.kind.ramCells ramSize
  · rw [shows_of_lt ⟨bank, c.kind.place a⟩ last hlt, hholds (by omega)]
  · have hmbc2 : c.kind ≠ .mbc2 := by
      intro hkind
      cases hbank.symm.trans (ramBank?_of_kind_mbc2 hkind)
      have hplace := toNat_and_0x1ff a
      rw [hkind] at hlt
      simp only [Kind.place, Kind.ramCells] at hlt
      omega
    rw [shows_of_le ⟨bank, c.kind.place a⟩ last hmbc2 (Nat.not_lt.1 hlt),
      Ram.cell_of_size_le _ (by omega)]

theorem ram_call_of_beyond {c : Controller} {k : Call}
    (h : ∀ cell v, c.stores? k = some (cell, v) →
      c.ram.cells.size ≤ Ram.offset cell.bank cell.place) : (c.call k).ram = c.ram := by
  rw [ram_call]
  cases hstores : c.stores? k with
  | none => rfl
  | some stored =>
    obtain ⟨cell, v⟩ := stored
    rw [Option.elim_some]
    exact Ram.write_of_size_le (h cell v hstores) (c.kind.keeps v)

/-- External RAM as a banked array: behind a closed gate nothing shows, behind an open one what was
last written to the place in view, and only a write that reaches a cell changes the RAM. -/
theorem readRam_run (kind : Kind) (ramSize clockHz : Nat) (calls : List Call) :
    let start := powerOn kind ramSize clockHz
    let c := start.run calls
    (c.gateOpen = false → ∀ a, c.readRam a = 0) ∧
      (c.gateOpen = true → ∀ bank, c.ramBank? = some bank → ∀ a,
        c.readRam a = kind.shows ramSize ⟨bank, kind.place a⟩
          (start.lastWritten ⟨bank, kind.place a⟩ calls)) ∧
      ∀ k, (∀ cell v, c.stores? k = some (cell, v) →
          kind.ramCells ramSize ≤ cell.bank * 0x2000 + cell.place.toNat) →
        (c.call k).ram = c.ram := by
  intro start c
  have hstart : start.kind = kind := kind_powerOn kind ramSize clockHz
  have hram : start.ram = Ram.blank (kind.ramCells ramSize) := ram_powerOn kind ramSize clockHz
  have hkind : c.kind = kind := (kind_run start calls).trans hstart
  have hsize : c.ram.cells.size = kind.ramCells ramSize := by
    rw [size_ram_run, hram]
    exact Array.size_replicate
  refine ⟨fun hgate a => readRam_of_gate_closed hgate a, ?_, ?_⟩
  · intro hgate bank hbank a
    rw [← hkind] at hsize ⊢
    refine readRam_eq_shows hgate hbank hsize ?_
    intro hin
    have hcell := cell_run start calls ⟨bank, c.kind.place a⟩ (c.kind.toNat_place_lt a)
      (Nat.lt_of_lt_of_eq hin (size_ram_run start calls))
    rw [hram, Ram.cell_blank, hstart, ← hkind] at hcell
    exact hcell
  · intro k hk
    refine ram_call_of_beyond fun cell v hstores => ?_
    rw [hsize, Ram.offset_of_lt cell.bank (toNat_place_of_stores? hstores)]
    exact hk cell v hstores

theorem readRam_run_mbc1 :
    let calls : List Call := [.control 0x0000 0x0a, .control 0x6000 1, .control 0x4000 2,
      .writeRam 0xa123 0x55, .control 0x4000 1, .writeRam 0xa123 0x66, .control 0x0000 0,
      .control 0x4000 2, .writeRam 0xa123 0x77, .control 0x0000 0x0a]
    let c := (powerOn .mbc1 0x8000 1).run calls
    c.gateOpen = true ∧ c.ramBank? = some 2 ∧ c.readRam 0xa123 = 0x55 := by
  intro calls c
  have hgate : c.gateOpen = true := by decide
  have hbank : c.ramBank? = some 2 := by decide
  have hread := (readRam_run .mbc1 0x8000 1 calls).2.1 hgate 2 hbank 0xa123
  exact ⟨hgate, hbank, hread.trans (by decide)⟩

end Controller

end Handheld.Cartridge
