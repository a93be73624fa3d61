import Handheld.Bus.Basic
import Handheld.Proofs.ControllerCalls
import Mathlib.Tactic.Common

/-!
# What a write changes

Reads of the bus before and after a write. A write at one address shows at few others, and each
region says what its own address reads afterwards.
-/

namespace Handheld

/-! ## Regions as intervals -/

namespace Region

def Covers (r : Region) (a : UInt16) : Prop :=
  match r with
  | romFixed => a < 0x4000
  | romBanked => 0x4000 ≤ a ∧ a < 0x8000
  | cartridgeRam => 0xa000 ≤ a ∧ a < 0xc000
  | echo => 0xe000 ≤ a ∧ a < 0xfe00
  | unusable => 0xfea0 ≤ a ∧ a < 0xff00
  | joypad => a = 0xff00
  | serialData => a = 0xff01
  | serialControl => a = 0xff02
  | timer => 0xff04 ≤ a ∧ a ≤ 0xff07
  | interruptFlags => a = 0xff0f
  | sound => 0xff10 ≤ a ∧ a ≤ 0xff3f
  | lcdStatus => a = 0xff41
  | lcdLine => a = 0xff44
  | dma => a = 0xff46
  | interruptEnable => a = 0xffff
  | plain =>
    0x8000 ≤ a ∧ ¬ (0xa000 ≤ a ∧ a < 0xc000) ∧ ¬ (0xe000 ≤ a ∧ a < 0xfe00) ∧
      ¬ (0xfea0 ≤ a ∧ a ≤ 0xff02) ∧ ¬ (0xff04 ≤ a ∧ a ≤ 0xff07) ∧ ¬ (0xff0f ≤ a ∧ a ≤ 0xff3f) ∧
      a ≠ 0xff41 ∧ a ≠ 0xff44 ∧ a ≠ 0xff46 ∧ a ≠ 0xffff

theorem covers_ofRegister {a : UInt16} (h : 0xff00 ≤ a) : (ofRegister a).Covers a := by
  fun_cases ofRegister a <;> grind [Covers]

theorem covers_ofAddress (a : UInt16) : (ofAddress a).Covers a := by
  fun_cases ofAddress a
  case case9 => exact covers_ofRegister (by grind)
  all_goals grind [Covers]

theorem covers_of_eq {a : UInt16} {r : Region} (h : ofAddress a = r) : r.Covers a :=
  h ▸ covers_ofAddress a

theorem ofAddress_sub_echo {a : UInt16} (h : 0xe000 ≤ a ∧ a < 0xfe00) :
    ofAddress (a - 0x2000) = plain := by
  grind [ofAddress]

/-- The regions whose addresses read their cells. -/
def isCell : Region → Bool
  | romFixed | echo | serialControl | sound | lcdStatus | lcdLine | dma | plain => true
  | _ => false

end Region

namespace Timer

theorem Register.ofAddress_ne {a b : UInt16} (ha : 0xff04 ≤ a ∧ a ≤ 0xff07)
    (hb : 0xff04 ≤ b ∧ b ≤ 0xff07) (h : a ≠ b) : ofAddress a ≠ ofAddress b := by
  have ha : a = 0xff04 ∨ a = 0xff05 ∨ a = 0xff06 ∨ a = 0xff07 := by grind
  have hb : b = 0xff04 ∨ b = 0xff05 ∨ b = 0xff06 ∨ b = 0xff07 := by grind
  rcases ha with rfl | rfl | rfl | rfl <;> rcases hb with rfl | rfl | rfl | rfl <;>
    first | exact absurd rfl h | decide

theorem read_write_of_ne (t : Timer) {r s : Register} (v : UInt8) (h : r ≠ s) :
    (t.write r v).read s = t.read s := by
  cases r <;> cases s <;>
    first | exact absurd rfl h | rfl | (unfold write; dsimp only; split <;> rfl)

theorem tac_write (t : Timer) (v : UInt8) : (t.write .tac v).tac = v &&& 7 := by
  unfold write
  dsimp only
  split <;> rfl

end Timer

namespace Cartridge

theorem readBanked_writeRam (c : Cartridge) (a b : UInt16) (v : UInt8) :
    (c.writeRam b v).readBanked a = c.readBanked a := by
  unfold readBanked writeRam
  rw [Controller.romBank_writeRam]

end Cartridge

theorem and_or_not (v m : UInt8) : v &&& m ||| ~~~m = v ||| ~~~m := by
  apply UInt8.toBitVec_inj.1
  ext i
  simp only [UInt8.toBitVec_or, UInt8.toBitVec_and, UInt8.toBitVec_not, BitVec.getElem_or,
    BitVec.getElem_and, BitVec.getElem_not]
  cases v.toBitVec[i] <;> cases m.toBitVec[i] <;> rfl

namespace Bus

/-! ## Reads after a change of one part -/

theorem read_eq_cell (bus : Bus) {a : UInt16} (h : (Region.ofAddress a).isCell) :
    bus.read a = bus.cells.get a := by
  cases hr : Region.ofAddress a <;> rw [hr] at h <;> simp only [read, hr] <;> contradiction

theorem read_store_self (bus : Bus) {a : UInt16} (v : UInt8) (h : (Region.ofAddress a).isCell) :
    (bus.store a v).read a = v := by
  rw [read_eq_cell _ h]
  exact Cells.get_set_self ..

theorem read_store_of_ne (bus : Bus) {b a : UInt16} (v : UInt8) (h : b ≠ a) :
    (bus.store b v).read a = bus.read a := by
  simp only [read, store, Cells.get_set_of_ne _ _ h]

theorem write_plain (bus : Bus) {a : UInt16} (v : UInt8) (h : Region.ofAddress a = .plain) :
    bus.write a v = bus.store a v := by
  unfold write
  rw [h]

theorem read_store_serialData (bus : Bus) {b a : UInt16} (v : UInt8)
    (hb : Region.ofAddress b = .serialData) : (bus.store b v).read a = bus.read a := by
  by_cases h : b = a
  · subst h
    simp only [read, hb]
    rfl
  · exact read_store_of_ne _ _ h

@[simp] theorem read_report (bus : Bus) (e : Event) (a : UInt16) :
    (bus.report e).read a = bus.read a := rfl

theorem apply_serialControl {β : Type} {f : Bus → β}
    (hplug : ∀ (b : Bus) plug, f { b with plug } = f b) (hreport : ∀ b e, f (report b e) = f b)
    (bus : Bus) (v : UInt8) : f (bus.serialControl v) = f bus := by
  unfold serialControl
  cases bus.plug with
  | none => rfl
  | some plug =>
    dsimp only
    split
    · rw [hreport, hplug]
    · rw [hplug]

theorem apply_hear {β : Type} {f : Bus → β}
    (hrecorder : ∀ (b : Bus) recorder, f { b with recorder } = f b) (bus : Bus) (a : UInt16)
    (v : UInt8) : f (bus.hear a v) = f bus := by
  unfold hear
  split
  · cases bus.recorder with
    | none => rfl
    | some recorder => exact hrecorder bus _
  · rfl

theorem apply_serial {β : Type} {f : Bus → β}
    (hplug : ∀ (b : Bus) plug, f { b with plug } = f b)
    (hcomplete : ∀ b byte, f (completeTransfer b byte) = f b) (bus : Bus) (cycles : Nat) :
    f (bus.serial cycles) = f bus := by
  unfold serial
  cases bus.plug with
  | none => rfl
  | some plug =>
    dsimp only
    split
    · rw [hcomplete, hplug]
    · rw [hplug]

@[simp] theorem read_serialControl (bus : Bus) (v : UInt8) (a : UInt16) :
    (bus.serialControl v).read a = bus.read a :=
  apply_serialControl (f := (·.read a)) (fun _ _ => rfl) (fun _ _ => rfl) bus v

@[simp] theorem read_hear (bus : Bus) (b : UInt16) (v : UInt8) (a : UInt16) :
    (bus.hear b v).read a = bus.read a :=
  apply_hear (f := (·.read a)) (fun _ _ => rfl) bus b v

theorem read_cartridge_of_not_window (bus : Bus) (cartridge : Cartridge) (log : Log) {a : UInt16}
    (hrom : ¬ (0x4000 ≤ a ∧ a < 0x8000)) (hram : ¬ (0xa000 ≤ a ∧ a < 0xc000)) :
    ({ bus with cartridge, log } : Bus).read a = bus.read a := by
  cases hr : Region.ofAddress a <;> simp only [read, hr]
  case romBanked => exact absurd (Region.covers_of_eq hr) hrom
  case cartridgeRam => exact absurd (Region.covers_of_eq hr) hram

theorem read_writeRam_of_not_window (bus : Bus) (b : UInt16) (v : UInt8) {a : UInt16}
    (hram : ¬ (0xa000 ≤ a ∧ a < 0xc000)) :
    ({ bus with cartridge := bus.cartridge.writeRam b v } : Bus).read a = bus.read a := by
  cases hr : Region.ofAddress a <;> simp only [read, hr]
  case romBanked => rw [Cartridge.readBanked_writeRam]
  case cartridgeRam => exact absurd (Region.covers_of_eq hr) hram

theorem read_timer_of_ne (bus : Bus) (log : Log) {b a : UInt16} (v : UInt8)
    (hb : 0xff04 ≤ b ∧ b ≤ 0xff07) (h : b ≠ a) :
    ({ bus with timer := bus.timer.write (.ofAddress b) v, log } : Bus).read a = bus.read a := by
  cases hr : Region.ofAddress a <;> simp only [read, hr]
  case timer =>
    have ha : 0xff04 ≤ a ∧ a ≤ 0xff07 := Region.covers_of_eq hr
    exact Timer.read_write_of_ne _ _ (Timer.Register.ofAddress_ne hb ha h)

theorem read_interruptFlags_of_ne (bus : Bus) (v : UInt8) {a : UInt16} (h : a ≠ 0xff0f) :
    ({ bus with interruptFlags := v } : Bus).read a = bus.read a := by
  cases hr : Region.ofAddress a <;> simp only [read, hr]
  case interruptFlags => exact absurd (Region.covers_of_eq hr) h

theorem read_interruptEnable_of_ne (bus : Bus) (v : UInt8) {a : UInt16} (h : a ≠ 0xffff) :
    ({ bus with interruptEnable := v } : Bus).read a = bus.read a := by
  cases hr : Region.ofAddress a <;> simp only [read, hr]
  case interruptEnable => exact absurd (Region.covers_of_eq hr) h

@[simp] theorem read_request_of_ne (bus : Bus) (i : Interrupt) {a : UInt16} (h : a ≠ 0xff0f) :
    (bus.request i).read a = bus.read a :=
  read_interruptFlags_of_ne _ _ h

/-! ## DMA -/

theorem toNat_sprite {i : Nat} (h : i < 160) :
    ((0xfe00 : UInt16) + UInt16.ofNat i).toNat = 0xfe00 + i := by
  have hi : (UInt16.ofNat i).toNat = i := UInt16.toNat_ofNat_of_lt (Nat.lt_trans h (by decide))
  rw [UInt16.toNat_add, hi]
  simp only [UInt16.reduceToNat]
  omega

theorem sprite_address {i : Nat} (h : i < 160) :
    0xfe00 ≤ (0xfe00 : UInt16) + UInt16.ofNat i ∧ (0xfe00 : UInt16) + UInt16.ofNat i < 0xfea0 := by
  rw [UInt16.le_iff_toNat_le, UInt16.lt_iff_toNat_lt, toNat_sprite h]
  simp only [UInt16.reduceToNat]
  omega

def copied (bus : Bus) (source : UInt16) (n : Nat) : Bus :=
  (List.range n).foldl
    (fun b i => b.store (0xfe00 + UInt16.ofNat i) (b.read (source + UInt16.ofNat i))) bus

theorem copied_succ (bus : Bus) (source : UInt16) (n : Nat) :
    bus.copied source (n + 1) =
      (bus.copied source n).store (0xfe00 + UInt16.ofNat n)
        ((bus.copied source n).read (source + UInt16.ofNat n)) := by
  simp [copied, List.range_succ]

theorem dma_eq (bus : Bus) (v : UInt8) :
    bus.dma v = (bus.report (.dmaStarted (Word.ofBytes v 0))).copied (Word.ofBytes v 0) 160 := rfl

/-- However far the copy has got, nothing but the sprite table reads differently. -/
theorem read_copied (bus : Bus) (source : UInt16) {a : UInt16} (n : Nat) (hn : n ≤ 160)
    (h : ¬ (0xfe00 ≤ a ∧ a < 0xfea0)) : (bus.copied source n).read a = bus.read a := by
  induction n with
  | zero => rfl
  | succ n ih =>
    have hne : (0xfe00 : UInt16) + UInt16.ofNat n ≠ a := by
      rintro rfl
      exact h (sprite_address (by omega))
    rw [copied_succ, read_store_of_ne _ _ hne, ih (by omega)]

theorem read_dma_of_not_sprites (bus : Bus) (v : UInt8) {a : UInt16}
    (h : ¬ (0xfe00 ≤ a ∧ a < 0xfea0)) : (bus.dma v).read a = bus.read a := by
  rw [dma_eq, read_copied _ _ _ (Nat.le_refl _) h, read_report]

theorem apply_copied {β : Type} {f : Bus → β} (hstore : ∀ b a v, f (store b a v) = f b)
    (bus : Bus) (source : UInt16) (n : Nat) : f (bus.copied source n) = f bus := by
  induction n with
  | zero => rfl
  | succ n ih => rw [copied_succ, hstore, ih]

theorem apply_dma {β : Type} {f : Bus → β} (hstore : ∀ b a v, f (store b a v) = f b)
    (hreport : ∀ b e, f (report b e) = f b) (bus : Bus) (v : UInt8) : f (bus.dma v) = f bus := by
  rw [dma_eq, apply_copied hstore, hreport]

/-! ## Reads after a write -/

/-- The addresses whose reads a write at `b` can change. -/
def Touches (b a : UInt16) : Prop :=
  if b < 0x8000 then 0x4000 ≤ a ∧ a < 0x8000 ∨ 0xa000 ≤ a ∧ a < 0xc000
  else if 0xa000 ≤ b ∧ b < 0xc000 then 0xa000 ≤ a ∧ a < 0xc000
  else if 0xe000 ≤ b ∧ b < 0xfe00 then a = b ∨ a = b - 0x2000
  else if 0xfea0 ≤ b ∧ b < 0xff00 ∨ b = 0xff01 then False
  else if b = 0xff46 then 0xfe00 ≤ a ∧ a < 0xfea0
  else a = b

instance (b a : UInt16) : Decidable (Touches b a) :=
  inferInstanceAs (Decidable (if b < 0x8000 then _ else _))

/-- What an address outside the cartridge reads once `v` was written there, or to its echo. -/
def readsBack (bus : Bus) (b : UInt16) (v : UInt8) : UInt8 :=
  if b = 0xff00 then readJoypad v bus.joypad
  else if b = 0xff04 ∨ b = 0xff44 then 0
  else if b = 0xff07 then v ||| 0xf8
  else if b = 0xff0f then v ||| 0xe0
  else if b = 0xff41 then (v &&& 0xf8) ||| (bus.read 0xff41 &&& 0x07)
  else v

theorem read_write_of_not_touches (bus : Bus) {b a : UInt16} (v : UInt8) (h : ¬ Touches b a) :
    (bus.write b v).read a = bus.read a := by
  cases hb : Region.ofAddress b <;> have hc := Region.covers_of_eq hb <;>
    simp only [Region.Covers] at hc <;> simp only [write, hb]
  case romFixed | romBanked =>
    exact read_cartridge_of_not_window _ _ _ (by grind [Touches]) (by grind [Touches])
  case cartridgeRam => exact read_writeRam_of_not_window _ _ _ (by grind [Touches])
  case echo =>
    rw [read_store_of_ne _ _ (by grind [Touches]), read_store_of_ne _ _ (by grind [Touches])]
  case serialControl =>
    rw [read_serialControl, read_store_of_ne _ _ (by grind [Touches])]
  case timer => exact read_timer_of_ne _ _ _ hc (by grind [Touches])
  case interruptFlags => exact read_interruptFlags_of_ne _ _ (by grind [Touches])
  case sound => rw [read_hear, read_store_of_ne _ _ (by grind [Touches])]
  case dma => exact read_dma_of_not_sprites _ _ (by grind [Touches])
  case interruptEnable => exact read_interruptEnable_of_ne _ _ (by grind [Touches])
  case serialData => exact read_store_serialData _ _ hb
  case joypad | lcdStatus | lcdLine | plain => exact read_store_of_ne _ _ (by grind [Touches])

theorem readsBack_eq (bus : Bus) {b : UInt16} (v : UInt8)
    (h : b ≠ 0xff00 ∧ b ≠ 0xff04 ∧ b ≠ 0xff44 ∧ b ≠ 0xff07 ∧ b ≠ 0xff0f ∧ b ≠ 0xff41) :
    bus.readsBack b v = v := by
  obtain ⟨h0, h4, h44, h7, hf, h41⟩ := h
  simp only [readsBack, h0, h4, h44, h7, hf, h41, or_self, if_false]

theorem read_write_self (bus : Bus) {b : UInt16} (v : UInt8) (hrom : 0x8000 ≤ b)
    (hram : ¬ (0xa000 ≤ b ∧ b < 0xc000)) (hunusable : ¬ (0xfea0 ≤ b ∧ b < 0xff00))
    (hserial : b ≠ 0xff01) (hdma : b ≠ 0xff46) :
    (bus.write b v).read b = bus.readsBack b v := by
  cases hb : Region.ofAddress b <;> have hc := Region.covers_of_eq hb <;>
    simp only [Region.Covers] at hc <;> simp only [write, hb]
  case romFixed | romBanked => grind
  case cartridgeRam => exact absurd hc hram
  case unusable => exact absurd hc hunusable
  case serialData => exact absurd hc hserial
  case dma => exact absurd hc hdma
  case echo =>
    -- Both cells are written, and the echo reads its own.
    rw [read_store_of_ne _ _ (by grind), read_store_self _ _ (by rw [hb]; rfl),
      readsBack_eq _ _ (by grind)]
  case joypad =>
    subst hc
    simp only [read, hb, store, Cells.get_set_self]
    rfl
  case serialControl =>
    subst hc
    rw [read_serialControl, read_store_self _ _ (by rw [hb]; rfl)]
    rfl
  case timer =>
    have hb' : b = 0xff04 ∨ b = 0xff05 ∨ b = 0xff06 ∨ b = 0xff07 := by grind
    simp only [read, hb]
    rcases hb' with rfl | rfl | rfl | rfl
    · rfl
    · rfl
    · rfl
    · exact (congrArg (· ||| 0xf8) (Timer.tac_write bus.timer v)).trans (and_or_not v 7)
  case interruptFlags =>
    subst hc
    simp only [read, hb]
    exact and_or_not v 0x1f
  case sound =>
    rw [read_hear, read_store_self _ _ (by rw [hb]; rfl), readsBack_eq _ _ (by grind)]
  case lcdStatus =>
    subst hc
    rw [read_store_self _ _ (by rw [hb]; rfl), ← read_eq_cell _ (by rw [hb]; rfl)]
    rfl
  case lcdLine =>
    subst hc
    rw [read_store_self _ _ (by rw [hb]; rfl)]
    rfl
  case interruptEnable =>
    subst hc
    simp only [read, hb]
    rfl
  case plain =>
    rw [read_store_self _ _ (by rw [hb]; rfl), readsBack_eq _ _ (by grind)]

theorem read_write_of_touches (bus : Bus) {b a : UInt16} (v : UInt8) (h : Touches b a)
    (hrom : 0x8000 ≤ b) (hram : ¬ (0xa000 ≤ b ∧ b < 0xc000)) (hdma : b ≠ 0xff46) :
    (bus.write b v).read a = bus.readsBack b v := by
  by_cases hba : a = b
  · subst hba
    exact read_write_self _ _ hrom hram (by grind [Touches]) (by grind [Touches]) hdma
  · -- Only an echo address shows elsewhere, in the cell it copies.
    have hecho : 0xe000 ≤ b ∧ b < 0xfe00 := by grind [Touches]
    obtain rfl : a = b - 0x2000 := by grind [Touches]
    have hb : Region.ofAddress b = .echo := by grind [Region.ofAddress]
    have hlow : (Region.ofAddress (b - 0x2000)).isCell := by
      rw [Region.ofAddress_sub_echo hecho]
      rfl
    simp only [write, hb]
    rw [read_store_self _ _ hlow, readsBack_eq _ _ (by grind)]

theorem read_writes_of_not_touches (bus : Bus) (ws : List (UInt16 × UInt8)) {a : UInt16}
    (h : ∀ w ∈ ws, ¬ Touches w.1 a) :
    (ws.foldl (fun b w => b.write w.1 w.2) bus).read a = bus.read a := by
  induction ws generalizing bus with
  | nil => rfl
  | cons w ws ih =>
    rw [List.foldl_cons, ih _ fun w hw => h w (List.mem_cons_of_mem _ hw)]
    exact read_write_of_not_touches _ _ (h w List.mem_cons_self)

/-- A write shows where `Touches` says and nowhere else, and outside the cartridge it reads back as
`readsBack` says. -/
theorem read_write (bus : Bus) (b a : UInt16) (v : UInt8) (hdma : b ≠ 0xff46) :
    (¬ Touches b a → (bus.write b v).read a = bus.read a) ∧
      (Touches b a → 0x8000 ≤ b → ¬ (0xa000 ≤ b ∧ b < 0xc000) →
        (bus.write b v).read a = bus.readsBack b v) :=
  ⟨read_write_of_not_touches bus v, fun h hrom hram => read_write_of_touches bus v h hrom hram hdma⟩

theorem read_write_echo :
    (0xe123 : UInt16) ≠ 0xff46 ∧
      ((default : Bus).write 0xe123 0x42).read 0xc123 = 0x42 ∧
      ((default : Bus).write 0xe123 0x42).read 0xc124 = (default : Bus).read 0xc124 := by
  have hdma : (0xe123 : UInt16) ≠ 0xff46 := by decide
  refine ⟨hdma, ?_, ?_⟩
  · exact (read_write default 0xe123 0xc123 0x42 hdma).2 (by simp [Touches]) (by decide) (by decide)
  · exact (read_write default 0xe123 0xc124 0x42 hdma).1 (by simp [Touches])

end Bus

end Handheld
