import Handheld.Proofs.InterruptFlags
import Handheld.Proofs.TimerSteps

/-!
# The order in which the hardware moves on

Timer, picture unit and serial line each keep to registers of their own. So it makes no difference
which of them moves on first.
-/

namespace Handheld

/-! ## Parts of the bus -/

theorem Cells.set_comm (c : Cells) {a b : UInt16} (v w : UInt8) (h : a ≠ b) :
    (c.set a v).set b w = (c.set b w).set a v := by
  have hne : a.toFin.val ≠ b.toFin.val := fun heq => h (UInt16.toNat_inj.1 heq)
  unfold set
  rw [Vector.set_comm _ _ hne]

theorem byte_or_right_comm (a b c : UInt8) : a ||| b ||| c = a ||| c ||| b := by
  rw [UInt8.or_assoc, UInt8.or_comm b, ← UInt8.or_assoc]

theorem Cartridge.readRam_tick (c : Cartridge) (cycles : Nat) (a : UInt16) :
    (c.tick cycles).readRam a = c.readRam a := by
  obtain ⟨image, controller⟩ := c
  cases controller with
  | unbanked | mbc1 | mbc2 => rfl
  | mbc3 c =>
    simp only [tick, Controller.tick, readRam, Controller.readRam, Mbc3.tick]
    split <;> rfl

theorem Cartridge.readBanked_tick (c : Cartridge) (cycles : Nat) (a : UInt16) :
    (c.tick cycles).readBanked a = c.readBanked a := by
  unfold readBanked tick
  rw [Controller.romBank_tick]

namespace Bus

variable (bus : Bus)

theorem read_interruptFlags_request (i : Interrupt) {m : UInt8} (h : i.mask &&& m = 0) :
    (bus.request i).read 0xff0f &&& m = bus.read 0xff0f &&& m := by
  have hread : ∀ b : Bus, b.read 0xff0f = b.interruptFlags ||| 0xe0 := fun _ => rfl
  rw [hread, hread, interruptFlags_request, byte_or_right_comm, or_and_of_and_eq_zero _ h]

/-! ## The timer -/

theorem apply_tick {β : Type} {f : Bus → β}
    (hparts : ∀ (b : Bus) timer cartridge, f { b with timer, cartridge } = f b)
    (hrequest : ∀ b i, f (request b i) = f b) (cycles : Nat) : f (bus.tick cycles) = f bus := by
  unfold tick
  dsimp only
  split
  · rw [hrequest, hparts]
  · rw [hparts]

theorem tick_store (a : UInt16) (v : UInt8) (cycles : Nat) :
    (bus.store a v).tick cycles = (bus.tick cycles).store a v := by
  unfold tick store
  dsimp only
  split <;> rfl

theorem tick_request (i : Interrupt) (cycles : Nat) :
    (bus.request i).tick cycles = (bus.tick cycles).request i := by
  unfold tick
  dsimp only [request]
  split
  · rw [byte_or_right_comm]
  · rfl

theorem read_tick_of_ne (cycles : Nat) {a : UInt16} (hdiv : a ≠ 0xff04) (htima : a ≠ 0xff05)
    (hflags : a ≠ 0xff0f) : (bus.tick cycles).read a = bus.read a := by
  have hparts :
      ({ bus with timer := (bus.timer.advance cycles).2, cartridge := bus.cartridge.tick cycles } :
        Bus).read a = bus.read a := by
    cases ha : Region.ofAddress a <;> simp only [read, ha]
    case romBanked => exact Cartridge.readBanked_tick _ _ _
    case cartridgeRam => exact Cartridge.readRam_tick _ _ _
    case timer =>
      have hcovers : 0xff04 ≤ a ∧ a ≤ 0xff07 := Region.covers_of_eq ha
      have hrest : a = 0xff06 ∨ a = 0xff07 := by grind
      rcases hrest with rfl | rfl
      · exact Timer.tma_advance _ _
      · exact congrArg (· ||| 0xf8) (Timer.tac_advance _ _)
  unfold tick
  dsimp only
  split
  · rw [read_request_of_ne _ _ hflags, hparts]
  · exact hparts

theorem read_interruptFlags_tick (cycles : Nat) :
    (bus.tick cycles).read 0xff0f &&& 0xfb = bus.read 0xff0f &&& 0xfb := by
  unfold tick
  dsimp only
  split
  · exact read_interruptFlags_request _ .timer rfl
  · rfl

/-! ## The serial line -/

/-- What a change of the bus must go along with to go along with the serial line. -/
theorem serial_comm {g : Bus → Bus} (hplug : ∀ b, (g b).plug = b.plug)
    (hset : ∀ (b : Bus) plug, { g b with plug } = g { b with plug })
    (hcomplete : ∀ b byte, (g b).completeTransfer byte = g (b.completeTransfer byte))
    (cycles : Nat) : (g bus).serial cycles = g (bus.serial cycles) := by
  unfold serial
  rw [hplug]
  cases bus.plug with
  | none => rfl
  | some plug =>
    dsimp only
    rw [hset]
    split
    · exact hcomplete _ _
    · rfl

theorem completeTransfer_store {a : UInt16} (v byte : UInt8) (h : a ≠ 0xff02) :
    (bus.store a v).completeTransfer byte = (bus.completeTransfer byte).store a v := by
  unfold completeTransfer report request store
  dsimp only
  rw [Cells.get_set_of_ne _ _ h, Cells.set_comm _ _ _ h]

theorem serial_store {a : UInt16} (v : UInt8) (cycles : Nat) (h : a ≠ 0xff02) :
    (bus.store a v).serial cycles = (bus.serial cycles).store a v :=
  bus.serial_comm (g := (·.store a v)) (fun _ => rfl) (fun _ _ => rfl)
    (fun b byte => b.completeTransfer_store v byte h) cycles

theorem completeTransfer_request (i : Interrupt) (byte : UInt8) :
    (bus.request i).completeTransfer byte = (bus.completeTransfer byte).request i := by
  unfold completeTransfer report request store
  dsimp only
  rw [byte_or_right_comm]

theorem serial_request (i : Interrupt) (cycles : Nat) :
    (bus.request i).serial cycles = (bus.serial cycles).request i :=
  bus.serial_comm (g := (·.request i)) (fun _ => rfl) (fun _ _ => rfl)
    (fun b byte => b.completeTransfer_request i byte) cycles

theorem read_completeTransfer_of_ne (byte : UInt8) {a : UInt16} (hdata : a ≠ 0xff01)
    (hcontrol : a ≠ 0xff02) (hflags : a ≠ 0xff0f) :
    (bus.completeTransfer byte).read a = bus.read a := by
  unfold completeTransfer
  rw [read_report, read_request_of_ne _ _ hflags, read_store_of_ne _ _ hcontrol.symm]
  cases ha : Region.ofAddress a <;> simp only [read, ha]
  case serialData => exact absurd (Region.covers_of_eq ha) hdata

theorem read_serial_of_ne (cycles : Nat) {a : UInt16} (hdata : a ≠ 0xff01) (hcontrol : a ≠ 0xff02)
    (hflags : a ≠ 0xff0f) : (bus.serial cycles).read a = bus.read a :=
  bus.apply_serial (f := (·.read a)) (fun _ _ => rfl)
    (fun b byte => b.read_completeTransfer_of_ne byte hdata hcontrol hflags) cycles

theorem read_serialControl_serial (cycles : Nat) :
    (bus.serial cycles).read 0xff02 &&& 0x7f = bus.read 0xff02 &&& 0x7f := by
  refine bus.apply_serial (f := (·.read 0xff02 &&& 0x7f)) (fun _ _ => rfl) (fun b byte => ?_) cycles
  unfold completeTransfer
  rw [read_report, read_request_of_ne _ _ (by decide), read_store_self _ _ (by decide),
    UInt8.and_assoc]
  rfl

theorem read_interruptFlags_serial (cycles : Nat) :
    (bus.serial cycles).read 0xff0f &&& 0xf7 = bus.read 0xff0f &&& 0xf7 := by
  refine bus.apply_serial (f := (·.read 0xff0f &&& 0xf7)) (fun _ _ => rfl) (fun b byte => ?_) cycles
  unfold completeTransfer
  rw [read_report, read_interruptFlags_request _ .serial rfl]
  rfl

theorem completeTransfer_tick (cycles : Nat) (byte : UInt8) :
    (bus.tick cycles).completeTransfer byte = (bus.completeTransfer byte).tick cycles := by
  unfold tick
  dsimp only [completeTransfer, report, request, store]
  split
  · rw [byte_or_right_comm]
  · rfl

theorem serial_tick (cycles cycles' : Nat) :
    (bus.tick cycles).serial cycles' = (bus.serial cycles').tick cycles := by
  have hplug : ∀ b : Bus, (b.tick cycles).plug = b.plug := fun b =>
    b.apply_tick (f := Bus.plug) (fun _ _ _ => rfl) (fun _ _ => rfl) cycles
  have hset : ∀ (b : Bus) plug, { b.tick cycles with plug } = { b with plug }.tick cycles := by
    intro b plug
    unfold tick
    dsimp only
    split <;> rfl
  exact bus.serial_comm (g := (·.tick cycles)) hplug hset
    (fun b byte => b.completeTransfer_tick cycles byte) cycles'

end Bus

/-! ## The picture unit -/

namespace PictureUnit

open Picture (renderLine Source SameSource)

/-- The addresses that the picture unit reads. -/
def Reads (a : UInt16) : Prop := Source a ∨ a = 0xff41 ∨ a = 0xff44 ∨ a = 0xff45

/-- A change of the bus that neither the picture unit notices nor its own changes disturb. -/
structure Unnoticed (f : Bus → Bus) : Prop where
  read : ∀ bus a, Reads a → (f bus).read a = bus.read a
  status : ∀ bus v, f (bus.store statAddress v) = (f bus).store statAddress v
  line : ∀ bus v, f (bus.store lyAddress v) = (f bus).store lyAddress v
  request : ∀ bus i, f (bus.request i) = (f bus).request i

namespace Unnoticed

variable {f : Bus → Bus} (h : Unnoticed f)
include h

theorem read_status (bus : Bus) : (f bus).read statAddress = bus.read statAddress :=
  h.read bus _ (.inr (.inl rfl))

theorem read_line (bus : Bus) : (f bus).read lyAddress = bus.read lyAddress :=
  h.read bus _ (.inr (.inr (.inl rfl)))

theorem sameSource (bus : Bus) : SameSource (f bus).read bus.read := fun a ha =>
  h.read bus a (.inl ha)

theorem updateStatus (counter : Int) (bus : Bus) :
    updateStatus counter (f bus) = f (updateStatus counter bus) := by
  have hcompared : (f bus).read 0xff45 = bus.read 0xff45 := h.read bus _ (.inr (.inr (.inr rfl)))
  unfold PictureUnit.updateStatus
  dsimp only
  rw [h.read_status, h.read_line, hcompared, h.status]
  split
  · rw [h.request]
  · rfl

theorem offBus (bus : Bus) : offBus (f bus) = f (offBus bus) := by
  unfold PictureUnit.offBus
  rw [h.read_status, h.status, h.line]

theorem endLine (p : PictureUnit) (bus : Bus) :
    p.endLine (f bus) = ((p.endLine bus).1, (p.endLine bus).2.1, f (p.endLine bus).2.2) := by
  have hrow : ∀ line, renderLine (f bus).read line = renderLine bus.read line :=
    Picture.renderLine_congr (h.sameSource bus)
  unfold PictureUnit.endLine
  simp only [h.read_line, hrow]
  split
  · rw [h.request, h.line]
  · rw [h.line]

theorem step (p : PictureUnit) (bus : Bus) (cycles : Nat) :
    p.step (f bus) cycles =
      ((p.step bus cycles).1, (p.step bus cycles).2.1, f (p.step bus cycles).2.2) := by
  have hon : on (f bus) = on bus := by
    unfold on
    rw [h.read bus 0xff40 (.inl (by simp [Source]))]
  unfold PictureUnit.step
  rw [hon, h.updateStatus, h.offBus]
  split
  · dsimp only
    split
    · rfl
    · exact h.endLine _ _
  · rfl

end Unnoticed

theorem unnoticed_tick (cycles : Nat) : Unnoticed (·.tick cycles) where
  read bus a ha := by
    apply Bus.read_tick_of_ne <;> (rintro rfl; revert ha; simp [Reads, Source])
  status bus v := bus.tick_store _ v cycles
  line bus v := bus.tick_store _ v cycles
  request bus i := bus.tick_request i cycles

theorem unnoticed_serial (cycles : Nat) : Unnoticed (·.serial cycles) where
  read bus a ha := by
    apply Bus.read_serial_of_ne <;> (rintro rfl; revert ha; simp [Reads, Source])
  status bus v := bus.serial_store v cycles (by decide)
  line bus v := bus.serial_store v cycles (by decide)
  request bus i := bus.serial_request i cycles

/-! ## What the picture unit changes -/

theorem apply_step {β : Type} {f : Bus → β}
    (hstore : ∀ b a v, f (Bus.store b a v) = f b) (hrequest : ∀ b i, f (Bus.request b i) = f b)
    (p : PictureUnit) (bus : Bus) (cycles : Nat) : f (p.step bus cycles).2.2 = f bus := by
  cases hon : on bus with
  | false =>
    rw [p.step_of_off hon]
    exact (hstore _ _ _).trans (hstore _ _ _)
  | true =>
    rw [apply_step_of_on (fun b v => hstore b _ v) (fun b => hrequest b _) p hon]
    unfold updateStatus
    dsimp only
    split
    · rw [hstore, hrequest]
    · rw [hstore]

theorem read_offBus_of_ne (bus : Bus) {a : UInt16} (hstat : a ≠ 0xff41) (hline : a ≠ 0xff44) :
    (offBus bus).read a = bus.read a := by
  have hstat' : statAddress ≠ a := hstat.symm
  have hline' : lyAddress ≠ a := hline.symm
  unfold offBus
  dsimp only
  rw [Bus.read_store_of_ne _ _ hstat', Bus.read_store_of_ne _ _ hline']

theorem read_step_of_ne (p : PictureUnit) (bus : Bus) (cycles : Nat) {a : UInt16}
    (hstat : a ≠ 0xff41) (hline : a ≠ 0xff44) (hflags : a ≠ 0xff0f) :
    (p.step bus cycles).2.2.read a = bus.read a := by
  have hline' : lyAddress ≠ a := hline.symm
  cases hon : on bus with
  | false =>
    rw [p.step_of_off hon]
    exact read_offBus_of_ne bus hstat hline
  | true =>
    rw [apply_step_of_on (f := (·.read a)) (fun b v => b.read_store_of_ne v hline')
      (fun b => b.read_request_of_ne _ hflags) p hon]
    exact read_updateStatus_of_ne p.counter bus hstat hflags

theorem newStatus_and_0xf8 (status : UInt8) (line : UInt8) (counter : Int) (matched : Bool) :
    newStatus status (modeOf line counter) matched &&& 0xf8 = status &&& 0xf8 := by
  have hmode : modeOf line counter &&& 0xf8 = 0 := by
    unfold modeOf
    split_ifs <;> rfl
  have hkept : (status &&& 0xfc ||| modeOf line counter) &&& 0xf8 = status &&& 0xf8 := by
    rw [or_and_of_and_eq_zero _ hmode, UInt8.and_assoc]
    rfl
  unfold newStatus
  split
  · rw [or_and_of_and_eq_zero _ rfl, hkept]
  · rw [UInt8.and_assoc]
    exact hkept

theorem read_status_updateStatus (counter : Int) (bus : Bus) :
    (updateStatus counter bus).read statAddress &&& 0xf8 = bus.read statAddress &&& 0xf8 := by
  unfold updateStatus
  dsimp only
  rw [Bus.read_store_self _ _ (by decide)]
  exact newStatus_and_0xf8 _ _ _ _

theorem read_status_step (p : PictureUnit) (bus : Bus) (cycles : Nat) :
    (p.step bus cycles).2.2.read statAddress &&& 0xf8 = bus.read statAddress &&& 0xf8 := by
  cases hon : on bus with
  | false =>
    rw [p.step_of_off hon]
    unfold offBus
    dsimp only
    rw [Bus.read_store_self _ _ (by decide), or_and_of_and_eq_zero _ rfl, UInt8.and_assoc]
    rfl
  | true =>
    rw [apply_step_of_on (f := (·.read statAddress)) (fun b v => b.read_store_of_ne v (by decide))
      (fun b => b.read_request_of_ne _ (by decide)) p hon]
    exact read_status_updateStatus p.counter bus

theorem read_interruptFlags_updateStatus (counter : Int) (bus : Bus) :
    (updateStatus counter bus).read 0xff0f &&& 0xfc = bus.read 0xff0f &&& 0xfc := by
  unfold updateStatus
  dsimp only
  rw [Bus.read_store_of_ne _ _ (by decide)]
  split
  · exact Bus.read_interruptFlags_request _ .lcdStat rfl
  · rfl

theorem read_interruptFlags_step (p : PictureUnit) (bus : Bus) (cycles : Nat) :
    (p.step bus cycles).2.2.read 0xff0f &&& 0xfc = bus.read 0xff0f &&& 0xfc := by
  cases hon : on bus with
  | false => rw [p.step_of_off hon, read_offBus_of_ne bus (by decide) (by decide)]
  | true =>
    have hline : ∀ b v, (Bus.store b lyAddress v).read 0xff0f &&& 0xfc = b.read 0xff0f &&& 0xfc :=
      fun b v => by rw [b.read_store_of_ne v (by decide)]
    rw [apply_step_of_on (f := (·.read 0xff0f &&& 0xfc)) hline
      (fun b => b.read_interruptFlags_request .vBlank rfl) p hon]
    exact read_interruptFlags_updateStatus p.counter bus

end PictureUnit

/-! ## Any order -/

/-- Picture unit and bus, and whether the picture unit completed a picture when it last moved on. -/
structure Hardware where
  completed : Bool := false
  picture : PictureUnit
  bus : Bus

namespace Hardware

/-- What moves on by itself. The cartridge goes with the timer. -/
inductive Part where
  | timer
  | picture
  | serial
deriving DecidableEq

def advance (cycles : Part → Nat) (h : Hardware) : Part → Hardware
  | .timer => { h with bus := h.bus.tick (cycles .timer) }
  | .picture =>
    let (completed, picture, bus) := h.picture.step h.bus (cycles .picture)
    { completed, picture, bus }
  | .serial => { h with bus := h.bus.serial (cycles .serial) }

theorem advance_comm (cycles : Part → Nat) (h : Hardware) (x y : Part) :
    (h.advance cycles x).advance cycles y = (h.advance cycles y).advance cycles x := by
  have htick := (PictureUnit.unnoticed_tick (cycles .timer)).step h.picture h.bus (cycles .picture)
  have hserial :=
    (PictureUnit.unnoticed_serial (cycles .serial)).step h.picture h.bus (cycles .picture)
  have hboth := h.bus.serial_tick (cycles .timer) (cycles .serial)
  cases x with
  | timer => cases y with
    | timer => rfl
    | picture => simp only [advance, htick]
    | serial => simp only [advance, hboth]
  | picture => cases y with
    | timer => simp only [advance, htick]
    | picture => rfl
    | serial => simp only [advance, hserial]
  | serial => cases y with
    | timer => simp only [advance, hboth]
    | picture => simp only [advance, hserial]
    | serial => rfl

/-- Timer, picture unit and serial line leave the same behind in whatever order each of them moves
on once, and what each of them changes of what is read are its own registers and its own bits of the
interrupt flags. -/
theorem advance_in_any_order (cycles : Part → Nat) (h : Hardware) :
    (∀ order : List Part, order.Perm [.timer, .picture, .serial] →
      order.foldl (advance cycles) h =
        ((h.advance cycles .timer).advance cycles .picture).advance cycles .serial) ∧
      (∀ a, a ≠ 0xff04 → a ≠ 0xff05 → a ≠ 0xff0f →
        (h.advance cycles .timer).bus.read a = h.bus.read a) ∧
      (h.advance cycles .timer).bus.read 0xff0f &&& 0xfb = h.bus.read 0xff0f &&& 0xfb ∧
      (∀ a, a ≠ 0xff44 → a ≠ 0xff41 → a ≠ 0xff0f →
        (h.advance cycles .picture).bus.read a = h.bus.read a) ∧
      (h.advance cycles .picture).bus.read 0xff41 &&& 0xf8 = h.bus.read 0xff41 &&& 0xf8 ∧
      (h.advance cycles .picture).bus.read 0xff0f &&& 0xfc = h.bus.read 0xff0f &&& 0xfc ∧
      (∀ a, a ≠ 0xff01 → a ≠ 0xff02 → a ≠ 0xff0f →
        (h.advance cycles .serial).bus.read a = h.bus.read a) ∧
      (h.advance cycles .serial).bus.read 0xff02 &&& 0x7f = h.bus.read 0xff02 &&& 0x7f ∧
      (h.advance cycles .serial).bus.read 0xff0f &&& 0xf7 = h.bus.read 0xff0f &&& 0xf7 := by
  refine ⟨?_, ?_, ?_, ?_, ?_, ?_, ?_, ?_, ?_⟩
  · intro order horder
    exact horder.foldl_eq' (fun x _ y _ h => advance_comm cycles h x y) h
  · intro a hdiv htima hflags
    exact h.bus.read_tick_of_ne _ hdiv htima hflags
  · exact h.bus.read_interruptFlags_tick _
  · intro a hline hstat hflags
    exact h.picture.read_step_of_ne h.bus _ hstat hline hflags
  · exact h.picture.read_status_step h.bus _
  · exact h.picture.read_interruptFlags_step h.bus _
  · intro a hdata hcontrol hflags
    exact h.bus.read_serial_of_ne _ hdata hcontrol hflags
  · exact h.bus.read_serialControl_serial _
  · exact h.bus.read_interruptFlags_serial _

/-- The display is on and the tenth line about to end, the counter about to overflow, and a transfer
about to be done. -/
structure AllDue (h : Hardware) : Prop where
  control : h.bus.read 0xff40 = 0x80
  line : h.bus.read 0xff44 = 9
  counter : h.picture.counter = 4
  timer : h.bus.timer = { tima := 0xff, tma := 0x42, tac := 5, counterCycles := 12, period := 16 }
  serial : h.bus.read 0xff02 = 0x81
  plug : h.bus.plug = some (.cable { master := true, delay := 4, countdown := 4 })

namespace AllDue

variable {h : Hardware} (hall : h.AllDue)
include hall

theorem read_timer : (h.advance (fun _ => 4) .timer).bus.read 0xff05 = 0x42 := by
  have hread : ∀ b : Bus, b.read 0xff05 = b.timer.tima := fun _ => rfl
  have htick : (h.bus.tick 4).timer = (h.bus.timer.advance 4).2 := by
    unfold Bus.tick
    dsimp only
    split <;> rfl
  rw [hread, advance]
  dsimp only
  rw [htick, hall.timer]
  decide

theorem read_line : (h.advance (fun _ => 4) .picture).bus.read 0xff44 = 10 := by
  have hon : PictureUnit.on h.bus = true := by
    rw [PictureUnit.on, hall.control]
    decide
  have hline : h.bus.read PictureUnit.lyAddress = 9 := hall.line
  have hcounter := hall.counter
  have hfour : signed32 4 = 4 := by decide
  have hstep := h.picture.step_advance h.bus 4
  unfold advance
  generalize h.picture.step h.bus 4 = r at hstep
  cases hstep with
  | off hoff => exact absurd (hon.symm.trans hoff) (by decide)
  | within _ hleft => omega
  | completed _ _ hlast => exact absurd (hline.symm.trans hlast) (by decide)
  | blank _ _ hlate =>
    rw [hline] at hlate
    exact absurd hlate (by decide)
  | drawn =>
    rw [hline]
    exact Bus.read_store_self _ _ (by decide)

theorem read_serial : (h.advance (fun _ => 4) .serial).bus.read 0xff02 = 0x01 := by
  have hcell : h.bus.cells.get 0xff02 = 0x81 := by
    rw [← Bus.read_eq_cell _ (by decide)]
    exact hall.serial
  have hdue : (Link.Plug.cable { master := true, delay := 4, countdown := 4 }).receive 4 =
      (⟨0xff, true⟩, .cable { master := true, delay := 4 }) := by decide
  unfold advance Bus.serial
  dsimp only
  rw [hall.plug]
  dsimp only
  rw [hdue, if_pos rfl, Bus.completeTransfer, Bus.read_report,
    Bus.read_request_of_ne _ _ (by decide), Bus.read_store_self _ _ (by decide)]
  dsimp only
  rw [hcell]
  decide

end AllDue

def busy : Hardware where
  picture := { counter := 4 }
  bus :=
    { (((default : Bus).store 0xff40 0x80).store 0xff44 9).store 0xff02 0x81 with
      timer := { tima := 0xff, tma := 0x42, tac := 5, counterCycles := 12, period := 16 }
      plug := some (.cable { master := true, delay := 4, countdown := 4 }) }

theorem allDue_busy : busy.AllDue := by
  have hread : ∀ a, (Region.ofAddress a).isCell → busy.bus.read a =
      ((((default : Bus).store 0xff40 0x80).store 0xff44 9).store 0xff02 0x81).read a := by
    intro a ha
    rw [Bus.read_eq_cell _ ha, Bus.read_eq_cell _ ha]
    rfl
  refine ⟨?_, ?_, rfl, rfl, ?_, rfl⟩
  · exact (hread _ (by decide)).trans ((Bus.read_store_of_ne _ _ (by decide)).trans
      ((Bus.read_store_of_ne _ _ (by decide)).trans (Bus.read_store_self _ _ (by decide))))
  · exact (hread _ (by decide)).trans ((Bus.read_store_of_ne _ _ (by decide)).trans
      (Bus.read_store_self _ _ (by decide)))
  · exact (hread _ (by decide)).trans (Bus.read_store_self _ _ (by decide))

def busyAfter (order : List Part) : Hardware := order.foldl (advance fun _ => 4) busy

theorem busyAfter_eq (x y z : Part) : busyAfter [x, y, z] =
    ((busy.advance (fun _ => 4) x).advance (fun _ => 4) y).advance (fun _ => 4) z := rfl

/-- Each of them changes its own registers, whatever has moved on before it. -/
theorem advance_in_any_order_busy :
    busyAfter [.serial, .picture, .timer] = busyAfter [.timer, .picture, .serial] ∧
      (busyAfter [.serial, .picture, .timer]).bus.read 0xff05 = 0x42 ∧
      (busyAfter [.serial, .picture, .timer]).bus.read 0xff44 = 10 ∧
      (busyAfter [.serial, .picture, .timer]).bus.read 0xff02 = 0x01 := by
  have hsame : ∀ order : List Part, order.Perm [.timer, .picture, .serial] →
      busyAfter order = busyAfter [.timer, .picture, .serial] :=
    (advance_in_any_order (fun _ => 4) busy).1
  have hlast := hsame [.serial, .picture, .timer] (by decide)
  refine ⟨hlast, ?_, ?_, ?_⟩ <;> rw [hlast]
  · rw [busyAfter_eq]
    obtain ⟨-, -, -, -, -, -, hserial, -⟩ := advance_in_any_order (fun _ => 4)
      ((busy.advance (fun _ => 4) .timer).advance (fun _ => 4) .picture)
    obtain ⟨-, -, -, hpicture, -⟩ := advance_in_any_order (fun _ => 4)
      (busy.advance (fun _ => 4) .timer)
    exact (hserial 0xff05 (by decide) (by decide) (by decide)).trans
      ((hpicture 0xff05 (by decide) (by decide) (by decide)).trans allDue_busy.read_timer)
  · rw [← hsame [.picture, .timer, .serial] (by decide), busyAfter_eq]
    obtain ⟨-, -, -, -, -, -, hserial, -⟩ := advance_in_any_order (fun _ => 4)
      ((busy.advance (fun _ => 4) .picture).advance (fun _ => 4) .timer)
    obtain ⟨-, htimer, -⟩ := advance_in_any_order (fun _ => 4) (busy.advance (fun _ => 4) .picture)
    exact (hserial 0xff44 (by decide) (by decide) (by decide)).trans
      ((htimer 0xff44 (by decide) (by decide) (by decide)).trans allDue_busy.read_line)
  · rw [← hsame [.serial, .timer, .picture] (by decide), busyAfter_eq]
    obtain ⟨-, -, -, hpicture, -⟩ := advance_in_any_order (fun _ => 4)
      ((busy.advance (fun _ => 4) .serial).advance (fun _ => 4) .timer)
    obtain ⟨-, htimer, -⟩ := advance_in_any_order (fun _ => 4) (busy.advance (fun _ => 4) .serial)
    exact (hpicture 0xff02 (by decide) (by decide) (by decide)).trans
      ((htimer 0xff02 (by decide) (by decide) (by decide)).trans allDue_busy.read_serial)

end Hardware

end Handheld
