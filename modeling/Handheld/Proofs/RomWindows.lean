import Handheld.Proofs.MachineRanges
import Mathlib.Algebra.Order.Floor.Div

/-!
# The two windows on the image

Nothing that happens on a bus changes the image in it. The lower window shows the image's start
for ever, and the upper one shows the bank that the controller has in place.
-/

namespace Handheld

namespace Cartridge.Rom

theorem byteAt_eq (image : ByteArray) (i : Nat) : byteAt image i = image.data.getD i 0xff := by
  unfold byteAt Array.getD
  rfl

theorem bankCount_eq (image : ByteArray) : bankCount image = max 1 (image.size ⌈/⌉ 0x4000) := by
  rw [Nat.max_comm, Nat.ceilDiv_eq_add_pred_div]
  rfl

theorem read_lower (image : ByteArray) {a : UInt16} (h : a < 0x4000) :
    read image 0 a = image.data.getD a.toNat 0xff := by
  have hlt : a.toNat < 0x4000 := h
  have hoffset : offset image 0 a = a.toNat := by
    unfold offset bankSize
    rw [Nat.zero_mod]
    omega
  rw [read, hoffset, byteAt_eq]

theorem read_upper (image : ByteArray) (k : Nat) {a : UInt16} (h : 0x4000 ≤ a) (h' : a < 0x8000) :
    read image k a =
      image.data.getD (k % max 1 (image.size ⌈/⌉ 0x4000) * 0x4000 + (a.toNat - 0x4000)) 0xff := by
  have hle : 0x4000 ≤ a.toNat := h
  have hlt : a.toNat < 0x8000 := h'
  have hoffset : a.toNat % bankSize = a.toNat - 0x4000 := by
    unfold bankSize
    omega
  rw [read, offset, hoffset, byteAt_eq, bankCount_eq]
  rfl

end Cartridge.Rom

namespace Bus

open Cartridge (Kind Controller Rom.read_lower Rom.read_upper)

/-! ## What every change keeps -/

/-- The bus still has the image in it, with a copy of its start, behind a controller that shows one
of its banks. -/
structure Windowed (image : ByteArray) (kind : Kind) (bus : Bus) : Prop where
  image_eq : bus.cartridge.image = image
  kind_eq : bus.cartridge.controller.kind = kind
  bank : kind.Selects bus.cartridge.controller.romBank
  copy : ∀ a < 0x4000, bus.cells.get a = Cartridge.Rom.read image 0 a

variable {image : ByteArray} {kind : Kind} {bus bus' : Bus}

theorem Windowed.call (h : Windowed image kind bus) (k : Controller.Call) :
    Windowed image kind
      { bus with cartridge.controller := bus.cartridge.controller.call k } := by
  have hbank := h.bank
  rw [← h.kind_eq] at hbank
  have hcall := Controller.selects_call hbank k
  rw [h.kind_eq] at hcall
  exact ⟨h.image_eq, (Controller.kind_call _ k).trans h.kind_eq, hcall, h.copy⟩

theorem Windowed.change (hchange : Change bus bus') (h : Windowed image kind bus) :
    Windowed image kind bus' := by
  cases hchange with
  | @store a v ha =>
    refine ⟨h.image_eq, h.kind_eq, h.bank, ?_⟩
    intro b hb
    have hne : a ≠ b := by grind
    exact (Cells.get_set_of_ne _ v hne).trans (h.copy b hb)
  | cartridge k => exact h.call k
  | timer | request | acknowledge | flags => exact ⟨h.image_eq, h.kind_eq, h.bank, h.copy⟩
  | rest hcells hcartridge =>
    refine ⟨?_, ?_, ?_, ?_⟩
    · rw [hcartridge, h.image_eq]
    · rw [hcartridge, h.kind_eq]
    · rw [hcartridge]
      exact h.bank
    · rw [hcells]
      exact h.copy

theorem Windowed.changes (hchanges : Changes bus bus') (h : Windowed image kind bus) :
    Windowed image kind bus' :=
  hchanges.keeps (fun _ _ => Windowed.change) h

theorem Windowed.tick (h : Windowed image kind bus) (cycles : Nat) :
    Windowed image kind (bus.tick cycles) :=
  Windowed.changes (changes_tick bus cycles) ⟨h.image_eq, h.kind_eq, h.bank, h.copy⟩

theorem windowed_powerOn (image : ByteArray) (kind : Kind) (ramSize clockHz : Nat) (sound : Bool)
    (log : Log) :
    Windowed image kind (powerOn ⟨image, .powerOn kind ramSize clockHz⟩ sound log) := by
  refine Windowed.changes (changes_foldl (fun b w _ => changes_write b w.1 w.2) _) ?_
  refine ⟨rfl, Controller.kind_powerOn kind ramSize clockHz,
    Controller.selects_powerOn kind ramSize clockHz, ?_⟩
  intro a ha
  rw [Cells.get_ofFn, if_pos ha]
  rfl

/-! ## Runs -/

/-- What can happen on a bus: writes, and whatever any processor, any picture unit, the passing of
time, the serial line, input and the devices plugged in do to it. -/
inductive Action where
  | write (address : UInt16) (v : UInt8)
  | writeWord (address v : UInt16)
  | step (cpu : Cpu)
  | service (cpu : Cpu)
  | advance (picture : PictureUnit) (cycles : Nat)
  | tick (cycles : Nat)
  | serial (cycles : Nat)
  | poll (found : Keypad.Poll)
  | attach (plug : Option Link.Plug) (recorder : Option SoundRecorder)

def act (bus : Bus) : Action → Bus
  | .write address v => bus.write address v
  | .writeWord address v => bus.writeWord address v
  | .step cpu => (stateAfter (cpu.step bus)).bus
  | .service cpu => (cpu.service bus).2.bus
  | .advance picture cycles => (picture.step bus cycles).2.2
  | .tick cycles => bus.tick cycles
  | .serial cycles => bus.serial cycles
  | .poll found => (Board.applyPoll { bus } found).bus
  | .attach plug recorder => { bus with plug, recorder }

def run (bus : Bus) (actions : List Action) : Bus := actions.foldl act bus

theorem Windowed.act (h : Windowed image kind bus) (action : Action) :
    Windowed image kind (bus.act action) := by
  cases action with
  | write a v => exact Windowed.changes (changes_write bus a v) h
  | writeWord a v => exact Windowed.changes (changes_writeWord bus a v) h
  | step cpu => exact Windowed.changes (Cpu.changes_step cpu bus) h
  | service cpu => exact Windowed.changes (Cpu.changes_service cpu bus) h
  | advance p cycles => exact Windowed.changes (PictureUnit.changes_step p bus cycles) h
  | tick cycles => exact h.tick cycles
  | serial cycles => exact Windowed.changes (changes_serial bus cycles) h
  | poll found => exact Windowed.changes (Board.changes_applyPoll { bus } found) h
  | attach plug recorder => exact ⟨h.image_eq, h.kind_eq, h.bank, h.copy⟩

theorem Windowed.run (h : Windowed image kind bus) (actions : List Action) :
    Windowed image kind (bus.run actions) := by
  induction actions generalizing bus with
  | nil => exact h
  | cons action actions ih => exact ih (h.act action)

theorem Windowed.read_lower (h : Windowed image kind bus) {a : UInt16} (ha : a < 0x4000) :
    bus.read a = bus.cartridge.readFixed a ∧ bus.read a = image.data.getD a.toNat 0xff := by
  have hregion : (Region.ofAddress a).isCell := by
    rw [Region.ofAddress, if_pos ha]
    rfl
  have hread : bus.read a = Cartridge.Rom.read image 0 a :=
    (read_eq_cell bus hregion).trans (h.copy a ha)
  refine ⟨?_, hread.trans (Rom.read_lower image ha)⟩
  rw [hread, Cartridge.readFixed, h.image_eq]

theorem Windowed.read_upper (h : Windowed image kind bus) {a : UInt16} (ha : 0x4000 ≤ a)
    (ha' : a < 0x8000) :
    bus.read a = image.data.getD
      (bus.cartridge.controller.romBank % max 1 (image.size ⌈/⌉ 0x4000) * 0x4000 +
        (a.toNat - 0x4000)) 0xff := by
  have hregion : Region.ofAddress a = .romBanked := by
    rw [Region.ofAddress, if_neg (by grind), if_pos ha']
  have hread : bus.read a = bus.cartridge.readBanked a := by simp only [read, hregion]
  rw [hread, Cartridge.readBanked, h.image_eq]
  exact Rom.read_upper image _ ha ha'

/-- Whatever happens on a bus, the lower window shows the start of the image and the upper one the
bank in place, and that is a bank the controller can show. -/
theorem windows_run (image : ByteArray) (kind : Kind) (ramSize clockHz : Nat) (sound : Bool)
    (log : Log) (actions : List Action) :
    let bus := (powerOn ⟨image, .powerOn kind ramSize clockHz⟩ sound log).run actions
    let k := bus.cartridge.controller.romBank
    let n := max 1 (image.size ⌈/⌉ 0x4000)
    (∀ a < 0x4000, bus.read a = bus.cartridge.readFixed a ∧
        bus.read a = image.data.getD a.toNat 0xff) ∧
      (∀ a, 0x4000 ≤ a → a < 0x8000 →
        bus.read a = image.data.getD (k % n * 0x4000 + (a.toNat - 0x4000)) 0xff) ∧
      kind.Selects k := by
  intro bus k n
  have hbus : Windowed image kind bus :=
    (windowed_powerOn image kind ramSize clockHz sound log).run actions
  exact ⟨fun a ha => hbus.read_lower ha, fun a ha ha' => hbus.read_upper ha ha', hbus.bank⟩

theorem windows_run_two_bytes :
    let bus := (powerOn ⟨⟨#[0x3c, 0x3d]⟩, .powerOn .mbc1 0 1⟩ false {}).run
      [.write 0x2000 5, .write 0x0001 0xff, .tick 4]
    bus.read 0x0001 = 0x3d ∧ bus.read 0x4001 = 0x3d ∧ bus.read 0x7fff = 0xff := by
  intro bus
  obtain ⟨hlower, hupper, -⟩ := windows_run ⟨#[0x3c, 0x3d]⟩ .mbc1 0 1 false {}
    [.write 0x2000 5, .write 0x0001 0xff, .tick 4]
  have hcount : max 1 (ByteArray.size ⟨#[0x3c, 0x3d]⟩ ⌈/⌉ 0x4000) = 1 := by decide
  rw [hcount] at hupper
  simp only [Nat.mod_one] at hupper
  refine ⟨(hlower 0x0001 (by decide)).2, ?_, ?_⟩
  · exact (hupper 0x4001 (by decide) (by decide)).trans (by decide)
  · exact (hupper 0x7fff (by decide) (by decide)).trans (by decide)

end Bus

/-! ## Machines -/

namespace Machine

open Bus (Windowed)

theorem windowed_ofImage {image : ByteArray} {config : Config} {log : Log} {m : Machine}
    (h : ofImage image config log = .ok m) : ∃ kind, Windowed image kind m.board.bus := by
  obtain ⟨⟨kind, ramSize, log', hboard⟩, -⟩ := powerOn_of_ofImage h
  rw [hboard]
  exact ⟨kind, Bus.windowed_powerOn image kind _ _ _ _⟩

theorem windowed_act {image : ByteArray} {kind : Cartridge.Kind} {m : Machine}
    (h : Windowed image kind m.board.bus) (action : Action) :
    Windowed image kind (m.act action).board.bus :=
  bus_act_keeps (fun _ _ => Windowed.change) (fun _ t _ hb => hb.tick t) h action

theorem exists_reachable (image : ByteArray) (config : Config)
    (hload : (Cartridge.load image config.clockHz.toNat).isOk = true) (flags enable : UInt8) :
    ∃ m kind, Reachable m ∧ m.config = config ∧ Windowed image kind m.board.bus ∧
      m.board.cpu = .powerOn ∧ m.board.bus.interruptFlags = flags &&& 0x1f ∧
      m.board.bus.interruptEnable = enable := by
  obtain ⟨m, hm⟩ := ofImage_of_load hload
  obtain ⟨kind, hwindow⟩ := windowed_ofImage hm
  have hcpu := cpu_ofImage hm
  have hconfig := config_ofImage hm
  have hchanges : Bus.Changes m.board.bus
      { m.board.bus with interruptFlags := flags &&& 0x1f, interruptEnable := enable } :=
    (Bus.Change.flags m.board.bus flags).changes.tail (.rest rfl rfl rfl rfl)
  exact ⟨_, kind, (Reachable.powerOn hm).changes hchanges, hconfig,
    Windowed.changes hchanges hwindow, hcpu, rfl, rfl⟩

end Machine

end Handheld
