import Handheld.Machine
import Handheld.Proofs.InstructionEffects
import Handheld.Proofs.PictureRuns
import Mathlib.Logic.Relation

/-!
# What can change on a bus

Whatever processor, picture unit, serial line and input do to a bus is a sequence of a few small
changes. What each of those keeps is kept by all of them.
-/

namespace Handheld

namespace Bus

/-- A small change. No cell below 0x8000 is written, and the line register takes no value that is
not a line. -/
inductive Change : Bus → Bus → Prop
  | store (bus : Bus) {a : UInt16} {v : UInt8} (ha : 0x8000 ≤ a) (hline : a = 0xff44 → v ≤ 153) :
    Change bus (bus.store a v)
  | cartridge (bus : Bus) (call : Cartridge.Controller.Call) :
    Change bus
      { bus with cartridge.controller := bus.cartridge.controller.call call }
  | timer (bus : Bus) (r : Timer.Register) (v : UInt8) :
    Change bus { bus with timer := bus.timer.write r v }
  | request (bus : Bus) (i : Interrupt) : Change bus (bus.request i)
  | acknowledge (bus : Bus) (i : Interrupt) : Change bus (bus.acknowledge i)
  | flags (bus : Bus) (v : UInt8) : Change bus { bus with interruptFlags := v &&& 0x1f }
  /-- Everything else, from the joypad to the log. -/
  | rest {bus bus' : Bus} (hcells : bus'.cells = bus.cells)
    (hcartridge : bus'.cartridge = bus.cartridge) (htimer : bus'.timer = bus.timer)
    (hflags : bus'.interruptFlags = bus.interruptFlags) : Change bus bus'

abbrev Changes : Bus → Bus → Prop := Relation.ReflTransGen Change

theorem Changes.keeps {P : Bus → Prop} (hP : ∀ b b', Change b b' → P b → P b') {bus bus' : Bus}
    (h : Changes bus bus') (hbus : P bus) : P bus' := by
  induction h with
  | refl => exact hbus
  | tail _ hchange ih => exact hP _ _ hchange ih

theorem Change.changes {bus bus' : Bus} (h : Change bus bus') : Changes bus bus' := .single h

theorem changes_foldl {α : Type} {f : Bus → α → Bus} {xs : List α}
    (hf : ∀ b, ∀ x ∈ xs, Changes b (f b x)) (bus : Bus) : Changes bus (xs.foldl f bus) := by
  induction xs generalizing bus with
  | nil => exact .refl
  | cons x xs ih =>
    have hfirst := hf bus x List.mem_cons_self
    exact hfirst.trans (ih (fun b y hy => hf b y (List.mem_cons_of_mem _ hy)) (f bus x))

/-! ## Writes -/

theorem changes_serialControl (bus : Bus) (v : UInt8) : Changes bus (bus.serialControl v) := by
  unfold serialControl
  cases bus.plug with
  | none => exact .refl
  | some plug =>
    dsimp only
    split
    · exact .single (.rest rfl rfl rfl rfl)
    · exact .single (.rest rfl rfl rfl rfl)

theorem changes_hear (bus : Bus) (a : UInt16) (v : UInt8) : Changes bus (bus.hear a v) := by
  unfold hear
  split
  · cases bus.recorder with
    | none => exact .refl
    | some r => exact .single (.rest rfl rfl rfl rfl)
  · exact .refl

theorem changes_dma (bus : Bus) (v : UInt8) : Changes bus (bus.dma v) := by
  have hreport : Change bus (bus.report (.dmaStarted (Word.ofBytes v 0))) := .rest rfl rfl rfl rfl
  refine hreport.changes.trans (changes_foldl ?_ _)
  intro b i hi
  have hsprite := sprite_address (List.mem_range.1 hi)
  exact .single (.store b (by grind) (by grind))

theorem changes_write (bus : Bus) (a : UInt16) (v : UInt8) : Changes bus (bus.write a v) := by
  cases ha : Region.ofAddress a <;> have hc := Region.covers_of_eq ha <;>
    simp only [Region.Covers] at hc <;> simp only [write, ha]
  case romFixed | romBanked =>
    have hcontrol := Change.cartridge bus (.control a v)
    exact hcontrol.changes.tail (.rest rfl rfl rfl rfl)
  case cartridgeRam => exact .single (.cartridge bus (.writeRam a v))
  case echo =>
    have hupper : Change bus (bus.store a v) := .store bus (by grind) (by grind)
    exact hupper.changes.tail (.store _ (by grind) (by grind))
  case unusable => exact .refl
  case serialControl =>
    have hstore : Change bus (bus.store a v) := .store bus (by grind) (by grind)
    exact hstore.changes.trans (changes_serialControl _ v)
  case timer =>
    have hwrite := Change.timer bus (.ofAddress a) v
    exact hwrite.changes.tail (.rest rfl rfl rfl rfl)
  case interruptFlags => exact .single (.flags bus v)
  case sound =>
    have hstore : Change bus (bus.store a v) := .store bus (by grind) (by grind)
    exact hstore.changes.trans (changes_hear _ a v)
  case dma => exact changes_dma bus v
  case interruptEnable => exact .single (.rest rfl rfl rfl rfl)
  case lcdLine => exact .single (.store bus (by grind) fun _ => by decide)
  case joypad | serialData | lcdStatus | plain =>
    exact .single (.store bus (by grind) (by grind))

theorem changes_writeWord (bus : Bus) (a v : UInt16) : Changes bus (bus.writeWord a v) :=
  (changes_write bus a _).trans (changes_write _ _ _)

theorem changes_storeAll (bus : Bus) (stores : List Cpu.Store) :
    Changes bus (bus.storeAll stores) :=
  changes_foldl (fun b s _ => changes_write b s.address s.value) bus

/-! ## Timer and serial line -/

theorem changes_tick (bus : Bus) (cycles : Nat) :
    Changes { bus with timer := (bus.timer.advance cycles).2 } (bus.tick cycles) := by
  have hcartridge :=
    Change.cartridge { bus with timer := (bus.timer.advance cycles).2 } (.tick cycles)
  unfold tick
  dsimp only
  split
  · exact hcartridge.changes.tail (.request _ .timer)
  · exact hcartridge.changes

theorem changes_completeTransfer (bus : Bus) (byte : UInt8) :
    Changes bus (bus.completeTransfer byte) := by
  have hreceived : Change bus { bus with received := byte } := .rest rfl rfl rfl rfl
  have hstore : Change { bus with received := byte }
      ({ bus with received := byte }.store 0xff02 (bus.cells.get 0xff02 &&& 0x7f)) :=
    .store _ (by decide) fun h => absurd h (by decide)
  exact ((hreceived.changes.tail hstore).tail (.request _ .serial)).tail (.rest rfl rfl rfl rfl)

theorem changes_serial (bus : Bus) (cycles : Nat) : Changes bus (bus.serial cycles) := by
  unfold serial
  cases bus.plug with
  | none => exact .refl
  | some plug =>
    dsimp only
    have hplug : Change bus { bus with plug := some (plug.receive cycles).2 } :=
      .rest rfl rfl rfl rfl
    split
    · exact hplug.changes.trans (changes_completeTransfer _ _)
    · exact hplug.changes

end Bus

/-! ## The processor -/

namespace Cpu

open Bus (Change Changes)

theorem changes_trace (cpu : Cpu) (bus : Bus) (i : Instruction) :
    Changes bus (cpu.trace bus i) := by
  unfold trace
  split
  · exact .single (.rest rfl rfl rfl rfl)
  · exact .refl

theorem changes_step (cpu : Cpu) (bus : Bus) :
    Changes bus (stateAfter (cpu.step bus)).bus := by
  have hstepped := cpu.stepped bus
  generalize cpu.step bus = r at hstepped
  cases hstepped with
  | waited | illegal => exact .refl
  | ran i => exact (changes_trace cpu bus i).trans (Bus.changes_storeAll _ _)

theorem changes_enter (cpu : Cpu) (bus : Bus) (i : Interrupt) :
    Changes bus (cpu.enter bus i).bus := by
  have hacknowledge := (Change.acknowledge bus i).changes
  exact (hacknowledge.trans (Bus.changes_storeAll _ _)).tail (.rest rfl rfl rfl rfl)

theorem changes_service (cpu : Cpu) (bus : Bus) : Changes bus (cpu.service bus).2.bus := by
  have hserviced := cpu.serviced bus
  generalize cpu.service bus = r at hserviced
  cases hserviced with
  | enabled | passed | woken => exact .refl
  | entered i => exact changes_enter cpu bus i

end Cpu

/-! ## The picture unit -/

namespace PictureUnit

open Bus (Change Changes)

theorem changes_updateStatus (counter : Int) (bus : Bus) :
    Changes bus (updateStatus counter bus) := by
  have hline : statAddress ≠ 0xff44 := by decide
  unfold updateStatus
  dsimp only
  split
  · exact (Change.request bus .lcdStat).changes.tail (.store _ (by decide) fun h => absurd h hline)
  · exact .single (.store bus (by decide) fun h => absurd h hline)

theorem changes_offBus (bus : Bus) : Changes bus (offBus bus) := by
  have hline : Change bus (bus.store lyAddress 0) := .store bus (by decide) fun _ => by decide
  exact hline.changes.tail (.store _ (by decide) fun h => absurd h (by decide))

theorem changes_step (p : PictureUnit) (bus : Bus) (cycles : Nat) :
    Changes bus (p.step bus cycles).2.2 := by
  have hstep := step_advance p bus cycles
  have hstatus := changes_updateStatus p.counter bus
  generalize p.step bus cycles = r at hstep
  cases hstep with
  | off => exact changes_offBus bus
  | within => exact hstatus
  | drawn hon hleft hline => exact hstatus.tail (.store _ (by decide) (by grind))
  | completed =>
    exact (hstatus.tail (.store _ (by decide) fun _ => by decide)).tail (.request _ .vBlank)
  | blank => exact hstatus.tail (.store _ (by decide) (by grind [lastLine]))

end PictureUnit

theorem Board.changes_applyPoll (board : Board) (found : Keypad.Poll) :
    Bus.Changes board.bus (board.applyPoll found).bus := by
  have hregister : Bus.Change board.bus { board.bus with joypad := found.register } :=
    .rest rfl rfl rfl rfl
  unfold applyPoll
  dsimp only
  split
  · exact hregister.changes.tail (.request _ .joypad)
  · exact hregister.changes

end Handheld
