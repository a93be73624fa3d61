import Handheld.Cpu.Step
import Handheld.Proofs.BusReads

/-!
# What a plug is asked

Writes set its status and hand it bytes. Only the serial line lets cycles pass.
-/

namespace Handheld

/-! ## The calls of a plug -/

namespace Link

def Call.received? : Call → Option Nat
  | .receive cycles => some cycles
  | _ => none

namespace Plug

def asked (p : Plug) : Call → Plug
  | .status master start => p.setStatus master start
  | .send byte => p.send byte
  | .receive cycles => (p.receive cycles).2

def after (p : Plug) (calls : List Call) : Plug := calls.foldl asked p

theorem after_append (p : Plug) (calls calls' : List Call) :
    p.after (calls ++ calls') = (p.after calls).after calls' := by
  unfold after
  rw [List.foldl_append]

end Plug

end Link

/-! ## Bus -/

namespace Bus

open Link (Call Plug)

/-- The second bus has the plug of the first one, after calls that let cycles pass as given. -/
def Asks (bus bus' : Bus) (passed : List Nat) : Prop :=
  ∃ calls : List Call, calls.filterMap Call.received? = passed ∧
    bus'.plug = bus.plug.map (·.after calls)

theorem Asks.refl {bus bus' : Bus} (h : bus'.plug = bus.plug) : bus.Asks bus' [] := by
  refine ⟨[], rfl, ?_⟩
  rw [h]
  cases bus.plug <;> rfl

theorem Asks.trans {a b c : Bus} {passed passed' : List Nat} (hab : a.Asks b passed)
    (hbc : b.Asks c passed') : a.Asks c (passed ++ passed') := by
  obtain ⟨calls, rfl, hb⟩ := hab
  obtain ⟨calls', rfl, hc⟩ := hbc
  refine ⟨calls ++ calls', List.filterMap_append, ?_⟩
  rw [hc, hb]
  cases a.plug with
  | none => rfl
  | some plug => exact congrArg some (plug.after_append calls calls').symm

theorem plug_write_of_ne (bus : Bus) {a : UInt16} (v : UInt8) (h : a ≠ 0xff02) :
    (bus.write a v).plug = bus.plug := by
  cases ha : Region.ofAddress a <;> simp only [write, ha]
  case serialControl => exact absurd (Region.covers_of_eq ha) h
  case sound => exact apply_hear (f := Bus.plug) (fun _ _ => rfl) _ a v
  case dma => exact apply_dma (fun _ _ _ => rfl) (fun _ _ => rfl) bus v
  all_goals rfl

end Bus

end Handheld
