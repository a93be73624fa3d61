/-!
# Memory cells

One byte for each of the 65536 addresses.
-/

namespace Handheld

structure Cells where
  bytes : Vector UInt8 65536

namespace Cells

def ofFn (f : UInt16 → UInt8) : Cells := ⟨Vector.ofFn fun i => f (UInt16.ofFin i)⟩

def get (c : Cells) (address : UInt16) : UInt8 := c.bytes[address.toFin]

def set (c : Cells) (address : UInt16) (v : UInt8) : Cells :=
  ⟨c.bytes.set address.toFin v⟩

def slice (c : Cells) (address : UInt16) (n : Nat) : List UInt8 :=
  (List.range n).map fun i => c.get (address + UInt16.ofNat i)

@[simp] theorem get_ofFn (f : UInt16 → UInt8) (a : UInt16) : (ofFn f).get a = f a := by
  simp [get, ofFn]

@[simp] theorem get_set_self (c : Cells) (a : UInt16) (v : UInt8) : (c.set a v).get a = v := by
  simp [get, set]

theorem get_set (c : Cells) (a b : UInt16) (v : UInt8) :
    (c.set a v).get b = if a = b then v else c.get b := by
  simp only [get, set, Fin.getElem_fin, Vector.getElem_set]
  congr 1
  rw [← UInt16.toNat_inj]
  rfl

theorem get_set_of_ne (c : Cells) {a b : UInt16} (v : UInt8) (h : a ≠ b) :
    (c.set a v).get b = c.get b := by
  simp [get_set, h]

instance : Inhabited Cells := ⟨ofFn fun _ => 0⟩

end Cells

end Handheld
