import Handheld.Proofs.ControllerCalls
import Mathlib.Data.Nat.Bitwise

/-!
# What the control registers hold

A controller's registers hold what was last written to them. Only an MBC1 makes that hard to see: it
writes its ROM bank in two parts, and what one of its registers selects depends on the mode.
-/

namespace Handheld.Cartridge

/-! ## Histories -/

structure ControlWrite where
  address : UInt16
  v : UInt8
deriving Repr, DecidableEq

/-- Whether a write goes to an address from `low` on and below `high`. -/
def ControlWrite.within (w : ControlWrite) (low high : Nat) : Bool :=
  low ≤ w.address.toNat && w.address.toNat < high

/-- The control writes so far, the newest first. -/
abbrev History := List ControlWrite

namespace History

/-- The history up to its newest write that satisfies `p`, which is also told the writes before. -/
def upTo (p : History → ControlWrite → Bool) : History → History
  | [] => []
  | w :: earlier => if p earlier w then w :: earlier else upTo p earlier

/-- The value of the newest write that satisfies `p`, and 0 before the first one. -/
def last (p : History → ControlWrite → Bool) (h : History) : Nat :=
  ((h.upTo p).head?.map (·.v.toNat)).getD 0

end History

/-! ## The registers as functions of the history -/

/-- The gate is open if the low four bits of the last write to its register are 10. -/
def gateAfter (p : History → ControlWrite → Bool) (h : History) : Bool := h.last p % 16 == 10

def oneForZero (n : Nat) : Nat := if n = 0 then 1 else n

namespace Mbc1

/-- Bit 0 of the last write to the mode register. -/
def modeAfter (h : History) : Mode :=
  if h.last (fun _ w => w.within 0x6000 0x8000) % 2 = 0 then .rom else .ram

/-- A write to the two-bit register that was made in a mode. -/
def selectsIn (mode : Mode) (earlier : History) (w : ControlWrite) : Bool :=
  w.within 0x4000 0x6000 && modeAfter earlier == mode

def clearsMode (w : ControlWrite) : Bool := w.within 0x6000 0x8000 && w.v.toNat % 2 == 0

/-- The last write to the two-bit register in RAM mode, unless the mode bit was cleared since. -/
def ramBankAfter (h : History) : Nat :=
  if (h.upTo fun _ w => clearsMode w).length < (h.upTo (selectsIn .ram)).length then
    h.last (selectsIn .ram) % 4
  else 0

/-- The last write to the two-bit register in ROM mode, above the last write to the low bits. -/
def romBankAfter (h : History) : Nat :=
  32 * (h.last (selectsIn .rom) % 4) +
    oneForZero (h.last (fun _ w => w.within 0x2000 0x4000) % 32)

end Mbc1

/-- What the control registers of a controller hold. -/
inductive Registers where
  | none
  | mbc1 (gate : Bool) (mode : Mbc1.Mode) (ramBank romBank : Nat)
  | mbc2 (gate : Bool) (romBank : Nat)
  | mbc3 (gate : Bool) (romBank select : Nat)
deriving Repr, DecidableEq

def Controller.registers : Controller → Registers
  | unbanked _ => .none
  | mbc1 c => .mbc1 c.ramOpen c.mode c.ramBank.toNat c.romBank.toNat
  | mbc2 c => .mbc2 c.ramOpen c.romBank.toNat
  | mbc3 c => .mbc3 c.ramOpen c.romBank.toNat c.select.toNat

/-- What the registers hold after a history. Those of an MBC2 share the lower half of the ROM area,
where address bit 8 tells them apart. -/
def Kind.registersAfter (kind : Kind) (h : History) : Registers :=
  match kind with
  | unbanked => .none
  | mbc1 =>
    .mbc1 (gateAfter (fun _ w => w.within 0 0x2000) h) (Mbc1.modeAfter h) (Mbc1.ramBankAfter h)
      (Mbc1.romBankAfter h)
  | mbc2 =>
    .mbc2 (gateAfter (fun _ w => w.within 0 0x4000 && !w.address.toNat.testBit 8) h)
      (oneForZero (h.last (fun _ w => w.within 0 0x4000 && w.address.toNat.testBit 8) % 16))
  | mbc3 _ =>
    .mbc3 (gateAfter (fun _ w => w.within 0 0x2000) h)
      (oneForZero (h.last (fun _ w => w.within 0x2000 0x4000) % 128))
      (h.last fun _ w => w.within 0x4000 0x6000)

/-! ## One more write -/

theorem ControlWrite.within_of_le_of_lt {w : ControlWrite} {low high : UInt16}
    (hlow : low ≤ w.address) (hhigh : w.address < high) :
    w.within low.toNat high.toNat = true := by
  have hlow' : low.toNat ≤ w.address.toNat := hlow
  have hhigh' : w.address.toNat < high.toNat := hhigh
  simp [within, hlow', hhigh']

theorem ControlWrite.not_within_of_le {w : ControlWrite} {low : Nat} {high : UInt16}
    (h : high ≤ w.address) : w.within low high.toNat = false := by
  have h' : high.toNat ≤ w.address.toNat := h
  simp only [within, Bool.and_eq_false_iff, decide_eq_false_iff_not]
  omega

theorem ControlWrite.elsewhere {w : ControlWrite} {low high low' high' : Nat}
    (hw : w.within low high = true) (h : high ≤ low' ∨ high' ≤ low) :
    w.within low' high' = false := by
  simp only [within, Bool.and_eq_true, decide_eq_true_eq] at hw
  simp only [within, Bool.and_eq_false_iff, decide_eq_false_iff_not]
  omega

namespace History

variable {p : History → ControlWrite → Bool} {h : History} {w : ControlWrite}

theorem upTo_cons_of_pos (hw : p h w = true) : upTo p (w :: h) = w :: h := if_pos hw

theorem upTo_cons_of_neg (hw : p h w = false) : upTo p (w :: h) = upTo p h :=
  if_neg (Bool.eq_false_iff.1 hw)

theorem last_cons_of_pos (hw : p h w = true) : last p (w :: h) = w.v.toNat := by
  rw [last, upTo_cons_of_pos hw]
  rfl

theorem last_cons_of_neg (hw : p h w = false) : last p (w :: h) = last p h := by
  rw [last, upTo_cons_of_neg hw, last]

theorem length_upTo_le (p : History → ControlWrite → Bool) (h : History) :
    (upTo p h).length ≤ h.length := by
  induction h with
  | nil => exact Nat.le_refl 0
  | cons w h ih =>
    unfold upTo
    split
    · exact Nat.le_refl _
    · exact Nat.le_succ_of_le ih

end History

section Gate

variable {p : History → ControlWrite → Bool} {h : History} {w : ControlWrite}

theorem opensRam_eq (v : UInt8) : opensRam v = (v.toNat % 16 == 10) := by
  have hlow : (v &&& 0x0f).toNat = v.toNat % 16 := Nat.and_two_pow_sub_one_eq_mod v.toNat 4
  rw [opensRam, ← hlow, Bool.eq_iff_iff, beq_iff_eq, beq_iff_eq, ← UInt8.toNat_inj]
  rfl

theorem gateAfter_of_written (hw : p h w = true) : gateAfter p (w :: h) = opensRam w.v := by
  rw [gateAfter, History.last_cons_of_pos hw, opensRam_eq]

theorem gateAfter_of_not_written (hw : p h w = false) : gateAfter p (w :: h) = gateAfter p h := by
  rw [gateAfter, History.last_cons_of_neg hw, gateAfter]

end Gate

namespace Mbc1

variable {h : History} {w : ControlWrite}

theorem modeAfter_of_written (hw : w.within 0x6000 0x8000 = true) :
    modeAfter (w :: h) = if w.v.toNat % 2 = 0 then .rom else .ram := by
  rw [modeAfter, History.last_cons_of_pos (p := fun _ w => w.within 0x6000 0x8000) hw]

theorem modeAfter_of_not_written (hw : w.within 0x6000 0x8000 = false) :
    modeAfter (w :: h) = modeAfter h := by
  rw [modeAfter, History.last_cons_of_neg (p := fun _ w => w.within 0x6000 0x8000) hw, modeAfter]

theorem ramBankAfter_of_cleared (hw : clearsMode w = true)
    (hother : selectsIn .ram h w = false) : ramBankAfter (w :: h) = 0 := by
  have hle := History.length_upTo_le (selectsIn .ram) h
  rw [ramBankAfter, History.upTo_cons_of_pos (p := fun _ w => clearsMode w) hw,
    History.upTo_cons_of_neg hother, if_neg]
  rw [List.length_cons]
  omega

theorem ramBankAfter_of_selected (hw : clearsMode w = false)
    (hselected : selectsIn .ram h w = true) : ramBankAfter (w :: h) = w.v.toNat % 4 := by
  have hle := History.length_upTo_le (fun _ w => clearsMode w) h
  rw [ramBankAfter, History.upTo_cons_of_neg (p := fun _ w => clearsMode w) hw,
    History.upTo_cons_of_pos hselected, History.last_cons_of_pos hselected, if_pos]
  rw [List.length_cons]
  omega

theorem ramBankAfter_of_neither (hw : clearsMode w = false)
    (hother : selectsIn .ram h w = false) : ramBankAfter (w :: h) = ramBankAfter h := by
  rw [ramBankAfter, History.upTo_cons_of_neg (p := fun _ w => clearsMode w) hw,
    History.upTo_cons_of_neg hother, History.last_cons_of_neg hother, ramBankAfter]

theorem romBankAfter_of_low (hw : w.within 0x2000 0x4000 = true)
    (hother : selectsIn .rom h w = false) :
    romBankAfter (w :: h) =
      32 * (h.last (selectsIn .rom) % 4) + oneForZero (w.v.toNat % 32) := by
  rw [romBankAfter, History.last_cons_of_pos (p := fun _ w => w.within 0x2000 0x4000) hw,
    History.last_cons_of_neg hother]

theorem romBankAfter_of_selected (hw : w.within 0x2000 0x4000 = false)
    (hselected : selectsIn .rom h w = true) :
    romBankAfter (w :: h) =
      32 * (w.v.toNat % 4) +
        oneForZero (h.last (fun _ w => w.within 0x2000 0x4000) % 32) := by
  rw [romBankAfter, History.last_cons_of_neg (p := fun _ w => w.within 0x2000 0x4000) hw,
    History.last_cons_of_pos hselected]

theorem romBankAfter_of_neither (hw : w.within 0x2000 0x4000 = false)
    (hother : selectsIn .rom h w = false) : romBankAfter (w :: h) = romBankAfter h := by
  rw [romBankAfter, History.last_cons_of_neg (p := fun _ w => w.within 0x2000 0x4000) hw,
    History.last_cons_of_neg hother, romBankAfter]

theorem romBankAfter_parts (h : History) :
    romBankAfter h / 32 % 4 = h.last (selectsIn .rom) % 4 ∧
      romBankAfter h % 32 = oneForZero (h.last (fun _ w => w.within 0x2000 0x4000) % 32) := by
  unfold romBankAfter oneForZero
  split <;> omega

theorem selectsIn_of_not_within {mode : Mode} (hw : w.within 0x4000 0x6000 = false) :
    selectsIn mode h w = false := by
  rw [selectsIn, hw, Bool.false_and]

theorem clearsMode_of_not_within (hw : w.within 0x6000 0x8000 = false) : clearsMode w = false := by
  rw [clearsMode, hw, Bool.false_and]

/-- The registers hold what the history says. -/
structure Follows (c : Mbc1) (h : History) : Prop where
  gate : c.ramOpen = gateAfter (fun _ w => w.within 0 0x2000) h
  mode : c.mode = modeAfter h
  ramBank : c.ramBank.toNat = ramBankAfter h
  romBank : c.romBank.toNat = romBankAfter h

variable {c : Mbc1}

theorem Follows.controlGate (hc : c.Follows h) (hw : w.within 0 0x2000 = true) :
    Follows { c with ramOpen := opensRam w.v } (w :: h) := by
  have hlow : w.within 0x2000 0x4000 = false := ControlWrite.elsewhere hw (by decide)
  have htwo : w.within 0x4000 0x6000 = false := ControlWrite.elsewhere hw (by decide)
  have hmode : w.within 0x6000 0x8000 = false := ControlWrite.elsewhere hw (by decide)
  refine ⟨?_, ?_, ?_, ?_⟩
  · rw [gateAfter_of_written hw]
  · rw [modeAfter_of_not_written hmode]
    exact hc.mode
  · rw [ramBankAfter_of_neither (clearsMode_of_not_within hmode) (selectsIn_of_not_within htwo)]
    exact hc.ramBank
  · rw [romBankAfter_of_neither hlow (selectsIn_of_not_within htwo)]
    exact hc.romBank

theorem Follows.controlLow (hc : c.Follows h) (hw : w.within 0x2000 0x4000 = true) :
    Follows { c with romBank := c.romBank &&& 0x60 ||| lowBank w.v } (w :: h) := by
  have hgate : w.within 0 0x2000 = false := ControlWrite.elsewhere hw (by decide)
  have htwo : w.within 0x4000 0x6000 = false := ControlWrite.elsewhere hw (by decide)
  have hmode : w.within 0x6000 0x8000 = false := ControlWrite.elsewhere hw (by decide)
  refine ⟨?_, ?_, ?_, ?_⟩
  · rw [gateAfter_of_not_written hgate]
    exact hc.gate
  · rw [modeAfter_of_not_written hmode]
    exact hc.mode
  · rw [ramBankAfter_of_neither (clearsMode_of_not_within hmode) (selectsIn_of_not_within htwo)]
    exact hc.ramBank
  · rw [romBankAfter_of_low hw (selectsIn_of_not_within htwo), ← (romBankAfter_parts h).1,
      ← hc.romBank, oneForZero, ← toNat_lowBank]
    exact toNat_setLow c.romBank w.v

theorem Follows.controlClear (hc : c.Follows h) (hw : w.within 0x6000 0x8000 = true)
    (hclear : w.v.toNat % 2 = 0) : Follows { c with mode := .rom, ramBank := 0 } (w :: h) := by
  have hgate : w.within 0 0x2000 = false := ControlWrite.elsewhere hw (by decide)
  have hlow : w.within 0x2000 0x4000 = false := ControlWrite.elsewhere hw (by decide)
  have htwo : w.within 0x4000 0x6000 = false := ControlWrite.elsewhere hw (by decide)
  have hclears : clearsMode w = true := by simp [clearsMode, hw, hclear]
  refine ⟨?_, ?_, ?_, ?_⟩
  · rw [gateAfter_of_not_written hgate]
    exact hc.gate
  · rw [modeAfter_of_written hw, if_pos hclear]
  · rw [ramBankAfter_of_cleared hclears (selectsIn_of_not_within htwo)]
    rfl
  · rw [romBankAfter_of_neither hlow (selectsIn_of_not_within htwo)]
    exact hc.romBank

theorem Follows.controlSet (hc : c.Follows h) (hw : w.within 0x6000 0x8000 = true)
    (hset : w.v.toNat % 2 ≠ 0) : Follows { c with mode := .ram } (w :: h) := by
  have hgate : w.within 0 0x2000 = false := ControlWrite.elsewhere hw (by decide)
  have hlow : w.within 0x2000 0x4000 = false := ControlWrite.elsewhere hw (by decide)
  have htwo : w.within 0x4000 0x6000 = false := ControlWrite.elsewhere hw (by decide)
  have hkeeps : clearsMode w = false := by simp [clearsMode, hset]
  refine ⟨?_, ?_, ?_, ?_⟩
  · rw [gateAfter_of_not_written hgate]
    exact hc.gate
  · rw [modeAfter_of_written hw, if_neg hset]
  · rw [ramBankAfter_of_neither hkeeps (selectsIn_of_not_within htwo)]
    exact hc.ramBank
  · rw [romBankAfter_of_neither hlow (selectsIn_of_not_within htwo)]
    exact hc.romBank

/-- What the two-bit register selects is what the mode says that the history ends in. -/
theorem Follows.controlTwoBits (hc : c.Follows h) (hw : w.within 0x4000 0x6000 = true) :
    Follows
      (match c.mode with
        | .ram => { c with ramBank := w.v &&& 0x03 }
        | .rom => { c with romBank := c.romBank &&& 0x1f ||| (w.v &&& 0x03) * 32 })
      (w :: h) := by
  have hgate : w.within 0 0x2000 = false := ControlWrite.elsewhere hw (by decide)
  have hlow : w.within 0x2000 0x4000 = false := ControlWrite.elsewhere hw (by decide)
  have hmode : w.within 0x6000 0x8000 = false := ControlWrite.elsewhere hw (by decide)
  have hselects : ∀ mode, selectsIn mode h w = (c.mode == mode) := by
    intro mode
    rw [selectsIn, hw, Bool.true_and, hc.mode]
  split <;> rename_i hcase <;> rw [hcase] at hselects
  · refine ⟨?_, ?_, ?_, ?_⟩
    · rw [gateAfter_of_not_written hgate]
      exact hc.gate
    · rw [modeAfter_of_not_written hmode]
      exact hc.mode
    · rw [ramBankAfter_of_selected (clearsMode_of_not_within hmode) (hselects .ram)]
      exact Nat.and_two_pow_sub_one_eq_mod w.v.toNat 2
    · rw [romBankAfter_of_neither hlow (hselects .rom)]
      exact hc.romBank
  · refine ⟨?_, ?_, ?_, ?_⟩
    · rw [gateAfter_of_not_written hgate]
      exact hc.gate
    · rw [modeAfter_of_not_written hmode]
      exact hc.mode
    · rw [ramBankAfter_of_neither (clearsMode_of_not_within hmode) (hselects .ram)]
      exact hc.ramBank
    · rw [romBankAfter_of_selected hlow (hselects .rom), ← (romBankAfter_parts h).2, ← hc.romBank]
      exact toNat_setHigh c.romBank w.v

theorem and_1_eq_zero_iff (v : UInt8) : v &&& 1 = 0 ↔ v.toNat % 2 = 0 := by
  rw [← UInt8.toNat_inj, ← Nat.and_one_is_mod]
  rfl

theorem Follows.control (hc : c.Follows h) (hend : w.address < 0x8000) :
    (c.control w.address w.v).Follows (w :: h) := by
  unfold Mbc1.control
  split_ifs with hgate hlow htwo hclear
  · exact hc.controlGate (ControlWrite.within_of_le_of_lt UInt16.zero_le hgate)
  · exact hc.controlLow (ControlWrite.within_of_le_of_lt (UInt16.not_lt.1 hgate) hlow)
  · exact hc.controlTwoBits (ControlWrite.within_of_le_of_lt (UInt16.not_lt.1 hlow) htwo)
  · have hmode := ControlWrite.within_of_le_of_lt (UInt16.not_lt.1 htwo) hend
    exact hc.controlClear hmode ((and_1_eq_zero_iff w.v).1 hclear)
  · have hmode := ControlWrite.within_of_le_of_lt (UInt16.not_lt.1 htwo) hend
    exact hc.controlSet hmode (mt (and_1_eq_zero_iff w.v).2 hclear)

end Mbc1

namespace Mbc2

variable {h : History} {w : ControlWrite} {c : Mbc2}

structure Follows (c : Mbc2) (h : History) : Prop where
  gate : c.ramOpen = gateAfter (fun _ w => w.within 0 0x4000 && !w.address.toNat.testBit 8) h
  romBank : c.romBank.toNat =
    oneForZero (h.last (fun _ w => w.within 0 0x4000 && w.address.toNat.testBit 8) % 16)

theorem and_0x0100_eq_zero_iff (a : UInt16) : a &&& 0x0100 = 0 ↔ a.toNat.testBit 8 = false := by
  have hbit : (a &&& 0x0100).toNat = (a.toNat.testBit 8).toNat * 2 ^ 8 := Nat.and_two_pow a.toNat 8
  rw [← UInt16.toNat_inj, hbit]
  cases a.toNat.testBit 8 <;> decide

theorem Follows.control (hc : c.Follows h) : (c.control w.address w.v).Follows (w :: h) := by
  unfold Mbc2.control
  split_ifs with hupper hgate
  · have hlower : w.within 0 0x4000 = false := ControlWrite.not_within_of_le hupper
    refine ⟨?_, ?_⟩
    · rw [gateAfter_of_not_written (by rw [hlower, Bool.false_and])]
      exact hc.gate
    · rw [History.last_cons_of_neg (by rw [hlower, Bool.false_and])]
      exact hc.romBank
  · have hlower := ControlWrite.within_of_le_of_lt UInt16.zero_le (UInt16.not_le.1 hupper)
    have hbit := (and_0x0100_eq_zero_iff w.address).1 hgate
    refine ⟨?_, ?_⟩
    · rw [gateAfter_of_written (by rw [hbit, Bool.not_false, Bool.and_true]; exact hlower)]
    · rw [History.last_cons_of_neg (by rw [hbit, Bool.and_false])]
      exact hc.romBank
  · have hlower := ControlWrite.within_of_le_of_lt UInt16.zero_le (UInt16.not_le.1 hupper)
    have hbit := Bool.ne_false_iff.1 (mt (and_0x0100_eq_zero_iff w.address).2 hgate)
    refine ⟨?_, ?_⟩
    · rw [gateAfter_of_not_written (by rw [hbit, Bool.not_true, Bool.and_false])]
      exact hc.gate
    · rw [History.last_cons_of_pos (by rw [hbit, Bool.and_true]; exact hlower)]
      exact toNat_bank w.v

end Mbc2

namespace Mbc3

variable {h : History} {w : ControlWrite} {c : Mbc3}

structure Follows (c : Mbc3) (h : History) : Prop where
  gate : c.ramOpen = gateAfter (fun _ w => w.within 0 0x2000) h
  romBank : c.romBank.toNat = oneForZero (h.last (fun _ w => w.within 0x2000 0x4000) % 128)
  select : c.select.toNat = h.last fun _ w => w.within 0x4000 0x6000

theorem Follows.control (hc : c.Follows h) (hend : w.address < 0x8000) :
    (c.control w.address w.v).Follows (w :: h) := by
  unfold Mbc3.control
  -- Whether a snapshot of the clock is taken makes no difference here.
  generalize (if c.latches w.v then c.clock else c.latched) = latched
  split_ifs with hgate hlow hselect
  · have hw := ControlWrite.within_of_le_of_lt UInt16.zero_le hgate
    refine ⟨?_, ?_, ?_⟩
    · rw [gateAfter_of_written hw]
    · rw [History.last_cons_of_neg (ControlWrite.elsewhere hw (by decide))]
      exact hc.romBank
    · rw [History.last_cons_of_neg (ControlWrite.elsewhere hw (by decide))]
      exact hc.select
  · have hw := ControlWrite.within_of_le_of_lt (UInt16.not_lt.1 hgate) hlow
    refine ⟨?_, ?_, ?_⟩
    · rw [gateAfter_of_not_written (ControlWrite.elsewhere hw (by decide))]
      exact hc.gate
    · rw [History.last_cons_of_pos hw]
      exact toNat_bank w.v
    · rw [History.last_cons_of_neg (ControlWrite.elsewhere hw (by decide))]
      exact hc.select
  · have hw := ControlWrite.within_of_le_of_lt (UInt16.not_lt.1 hlow) hselect
    refine ⟨?_, ?_, ?_⟩
    · rw [gateAfter_of_not_written (ControlWrite.elsewhere hw (by decide))]
      exact hc.gate
    · rw [History.last_cons_of_neg (ControlWrite.elsewhere hw (by decide))]
      exact hc.romBank
    · rw [History.last_cons_of_pos hw]
  · have hw := ControlWrite.within_of_le_of_lt (UInt16.not_lt.1 hselect) hend
    refine ⟨?_, ?_, ?_⟩
    · rw [gateAfter_of_not_written (ControlWrite.elsewhere hw (by decide))]
      exact hc.gate
    · rw [History.last_cons_of_neg (ControlWrite.elsewhere hw (by decide))]
      exact hc.romBank
    · rw [History.last_cons_of_neg (ControlWrite.elsewhere hw (by decide))]
      exact hc.select

end Mbc3

/-! ## All calls -/

namespace Controller

theorem registers_control {c : Controller} {h : History}
    (hc : c.registers = c.kind.registersAfter h) {w : ControlWrite} (hend : w.address < 0x8000) :
    (c.control w.address w.v).registers = c.kind.registersAfter (w :: h) := by
  cases c with
  | unbanked c => rfl
  | mbc1 c =>
    obtain ⟨hgate, hmode, hram, hrom⟩ := Registers.mbc1.inj hc
    have hnext := Mbc1.Follows.control ⟨hgate, hmode, hram, hrom⟩ hend
    simp only [control, registers, kind, Kind.registersAfter, hnext.gate, hnext.mode,
      hnext.ramBank, hnext.romBank]
  | mbc2 c =>
    obtain ⟨hgate, hrom⟩ := Registers.mbc2.inj hc
    have hnext := Mbc2.Follows.control (w := w) ⟨hgate, hrom⟩
    simp only [control, registers, kind, Kind.registersAfter, hnext.gate, hnext.romBank]
  | mbc3 c =>
    obtain ⟨hgate, hrom, hselect⟩ := Registers.mbc3.inj hc
    have hnext := Mbc3.Follows.control ⟨hgate, hrom, hselect⟩ hend
    simp only [control, registers, kind, Kind.registersAfter, hnext.gate, hnext.romBank,
      hnext.select]

theorem registers_writeRam (c : Controller) (a : UInt16) (v : UInt8) :
    (c.writeRam a v).registers = c.registers := by
  cases c with
  | unbanked c => rfl
  | mbc1 c =>
    simp only [writeRam, registers, Mbc1.writeRam]
    split <;> rfl
  | mbc2 c =>
    simp only [writeRam, registers, Mbc2.writeRam]
    split <;> rfl
  | mbc3 c =>
    simp only [writeRam, registers, Mbc3.writeRam]
    split
    · split <;> rfl
    · rfl

theorem registers_tick (c : Controller) (cycles : Nat) :
    (c.tick cycles).registers = c.registers := by
  cases c with
  | unbanked | mbc1 | mbc2 => rfl
  | mbc3 c =>
    simp only [tick, registers, Mbc3.tick]
    split <;> rfl

/-- The control write that a call makes. -/
def Call.written? : Call → Option ControlWrite
  | .control address v => some ⟨address, v⟩
  | .writeRam .. | .tick _ => none

def history (calls : List Call) : History := (calls.filterMap Call.written?).reverse

theorem history_cons (k : Call) (calls : List Call) :
    history (k :: calls) = history calls ++ k.written?.toList := by
  unfold history
  rw [List.filterMap_cons]
  cases k.written? with
  | none => exact (List.append_nil _).symm
  | some w => exact List.reverse_cons

theorem registers_call {c : Controller} {h : History} (hc : c.registers = c.kind.registersAfter h)
    {k : Call} (hk : ∀ a v, k = .control a v → a < 0x8000) :
    (c.call k).registers = (c.call k).kind.registersAfter (k.written?.toList ++ h) := by
  rw [kind_call]
  cases k with
  | control a v => exact registers_control hc (w := ⟨a, v⟩) (hk a v rfl)
  | writeRam a v => exact (registers_writeRam c a v).trans hc
  | tick cycles => exact (registers_tick c cycles).trans hc

theorem registers_run {c : Controller} {h : History} (hc : c.registers = c.kind.registersAfter h)
    {calls : List Call} (hcalls : ∀ a v, Call.control a v ∈ calls → a < 0x8000) :
    (c.run calls).registers = (c.run calls).kind.registersAfter (history calls ++ h) := by
  induction calls generalizing c h with
  | nil => exact hc
  | cons k calls ih =>
    have hfirst := registers_call hc (k := k) fun a v hk => hcalls a v (hk ▸ List.mem_cons_self)
    have hrest := ih hfirst fun a v hk => hcalls a v (List.mem_cons_of_mem k hk)
    rw [history_cons, List.append_assoc]
    exact hrest

theorem registers_powerOn (kind : Kind) (ramSize clockHz : Nat) :
    (powerOn kind ramSize clockHz).registers = kind.registersAfter [] := by
  cases kind <;> rfl

/-- From power-on the control registers are a function of the control writes, whatever the RAM was
used for and however much time passed in between. -/
theorem registers_eq_registersAfter (kind : Kind) (ramSize clockHz : Nat) (calls : List Call)
    (hcalls : ∀ a v, Call.control a v ∈ calls → a < 0x8000) :
    ((powerOn kind ramSize clockHz).run calls).registers = kind.registersAfter (history calls) := by
  have hstart : (powerOn kind ramSize clockHz).registers =
      (powerOn kind ramSize clockHz).kind.registersAfter [] := by
    rw [kind_powerOn]
    exact registers_powerOn kind ramSize clockHz
  have hrun := registers_run hstart hcalls
  rwa [kind_run, kind_powerOn, List.append_nil] at hrun

theorem registers_eq_registersAfter_modes :
    let calls : List Call := [.control 0x4000 2, .control 0x6000 1, .control 0x4000 3,
      .control 0x2000 0x20, .writeRam 0xa000 7, .control 0x7fff 0, .control 0x6000 1]
    (∀ a v, Call.control a v ∈ calls → a < 0x8000) ∧
      ((powerOn .mbc1 0x8000 1).run calls).registers = .mbc1 false .ram 0 65 := by
  intro calls
  have hcalls : ∀ a v, Call.control a v ∈ calls → a < 0x8000 := by
    intro a v h
    simp only [calls, List.mem_cons, Call.control.injEq, List.not_mem_nil, or_false, reduceCtorEq,
      false_or] at h
    rcases h with h | h | h | h | h | h <;> rw [h.1] <;> decide
  exact ⟨hcalls, (registers_eq_registersAfter .mbc1 0x8000 1 calls hcalls).trans (by decide)⟩

end Controller

end Handheld.Cartridge
