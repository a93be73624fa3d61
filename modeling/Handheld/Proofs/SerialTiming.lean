import Handheld.Proofs.InterruptFlags
import Handheld.Proofs.SerialCalls
import Mathlib.Data.List.Induction

/-!
# When a serial transfer is done

With nothing at the other end of the cable, a transfer is done once enough cycles have passed since
the last start. What else is written in the meantime makes no difference.
-/

namespace Handheld

namespace Link.Endpoint

theorem receiveAlone_eq {e : Endpoint} (h : 0 ≤ e.countdown) {cycles : Nat}
    (hcycles : cycles < 2147483648) :
    e.receiveAlone cycles =
      (if 0 < e.countdown ∧ e.countdown ≤ cycles then ⟨0xff, true⟩ else .nothing,
        { e with countdown := max (e.countdown - cycles) 0 }) := by
  unfold receiveAlone advance
  rw [signed32_of_lt hcycles]
  by_cases hidle : e.countdown = 0
  · have hleft : max (e.countdown - cycles) 0 = e.countdown := by omega
    rw [if_pos hidle, if_neg (by omega), hleft]
  · by_cases hcounting : 0 < e.countdown - cycles
    · have hleft : max (e.countdown - cycles) 0 = e.countdown - cycles := by omega
      rw [if_neg hidle, if_pos hcounting, if_neg (by omega), hleft]
    · have hleft : max (e.countdown - cycles) 0 = 0 := by omega
      rw [if_neg hidle, if_neg hcounting, if_pos (by omega), hleft]

end Link.Endpoint

namespace SerialLine

open Link (Endpoint)

/-! ## Calls -/

/-- What can happen between two transfers: a write to the bus, which may copy to the sprite table,
or cycles that pass on the line. -/
inductive Call where
  | write (address : UInt16) (v : UInt8)
  | serial (cycles : Nat)
deriving Repr, DecidableEq

def call (bus : Bus) : Call → Bus
  | .write address v => bus.write address v
  | .serial cycles => bus.serial cycles

def run (bus : Bus) (calls : List Call) : Bus := calls.foldl call bus

/-- A write to the control register that starts a transfer with this end as the driving one. -/
def Call.starts : Call → Bool
  | .write address v => address == 0xff02 && v &&& 0x80 != 0 && v &&& 0x01 != 0
  | .serial _ => false

/-- The cycles since the last start, if there was one, after one more call. -/
def pass (passed : Option Nat) : Call → Option Nat
  | .serial cycles => passed.map (· + cycles)
  | .write address v => if (Call.write address v).starts then some 0 else passed

/-- The cycles since the last start, if there was one. -/
def sinceStart (calls : List Call) : Option Nat := calls.foldl pass none

/-- With `k`, after `calls`, the cycles since the last start become as many as `due`. -/
def Completes (due : Int) (calls : List Call) (k : Call) : Prop :=
  ∃ passed cycles : Nat, sinceStart calls = some passed ∧ k = .serial cycles ∧
    passed < due ∧ due ≤ passed + cycles

/-- None of the calls `more`, after `calls`, completes a transfer. -/
def Quiet (due : Int) (calls more : List Call) : Prop :=
  ∀ pre k, pre ++ [k] <+: more → ¬ Completes due (calls ++ pre) k

theorem run_concat (bus : Bus) (calls : List Call) (k : Call) :
    run bus (calls ++ [k]) = call (run bus calls) k :=
  List.foldl_concat ..

theorem sinceStart_concat (calls : List Call) (k : Call) :
    sinceStart (calls ++ [k]) = pass (sinceStart calls) k :=
  List.foldl_concat ..

theorem sinceStart_of_no_start {calls : List Call} (h : ∀ k ∈ calls, k.starts = false) :
    sinceStart calls = none := by
  induction calls using List.reverseRecOn with
  | nil => rfl
  | append_singleton calls k ih =>
    have hk : k.starts = false := h k (by simp)
    rw [sinceStart_concat, ih fun k hk => h k (List.mem_append_left _ hk)]
    cases k with
    | serial cycles => rfl
    | write a v => rw [pass, hk, if_neg Bool.false_ne_true]

theorem sinceStart_skip {a : UInt16} {v : UInt8} (h : (Call.write a v).starts = false)
    (calls more : List Call) :
    sinceStart (calls ++ .write a v :: more) = sinceStart (calls ++ more) := by
  have hpass : pass (sinceStart calls) (.write a v) = sinceStart calls := by
    rw [pass, h, if_neg Bool.false_ne_true]
  unfold sinceStart at *
  rw [List.foldl_append, List.foldl_append, List.foldl_cons, hpass]

/-! ## The countdown -/

/-- What a countdown from `due` has left. -/
def left (due : Int) : Option Nat → Int
  | none => 0
  | some passed => max (due - passed) 0

theorem left_nonneg (due : Int) (passed : Option Nat) : 0 ≤ left due passed := by
  cases passed with
  | none => exact Int.le_refl 0
  | some passed => exact Int.le_max_right _ _

theorem left_pass_serial {due : Int} (passed : Option Nat) (cycles : Nat) :
    left due (pass passed (.serial cycles)) = max (left due passed - cycles) 0 := by
  cases passed with
  | none =>
    simp only [pass, left, Option.map_none]
    omega
  | some passed =>
    simp only [pass, left, Option.map_some]
    omega

theorem completes_iff {due : Int} {calls : List Call} {cycles : Nat} :
    Completes due calls (.serial cycles) ↔
      0 < left due (sinceStart calls) ∧ left due (sinceStart calls) ≤ cycles := by
  unfold Completes
  cases sinceStart calls with
  | none => simp [left]
  | some passed =>
    simp only [left, Option.some.injEq, Call.serial.injEq]
    constructor
    · rintro ⟨passed, cycles, rfl, rfl, hbefore, hreached⟩
      omega
    · intro hleft
      exact ⟨passed, cycles, rfl, rfl, by omega, by omega⟩

/-- The plug is an end with nothing at its other side, and what it counts down is the rest of `due`
after the cycles since the last start. -/
def Counts (delay : Int) (passed : Option Nat) (bus : Bus) : Prop :=
  ∃ e : Endpoint, bus.plug = some (.cable e) ∧ e.delay = delay ∧
    e.countdown = left (max delay 1) passed

variable {bus : Bus} {delay : Int} {passed : Option Nat} {calls : List Call}

theorem Counts.detached (h : bus.plug = some (.detached delay)) : Counts delay none bus :=
  ⟨{ delay }, h, rfl, rfl⟩

theorem Counts.control (h : Counts delay passed bus) (v : UInt8) :
    Counts delay (pass passed (.write 0xff02 v)) (bus.write 0xff02 v) := by
  obtain ⟨e, hplug, hdelay, hleft⟩ := h
  have hwrite : bus.write 0xff02 v = (bus.store 0xff02 v).serialControl v := rfl
  have hstore : (bus.store 0xff02 v).plug = some (.cable e) := hplug
  have hstarts : (Call.write 0xff02 v).starts = (v &&& 0x80 != 0 && v &&& 0x01 != 0) := rfl
  rw [hwrite, Bus.serialControl, hstore, pass, hstarts]
  cases v &&& 0x80 != 0 with
  | false => exact ⟨e.setMaster _, rfl, hdelay, hleft⟩
  | true =>
    cases v &&& 0x01 != 0 with
    | false => exact ⟨_, rfl, hdelay, hleft⟩
    | true =>
      refine ⟨_, rfl, hdelay, ?_⟩
      simp only [Endpoint.setMaster, Endpoint.send, if_true, Bool.and_self, left, hdelay]
      omega

theorem Counts.write (h : Counts delay passed bus) (a : UInt16) (v : UInt8) :
    Counts delay (pass passed (.write a v)) (bus.write a v) := by
  by_cases ha : a = 0xff02
  · subst ha
    exact h.control v
  · have hstarts : (Call.write a v).starts = false := by simp [Call.starts, ha]
    rw [pass, hstarts, if_neg Bool.false_ne_true, Counts, Bus.plug_write_of_ne bus v ha]
    exact h

theorem serial_eq {e : Endpoint} (hplug : bus.plug = some (.cable e)) (h : 0 ≤ e.countdown)
    {cycles : Nat} (hcycles : cycles < 2147483648) :
    bus.serial cycles =
      let next : Bus :=
        { bus with plug := some (.cable { e with countdown := max (e.countdown - cycles) 0 }) }
      if 0 < e.countdown ∧ e.countdown ≤ cycles then next.completeTransfer 0xff else next := by
  unfold Bus.serial
  rw [hplug]
  simp only [Link.Plug.receive, Link.Endpoint.receiveAlone_eq h hcycles]
  by_cases hdone : 0 < e.countdown ∧ e.countdown ≤ cycles
  · simp only [hdone, if_true, and_self]
  · simp only [hdone, if_false]
    rfl

theorem Counts.serial (h : Counts delay passed bus) {cycles : Nat} (hcycles : cycles < 2147483648) :
    Counts delay (pass passed (.serial cycles)) (bus.serial cycles) := by
  obtain ⟨e, hplug, hdelay, hleft⟩ := h
  have hnonneg : 0 ≤ e.countdown := hleft ▸ left_nonneg _ _
  refine ⟨{ e with countdown := max (e.countdown - cycles) 0 }, ?_, hdelay, ?_⟩
  · rw [serial_eq hplug hnonneg hcycles]
    dsimp only
    split <;> rfl
  · rw [left_pass_serial, ← hleft]

theorem Counts.run (h : bus.plug = some (.detached delay))
    (hcycles : ∀ cycles, .serial cycles ∈ calls → cycles < 2147483648) :
    Counts delay (sinceStart calls) (run bus calls) := by
  induction calls using List.reverseRecOn with
  | nil => exact .detached h
  | append_singleton calls k ih =>
    have hcounts := ih fun cycles hk => hcycles cycles (List.mem_append_left _ hk)
    rw [sinceStart_concat, run_concat]
    cases k with
    | write a v => exact hcounts.write a v
    | serial cycles => exact hcounts.serial (hcycles cycles (by simp))

/-! ## What the program sees -/

structure Done (before next : Bus) : Prop where
  requested : next.interruptFlags = before.interruptFlags ||| Interrupt.serial.mask
  control : next.read 0xff02 = before.read 0xff02 &&& 0x7f
  received : next.read 0xff01 = 0xff

/-- Of the serial line's registers and the interrupt flags, a call changes only the one that it
writes. -/
structure Unchanged (k : Call) (before next : Bus) : Prop where
  flags : (∀ v, k ≠ .write 0xff0f v) → next.interruptFlags = before.interruptFlags
  control : (∀ v, k ≠ .write 0xff02 v) → next.read 0xff02 = before.read 0xff02
  received : next.read 0xff01 = before.read 0xff01

/-- After `calls`, a transfer is done at `k` if and only if `p` holds. -/
def DoneWhen (bus : Bus) (calls : List Call) (k : Call) (p : Prop) : Prop :=
  (p → Done (run bus calls) (run bus (calls ++ [k]))) ∧
    (¬ p → Unchanged k (run bus calls) (run bus (calls ++ [k])))

theorem unchanged_write (bus : Bus) (a : UInt16) (v : UInt8) :
    Unchanged (.write a v) bus (bus.write a v) where
  flags h := Bus.interruptFlags_write bus v (by rintro rfl; exact h v rfl)
  control h := by
    have ha : a ≠ 0xff02 := by
      rintro rfl
      exact h v rfl
    exact Bus.read_write_of_not_touches bus v (by grind [Bus.Touches])
  received := Bus.read_write_of_not_touches bus v (by grind [Bus.Touches])

theorem Counts.done (h : Counts delay (sinceStart calls) bus) {cycles : Nat}
    (hcycles : cycles < 2147483648) (hdone : Completes (max delay 1) calls (.serial cycles)) :
    Done bus (bus.serial cycles) := by
  obtain ⟨e, hplug, -, hleft⟩ := h
  rw [completes_iff, ← hleft] at hdone
  rw [serial_eq hplug (Int.le_of_lt hdone.1) hcycles]
  dsimp only
  rw [if_pos hdone]
  refine ⟨rfl, ?_, rfl⟩
  rw [Bus.read_eq_cell _ (by decide), Bus.read_eq_cell _ (by decide)]
  exact Cells.get_set_self ..

theorem Counts.unchanged (h : Counts delay (sinceStart calls) bus) {cycles : Nat}
    (hcycles : cycles < 2147483648) (hdone : ¬ Completes (max delay 1) calls (.serial cycles)) :
    Unchanged (.serial cycles) bus (bus.serial cycles) := by
  obtain ⟨e, hplug, -, hleft⟩ := h
  have hnonneg : 0 ≤ e.countdown := hleft ▸ left_nonneg _ _
  rw [completes_iff, ← hleft] at hdone
  rw [serial_eq hplug hnonneg hcycles]
  dsimp only
  rw [if_neg hdone]
  exact ⟨fun _ => rfl, fun _ => rfl, rfl⟩

theorem doneWhen_completes (hplug : bus.plug = some (.detached delay)) {k : Call}
    (hcycles : ∀ cycles, .serial cycles ∈ calls ++ [k] → cycles < 2147483648) :
    DoneWhen bus calls k (Completes (max delay 1) calls k) := by
  have hcounts : Counts delay (sinceStart calls) (run bus calls) :=
    .run hplug fun cycles hk => hcycles cycles (List.mem_append_left _ hk)
  rw [DoneWhen, run_concat]
  cases k with
  | write a v =>
    refine ⟨?_, fun _ => unchanged_write _ a v⟩
    rintro ⟨_, _, _, hserial, _⟩
    contradiction
  | serial cycles =>
    have hlast : cycles < 2147483648 := hcycles cycles (by simp)
    exact ⟨hcounts.done hlast, hcounts.unchanged hlast⟩

theorem received_of_quiet (hplug : bus.plug = some (.detached delay)) {more : List Call}
    (hcycles : ∀ cycles, .serial cycles ∈ calls ++ more → cycles < 2147483648)
    (hquiet : Quiet (max delay 1) calls more) :
    (run bus (calls ++ more)).read 0xff01 = (run bus calls).read 0xff01 := by
  induction more using List.reverseRecOn with
  | nil => rw [List.append_nil]
  | append_singleton more k ih =>
    rw [← List.append_assoc] at hcycles ⊢
    have hunchanged := (doneWhen_completes hplug hcycles).2 (hquiet more k (List.prefix_refl _))
    rw [hunchanged.received]
    apply ih
    · exact fun cycles hk => hcycles cycles (List.mem_append_left _ hk)
    · exact fun pre j hpre => hquiet pre j (hpre.trans (List.prefix_append _ _))

/-- With nothing at the other end of the cable, a transfer is done at the call that brings the
cycles since the last start to the delay, and at no other one. A write that does not start a
transfer makes no difference to that, without a start no transfer is ever done, and until the next
one is done the data register reads what it did. -/
theorem completes_when_due (bus : Bus) (delay : Int) (hplug : bus.plug = some (.detached delay))
    (calls : List Call) (hcycles : ∀ cycles, .serial cycles ∈ calls → cycles < 2147483648) :
    let due := max delay 1
    (∀ pre k, pre ++ [k] <+: calls → DoneWhen bus pre k (Completes due pre k)) ∧
      (∀ pre a v more k, pre ++ .write a v :: more ++ [k] <+: calls →
        (Call.write a v).starts = false →
          DoneWhen bus (pre ++ .write a v :: more) k (Completes due (pre ++ more) k)) ∧
      (∀ pre k, pre ++ [k] <+: calls → (∀ j ∈ pre, j.starts = false) → DoneWhen bus pre k False) ∧
      ∀ pre more, pre ++ more <+: calls → Quiet due pre more →
        (run bus (pre ++ more)).read 0xff01 = (run bus pre).read 0xff01 := by
  intro due
  have hwhen : ∀ pre k, pre ++ [k] <+: calls → DoneWhen bus pre k (Completes due pre k) :=
    fun pre k hpre => doneWhen_completes hplug fun cycles hk => hcycles cycles (hpre.subset hk)
  refine ⟨hwhen, ?_, ?_, ?_⟩
  · intro pre a v more k hpre hstarts
    have hskip := hwhen _ k hpre
    unfold Completes at hskip ⊢
    rwa [sinceStart_skip hstarts] at hskip
  · intro pre k hpre hnone
    have hnever : ¬ Completes due pre k := by
      rintro ⟨passed, cycles, hsince, -⟩
      rw [sinceStart_of_no_start hnone] at hsince
      contradiction
    exact ⟨False.elim, fun _ => (hwhen pre k hpre).2 hnever⟩
  · intro pre more hpre
    exact received_of_quiet hplug fun cycles hk => hcycles cycles (hpre.subset hk)

/-- The second start counts anew. The copy to the sprite table, the byte for the data register and
the start that leaves the driving to the other end make no difference, so that the last call is the
one that is done. -/
theorem completes_when_due_restarted :
    let bus : Bus := { (default : Bus) with plug := some (.detached 8) }
    let pre : List Call := [.write 0xff02 0x81, .serial 5, .write 0xff02 0x81, .serial 4,
      .write 0xff46 0xc0, .write 0xff01 0x42, .write 0xff02 0x80]
    let calls := pre ++ [.serial 3] ++ [.serial 1]
    bus.plug = some (.detached 8) ∧
      (∀ cycles, .serial cycles ∈ calls → cycles < 2147483648) ∧
      Unchanged (.serial 3) (run bus pre) (run bus (pre ++ [.serial 3])) ∧
      Done (run bus (pre ++ [.serial 3])) (run bus calls) := by
  intro bus pre calls
  have hplug : bus.plug = some (.detached 8) := rfl
  have hcycles : ∀ cycles, .serial cycles ∈ calls → cycles < 2147483648 := by
    simp [calls, pre]
  have hearly : ¬ Completes 8 pre (.serial 3) := by
    rw [completes_iff]
    decide
  have hdue : Completes 8 (pre ++ [.serial 3]) (.serial 1) := by
    rw [completes_iff]
    decide
  obtain ⟨hwhen, -⟩ := completes_when_due bus 8 hplug calls hcycles
  refine ⟨hplug, hcycles, (hwhen pre _ (List.prefix_append _ _)).2 hearly, ?_⟩
  exact (hwhen _ _ (List.prefix_refl _)).1 hdue

end SerialLine

end Handheld
