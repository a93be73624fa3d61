import Handheld.Proofs.ScanlineTiming
import Mathlib.Data.List.Chain

/-!
# The modes of a line

A call records the mode that the line and the cycles left of it give when the call starts. Calls of
at most 80 cycles are too short to skip one.
-/

namespace Handheld

open PictureUnit (on lyAddress statAddress lineCycles lastLine modeOf)

namespace Scene

/-! ## What calls record -/

/-- A call: the line on which it starts, and the mode that it records in the status register. -/
structure Call where
  line : UInt8
  mode : UInt8
deriving Repr, DecidableEq

def calls (s : Scene) : List Action → List Call
  | [] => []
  | .advance cycles :: as =>
    ⟨s.line, (s.act (.advance cycles)).mode⟩ :: (s.act (.advance cycles)).calls as
  | a :: as => (s.act a).calls as

/-- How one call follows another. -/
inductive Call.Follows : Call → Call → Prop
  | same (line mode : UInt8) : Follows ⟨line, mode⟩ ⟨line, mode⟩
  | draw (line : UInt8) (hline : line < 144) : Follows ⟨line, 2⟩ ⟨line, 3⟩
  | blank (line : UInt8) (hline : line < 144) : Follows ⟨line, 3⟩ ⟨line, 0⟩
  | nextLine (line : UInt8) (hline : line < 143) : Follows ⟨line, 0⟩ ⟨line + 1, 2⟩
  | vBlank : Follows ⟨143, 0⟩ ⟨144, 1⟩
  | nextBlankLine (line : UInt8) (hline : 144 ≤ line) (hlast : line < 153) :
    Follows ⟨line, 1⟩ ⟨line + 1, 1⟩
  | wrap : Follows ⟨153, 1⟩ ⟨0, 2⟩

/-- One or more 2, then one or more 3, then one or more 0. -/
def InOrder (modes : List UInt8) : Prop :=
  ∃ a b c, modes = .replicate (a + 1) 2 ++ .replicate (b + 1) 3 ++ .replicate (c + 1) 0

/-- Fewer than 80 cycles of the line have passed. -/
def StartsLine (s : Scene) : Prop := lineCycles - s.picture.counter < 80

/-- What a call records that starts now. -/
def nextCall (s : Scene) : Call := ⟨s.line, modeOf s.line s.picture.counter⟩

end Scene

/-! ## One call -/

namespace PictureUnit

theorem modeOf_of_blankLine {line : UInt8} (hline : 144 ≤ line) (counter : Int) :
    modeOf line counter = 1 := if_pos hline

theorem modeOf_of_starts {line : UInt8} (hline : line < 144) {counter : Int} (h : 376 ≤ counter) :
    modeOf line counter = 2 := by
  rw [modeOf, if_neg (UInt8.not_le.2 hline), if_pos h]

theorem modeOf_of_ends {line : UInt8} (hline : line < 144) {counter : Int} (h : counter < 204) :
    modeOf line counter = 0 := by
  rw [modeOf, if_neg (UInt8.not_le.2 hline), if_neg (by omega), if_neg (by omega)]

theorem modeOf_and_3 (line : UInt8) (counter : Int) :
    modeOf line counter &&& 3 = modeOf line counter := by
  unfold modeOf
  split_ifs <;> rfl

theorem newStatus_and_3 (status : UInt8) (line : UInt8) (counter : Int) (matched : Bool) :
    newStatus status (modeOf line counter) matched &&& 3 = modeOf line counter := by
  have hmode := (status_and_3 status (modeOf line counter)).trans (modeOf_and_3 line counter)
  unfold newStatus
  split
  · rw [or_and_of_and_eq_zero _ rfl, hmode]
  · rw [UInt8.and_assoc]
    exact hmode

theorem read_status_step_of_on (p : PictureUnit) {bus : Bus} (hon : on bus = true) (cycles : Nat) :
    (p.step bus cycles).2.2.read statAddress =
      newStatus (bus.read statAddress) (modeOf (bus.read lyAddress) p.counter)
        (bus.read lyAddress == bus.read 0xff45) := by
  rw [apply_step_of_on (f := (·.read statAddress)) (fun b v => b.read_store_of_ne v (by decide))
    (fun b => b.read_request_of_ne _ (by decide)) p hon]
  exact Bus.read_store_self _ _ (by decide)

end PictureUnit

namespace Scene

variable {s : Scene}

theorem mode_act_advance (hon : on s.bus = true) (cycles : Nat) :
    (s.act (.advance cycles)).mode = modeOf s.line s.picture.counter := by
  have hstatus := s.picture.read_status_step_of_on hon cycles
  unfold mode act
  dsimp only
  rw [hstatus]
  exact PictureUnit.newStatus_and_3 ..

theorem Lit.advance_cases (h : s.Lit) {cycles : Nat} (hle : cycles ≤ 456) :
    ((s.act (.advance cycles)).line = s.line ∧
        (s.act (.advance cycles)).picture.counter = s.picture.counter - cycles ∧
        0 < s.picture.counter - cycles) ∨
      (s.picture.counter - cycles ≤ 0 ∧
        (s.act (.advance cycles)).picture.counter = s.picture.counter - cycles + lineCycles ∧
        (s.line < lastLine ∧ (s.act (.advance cycles)).line = s.line + 1 ∨
          s.line = lastLine ∧ (s.act (.advance cycles)).line = 0)) :=
  h.placed.step_cases h.display hle

theorem nextCall_act_quiet {a : Action} (hquiet : a.Quiet) (hwrite : ∀ n, a ≠ .advance n) :
    (s.act a).nextCall = s.nextCall := by
  obtain ⟨hpicture, -, hline⟩ := act_quiet (s := s) hquiet hwrite
  unfold nextCall
  rw [hpicture, hline]

theorem Call.follows_within {line : UInt8} {counter counter' : Int} (hle : counter' ≤ counter)
    (hstep : counter ≤ counter' + 80) :
    Follows ⟨line, modeOf line counter⟩ ⟨line, modeOf line counter'⟩ := by
  unfold modeOf
  split
  · exact .same line 1
  · rename_i hline
    have hvisible : line < 144 := UInt8.not_le.1 hline
    -- Each mode lasts longer than a call, so the next one is at most one further.
    split_ifs
    all_goals first
      | exact .same line _
      | exact .draw line hvisible
      | exact .blank line hvisible
      | omega

namespace Lit

theorem follows_nextCall (h : s.Lit) {cycles : Nat} (hle : cycles ≤ 80) :
    s.nextCall.Follows (s.act (.advance cycles)).nextCall := by
  have hpos := h.placed.counter_pos
  unfold nextCall
  rcases h.advance_cases (Nat.le_trans hle (by decide)) with
    ⟨hline, hcounter, -⟩ | ⟨hended, hcounter, hnext⟩
  · rw [hline, hcounter]
    exact Call.follows_within (by omega) (by omega)
  · -- The line ends in the last cycles of mode 0, and the next begins in the first of mode 2.
    rw [hcounter]
    have hends : s.picture.counter < 204 := by omega
    have hstarts : 376 ≤ s.picture.counter - cycles + lineCycles := by
      dsimp only [lineCycles]
      omega
    rcases hnext with ⟨hlast, hline⟩ | ⟨hlast, hline⟩
    · rw [hline]
      have hcases : s.line < 143 ∨ s.line = 143 ∨ 144 ≤ s.line := by grind
      rcases hcases with hvisible | hedge | hblank
      · rw [PictureUnit.modeOf_of_ends (by grind) hends,
          PictureUnit.modeOf_of_starts (by grind) hstarts]
        exact .nextLine s.line hvisible
      · rw [hedge]
        rw [PictureUnit.modeOf_of_ends (by decide) hends,
          PictureUnit.modeOf_of_blankLine (by decide)]
        exact .vBlank
      · rw [PictureUnit.modeOf_of_blankLine hblank,
          PictureUnit.modeOf_of_blankLine (by grind [lastLine])]
        exact .nextBlankLine s.line hblank hlast
    · rw [hlast, hline, PictureUnit.modeOf_of_blankLine (by decide),
        PictureUnit.modeOf_of_starts (by decide) hstarts]
      exact .wrap

theorem startsLine (h : s.Lit) {cycles : Nat} (hle : cycles ≤ 80)
    (hline : (s.act (.advance cycles)).line ≠ s.line) :
    (s.act (.advance cycles)).StartsLine := by
  have hpos := h.placed.counter_pos
  rcases h.advance_cases (Nat.le_trans hle (by decide)) with ⟨hsame, -⟩ | ⟨-, hcounter, -⟩
  · exact absurd hsame hline
  · unfold StartsLine
    rw [hcounter]
    dsimp only [lineCycles]
    omega

/-! ## Runs -/

theorem run_short (h : s.Lit) {as : List Action} (has : ∀ a ∈ as, a.cycles ≤ 80 ∧ a.Quiet) :
    (s.run as).Lit :=
  (h.run fun a ha => ⟨Nat.le_trans (has a ha).1 (by decide), (has a ha).2⟩).1

theorem calls_advance (h : s.Lit) (cycles : Nat) (as : List Action) :
    s.calls (.advance cycles :: as) = s.nextCall :: (s.act (.advance cycles)).calls as := by
  rw [calls, mode_act_advance h.display]
  rfl

theorem calls_follow (h : s.Lit) {as : List Action} (has : ∀ a ∈ as, a.cycles ≤ 80 ∧ a.Quiet) :
    (∀ c ∈ (s.calls as).head?, c = s.nextCall) ∧ (s.calls as).IsChain Call.Follows ∧
      ∀ c ∈ s.calls as, ∃ counter, c.mode = modeOf c.line counter := by
  induction as generalizing s with
  | nil => exact ⟨by simp [calls], .nil, by simp [calls]⟩
  | cons a as ih =>
    obtain ⟨⟨hle, hquiet⟩, has'⟩ := List.forall_mem_cons.1 has
    obtain ⟨hhead, hchain, hmodes⟩ := ih (h.act (Nat.le_trans hle (by decide)) hquiet).1 has'
    by_cases hadvance : ∃ n, a = .advance n
    · obtain ⟨n, rfl⟩ := hadvance
      rw [h.calls_advance]
      refine ⟨by simp, List.isChain_cons.2 ⟨fun d hd => ?_, hchain⟩, ?_⟩
      · rw [hhead d hd]
        exact h.follows_nextCall hle
      · exact List.forall_mem_cons.2 ⟨⟨s.picture.counter, rfl⟩, hmodes⟩
    · have hcalls : s.calls (a :: as) = (s.act a).calls as := by
        cases a with
        | advance n => exact absurd ⟨n, rfl⟩ hadvance
        | write | writeWord => rfl
      rw [hcalls, ← nextCall_act_quiet hquiet (not_exists.1 hadvance)]
      exact ⟨hhead, hchain, hmodes⟩

end Lit

theorem calls_append (s : Scene) (as bs : List Action) :
    s.calls (as ++ bs) = s.calls as ++ (s.run as).calls bs := by
  induction as generalizing s with
  | nil => rfl
  | cons a as ih =>
    cases a with
    | advance n => exact congrArg (_ :: ·) (ih _)
    | write | writeWord => exact ih _

/-! ## Visits to a line -/

namespace Call

def Next (mode next : UInt8) : Prop := mode = 2 ∧ next = 3 ∨ mode = 3 ∧ next = 0

theorem Follows.on_line {c d : Call} (h : c.Follows d) (hc : c.line < 144) (hd : d.line = c.line) :
    d.mode = c.mode ∨ Next c.mode d.mode := by
  cases h with
  | same => exact .inl rfl
  | draw => exact .inr (.inl ⟨rfl, rfl⟩)
  | blank => exact .inr (.inr ⟨rfl, rfl⟩)
  | nextLine line => exact absurd hd (by grind)
  | vBlank | wrap => exact absurd hd (by decide)
  | nextBlankLine line hline => exact absurd hc (by grind)

theorem Follows.mode_of_leaves {c d : Call} (h : c.Follows d) (hc : c.line < 144)
    (hd : d.line ≠ c.line) : c.mode = 0 := by
  cases h with
  | same | draw | blank => exact absurd rfl hd
  | nextLine | vBlank => rfl
  | wrap => exact absurd hc (by decide)
  | nextBlankLine line hline => exact absurd hc (by grind)

/-- Calls that start on one visible line, each following the one before it. -/
structure Visit (line : UInt8) (cs : List Call) : Prop where
  visible : line < 144
  lines : ∀ c ∈ cs, c.line = line
  follows : cs.IsChain Follows

variable {line : UInt8} {c : Call} {cs : List Call}

theorem Visit.stays (h : Visit line (c :: cs)) :
    ∃ k rest, (c :: cs).map Call.mode = .replicate (k + 1) c.mode ++ rest.map Call.mode ∧
      Visit line rest ∧ ∀ d ∈ rest.head?, Next c.mode d.mode := by
  induction cs generalizing c with
  | nil => exact ⟨0, [], rfl, ⟨h.visible, by simp, .nil⟩, by simp⟩
  | cons d cs ih =>
    obtain ⟨hfollows, hchain⟩ := List.isChain_cons_cons.1 h.follows
    obtain ⟨hc, hlines⟩ := List.forall_mem_cons.1 h.lines
    have hrest : Visit line (d :: cs) := ⟨h.visible, hlines, hchain⟩
    have hd := hlines d List.mem_cons_self
    rcases hfollows.on_line (hc ▸ h.visible) (hd.trans hc.symm) with hsame | hnext
    · obtain ⟨k, rest, hmodes, hrest', hnext⟩ := ih hrest
      rw [hsame] at hmodes hnext
      refine ⟨k + 1, rest, ?_, hrest', hnext⟩
      rw [List.map_cons, hmodes]
      rfl
    · exact ⟨0, d :: cs, rfl, hrest, by simpa using hnext⟩

theorem Visit.modes_of_blank (h : Visit line (c :: cs)) (hmode : c.mode = 0) :
    ∃ k, (c :: cs).map Call.mode = .replicate (k + 1) 0 := by
  obtain ⟨k, rest, hmodes, -, hnext⟩ := h.stays
  rw [hmode] at hmodes hnext
  cases rest with
  | nil => exact ⟨k, by simpa using hmodes⟩
  | cons d rest => simp [Next] at hnext

theorem Visit.modes_of_draw (h : Visit line (c :: cs)) (hmode : c.mode = 3) :
    ∃ j k, (c :: cs).map Call.mode = .replicate (j + 1) 3 ++ .replicate k 0 := by
  obtain ⟨j, rest, hmodes, hrest, hnext⟩ := h.stays
  rw [hmode] at hmodes hnext
  cases rest with
  | nil => exact ⟨j, 0, hmodes⟩
  | cons d rest =>
    obtain ⟨k, hblank⟩ := hrest.modes_of_blank (by simpa [Next] using hnext)
    exact ⟨j, k + 1, by rw [hmodes, hblank]⟩

theorem Visit.modes (h : Visit line (c :: cs)) (hmode : c.mode = 2) :
    ∃ i j k, (c :: cs).map Call.mode =
      .replicate (i + 1) 2 ++ .replicate j 3 ++ .replicate k 0 ∧ (k ≠ 0 → j ≠ 0) := by
  obtain ⟨i, rest, hmodes, hrest, hnext⟩ := h.stays
  rw [hmode] at hmodes hnext
  cases rest with
  | nil => exact ⟨i, 0, 0, by simpa using hmodes, by simp⟩
  | cons d rest =>
    obtain ⟨j, k, hdraw⟩ := hrest.modes_of_draw (by simpa [Next] using hnext)
    exact ⟨i, j + 1, k, by rw [hmodes, hdraw, List.append_assoc], by simp⟩

end Call

theorem inOrder_append (i : Nat) {j k : Nat} (hskips : k ≠ 0 → j ≠ 0) :
    ∃ rest, InOrder (.replicate (i + 1) 2 ++ .replicate j 3 ++ .replicate k 0 ++ rest) := by
  cases k with
  | succ k =>
    obtain ⟨j, rfl⟩ := Nat.exists_eq_succ_of_ne_zero (hskips (Nat.succ_ne_zero k))
    exact ⟨[], i, j, k, List.append_nil _⟩
  | zero =>
    cases j with
    | succ j => exact ⟨[0], i, j, 0, by simp⟩
    | zero => exact ⟨[3, 0], i, 0, 0, by simp⟩

theorem Lit.inOrder (h : s.Lit) {as : List Action} (has : ∀ a ∈ as, a.cycles ≤ 80 ∧ a.Quiet)
    (hstarts : s.StartsLine) (hvisible : s.line < 144)
    (hlines : ∀ c ∈ s.calls as, c.line = s.line) :
    (∃ rest, InOrder ((s.calls as).map Call.mode ++ rest)) ∧
      ((s.run as).line ≠ s.line → InOrder ((s.calls as).map Call.mode)) := by
  have hmode : s.nextCall.mode = 2 := by
    apply PictureUnit.modeOf_of_starts hvisible
    unfold StartsLine at hstarts
    dsimp only [lineCycles] at hstarts
    omega
  have has' : ∀ a ∈ as ++ [.advance 0], a.cycles ≤ 80 ∧ a.Quiet :=
    List.forall_mem_append.2 ⟨has, List.forall_mem_singleton.2 ⟨Nat.zero_le 80, trivial⟩⟩
  -- One more call shows where the run has come to.
  have hlast : s.calls (as ++ [.advance 0]) = s.calls as ++ [(s.run as).nextCall] := by
    rw [calls_append, (h.run_short has).calls_advance]
    rfl
  obtain ⟨hhead, hchain, -⟩ := h.calls_follow has'
  rw [hlast] at hhead hchain
  obtain ⟨hfollows, -, hleaves⟩ := List.isChain_append.1 hchain
  cases hcalls : s.calls as with
  | nil =>
    rw [hcalls] at hhead
    have hsame : (s.run as).nextCall = s.nextCall := hhead _ rfl
    exact ⟨⟨[2, 3, 0], 0, 0, 0, rfl⟩, fun hleft => absurd (congrArg Call.line hsame) hleft⟩
  | cons c cs =>
    rw [hcalls] at hhead hlines hfollows hleaves
    obtain rfl : c = s.nextCall := hhead c rfl
    have hvisit : Call.Visit s.line (s.nextCall :: cs) := ⟨hvisible, hlines, hfollows⟩
    obtain ⟨i, j, k, hmodes, hskips⟩ := hvisit.modes hmode
    rw [hmodes]
    refine ⟨inOrder_append i hskips, fun hleft => ?_⟩
    have hend := List.getLast_mem (List.cons_ne_nil s.nextCall cs)
    have hline := hlines _ hend
    have hzero : ((s.nextCall :: cs).getLast (List.cons_ne_nil _ _)).mode = 0 :=
      (hleaves _ (List.getLast?_eq_some_getLast _) _ rfl).mode_of_leaves (hline ▸ hvisible)
        (hline ▸ hleft)
    have hmem := List.mem_map_of_mem (f := Call.mode) hend
    rw [hzero, hmodes] at hmem
    have hblank : k ≠ 0 := by
      rintro rfl
      simp at hmem
    obtain ⟨j, rfl⟩ := Nat.exists_eq_succ_of_ne_zero (hskips hblank)
    obtain ⟨k, rfl⟩ := Nat.exists_eq_succ_of_ne_zero hblank
    exact ⟨i, j, k, rfl⟩

/-- With the display on and calls of at most 80 cycles, each call follows the one before it, calls
on the lines that show nothing record 1, and the calls on a visible line from its start record modes
in order. A line starts where a call has ended the one before it. -/
theorem modes_in_order (cartridge : Cartridge) (sound : Bool) (log : Log) {before : List Action}
    (hbefore : ∀ a ∈ before, a.cycles ≤ 80)
    (hon : on ((powerOn cartridge sound log).run before).bus = true) {as : List Action}
    (has : ∀ a ∈ as, a.cycles ≤ 80 ∧ a.Quiet) :
    let s := (powerOn cartridge sound log).run before
    (s.calls as).IsChain Call.Follows ∧
      (∀ c ∈ s.calls as, 144 ≤ c.line → c.mode = 1) ∧
      (∀ first cycles rest, as = first ++ .advance cycles :: rest →
        (s.run (first ++ [.advance cycles])).line ≠ (s.run first).line →
        (s.run (first ++ [.advance cycles])).StartsLine) ∧
      ∀ first visit rest, as = first ++ visit ++ rest →
        (s.run first).StartsLine → (s.run first).line < 144 →
        (∀ c ∈ (s.run first).calls visit, c.line = (s.run first).line) →
        (∃ more, InOrder (((s.run first).calls visit).map Call.mode ++ more)) ∧
          ((s.run (first ++ visit)).line ≠ (s.run first).line →
            InOrder (((s.run first).calls visit).map Call.mode)) := by
  intro s
  have hlit : s.Lit := ⟨hon, placed_run (lit_powerOn cartridge sound log).placed fun a ha =>
    Nat.le_trans (hbefore a ha) (by decide)⟩
  obtain ⟨-, hchain, hmodes⟩ := hlit.calls_follow has
  refine ⟨hchain, fun c hc hblank => ?_, ?_, ?_⟩
  · obtain ⟨counter, hmode⟩ := hmodes c hc
    rw [hmode, PictureUnit.modeOf_of_blankLine hblank]
  · rintro first cycles rest rfl hline
    obtain ⟨hfirst, hrest⟩ := List.forall_mem_append.1 has
    rw [run_concat] at hline ⊢
    exact (hlit.run_short hfirst).startsLine (hrest _ List.mem_cons_self).1 hline
  · rintro first visit rest rfl hstarts hvisible hlines
    obtain ⟨hfirst, hvisit⟩ := List.forall_mem_append.1 (List.forall_mem_append.1 has).1
    rw [run_append]
    exact (hlit.run_short hfirst).inOrder hvisit hstarts hvisible hlines

theorem Lit.calls_within (h : s.Lit) (n : Nat) (hn : n * 80 < s.picture.counter) :
    (s.run (.replicate n (.advance 80))).picture.counter = s.picture.counter - n * 80 ∧
      (s.run (.replicate n (.advance 80))).line = s.line ∧
      ∀ c ∈ s.calls (.replicate n (.advance 80)), c.line = s.line := by
  induction n generalizing s with
  | zero =>
    refine ⟨?_, rfl, by simp [calls]⟩
    rw [Int.natCast_zero, Int.zero_mul, Int.sub_zero]
    rfl
  | succ n ih =>
    have hlit := (h.act (a := .advance 80) (by decide) trivial).1
    obtain ⟨hline, hcounter, -⟩ := (h.advance_cases (show 80 ≤ 456 by decide)).resolve_right
      (by omega)
    obtain ⟨hcounter', hline', hlines⟩ := ih hlit (by omega)
    rw [List.replicate_succ, h.calls_advance]
    refine ⟨?_, hline'.trans hline, List.forall_mem_cons.2 ⟨rfl, fun c hc => ?_⟩⟩
    · refine hcounter'.trans ?_
      omega
    · exact (hlines c hc).trans hline

theorem modes_in_order_first_line :
    (∀ a ∈ ([] : List Action), a.cycles ≤ 80) ∧
      on ((powerOn default false {}).run []).bus = true ∧
      (∀ a ∈ List.replicate 6 (Action.advance 80), a.cycles ≤ 80 ∧ a.Quiet) ∧
      InOrder (((powerOn default false {}).calls (.replicate 6 (.advance 80))).map Call.mode) := by
  have hbefore : ∀ a ∈ ([] : List Action), a.cycles ≤ 80 := List.forall_mem_nil _
  have hon : on ((powerOn default false {}).run []).bus = true := on_powerOn default false {}
  have hshort := quiet_replicate 6 (Nat.le_refl 80)
  refine ⟨hbefore, hon, hshort, ?_⟩
  have hlit := lit_powerOn default false {}
  have hstarts : (powerOn default false {}).StartsLine := by
    change lineCycles - 456 < 80
    decide
  have hvisible : (powerOn default false {}).line < 144 := by
    rw [line_powerOn]
    decide
  -- Five calls leave 56 cycles, and the sixth ends the line.
  obtain ⟨hcounter, hline, hlines⟩ := hlit.calls_within 5 (by decide)
  have hfive := hlit.run_short (quiet_replicate 5 (Nat.le_refl 80))
  have hlines' : ∀ c ∈ (powerOn default false {}).calls (.replicate 6 (.advance 80)),
      c.line = (powerOn default false {}).line := by
    rw [List.replicate_succ', calls_append, hfive.calls_advance]
    exact List.forall_mem_append.2 ⟨hlines, List.forall_mem_singleton.2 hline⟩
  have hleft : ((powerOn default false {}).run (.replicate 6 (.advance 80))).line ≠
      (powerOn default false {}).line := by
    have hfull : (powerOn default false {}).picture.counter = 456 := rfl
    rw [List.replicate_succ', run_concat, ← hline]
    rcases hfive.advance_cases (show 80 ≤ 456 by decide) with ⟨-, -, hleft⟩ | ⟨-, -, hnext⟩
    · omega
    · grind [lastLine]
  exact ((modes_in_order default false {} hbefore hon hshort).2.2.2 [] _ [] rfl hstarts hvisible
    hlines').2 hleft

end Scene

end Handheld
