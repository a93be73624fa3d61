import Handheld.Proofs.ModeOrder

/-!
# What the status register requests

A call requests the interrupt where it enters a mode or finds the awaited line, if the status
register asks for that. From one wrap of the line register to the next a mode is entered once for
each line that has it, and the mode of the lines that show nothing once.
-/

namespace Handheld

open PictureUnit (on lyAddress statAddress lastLine modeOf)

namespace Scene

/-! ## Requests -/

namespace Action

/-- None of the registers that the picture unit goes by: control, status, line and awaited line. -/
def Spares (a : UInt16) : Prop := a ≠ 0xff40 ∧ a ≠ 0xff41 ∧ a ≠ 0xff44 ∧ a ≠ 0xff45

def Still : Action → Prop
  | .advance _ => True
  | .write a _ => Spares a
  | .writeWord a _ => Spares a ∧ Spares (a + 1)

end Action

def status (s : Scene) : UInt8 := s.bus.read statAddress

def statusBit (s : Scene) (i : Nat) : Bool := s.status.toNat.testBit i

def awaitedLine (s : Scene) : UInt8 := s.bus.read 0xff45

/-- The status register asks for an interrupt when the mode is entered. There is no such bit for
mode 3. -/
def AsksFor (s : Scene) (mode : UInt8) : Prop := mode < 3 ∧ s.statusBit (3 + mode.toNat) = true

instance (s : Scene) (mode : UInt8) : Decidable (s.AsksFor mode) :=
  inferInstanceAs (Decidable (_ ∧ _))

/-- A call requests the interrupt, whether or not it was requested before: it does so where it was
acknowledged. -/
def Raises (s : Scene) (cycles : Nat) : Prop :=
  (act { s with bus := s.bus.acknowledge .lcdStat } (.advance cycles)).bus.Requests .lcdStat

instance (s : Scene) (cycles : Nat) : Decidable (s.Raises cycles) :=
  inferInstanceAs (Decidable (Bus.Requests _ _))

/-- What a call does to the status register and its interrupt. -/
structure Records (s : Scene) (cycles : Nat) : Prop where
  raises : s.Raises cycles ↔
    (s.act (.advance cycles)).mode ≠ s.mode ∧ s.AsksFor (s.act (.advance cycles)).mode ∨
      s.line = s.awaitedLine ∧ s.statusBit 6 = true
  requests : (s.act (.advance cycles)).bus.Requests .lcdStat ↔
    s.bus.Requests .lcdStat ∨ s.Raises cycles
  compared : (s.act (.advance cycles)).statusBit 2 = true ↔ s.line = s.awaitedLine

def Wraps (s : Scene) (a : Action) : Prop := s.line = lastLine ∧ (s.act a).line = 0

instance (s : Scene) (a : Action) : Decidable (s.Wraps a) := inferInstanceAs (Decidable (_ ∧ _))

/-- The actions from one wrap to the next. -/
structure WholePicture (s : Scene) (a : Action) (inner : List Action) (b : Action) : Prop where
  first : s.Wraps a
  last : ((s.act a).run inner).Wraps b
  within : ∀ pre c post, inner = pre ++ c :: post → ¬ ((s.act a).run pre).Wraps c

def total (count : Scene → Action → Nat) (s : Scene) : List Action → Nat
  | [] => 0
  | a :: as => count s a + (s.act a).total count as

/-- Counts the calls that record a mode and request the interrupt. -/
def requestsFor (mode : UInt8) (s : Scene) : Action → Nat
  | .advance cycles => if s.Raises cycles ∧ (s.act (.advance cycles)).mode = mode then 1 else 0
  | .write .. | .writeWord .. => 0

/-- How often a picture enters a mode other than 3. -/
def perPicture (mode : UInt8) : Nat := if mode = 1 then 1 else 144

end Scene

/-! ## Bits of the status register -/

theorem testBit_of_and_0xf8 {a b : UInt8} (h : a &&& 0xf8 = b &&& 0xf8) {i : Nat} (hlow : 3 ≤ i)
    (hhigh : i < 8) : a.toNat.testBit i = b.toNat.testBit i := by
  have hbits : ∀ n < 8, 3 ≤ n → Nat.testBit 0xf8 n = true := by decide
  have hmasked := congrArg (fun c : UInt8 => c.toNat.testBit i) h
  simpa only [UInt8.toNat_and, Nat.testBit_and, UInt8.reduceToNat, hbits i hhigh hlow,
    Bool.and_true] using hmasked

namespace PictureUnit

theorem and_enableMask_ne_zero_iff (status mode : UInt8) :
    status &&& enableMask mode ≠ 0 ↔
      mode < 3 ∧ status.toNat.testBit (3 + mode.toNat) = true := by
  by_cases hmode : mode < 3
  · have hcases : mode = 0 ∨ mode = 1 ∨ mode = 2 := by grind
    rw [and_iff_right hmode]
    rcases hcases with rfl | rfl | rfl
    · exact and_ne_zero_iff_testBit status rfl
    · exact and_ne_zero_iff_testBit status rfl
    · exact and_ne_zero_iff_testBit status rfl
  · have hnone : enableMask mode = 0 := by
      unfold enableMask
      split <;> first | rfl | exact absurd (by decide) hmode
    simp [hnone, hmode]

theorem testBit_newStatus (status mode : UInt8) (matched : Bool) :
    (newStatus status mode matched).toNat.testBit 2 = matched := by
  rw [Bool.eq_iff_iff, ← and_ne_zero_iff_testBit _ (m := 4) rfl]
  unfold newStatus
  cases matched with
  | true =>
    have hset := Kept.or 4 (status &&& 0xfc ||| mode)
    unfold Kept at hset
    rw [if_pos rfl, UInt8.or_comm, UInt8.and_comm, hset]
    decide
  | false =>
    have hclear : (0xfb : UInt8) &&& 4 = 0 := rfl
    rw [if_neg Bool.false_ne_true, UInt8.and_assoc, hclear, UInt8.and_zero]
    decide

/-! ## One call -/

theorem requests_lcdStat_updateStatus (counter : Int) (bus : Bus) :
    (updateStatus counter bus).Requests .lcdStat ↔ bus.Requests .lcdStat ∨
      (modeRequests (bus.read statAddress) (modeOf (bus.read lyAddress) counter) ||
        lineRequests (bus.read statAddress) (bus.read lyAddress == bus.read 0xff45)) = true := by
  unfold updateStatus
  dsimp only
  rw [Bus.requests_store]
  split
  · rename_i hraised
    rw [Bus.requests_request]
    exact iff_of_true (.inr rfl) (.inr hraised)
  · rename_i hquiet
    exact (or_iff_left hquiet).symm

theorem requests_lcdStat_step (p : PictureUnit) {bus : Bus} (hon : on bus = true) (cycles : Nat) :
    (p.step bus cycles).2.2.Requests .lcdStat ↔ (updateStatus p.counter bus).Requests .lcdStat :=
  iff_of_eq <| apply_step_of_on (f := (·.Requests .lcdStat))
    (fun b v => propext (b.requests_store lyAddress v .lcdStat))
    (fun b => propext ((b.requests_request .vBlank .lcdStat).trans (or_iff_left nofun)))
    p hon cycles

end PictureUnit

theorem Bus.not_requests_acknowledge (b : Bus) (i : Interrupt) :
    ¬ (b.acknowledge i).Requests i := by
  have hmask : ~~~i.mask &&& i.mask = 0 := by cases i <;> decide
  unfold Requests acknowledge
  rw [UInt8.and_assoc, hmask, UInt8.and_zero]
  exact fun h => h rfl

theorem Bus.read_acknowledge_of_ne (b : Bus) (i : Interrupt) {a : UInt16} (h : a ≠ 0xff0f) :
    (b.acknowledge i).read a = b.read a :=
  read_interruptFlags_of_ne _ _ h

namespace Scene

variable {s : Scene}

theorem records (hon : on s.bus = true) (cycles : Nat) : s.Records cycles := by
  have hread : ∀ a, a ≠ 0xff0f → (s.bus.acknowledge .lcdStat).read a = s.bus.read a := fun a =>
    s.bus.read_acknowledge_of_ne .lcdStat
  have hon' : on (s.bus.acknowledge .lcdStat) = true := by
    unfold on
    rw [hread _ (by decide)]
    exact hon
  have hraises := (s.picture.requests_lcdStat_step hon' cycles).trans
    (PictureUnit.requests_lcdStat_updateStatus s.picture.counter _)
  rw [or_iff_right (s.bus.not_requests_acknowledge .lcdStat), hread _ (by decide),
    hread _ (by decide), hread _ (by decide)] at hraises
  refine ⟨?_, ?_, ?_⟩
  · rw [mode_act_advance hon]
    refine hraises.trans ?_
    unfold PictureUnit.modeRequests PictureUnit.lineRequests
    rw [Bool.or_eq_true, Bool.and_eq_true, Bool.and_eq_true, bne_iff_ne, bne_iff_ne, bne_iff_ne,
      beq_iff_eq, PictureUnit.and_enableMask_ne_zero_iff, and_ne_zero_iff_testBit _ (i := 6) rfl]
    rfl
  · refine (s.picture.requests_lcdStat_step hon cycles).trans
      ((PictureUnit.requests_lcdStat_updateStatus s.picture.counter _).trans ?_)
    exact or_congr_right hraises.symm
  · have hstatus := s.picture.read_status_step_of_on hon cycles
    unfold statusBit status act
    dsimp only
    rw [hstatus, PictureUnit.testBit_newStatus, beq_iff_eq]
    rfl

/-! ## Between the calls -/

theorem Action.Still.quiet {a : Action} (h : a.Still) : a.Quiet := by
  cases a with
  | advance => trivial
  | write => exact ⟨h.1, h.2.2.1⟩
  | writeWord => exact ⟨⟨h.1.1, h.1.2.2.1⟩, h.2.1, h.2.2.2.1⟩

theorem read_write_spares (bus : Bus) {a : UInt16} (v : UInt8) (h : Action.Spares a) :
    (bus.write a v).read statAddress = bus.read statAddress ∧
      (bus.write a v).read 0xff45 = bus.read 0xff45 := by
  obtain ⟨-, hstatus, -, hawaited⟩ := h
  have hstatus' : ¬ Bus.Touches a statAddress := by grind [Bus.Touches, PictureUnit.statAddress]
  have hawaited' : ¬ Bus.Touches a 0xff45 := by grind [Bus.Touches]
  exact ⟨Bus.read_write_of_not_touches _ _ hstatus', Bus.read_write_of_not_touches _ _ hawaited'⟩

theorem act_still {a : Action} (hstill : a.Still) (hwrite : ∀ n, a ≠ .advance n) :
    (s.act a).status = s.status ∧ (s.act a).awaitedLine = s.awaitedLine := by
  cases a with
  | advance n => exact absurd rfl (hwrite n)
  | write a v => exact read_write_spares s.bus v hstill
  | writeWord a v =>
    have hlow := read_write_spares s.bus (Word.low v) hstill.1
    have hhigh := read_write_spares (s.bus.write a (Word.low v)) (Word.high v) hstill.2
    exact ⟨hhigh.1.trans hlow.1, hhigh.2.trans hlow.2⟩

theorem kept_act {a : Action} (hstill : a.Still) :
    (s.act a).status &&& 0xf8 = s.status &&& 0xf8 ∧ (s.act a).awaitedLine = s.awaitedLine := by
  by_cases hadvance : ∃ n, a = .advance n
  · obtain ⟨n, rfl⟩ := hadvance
    exact ⟨s.picture.read_status_step s.bus n,
      s.picture.read_step_of_ne s.bus n (by decide) (by decide) (by decide)⟩
  · obtain ⟨hstatus, hawaited⟩ := act_still (s := s) hstill (not_exists.1 hadvance)
    exact ⟨by rw [hstatus], hawaited⟩

theorem kept_run {as : List Action} (has : ∀ a ∈ as, a.Still) :
    (s.run as).status &&& 0xf8 = s.status &&& 0xf8 ∧ (s.run as).awaitedLine = s.awaitedLine := by
  induction as generalizing s with
  | nil => exact ⟨rfl, rfl⟩
  | cons a as ih =>
    obtain ⟨hstill, has'⟩ := List.forall_mem_cons.1 has
    obtain ⟨hstatus, hawaited⟩ := kept_act (s := s) hstill
    obtain ⟨hstatus', hawaited'⟩ := ih (s := s.act a) has'
    exact ⟨hstatus'.trans hstatus, hawaited'.trans hawaited⟩

theorem asksFor_congr {u : Scene} (h : u.status &&& 0xf8 = s.status &&& 0xf8) {mode : UInt8} :
    u.AsksFor mode ↔ s.AsksFor mode := by
  unfold AsksFor
  refine and_congr_right fun hmode => ?_
  have hhigh : mode.toNat < 3 := hmode
  unfold statusBit
  rw [testBit_of_and_0xf8 h (by omega) (by omega)]

/-! ## Entries of a mode -/

/-- Counts the calls that record a mode other than the one before. -/
def entriesOf (mode : UInt8) (s : Scene) : Action → Nat
  | .advance cycles => if (s.act (.advance cycles)).mode = mode ∧ s.mode ≠ mode then 1 else 0
  | .write .. | .writeWord .. => 0

/-- Whether a call that starts now enters a mode. -/
def enters (s : Scene) (mode : UInt8) : Nat :=
  if s.nextCall.mode = mode ∧ s.mode ≠ mode then 1 else 0

/-- How often a mode other than 3 has been entered since the first line began, with a call. -/
def Call.entered (c : Call) (mode : UInt8) : Nat :=
  if mode = 1 then if 144 ≤ c.line then 1 else 0
  else if 144 ≤ c.line then 144
  else c.line.toNat + if mode = 2 ∨ c.mode = mode then 1 else 0

theorem Call.Follows.entered {c d : Call} (h : c.Follows d) {mode : UInt8} (hmode : mode < 3) :
    d.entered mode + (if c.line = lastLine ∧ d.line = 0 then perPicture mode else 0) =
      c.entered mode + if d.mode = mode ∧ c.mode ≠ mode then 1 else 0 := by
  have hcases : mode = 0 ∨ mode = 1 ∨ mode = 2 := by grind
  cases h with
  | nextLine line hline =>
    have hnext := PictureUnit.toNat_add_one_of_lt (show line < lastLine by grind [lastLine])
    rcases hcases with rfl | rfl | rfl <;> grind [Call.entered, perPicture, lastLine]
  | same | draw | blank | vBlank | nextBlankLine | wrap =>
    rcases hcases with rfl | rfl | rfl <;> grind [Call.entered, perPicture, lastLine]

namespace Lit

theorem mode_act_eq (h : s.Lit) (cycles : Nat) :
    (s.act (.advance cycles)).mode = s.nextCall.mode :=
  mode_act_advance h.display cycles

theorem entered_act (h : s.Lit) {a : Action} (hle : a.cycles ≤ 80) (hstill : a.Still)
    {mode : UInt8} (hmode : mode < 3) :
    (s.act a).nextCall.entered mode + (if s.Wraps a then perPicture mode else 0) + s.enters mode =
      s.nextCall.entered mode + entriesOf mode s a + (s.act a).enters mode := by
  by_cases hadvance : ∃ n, a = .advance n
  · obtain ⟨n, rfl⟩ := hadvance
    have hstep : (s.act (.advance n)).nextCall.entered mode +
        (if s.Wraps (.advance n) then perPicture mode else 0) =
          s.nextCall.entered mode + (s.act (.advance n)).enters mode := by
      unfold enters
      rw [h.mode_act_eq]
      exact (h.follows_nextCall hle).entered hmode
    have hentry : entriesOf mode s (.advance n) = s.enters mode := by
      unfold enters
      rw [← h.mode_act_eq n]
      rfl
    rw [hstep, hentry, Nat.add_right_comm]
  · obtain ⟨-, -, hline⟩ := act_quiet (s := s) hstill.quiet (not_exists.1 hadvance)
    obtain ⟨hstatus, -⟩ := act_still (s := s) hstill (not_exists.1 hadvance)
    have hnext := nextCall_act_quiet (s := s) hstill.quiet (not_exists.1 hadvance)
    have hmode' : (s.act a).mode = s.mode := congrArg (· &&& 3) hstatus
    have hwraps : ¬ s.Wraps a := by
      rintro ⟨hlast, hzero⟩
      rw [hline, hlast] at hzero
      exact absurd hzero (by decide)
    have hentry : entriesOf mode s a = 0 := by
      cases a with
      | advance n => exact absurd ⟨n, rfl⟩ hadvance
      | write | writeWord => rfl
    unfold enters
    rw [if_neg hwraps, hnext, hmode', hentry]

theorem wrap (h : s.Lit) {a : Action} (hle : a.cycles ≤ 80) (hstill : a.Still)
    (hwraps : s.Wraps a) : (s.act a).nextCall = ⟨0, 2⟩ ∧ (s.act a).mode = 1 := by
  obtain ⟨hlast, hzero⟩ := hwraps
  have hleft : (s.act a).line ≠ s.line := by
    rw [hlast, hzero]
    decide
  by_cases hadvance : ∃ n, a = .advance n
  · obtain ⟨n, rfl⟩ := hadvance
    have hstarts : (s.act (.advance n)).StartsLine := h.startsLine hle hleft
    unfold StartsLine at hstarts
    dsimp only [PictureUnit.lineCycles] at hstarts
    constructor
    · unfold nextCall
      rw [hzero, PictureUnit.modeOf_of_starts (by decide) (by omega)]
    · rw [mode_act_advance h.display, hlast]
      exact PictureUnit.modeOf_of_blankLine (by decide) _
  · exact absurd (act_quiet hstill.quiet (not_exists.1 hadvance)).2.2 hleft

theorem act_short (h : s.Lit) {a : Action} (hle : a.cycles ≤ 80) (hstill : a.Still) :
    (s.act a).Lit :=
  (h.act (Nat.le_trans hle (by decide)) hstill.quiet).1

theorem entered_run (h : s.Lit) {as : List Action} (has : ∀ a ∈ as, a.cycles ≤ 80 ∧ a.Still)
    (hwithin : ∀ first a rest, as = first ++ a :: rest → ¬ (s.run first).Wraps a) {mode : UInt8}
    (hmode : mode < 3) :
    (s.run as).nextCall.entered mode + s.enters mode =
      s.nextCall.entered mode + s.total (entriesOf mode) as + (s.run as).enters mode := by
  induction as generalizing s with
  | nil => rfl
  | cons a as ih =>
    obtain ⟨⟨hle, hstill⟩, has'⟩ := List.forall_mem_cons.1 has
    have hfirst : ¬ s.Wraps a := hwithin [] a as rfl
    have hstep := h.entered_act hle hstill hmode
    have hrun := ih (h.act_short hle hstill) has' fun first b rest heq =>
      hwithin (a :: first) b rest (congrArg (a :: ·) heq)
    rw [if_neg hfirst] at hstep
    change ((s.act a).run as).nextCall.entered mode + s.enters mode = s.nextCall.entered mode +
      (entriesOf mode s a + (s.act a).total (entriesOf mode) as) + ((s.act a).run as).enters mode
    omega

end Lit

theorem total_concat (count : Scene → Action → Nat) (s : Scene) (as : List Action) (a : Action) :
    s.total count (as ++ [a]) = s.total count as + count (s.run as) a := by
  induction as generalizing s with
  | nil => exact Nat.add_comm _ _
  | cons b as ih =>
    rw [List.cons_append, total, ih, ← Nat.add_assoc]
    rfl

theorem Lit.entries_picture (h : s.Lit) {a b : Action} {inner : List Action}
    (has : ∀ c ∈ a :: (inner ++ [b]), c.cycles ≤ 80 ∧ c.Still) (hwhole : s.WholePicture a inner b)
    {mode : UInt8} (hmode : mode < 3) :
    (s.act a).total (entriesOf mode) (inner ++ [b]) = perPicture mode := by
  obtain ⟨⟨hle, hstill⟩, hrest⟩ := List.forall_mem_cons.1 has
  obtain ⟨hinner, hb⟩ := List.forall_mem_append.1 hrest
  obtain ⟨hle', hstill'⟩ := List.forall_mem_singleton.1 hb
  have hstart := h.act_short hle hstill
  have hend : ((s.act a).run inner).Lit :=
    hstart.run_short fun c hc => ⟨(hinner c hc).1, (hinner c hc).2.quiet⟩
  have hrun := hstart.entered_run hinner hwhole.within hmode
  have hstep := hend.entered_act hle' hstill' hmode
  -- Both wraps leave the same next call and the same recorded mode.
  obtain ⟨hnext, hmode'⟩ := h.wrap hle hstill hwhole.first
  obtain ⟨hnext', hmode''⟩ := hend.wrap hle' hstill' hwhole.last
  have henters : (((s.act a).run inner).act b).enters mode = (s.act a).enters mode := by
    unfold enters
    rw [hnext, hnext', hmode', hmode'']
  rw [if_pos hwhole.last, hnext', henters] at hstep
  rw [hnext] at hrun
  rw [total_concat]
  omega

/-! ## Requests of a run -/

theorem requestsFor_eq (hon : on s.bus = true) (hsilent : s.statusBit 6 = false) (mode : UInt8)
    (a : Action) : requestsFor mode s a = if s.AsksFor mode then entriesOf mode s a else 0 := by
  cases a with
  | write | writeWord => exact (ite_self 0).symm
  | advance n =>
    have hraises := (records hon n).raises
    rw [hsilent] at hraises
    unfold requestsFor entriesOf
    grind

theorem Lit.total_requestsFor (h : s.Lit) {as : List Action}
    (has : ∀ a ∈ as, a.cycles ≤ 80 ∧ a.Still) (hsilent : s.statusBit 6 = false) (mode : UInt8) :
    s.total (requestsFor mode) as = if s.AsksFor mode then s.total (entriesOf mode) as else 0 := by
  induction as generalizing s with
  | nil => exact (ite_self 0).symm
  | cons a as ih =>
    obtain ⟨⟨hle, hstill⟩, has'⟩ := List.forall_mem_cons.1 has
    have hkept := (kept_act (s := s) hstill).1
    have hsilent' : (s.act a).statusBit 6 = false :=
      (testBit_of_and_0xf8 hkept (by decide) (by decide)).trans hsilent
    rw [total, total, requestsFor_eq h.display hsilent, ih (h.act_short hle hstill) has' hsilent']
    simp only [asksFor_congr hkept]
    split <;> rfl

/-- With the display on and calls of at most 80 cycles, a call requests the interrupt of the status
register if it enters a mode or starts on the awaited line, and the register asks for that. It says
whether the line was the awaited one, and keeps what the program wrote. Where it asks for no line,
a mode that it asks for requests once for each line that has it from one wrap to the next, and the
mode of the lines that show nothing once. -/
theorem status_requests (cartridge : Cartridge) (sound : Bool) (log : Log) {before : List Action}
    (hbefore : ∀ a ∈ before, a.cycles ≤ 80)
    (hon : on ((powerOn cartridge sound log).run before).bus = true) {as : List Action}
    (has : ∀ a ∈ as, a.cycles ≤ 80 ∧ a.Still) :
    let s := (powerOn cartridge sound log).run before
    (∀ first cycles rest, as = first ++ .advance cycles :: rest → (s.run first).Records cycles) ∧
      (∀ first a rest, as = first ++ a :: rest → (∀ n, a ≠ .advance n) →
        (s.run (first ++ [a])).status = (s.run first).status) ∧
      (∀ first rest, as = first ++ rest → (s.run first).awaitedLine = s.awaitedLine ∧
        ∀ i, 3 ≤ i → i < 8 → (s.run first).statusBit i = s.statusBit i) ∧
      (s.statusBit 6 = false → ∀ first a inner b rest, as = first ++ a :: (inner ++ b :: rest) →
        (s.run first).WholePicture a inner b →
        ∀ mode < 3, ((s.run first).act a).total (requestsFor mode) (inner ++ [b]) =
          if s.AsksFor mode then perPicture mode else 0) := by
  intro s
  have hlit : s.Lit := ⟨hon, placed_run (lit_powerOn cartridge sound log).placed fun a ha =>
    Nat.le_trans (hbefore a ha) (by decide)⟩
  have hrun : ∀ first rest, as = first ++ rest → (s.run first).Lit := by
    rintro first rest rfl
    exact hlit.run_short fun a ha =>
      ⟨(has a (List.mem_append_left _ ha)).1, (has a (List.mem_append_left _ ha)).2.quiet⟩
  have hkept : ∀ first rest, as = first ++ rest →
      (s.run first).status &&& 0xf8 = s.status &&& 0xf8 ∧
        (s.run first).awaitedLine = s.awaitedLine := by
    rintro first rest rfl
    exact kept_run fun a ha => (has a (List.mem_append_left _ ha)).2
  refine ⟨?_, ?_, ?_, ?_⟩
  · intro first cycles rest heq
    exact records (hrun first _ heq).display cycles
  · rintro first a rest rfl hwrite
    rw [run_concat]
    exact (act_still (has a (by simp)).2 hwrite).1
  · intro first rest heq
    obtain ⟨hstatus, hawaited⟩ := hkept first rest heq
    exact ⟨hawaited, fun i hlow hhigh => testBit_of_and_0xf8 hstatus hlow hhigh⟩
  · intro hsilent first a inner b rest heq hwhole mode hmode
    have hstart := hrun first _ heq
    have has' : ∀ c ∈ a :: (inner ++ [b]), c.cycles ≤ 80 ∧ c.Still := fun c hc =>
      has c (by simp only [heq, List.mem_append, List.mem_cons] at hc ⊢; grind)
    obtain ⟨⟨hle, hstill⟩, hrest⟩ := List.forall_mem_cons.1 has'
    have hstatus := (kept_act (s := s.run first) hstill).1.trans (hkept first _ heq).1
    have hsilent' : ((s.run first).act a).statusBit 6 = false :=
      (testBit_of_and_0xf8 hstatus (by decide) (by decide)).trans hsilent
    rw [(hstart.act_short hle hstill).total_requestsFor hrest hsilent',
      hstart.entries_picture has' hwhole hmode]
    simp only [asksFor_congr hstatus]

/-! ## Where the line register starts over -/

theorem Lit.toNat_line (h : s.Lit) :
    (s.line.toNat : Int) = s.position / PictureUnit.lineCycles := by
  have hpos := h.placed.counter_pos
  have hle := h.placed.counter_le
  unfold position PictureUnit.position
  dsimp only [PictureUnit.lineCycles] at hle ⊢
  omega

theorem Lit.wraps_iff (h : s.Lit) {a : Action} (hle : a.cycles ≤ 80) (hstill : a.Still) :
    s.Wraps a ↔ PictureUnit.pictureCycles ≤ s.position + a.cycles := by
  obtain ⟨hlit, hposition⟩ := h.act (Nat.le_trans hle (by decide)) hstill.quiet
  have hrange := h.placed.position_emod
  change s.position % PictureUnit.pictureCycles = s.position at hrange
  have hline := h.toNat_line
  have hline' := hlit.toNat_line
  unfold Wraps
  rw [← UInt8.toNat_inj, ← UInt8.toNat_inj]
  have hlast : lastLine.toNat = 153 := rfl
  have hfirst : (0 : UInt8).toNat = 0 := rfl
  dsimp only [PictureUnit.pictureCycles, PictureUnit.lineCycles] at *
  omega

theorem status_write (s : Scene) (v : UInt8) :
    (s.act (.write 0xff41 v)).status &&& 0xf8 = v &&& 0xf8 := by
  have hread : (s.bus.write 0xff41 v).read 0xff41 = v &&& 0xf8 ||| s.bus.read 0xff41 &&& 0x07 :=
    Bus.read_write_self s.bus v (by decide) (by decide) (by decide) (by decide) (by decide)
  have hrest : s.bus.read 0xff41 &&& 0x07 &&& 0xf8 = 0 := by
    rw [UInt8.and_assoc]
    exact UInt8.and_zero
  change (s.bus.write 0xff41 v).read 0xff41 &&& 0xf8 = v &&& 0xf8
  rw [hread, or_and_of_and_eq_zero _ hrest, UInt8.and_assoc]
  rfl

theorem still_replicate (n : Nat) :
    ∀ a ∈ List.replicate n (Action.advance 80), a.cycles ≤ 80 ∧ a.Still := by
  intro a ha
  obtain rfl := List.eq_of_mem_replicate ha
  exact ⟨Nat.le_refl 80, trivial⟩

theorem Lit.wraps_replicate (h : s.Lit) (n : Nat) :
    (s.run (.replicate n (.advance 80))).Wraps (.advance 80) ↔
      PictureUnit.pictureCycles ≤
        (s.position + (n * 80 : Nat)) % PictureUnit.pictureCycles + (80 : Nat) := by
  obtain ⟨hlit, hposition⟩ := h.run (quiet_replicate n (show 80 ≤ 456 by decide))
  rw [hlit.wraps_iff (a := .advance 80) (Nat.le_refl 80) trivial, hposition, totalCycles_replicate]
  rfl

/-- From the start of a picture, 877 calls leave 64 cycles of it. The next one ends it, and 878 more
end the second. -/
theorem Lit.wholePicture (h : s.Lit) (hstart : s.position = 0) :
    (s.run (.replicate 877 (.advance 80))).WholePicture (.advance 80)
      (.replicate 877 (.advance 80)) (.advance 80) := by
  obtain ⟨hfirst, hposition⟩ := h.run (quiet_replicate 877 (show 80 ≤ 456 by decide))
  obtain ⟨hnext, hposition'⟩ := hfirst.act (a := .advance 80) (by decide) trivial
  rw [hposition, hstart, totalCycles_replicate] at hposition'
  have hsixteen := hposition'.trans (show _ = (16 : Int) from rfl)
  refine ⟨?_, ?_, ?_⟩
  · rw [h.wraps_replicate, hstart]
    decide
  · rw [hnext.wraps_replicate, hsixteen]
    decide
  · intro pre c post heq
    obtain ⟨hlength, hpre, hpost⟩ := List.replicate_eq_append_iff.1 heq
    obtain ⟨rfl, -⟩ : c = .advance 80 ∧ _ := List.cons_eq_cons.1 (hpost.trans List.replicate_succ)
    rw [List.length_cons] at hlength
    rw [hpre, hnext.wraps_replicate, hsixteen]
    dsimp only [PictureUnit.pictureCycles]
    rw [Int.emod_eq_of_lt (by omega) (by omega)]
    omega

theorem status_requests_second_picture :
    (∀ a ∈ [Action.write 0xff41 0x38], a.cycles ≤ 80) ∧
      on ((powerOn default false {}).run [.write 0xff41 0x38]).bus = true ∧
      (∀ a ∈ List.replicate 1756 (Action.advance 80), a.cycles ≤ 80 ∧ a.Still) ∧
      ∀ mode < 3,
        ((((powerOn default false {}).run [.write 0xff41 0x38]).run
          (.replicate 877 (.advance 80))).act (.advance 80)).total (requestsFor mode)
            (.replicate 877 (.advance 80) ++ [.advance 80]) = perPicture mode := by
  have hbefore : ∀ a ∈ [Action.write 0xff41 0x38], a.cycles ≤ 80 := by simp [Action.cycles]
  obtain ⟨hlit, hposition⟩ := (lit_powerOn default false {}).act (a := .write 0xff41 0x38)
    (by decide) ⟨by decide, by decide⟩
  have hstatus := status_write (powerOn default false {}) 0x38
  refine ⟨hbefore, hlit.display, still_replicate 1756, fun mode hmode => ?_⟩
  have hsilent : ((powerOn default false {}).act (.write 0xff41 0x38)).statusBit 6 = false :=
    (testBit_of_and_0xf8 hstatus (by decide) (by decide)).trans (by decide)
  have hasks : ((powerOn default false {}).act (.write 0xff41 0x38)).AsksFor mode := by
    have hcases : mode = 0 ∨ mode = 1 ∨ mode = 2 := by grind
    refine ⟨hmode, ?_⟩
    rcases hcases with rfl | rfl | rfl
    all_goals exact (testBit_of_and_0xf8 hstatus (by decide) (by decide)).trans (by decide)
  have hsplit : List.replicate 1756 (Action.advance 80) = .replicate 877 (.advance 80) ++
      .advance 80 :: (.replicate 877 (.advance 80) ++ [.advance 80]) := by
    rw [← List.replicate_succ', ← List.replicate_succ, List.replicate_append_replicate]
  have hall := (status_requests default false {} hbefore hlit.display (still_replicate 1756)).2.2.2
    hsilent _ _ _ _ [] hsplit (hlit.wholePicture (hposition.trans ?_)) mode hmode
  · exact hall.trans (if_pos hasks)
  · rw [position_powerOn]
    rfl

end Scene

end Handheld
