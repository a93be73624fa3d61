import Handheld.Proofs.HandlerEntry

/-!
# The discipline of the stack

Pushes and pops that nest, on a stack in work RAM, give back what was pushed and leave nothing
behind but the bytes below the stack. Calls and returns are such pushes and pops.
-/

namespace Handheld

/-! ## Bytes of the stack -/

/-- Nothing reads differently but the bytes from `low` on and below `top`. -/
def SameOutside (low top : Nat) (bus bus' : Bus) : Prop :=
  ∀ a : UInt16, ¬ (low ≤ a.toNat ∧ a.toNat < top) → bus'.read a = bus.read a

namespace SameOutside

variable {low top : Nat} {bus bus' bus'' : Bus}

theorem refl (low top : Nat) (bus : Bus) : SameOutside low top bus bus := fun _ _ => rfl

theorem trans (h : SameOutside low top bus bus') (h' : SameOutside low top bus' bus'') :
    SameOutside low top bus bus'' := fun a ha => (h' a ha).trans (h a ha)

theorem widen (h : SameOutside low top bus bus') {low' top' : Nat} (hlow : low' ≤ low)
    (htop : top ≤ top') : SameOutside low' top' bus bus' := by
  intro a ha
  apply h
  omega

theorem word {sp : UInt16} (h : SameOutside low sp.toNat bus bus') (hsp : sp.toNat < 0xffff) :
    View.word bus'.read sp = View.word bus.read sp := by
  have hnext : (sp + 1).toNat = sp.toNat + 1 := by
    rw [UInt16.toNat_add]
    simp only [UInt16.reduceToNat]
    omega
  rw [View.word, View.word, h sp (by omega), h (sp + 1) (by omega)]

end SameOutside

namespace Cpu

/-- There is room for a word below the top, in work RAM. -/
def HasRoom (sp : UInt16) : Prop := 0xc002 ≤ sp.toNat ∧ sp.toNat ≤ 0xe000

theorem hasRoom_of_le (sp : UInt16) (hlow : 0xc000 ≤ sp.toNat)
    (hbelow : 0xc000 ≤ (sp - 2).toNat) (htop : sp.toNat ≤ 0xe000) : HasRoom sp := by
  have htwo : (sp - 2).toNat = sp.toNat - 2 :=
    UInt16.toNat_sub_of_le sp 2 (UInt16.le_iff_toNat_le.2 (Nat.le_trans (by decide) hlow))
  constructor <;> omega

namespace HasRoom

variable {sp : UInt16} (h : HasRoom sp)
include h

theorem toNat_sub_one : (sp - 1).toNat = sp.toNat - 1 := by
  obtain ⟨hlow, -⟩ := h
  exact UInt16.toNat_sub_of_le sp 1 (UInt16.le_iff_toNat_le.2 (Nat.le_trans (by decide) hlow))

theorem toNat_sub_two : (sp - 2).toNat = sp.toNat - 2 := by
  obtain ⟨hlow, -⟩ := h
  exact UInt16.toNat_sub_of_le sp 2 (UInt16.le_iff_toNat_le.2 (Nat.le_trans (by decide) hlow))

theorem inWorkRam : InWorkRam (sp - 2) ∧ InWorkRam (sp - 1) := by
  have hone := h.toNat_sub_one
  have htwo := h.toNat_sub_two
  obtain ⟨hlow, htop⟩ := h
  simp only [InWorkRam, UInt16.le_iff_toNat_le, UInt16.lt_iff_toNat_lt, hone, htwo,
    UInt16.reduceToNat]
  omega

end HasRoom

theorem pushed_storeAll (cpu : Cpu) (h : HasRoom cpu.regs.sp) (bus : Bus) (w : UInt16) :
    SameOutside (cpu.regs.sp.toNat - 2) cpu.regs.sp.toNat bus (bus.storeAll (cpu.pushes w)) ∧
      View.word (bus.storeAll (cpu.pushes w)).read (cpu.regs.sp - 2) = w := by
  have hram : cpu.StackInRam := .inl h.inWorkRam
  have hone := h.toNat_sub_one
  have htwo := h.toNat_sub_two
  obtain ⟨hbottom, -⟩ := h
  rw [storeAll_pushes hram]
  refine ⟨?_, word_pushed hram bus w⟩
  intro a ha
  have hhigh : cpu.regs.sp - 1 ≠ a := by
    rintro rfl
    omega
  have hlow : cpu.regs.sp - 2 ≠ a := by
    rintro rfl
    omega
  rw [Bus.read_store_of_ne _ _ hhigh, Bus.read_store_of_ne _ _ hlow]

/-! ## Operations that nest -/

inductive StackOp where
  | push (w : UInt16)
  | pop
deriving Repr, DecidableEq

/-- Where an operation leaves the stack pointer. -/
def StackOp.move (sp : UInt16) : StackOp → UInt16
  | push _ => sp - 2
  | pop => sp + 2

/-- The lowest stack pointer on the way through some operations. -/
def lowest (sp : UInt16) : List StackOp → Nat
  | [] => sp.toNat
  | op :: ops => min sp.toNat (lowest (op.move sp) ops)

/-- Every push has its pop and every pop its push. The words are those of the pushes, in the order
of the pops that match them. -/
inductive Nested : List StackOp → List UInt16 → Prop
  | nil : Nested [] []
  | frame (w : UInt16) {inner rest : List StackOp} {words words' : List UInt16}
    (hinner : Nested inner words) (hrest : Nested rest words') :
    Nested (.push w :: (inner ++ .pop :: rest)) (words ++ w :: words')

theorem lowest_le (sp : UInt16) (ops : List StackOp) : lowest sp ops ≤ sp.toNat := by
  cases ops with
  | nil => exact Nat.le_refl _
  | cons op ops => exact Nat.min_le_left _ _

theorem Nested.lowest_append {ops : List StackOp} {words : List UInt16} (h : Nested ops words)
    (sp : UInt16) (rest : List StackOp) :
    lowest sp (ops ++ rest) = min (lowest sp ops) (lowest sp rest) := by
  induction h generalizing sp rest with
  | nil =>
    have hle := lowest_le sp rest
    simp [lowest, hle]
  | frame w hinner hrest ihinner ihrest =>
    have hback : sp - 2 + 2 = sp := UInt16.sub_add_cancel _ _
    simp only [List.cons_append, List.append_assoc, lowest, StackOp.move, ihinner, hback, ihrest,
      Nat.min_assoc]

theorem Nested.lowest_frame {inner : List StackOp} {words : List UInt16} (h : Nested inner words)
    (sp w : UInt16) (rest : List StackOp) :
    lowest sp (.push w :: (inner ++ .pop :: rest)) =
      min (lowest (sp - 2) inner) (lowest sp rest) := by
  have hback : sp - 2 + 2 = sp := UInt16.sub_add_cancel _ _
  have hinner := lowest_le (sp - 2) inner
  have hrest := lowest_le sp rest
  simp only [lowest, StackOp.move, h.lowest_append, hback]
  omega

namespace Core

def push (core : Core) (w : UInt16) : Core :=
  { cpu := (core.cpu.pushWord w).cpu
    bus := core.bus.storeAll (core.cpu.pushWord w).stores }

def pop (core : Core) : UInt16 × Core :=
  (core.cpu.top core.bus.read, { core with cpu := core.cpu.popped })

/-- Performs operations in their order, and gives the words that were popped. -/
def perform (core : Core) : List StackOp → List UInt16 × Core
  | [] => ([], core)
  | .push w :: ops => (core.push w).perform ops
  | .pop :: ops =>
    let (w, core) := core.pop
    let (words, last) := core.perform ops
    (w :: words, last)

theorem perform_append (core : Core) (ops ops' : List StackOp) :
    core.perform (ops ++ ops') =
      ((core.perform ops).1 ++ ((core.perform ops).2.perform ops').1,
        ((core.perform ops).2.perform ops').2) := by
  induction ops generalizing core with
  | nil => rfl
  | cons op ops ih =>
    cases op with
    | push w => exact ih _
    | pop => simp only [List.cons_append, perform, ih]

end Core

/-- What happens between a push and its pop, all of it below the word, leaves the word there. -/
theorem frame_kept (cpu : Cpu) (bus : Bus) {bus' : Bus} {low : Nat} {w : UInt16}
    (h : HasRoom cpu.regs.sp)
    (hsame : SameOutside low (cpu.regs.sp - 2).toNat (bus.storeAll (cpu.pushes w)) bus')
    (hlow : low ≤ (cpu.regs.sp - 2).toNat) :
    View.word bus'.read (cpu.regs.sp - 2) = w ∧ SameOutside low cpu.regs.sp.toNat bus bus' := by
  obtain ⟨hpushed, hword⟩ := pushed_storeAll cpu h bus w
  have htwo := h.toNat_sub_two
  have hlt := cpu.regs.sp.toNat_lt
  obtain ⟨hbottom, -⟩ := h
  constructor
  · rw [hsame.word (by omega), hword]
  · exact (hpushed.widen (by omega) (Nat.le_refl _)).trans
      (hsame.widen (Nat.le_refl _) (by omega))

theorem perform_nested {ops : List StackOp} {words : List UInt16} (h : Nested ops words)
    (core : Core) (hlow : 0xc000 ≤ lowest core.cpu.regs.sp ops)
    (htop : core.cpu.regs.sp.toNat ≤ 0xe000) :
    ∃ last, core.perform ops = (words, last) ∧ last.cpu = core.cpu ∧
      SameOutside (lowest core.cpu.regs.sp ops) core.cpu.regs.sp.toNat core.bus last.bus := by
  induction h generalizing core with
  | nil => exact ⟨core, rfl, rfl, .refl _ _ _⟩
  | @frame w inner rest words words' hinner hrest ihinner ihrest =>
    have hbelow := lowest_le (core.cpu.regs.sp - 2) inner
    have hstart := lowest_le core.cpu.regs.sp rest
    rw [hinner.lowest_frame] at hlow ⊢
    have hroom := hasRoom_of_le core.cpu.regs.sp (by omega) (by omega) htop
    have htwo := hroom.toNat_sub_two
    -- The push, and all that happens before its pop.
    obtain ⟨mid, hmid, hmidcpu, hmidsame⟩ : ∃ mid, (core.push w).perform inner = (words, mid) ∧
        mid.cpu = (core.push w).cpu ∧
        SameOutside (lowest (core.cpu.regs.sp - 2) inner) (core.cpu.regs.sp - 2).toNat
          (core.bus.storeAll (core.cpu.pushes w)) mid.bus := by
      rw [← stores_pushWord]
      have hsp : (core.push w).cpu.regs.sp = core.cpu.regs.sp - 2 := rfl
      exact ihinner (core.push w) (by rw [hsp]; omega) (by rw [hsp]; omega)
    obtain ⟨hword, hsame⟩ := frame_kept core.cpu core.bus hroom hmidsame hbelow
    have hpopped : mid.pop = (w, { cpu := core.cpu, bus := mid.bus }) := by
      have hback : core.cpu.regs.sp - 2 + 2 = core.cpu.regs.sp := UInt16.sub_add_cancel _ _
      have hcpu : mid.cpu.popped = core.cpu := by
        rw [hmidcpu]
        simp [Core.push, pushWord, popped, mapRegs, hback]
      have htop : mid.cpu.top mid.bus.read = w := by
        rw [top, hmidcpu]
        exact hword
      rw [Core.pop, hcpu, htop]
    -- The pop, and all that happens after it.
    obtain ⟨last, hlast, hlastcpu, hlastsame⟩ :=
      ihrest { cpu := core.cpu, bus := mid.bus } (by dsimp only; omega) htop
    refine ⟨last, ?_, hlastcpu, ?_⟩
    · rw [Core.perform, Core.perform_append, hmid]
      simp only [Core.perform, hpopped, hlast]
    · exact (hsame.widen (Nat.min_le_left _ _) (Nat.le_refl _)).trans
        (hlastsame.widen (Nat.min_le_right _ _) (Nat.le_refl _))

/-! ## Calls and returns -/

/-- The processor elsewhere in its program, with its stack elsewhere. -/
def moved (cpu : Cpu) (sp pc : UInt16) : Cpu := cpu.mapRegs ({ · with sp, pc })

theorem step_call (cpu : Cpu) {bus : Bus} {i : Instruction} {target : UInt16}
    (hrunning : cpu.halted = false)
    (hdecode : Instruction.decode? (bus.read cpu.regs.pc) = some i) (hcalls : i.Calls)
    (htaken : cpu.taken? bus.read i = some target) :
    ∃ t log, cpu.step bus = .ok t
      { cpu := cpu.moved (cpu.regs.sp - 2) target
        bus := ({ bus with log } : Bus).storeAll
          (cpu.pushes (nextAddress bus.read cpu.regs.pc)) } := by
  have hstores := stores_of_calls hrunning hdecode hcalls (by rw [htaken]; rfl)
  have hstep := step_running hrunning hdecode
  obtain ⟨log, hbus⟩ := bus_step hstep
  rw [hstores] at hbus
  dsimp only at hbus
  rw [hbus] at hstep
  have hcpu : ((cpu.skip 1).execute bus.read i).cpu = cpu.moved (cpu.regs.sp - 2) target := by
    cases i <;> simp only [Instruction.Calls] at hcalls
    case call k =>
      cases htakes : cpu.takes k with
      | false => simp [taken?, transfer?, htakes] at htaken
      | true =>
        simp only [taken?, transfer?, htakes, if_true, Option.some.injEq] at htaken
        subst htaken
        simp only [execute, takes_skip, htakes, if_true]
        rfl
    case rst n =>
      cases htaken
      rfl
  rw [hcpu] at hstep
  exact ⟨_, log, hstep⟩

theorem step_ret (cpu : Cpu) {bus : Bus} {k : Option Condition} (hrunning : cpu.halted = false)
    (hdecode : Instruction.decode? (bus.read cpu.regs.pc) = some (.ret k))
    (htakes : cpu.takes k = true) :
    ∃ t log, cpu.step bus = .ok t
      { cpu := cpu.moved (cpu.regs.sp + 2) (View.word bus.read cpu.regs.sp)
        bus := { bus with log } } := by
  have hstep := step_running hrunning hdecode
  obtain ⟨log, htrace, -⟩ := cpu.trace_eq bus (.ret k)
  simp only [execute, takes_skip, htakes, if_true, htrace] at hstep
  exact ⟨_, log, hstep⟩

namespace Core

/-- Runs some instructions and gives the program counters behind them. -/
def run (core : Core) : Nat → EStateM.Result Fault Core (List UInt16)
  | 0 => .ok [] core
  | n + 1 =>
    match core.cpu.step core.bus with
    | .error fault core => .error fault core
    | .ok _ next =>
      match next.run n with
      | .error fault last => .error fault last
      | .ok path last => .ok (next.cpu.regs.pc :: path) last

theorem run_succ (core : Core) {next last : Core} {t n : Nat} {path : List UInt16}
    (hstep : core.cpu.step core.bus = .ok t next) (hrun : next.run n = .ok path last) :
    core.run (n + 1) = .ok (next.cpu.regs.pc :: path) last := by
  simp only [run, hstep, hrun]

theorem run_add {core mid last : Core} {m n : Nat} {path path' : List UInt16}
    (hfirst : core.run m = .ok path mid) (hrest : mid.run n = .ok path' last) :
    core.run (m + n) = .ok (path ++ path') last := by
  induction m generalizing core path with
  | zero =>
    cases hfirst
    rw [Nat.zero_add]
    exact hrest
  | succ m ih =>
    rw [run] at hfirst
    split at hfirst
    · contradiction
    · rename_i next hstep
      split at hfirst
      · contradiction
      · rename_i hnext
        cases hfirst
        rw [Nat.add_right_comm]
        exact run_succ core hstep (ih hnext)

end Core

/-- A call or restart to `target` stands at `p`, in bytes of which `safe` holds, and is made. -/
def CallAt (cpu : Cpu) (code : View) (safe : UInt16 → Prop) (p target : UInt16) : Prop :=
  ∃ i, Instruction.decode? (code p) = some i ∧ i.Calls ∧
    (cpu.jump p).taken? code i = some target ∧ ∀ n < i.length, safe (p + UInt16.ofNat n)

def ReturnAt (cpu : Cpu) (code : View) (safe : UInt16 → Prop) (p : UInt16) : Prop :=
  ∃ k, Instruction.decode? (code p) = some (.ret k) ∧ cpu.takes k = true ∧ safe p

/-- From `p` to `r` lead calls and returns that nest. Between a call and its return there are only
further ones, and behind the return it goes on with the instruction after the call. -/
inductive NestedCalls (cpu : Cpu) (code : View) (safe : UInt16 → Prop) :
    UInt16 → List StackOp → List UInt16 → UInt16 → Prop
  | done (p : UInt16) : NestedCalls cpu code safe p [] [] p
  | call {p target q r : UInt16} {inner rest : List StackOp} {path path' : List UInt16}
    (hcall : CallAt cpu code safe p target)
    (hinner : NestedCalls cpu code safe target inner path q)
    (hreturn : ReturnAt cpu code safe q)
    (hrest : NestedCalls cpu code safe (nextAddress code p) rest path' r) :
    NestedCalls cpu code safe p (.push (nextAddress code p) :: (inner ++ .pop :: rest))
      (target :: (path ++ nextAddress code p :: path')) r

variable {cpu : Cpu} {code : View} {safe : UInt16 → Prop}

theorem NestedCalls.nested {p r : UInt16} {ops : List StackOp} {path : List UInt16}
    (h : NestedCalls cpu code safe p ops path r) : ∃ words, Nested ops words := by
  induction h with
  | done p => exact ⟨[], .nil⟩
  | call _ _ _ _ ihinner ihrest =>
    obtain ⟨words, hinner⟩ := ihinner
    obtain ⟨words', hrest⟩ := ihrest
    exact ⟨_, .frame _ hinner hrest⟩

theorem Instruction.length_pos (i : Instruction) : 0 < i.length := by
  unfold length
  split <;> decide

theorem taken?_moved {i : Instruction} {view : View} {p : UInt16} (hcalls : i.Calls)
    (hsame : ∀ n < i.length, view (p + UInt16.ofNat n) = code (p + UInt16.ofNat n)) (sp : UInt16) :
    (cpu.moved sp p).taken? view i = (cpu.jump p).taken? code i := by
  cases i <;> simp only [Instruction.Calls] at hcalls
  case call k =>
    have hlow : view (p + 1) = code (p + 1) := hsame 1 (by decide : 1 < 3)
    have hhigh : view (p + 1 + 1) = code (p + 1 + 1) := by
      rw [UInt16.add_assoc]
      exact hsame 2 (by decide : 2 < 3)
    have hword : (cpu.moved sp p).nextWord view = (cpu.jump p).nextWord code :=
      congrArg₂ Word.ofBytes hhigh hlow
    have htakes : (cpu.moved sp p).takes k = (cpu.jump p).takes k := by cases k <;> rfl
    simp only [taken?, transfer?, hword, htakes]
  case rst n => rfl

theorem CallAt.step {p target : UInt16} (h : CallAt cpu code safe p target)
    (hrunning : cpu.halted = false) {bus : Bus} (hcode : ∀ a, safe a → bus.read a = code a)
    (sp : UInt16) :
    ∃ t log, (cpu.moved sp p).step bus = .ok t
      { cpu := cpu.moved (sp - 2) target
        bus := ({ bus with log } : Bus).storeAll
          ((cpu.moved sp p).pushes (nextAddress code p)) } := by
  obtain ⟨i, hdecode, hcalls, htaken, hsafe⟩ := h
  have hsame : ∀ n < i.length, bus.read (p + UInt16.ofNat n) = code (p + UInt16.ofNat n) :=
    fun n hn => hcode _ (hsafe n hn)
  have hopcode : bus.read p = code p := by simpa using hsame 0 i.length_pos
  have hfound : Instruction.decode? (bus.read p) = some i := by rw [hopcode, hdecode]
  have hnext : nextAddress bus.read p = nextAddress code p := by
    rw [nextAddress_of_decode hfound, nextAddress_of_decode hdecode]
  rw [← taken?_moved hcalls hsame sp] at htaken
  rw [← hnext]
  exact step_call (cpu.moved sp p) hrunning hfound hcalls htaken

theorem ReturnAt.step {p : UInt16} (h : ReturnAt cpu code safe p)
    (hrunning : cpu.halted = false) {bus : Bus} (hcode : ∀ a, safe a → bus.read a = code a)
    (sp : UInt16) :
    ∃ t log, (cpu.moved sp p).step bus = .ok t
      { cpu := cpu.moved (sp + 2) (View.word bus.read sp), bus := { bus with log } } := by
  obtain ⟨k, hdecode, htakes, hsafe⟩ := h
  rw [← hcode p hsafe] at hdecode
  have htakes' : (cpu.moved sp p).takes k = true := by
    rw [← htakes]
    cases k <;> rfl
  exact step_ret (cpu.moved sp p) hrunning hdecode htakes'

theorem run_nestedCalls {low top : Nat} {p r : UInt16} {ops : List StackOp} {path : List UInt16}
    (h : NestedCalls cpu code (fun a => ¬ (low ≤ a.toNat ∧ a.toNat < top)) p ops path r)
    (hrunning : cpu.halted = false) (sp : UInt16) (bus : Bus)
    (hcode : ∀ a : UInt16, ¬ (low ≤ a.toNat ∧ a.toNat < top) → bus.read a = code a)
    (hram : 0xc000 ≤ low) (hlow : low ≤ lowest sp ops) (htop : sp.toNat ≤ top)
    (hend : top ≤ 0xe000) :
    ∃ last, Core.run { cpu := cpu.moved sp p, bus } ops.length = .ok path last ∧
      last.cpu = cpu.moved sp r ∧ SameOutside (lowest sp ops) sp.toNat bus last.bus := by
  induction h generalizing sp bus with
  | done p => exact ⟨_, rfl, rfl, .refl _ _ _⟩
  | @call p target q r inner rest path path' hcall hinner hreturn hrest ihinner ihrest =>
    obtain ⟨words, hnested⟩ := hinner.nested
    have hbelow := lowest_le (sp - 2) inner
    have hstart := lowest_le sp rest
    rw [hnested.lowest_frame] at hlow ⊢
    have hroom := hasRoom_of_le sp (by omega) (by omega) (by omega)
    have htwo := hroom.toNat_sub_two
    -- The call, and all that happens before its return.
    obtain ⟨t, log, hstep⟩ := hcall.step hrunning hcode sp
    generalize hpushed : ({ bus with log } : Bus).storeAll
      ((cpu.moved sp p).pushes (nextAddress code p)) = pushed at hstep
    have hsame : SameOutside (sp.toNat - 2) sp.toNat bus pushed := by
      rw [← hpushed]
      exact (pushed_storeAll (cpu.moved sp p) hroom { bus with log } _).1
    have hcodePushed : ∀ a : UInt16, ¬ (low ≤ a.toNat ∧ a.toNat < top) →
        pushed.read a = code a := by
      intro a ha
      rw [hsame a (by omega), hcode a ha]
    obtain ⟨⟨_, mid⟩, hmid, rfl, hmidsame⟩ :=
      ihinner (sp - 2) pushed hcodePushed (by omega) (by omega)
    obtain ⟨hword, hframe⟩ : View.word mid.read (sp - 2) = nextAddress code p ∧
        SameOutside (lowest (sp - 2) inner) sp.toNat bus mid := by
      rw [← hpushed] at hmidsame
      exact frame_kept (cpu.moved sp p) { bus with log } hroom hmidsame hbelow
    -- The return, and all that happens after it.
    have hcodeMid : ∀ a : UInt16, ¬ (low ≤ a.toNat ∧ a.toNat < top) → mid.read a = code a := by
      intro a ha
      rw [hframe a (by omega), hcode a ha]
    obtain ⟨t', log', hback⟩ := hreturn.step hrunning hcodeMid (sp - 2)
    have hsp : sp - 2 + 2 = sp := UInt16.sub_add_cancel _ _
    rw [hword, hsp] at hback
    obtain ⟨last, hlast, hlastcpu, hlastsame⟩ :=
      ihrest sp { mid with log := log' } hcodeMid (by omega) htop
    refine ⟨last, ?_, hlastcpu, ?_⟩
    · have hreturned := Core.run_succ { cpu := cpu.moved (sp - 2) q, bus := mid } hback hlast
      have hinside := Core.run_add hmid hreturned
      rw [List.length_cons, List.length_append, List.length_cons]
      exact Core.run_succ { cpu := cpu.moved sp p, bus } hstep hinside
    · exact (hframe.widen (Nat.min_le_left _ _) (Nat.le_refl _)).trans
        (hlastsame.widen (Nat.min_le_right _ _) (Nat.le_refl _))

/-- Pushes and pops that nest within work RAM, however many and however deep: each pop gives the
word of its push, the processor ends as it began, and no read differs but of the bytes between the
lowest stack pointer and the first. Calls and returns that nest, in code outside of those bytes,
come back to the instruction behind each call, the last one first. -/
theorem stack_discipline :
    (∀ (core : Core) (ops : List StackOp) (words : List UInt16),
      let sp := core.cpu.regs.sp
      Nested ops words → 0xc000 ≤ lowest sp ops → sp.toNat ≤ 0xe000 →
      ∃ last, core.perform ops = (words, last) ∧ last.cpu = core.cpu ∧
        SameOutside (lowest sp ops) sp.toNat core.bus last.bus) ∧
      ∀ (core : Core) (ops : List StackOp) (path : List UInt16) (r : UInt16),
        let sp := core.cpu.regs.sp
        core.cpu.halted = false →
        NestedCalls core.cpu core.bus.read
          (fun a => ¬ (lowest sp ops ≤ a.toNat ∧ a.toNat < sp.toNat)) core.cpu.regs.pc ops path r →
        0xc000 ≤ lowest sp ops → sp.toNat ≤ 0xe000 →
        ∃ last, core.run ops.length = .ok path last ∧ last.cpu = core.cpu.jump r ∧
          SameOutside (lowest sp ops) sp.toNat core.bus last.bus := by
  constructor
  · intro core ops words sp h hlow htop
    exact perform_nested h core hlow htop
  · intro core ops path r sp hrunning h hlow htop
    exact run_nestedCalls h hrunning sp core.bus (fun _ _ => rfl) hlow (Nat.le_refl _)
      (Nat.le_refl _) htop

/-- A call at 0xc000 of a subroutine at 0xc010, which restarts at 0x0008. -/
def callingCode : View := fun a =>
  if a = 0xc000 then 0xcd else if a = 0xc001 then 0x10 else if a = 0xc002 then 0xc0
  else if a = 0xc010 then 0xcf else if a = 0x0008 ∨ a = 0xc011 then 0xc9 else 0

def calling : Core := { cpu := atC000, bus := { (default : Bus) with cells := .ofFn callingCode } }

theorem read_calling {a : UInt16} (h : (Region.ofAddress a).isCell) :
    calling.bus.read a = callingCode a :=
  (Bus.read_eq_cell calling.bus h).trans (Cells.get_ofFn callingCode a)

/-- An address that is not among the bytes that the two calls push. -/
def OffStack (a : UInt16) : Prop := ¬ (0xcffc ≤ a.toNat ∧ a.toNat < 0xd000)

instance (a : UInt16) : Decidable (OffStack a) := inferInstanceAs (Decidable (¬ _))

theorem nestedCalls_calling :
    NestedCalls calling.cpu calling.bus.read OffStack 0xc000
      [.push 0xc003, .push 0xc011, .pop, .pop] [0xc010, 0x0008, 0xc011, 0xc003] 0xc003 := by
  have hcall : Instruction.decode? (calling.bus.read 0xc000) = some (.call none) := by
    rw [read_calling (by decide)]
    rfl
  have hrst : Instruction.decode? (calling.bus.read 0xc010) = some (.rst 1) := by
    rw [read_calling (by decide)]
    rfl
  have hret : ReturnAt calling.cpu calling.bus.read OffStack 0x0008 := by
    refine ⟨none, ?_, rfl, by decide⟩
    rw [read_calling (by decide)]
    rfl
  have hret' : ReturnAt calling.cpu calling.bus.read OffStack 0xc011 := by
    refine ⟨none, ?_, rfl, by decide⟩
    rw [read_calling (by decide)]
    rfl
  have htarget : (calling.cpu.jump 0xc000).taken? calling.bus.read (.call none) = some 0xc010 := by
    have hword : View.word calling.bus.read 0xc001 = 0xc010 := by
      rw [View.word, read_calling (by decide), read_calling (by decide)]
      rfl
    exact congrArg some hword
  have hsubroutine := NestedCalls.call ⟨_, hrst, trivial, rfl, by decide⟩ (.done _) hret (.done _)
  rw [nextAddress_of_decode hrst] at hsubroutine
  have hprogram := NestedCalls.call ⟨_, hcall, trivial, htarget, by decide⟩ hsubroutine hret'
    (.done _)
  rw [nextAddress_of_decode hcall] at hprogram
  exact hprogram

theorem stack_discipline_calling :
    (∃ last, calling.perform [.push 0x1234, .push 0x5678, .pop, .pop] = ([0x5678, 0x1234], last) ∧
        last.cpu = atC000) ∧
      0xc000 ≤ lowest 0xd000 [.push 0xc003, .push 0xc011, .pop, .pop] ∧
      ∃ last, calling.run 4 = .ok [0xc010, 0x0008, 0xc011, 0xc003] last ∧
        last.cpu = atC000.jump 0xc003 := by
  have hnested : Nested [.push 0x1234, .push 0x5678, .pop, .pop] [0x5678, 0x1234] :=
    .frame 0x1234 (.frame 0x5678 .nil .nil) .nil
  obtain ⟨last, hlast, hcpu, -⟩ :=
    stack_discipline.1 calling _ _ hnested (by decide) (by decide)
  obtain ⟨last', hrun, hcpu', -⟩ := stack_discipline.2 calling
    [.push 0xc003, .push 0xc011, .pop, .pop] _ _ rfl nestedCalls_calling (by decide) (by decide)
  exact ⟨⟨last, hlast, hcpu⟩, by decide, last', hrun, hcpu'⟩

end Cpu

end Handheld
