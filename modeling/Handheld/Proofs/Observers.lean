import Handheld.Proofs.HardwareOrder
import Handheld.Proofs.MachineRanges

/-!
# Observers

Whoever reads the log or listens to the sound registers only looks on: a machine that nobody
observes runs alike, whatever is asked of it.
-/

namespace Handheld

def mapState {σ τ : Type} (f : σ → τ) : EStateM.Result Fault σ Nat → EStateM.Result Fault τ Nat
  | .ok n s => .ok n (f s)
  | .error fault s => .error fault (f s)

theorem Log.addAll_silent (es : List Event) : addAll {} es = {} := by
  induction es with
  | nil => rfl
  | cons e es ih => exact ih

/-! ## The bus -/

namespace Bus

/-- The bus with nobody to observe it: it keeps no log, and its sound is off. -/
def unobserved (bus : Bus) : Bus := { bus with sound := false, recorder := none, log := {} }

@[simp] theorem read_unobserved (bus : Bus) : bus.unobserved.read = bus.read := rfl

@[simp] theorem unobserved_report (bus : Bus) (e : Event) :
    (bus.report e).unobserved = bus.unobserved := rfl

@[simp] theorem report_unobserved (bus : Bus) (e : Event) :
    bus.unobserved.report e = bus.unobserved := rfl

theorem unobserved_store (bus : Bus) (a : UInt16) (v : UInt8) :
    (bus.store a v).unobserved = bus.unobserved.store a v := rfl

theorem unobserved_request (bus : Bus) (i : Interrupt) :
    (bus.request i).unobserved = bus.unobserved.request i := rfl

theorem unobserved_acknowledge (bus : Bus) (i : Interrupt) :
    (bus.acknowledge i).unobserved = bus.unobserved.acknowledge i := rfl

@[simp] theorem unobserved_hear (bus : Bus) (a : UInt16) (v : UInt8) :
    (bus.hear a v).unobserved = bus.unobserved :=
  apply_hear (fun _ _ => rfl) bus a v

theorem unobserved_serialControl (bus : Bus) (v : UInt8) :
    (bus.serialControl v).unobserved = bus.unobserved.serialControl v := by
  unfold serialControl
  rw [show bus.unobserved.plug = bus.plug from rfl]
  cases bus.plug with
  | none => rfl
  | some plug =>
    dsimp only
    split
    · rfl
    · rfl

theorem unobserved_dma (bus : Bus) (v : UInt8) : (bus.dma v).unobserved = bus.unobserved.dma v := by
  unfold dma copyToSprites
  rw [report_unobserved, ← unobserved_report bus (.dmaStarted (Word.ofBytes v 0))]
  exact (List.foldl_hom unobserved fun _ _ => rfl).symm

theorem unobserved_write (bus : Bus) (a : UInt16) (v : UInt8) :
    (bus.write a v).unobserved = bus.unobserved.write a v := by
  cases ha : Region.ofAddress a <;> simp only [write, ha]
  case romFixed | romBanked | timer =>
    simp only [unobserved, Log.addAll_silent]
  case serialControl => exact unobserved_serialControl _ v
  case sound => exact unobserved_hear _ a v
  case dma => exact unobserved_dma bus v
  all_goals rfl

theorem unobserved_writeWord (bus : Bus) (a v : UInt16) :
    (bus.writeWord a v).unobserved = bus.unobserved.writeWord a v := by
  unfold writeWord
  rw [unobserved_write, unobserved_write]

theorem unobserved_storeAll (bus : Bus) (stores : List Cpu.Store) :
    (bus.storeAll stores).unobserved = bus.unobserved.storeAll stores :=
  (List.foldl_hom unobserved fun b s => (unobserved_write b s.address s.value).symm).symm

theorem unobserved_tick (bus : Bus) (cycles : Nat) :
    (bus.tick cycles).unobserved = bus.unobserved.tick cycles := by
  unfold tick
  rw [show bus.unobserved.timer = bus.timer from rfl]
  dsimp only
  split
  · rfl
  · rfl

theorem unobserved_serial (bus : Bus) (cycles : Nat) :
    (bus.serial cycles).unobserved = bus.unobserved.serial cycles :=
  (bus.serial_comm (g := unobserved) (fun _ => rfl) (fun _ _ => rfl) (fun _ _ => rfl) cycles).symm

theorem unobserved_powerOn (cartridge : Cartridge) (sound : Bool) (log : Log) :
    (powerOn cartridge sound log).unobserved = powerOn cartridge false {} := by
  unfold powerOn
  exact (List.foldl_hom unobserved fun b w => (unobserved_write b w.1 w.2).symm).symm

end Bus

/-! ## The processor -/

namespace Cpu

def Core.unobserved (core : Core) : Core := { core with bus := core.bus.unobserved }

@[simp] theorem unobserved_trace (cpu : Cpu) (bus : Bus) (i : Instruction) :
    (cpu.trace bus i).unobserved = bus.unobserved := by
  unfold trace
  split
  · rfl
  · rfl

theorem step_unobserved (cpu : Cpu) (bus : Bus) :
    cpu.step bus.unobserved = mapState Core.unobserved (cpu.step bus) := by
  have htrace : ∀ i, cpu.trace bus.unobserved i = bus.unobserved := fun i => rfl
  unfold step
  simp only [htrace, Bus.read_unobserved]
  split
  · rfl
  · split
    · rfl
    · rename_i i _
      simp only [mapState, Core.unobserved, Bus.unobserved_storeAll, unobserved_trace]

theorem enter_unobserved (cpu : Cpu) (bus : Bus) (i : Interrupt) :
    cpu.enter bus.unobserved i = (cpu.enter bus i).unobserved := by
  simp only [enter, Core.unobserved, Bus.unobserved_report, Bus.unobserved_storeAll,
    Bus.unobserved_acknowledge]
  rw [← Bus.unobserved_acknowledge, ← Bus.unobserved_storeAll, Bus.report_unobserved]

theorem service_unobserved (cpu : Cpu) (bus : Bus) :
    cpu.service bus.unobserved = ((cpu.service bus).1, (cpu.service bus).2.unobserved) := by
  have hpending : pending? bus.unobserved = pending? bus := rfl
  unfold service
  rw [hpending]
  split
  · rfl
  · split
    · rfl
    · split
      · rfl
      · rename_i i _
        split
        · rw [enter_unobserved]
        · rfl

end Cpu

/-! ## The picture unit -/

namespace PictureUnit

theorem unnoticed_unobserved : Unnoticed Bus.unobserved where
  read _ _ _ := rfl
  status bus v := bus.unobserved_store _ v
  line bus v := bus.unobserved_store _ v
  request bus i := bus.unobserved_request i

end PictureUnit

/-! ## The machine -/

namespace Board

def unobserved (board : Board) : Board := { board with bus := board.bus.unobserved }

theorem step_unobserved (board : Board) :
    board.unobserved.step = mapState unobserved board.step := by
  obtain ⟨cpu, bus, picture⟩ := board
  unfold step unobserved
  dsimp only
  rw [Cpu.step_unobserved]
  cases cpu.step bus with
  | error fault core => rfl
  | ok t core =>
    simp only [mapState, Cpu.Core.unobserved, ← Bus.unobserved_tick,
      PictureUnit.unnoticed_unobserved.step, Cpu.service_unobserved, Bus.unobserved_serial]

theorem runUntil_unobserved (budget spent : Nat) (board : Board) :
    board.unobserved.runUntil budget spent = mapState unobserved (board.runUntil budget spent) := by
  induction spent, board using Board.runUntil.induct budget with
  | case1 spent board hlt t next hstep ih =>
    have hnext := board.step_unobserved
    rw [hstep] at hnext
    rw [runUntil_of_step_ok hlt hstep, runUntil_of_step_ok hlt hnext, ih]
  | case2 spent board hlt fault next hstep =>
    have hnext := board.step_unobserved
    rw [hstep] at hnext
    rw [runUntil_of_step_error hlt hstep, runUntil_of_step_error hlt hnext]
    rfl
  | case3 spent board hlt =>
    rw [runUntil, if_neg hlt, runUntil, if_neg hlt]
    rfl

theorem applyPoll_unobserved (board : Board) (found : Keypad.Poll) :
    board.unobserved.applyPoll found = (board.applyPoll found).unobserved := by
  unfold applyPoll
  cases found.edge <;> rfl

end Board

namespace Machine

/-- The machine with nobody to observe it, and with both switches for observers off. -/
def unobserved (m : Machine) : Machine :=
  { m with board := m.board.unobserved, config.trace := false, config.sound := false }

theorem step_unobserved (m : Machine) : m.unobserved.step = mapState unobserved m.step := by
  obtain ⟨board, config, header⟩ := m
  unfold step unobserved
  dsimp only
  rw [Board.step_unobserved]
  cases board.step <;> rfl

theorem runFrame_unobserved (m : Machine) :
    m.unobserved.runFrame = mapState unobserved m.runFrame := by
  obtain ⟨board, config, header⟩ := m
  have hbudget : Config.frameBudget { config with trace := false, sound := false } =
      config.frameBudget := rfl
  unfold runFrame unobserved
  dsimp only
  rw [hbudget, Board.runUntil_unobserved]
  cases board.runUntil config.frameBudget 0 <;> rfl

/-! ## Requests from outside -/

inductive Request where
  | step
  | runFrame
  | read (address : UInt16)
  | readWord (address : UInt16)
  | write (address : UInt16) (v : UInt8)
  | writeWord (address v : UInt16)
  /-- A round of input. The input is given the joypad register. -/
  | poll (input : UInt8 → Keypad.Poll)
  | plugIn (plug : Link.Plug)
  /-- Somebody listens to the sound registers from now on. -/
  | listen (recorder : SoundRecorder)

inductive Reply where
  | nothing
  | byte (v : UInt8)
  | word (w : UInt16)
  | edge (pressed : Bool)
  | cycles (t : Nat)
  | fault (f : Fault)
deriving DecidableEq

def Reply.ofResult : EStateM.Result Fault Machine Nat → Reply × Machine
  | .ok t m => (.cycles t, m)
  | .error f m => (.fault f, m)

def perform (m : Machine) : Request → Reply × Machine
  | .step => Reply.ofResult m.step
  | .runFrame => Reply.ofResult m.runFrame
  | .read a => (.byte (m.board.bus.read a), m)
  | .readWord a => (.word (m.board.bus.readWord a), m)
  | .write a v => (.nothing, { m with board.bus := m.board.bus.write a v })
  | .writeWord a v => (.nothing, { m with board.bus := m.board.bus.writeWord a v })
  | .poll input =>
    let found := input m.board.bus.joypad
    (.edge found.edge, { m with board := m.board.applyPoll found })
  | .plugIn plug => (.nothing, { m with board.bus.plug := some plug })
  | .listen recorder => (.nothing, { m with board.bus.recorder := some recorder })

def Request.isListen : Request → Bool
  | .listen _ => true
  | _ => false

/-- What there is to see of a machine. -/
structure Appearance where
  cpu : Cpu
  read : View
  interruptEnable : UInt8
  interruptFlags : UInt8
  joypad : UInt8
  plug : Option Link.Plug
  frameCount : Nat
  frame : Picture.Frame

def appearance (m : Machine) : Appearance :=
  { cpu := m.board.cpu
    read := m.board.bus.read
    interruptEnable := m.board.bus.interruptEnable
    interruptFlags := m.board.bus.interruptFlags
    joypad := m.board.bus.joypad
    plug := m.board.bus.plug
    frameCount := m.frameCount
    frame := m.frame }

/-- The reply to each request in turn, with what there is to see after it. That somebody has begun
to listen is left out. -/
def history (m : Machine) : List Request → List (Reply × Appearance)
  | [] => []
  | k :: ks =>
    let next := (m.perform k).2
    if k.isListen then next.history ks
    else ((m.perform k).1, next.appearance) :: next.history ks

theorem ofResult_mapState (r : EStateM.Result Fault Machine Nat) :
    Reply.ofResult (mapState unobserved r) =
      ((Reply.ofResult r).1, (Reply.ofResult r).2.unobserved) := by
  cases r <;> rfl

theorem perform_unobserved (m : Machine) {k : Request} (h : k.isListen = false) :
    m.unobserved.perform k = ((m.perform k).1, (m.perform k).2.unobserved) := by
  cases k with
  | step =>
    simp only [perform, step_unobserved]
    exact ofResult_mapState m.step
  | runFrame =>
    simp only [perform, runFrame_unobserved]
    exact ofResult_mapState m.runFrame
  | read | readWord | plugIn => rfl
  | write a v =>
    simp only [perform, unobserved, Board.unobserved, Bus.unobserved_write]
  | writeWord a v =>
    simp only [perform, unobserved, Board.unobserved, Bus.unobserved_writeWord]
  | poll input =>
    simp only [perform, unobserved, Board.applyPoll_unobserved]
    rfl
  | listen recorder => contradiction

theorem unobserved_listen (m : Machine) {k : Request} (h : k.isListen = true) :
    (m.perform k).2.unobserved = m.unobserved := by
  cases k with
  | listen recorder => rfl
  | _ => contradiction

theorem history_unobserved (m : Machine) (ks : List Request) :
    m.history ks = m.unobserved.history (ks.filter fun k => !k.isListen) := by
  induction ks generalizing m with
  | nil => rfl
  | cons k ks ih =>
    rw [history]
    cases hk : k.isListen with
    | true =>
      rw [List.filter_cons_of_neg (by rw [hk]; decide), ← unobserved_listen m hk]
      exact ih _
    | false =>
      rw [List.filter_cons_of_pos (by rw [hk]; decide), history, perform_unobserved m hk, hk, ih]
      rfl

theorem unobserved_ofImage (image : ByteArray) (config : Config) (trace sound : Bool) (log : Log) :
    (ofImage image { config with trace, sound } log).map unobserved =
      ofImage image { config with trace := false, sound := false } {} := by
  unfold ofImage
  cases Cartridge.load image config.clockHz.toNat with
  | error fault => rfl
  | ok loaded =>
    dsimp only [Except.map, unobserved, Board.unobserved]
    rw [Bus.unobserved_powerOn]
    rfl

theorem map_history (r : Except Fault Machine) (ks : List Request) :
    r.map (history · ks) =
      (r.map unobserved).map (history · (ks.filter fun k => !k.isListen)) := by
  cases r with
  | error fault => rfl
  | ok m => exact congrArg Except.ok (history_unobserved m ks)

/-- Neither the two switches, nor a log, nor anybody who listens, from the start or later, makes a
difference to what a machine replies and to what there is to see of it. -/
theorem history_unaffected_by_observers (image : ByteArray) (config : Config)
    (trace trace' sound sound' : Bool) (log log' : Log) {ks ks' : List Request}
    (h : (ks.filter fun k => !k.isListen) = ks'.filter fun k => !k.isListen) :
    (ofImage image { config with trace, sound } log).map (history · ks) =
      (ofImage image { config with trace := trace', sound := sound' } log').map
        (history · ks') := by
  rw [map_history, map_history _ ks', unobserved_ofImage, unobserved_ofImage, h]

theorem history_unaffected_by_observers_heard :
    ∃ m m', ofImage blankImage {} {} = .ok m ∧
      ofImage blankImage { trace := true, sound := false } { threshold := some .trace } = .ok m' ∧
      m.history [.listen {}, .write 0xff12 0xf0, .step, .read 0xff12] =
        m'.history [.write 0xff12 0xf0, .step, .read 0xff12] := by
  have hasked : ([.listen {}, .write 0xff12 0xf0, .step, .read 0xff12].filter fun k : Request =>
      !k.isListen) = [.write 0xff12 0xf0, .step, .read 0xff12].filter fun k => !k.isListen := rfl
  obtain ⟨m, hm⟩ := ofImage_blankImage
  have heq := history_unaffected_by_observers blankImage {} false true true false {}
    { threshold := some .trace } hasked
  rw [hm] at heq
  cases hm' : ofImage blankImage { trace := true, sound := false } { threshold := some .trace } with
  | error fault =>
    rw [hm'] at heq
    simp only [Except.map, reduceCtorEq] at heq
  | ok m' =>
    rw [hm'] at heq
    exact ⟨m, m', hm, rfl, Except.ok.inj heq⟩

end Machine

end Handheld
