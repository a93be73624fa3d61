import Handheld.Link.Cable
import Handheld.Link.Plug
import Handheld.Proofs.Histories
import Mathlib.Logic.Function.Basic

/-!
# Transfers over a cable

Two ends that hold on to a cable, called in any order. The transfers of one end return what the
other one put on the wire for its own, in the same order, and a wait never goes unanswered.
-/

namespace Handheld.Link

theorem Side.eq_or_eq_other (s t : Side) : t = s ∨ t = s.other := by
  cases s <;> cases t <;> decide

theorem Endpoint.data_advance (e : Endpoint) (cycles : Nat) :
    (e.advance cycles).2.data = e.data := by
  unfold advance
  split
  · rfl
  · split <;> rfl

namespace Cable

/-! ## Moves -/

/-- A call at an end, or the end of a wait there. -/
inductive Move where
  | call (s : Side) (call : Call)
  | finish (s : Side)
deriving Repr, DecidableEq

def Move.side : Move → Side
  | .call s _ => s
  | .finish s => s

/-- The byte of the transfer that is completed, if one is. -/
def Progress.returned : Progress → List UInt8
  | .ready r => if r.done then [r.byte] else []
  | .waits => []

def call (c : Cable) (s : Side) : Call → Progress × Cable
  | .status master _ => (.ready .nothing, c.setMaster s master)
  | .send byte => (.ready .nothing, c.send s byte)
  | .receive cycles => c.receive s cycles

/-- An end that waits for a reply is not called before it has it. -/
def perform? (c : Cable) : Move → Option (Progress × Cable)
  | .call s k => if (c.station s).waiting then none else some (c.call s k)
  | .finish s =>
    if (c.station s).waiting then (c.finish? s).map fun (r, c) => (.ready r, c) else none

inductive Performed (c : Cable) : Move → Progress → Cable → Prop
  | call {s : Side} {k : Call} (hwaiting : (c.station s).waiting = false) :
    Performed c (.call s k) (c.call s k).1 (c.call s k).2
  | finish {s : Side} {r : Endpoint.Received} {c' : Cable}
    (hwaiting : (c.station s).waiting = true) (hfinish : c.finish? s = some (r, c')) :
    Performed c (.finish s) (.ready r) c'

theorem performed {c c' : Cable} {m : Move} {p : Progress} (h : c.perform? m = some (p, c')) :
    Performed c m p c' := by
  unfold perform? at h
  cases m with
  | call s k =>
    dsimp only at h
    split at h
    · contradiction
    · rename_i hwaiting
      have hcall : Performed c (.call s k) (c.call s k).1 (c.call s k).2 :=
        .call (eq_false_of_ne_true hwaiting)
      rw [Option.some.inj h] at hcall
      exact hcall
  | finish s =>
    dsimp only at h
    split at h
    · rename_i hwaiting
      obtain ⟨⟨r, c''⟩, hfinish, hr⟩ := Option.map_eq_some_iff.1 h
      cases hr
      exact .finish hwaiting hfinish
    · contradiction

/-- What end `s` puts on the wire: its data byte, whenever the queue to the other end grows. -/
def put (before after : Cable) (s : Side) : List UInt8 :=
  if (before.station s.other).inbox.length < (after.station s.other).inbox.length then
    [(before.station s).endpoint.data]
  else []

/-- The transfers that an end has begun and not completed. -/
def owed (c : Cable) (s : Side) : Nat := if (c.station s).waiting then 1 else 0

/-! ## What a move can do -/

/-- A move at end `s` that completes the transfers `done`: it takes their bytes from the front of
its own queue and puts as many at the end of the other one, but for the wait that it begins or
ends. -/
structure Moved (c : Cable) (s : Side) (done : List UInt8) (c' : Cable) : Prop where
  attached : ∀ t, (c'.station t).attached = true
  own : (c.station s).inbox = done ++ (c'.station s).inbox
  other : (c'.station s.other).inbox = (c.station s.other).inbox ++ put c c' s
  waiting_other : (c'.station s.other).waiting = (c.station s.other).waiting
  count : (put c c' s).length + c.owed s = done.length + c'.owed s

theorem put_of_inbox_eq {c c' : Cable} {s : Side}
    (h : (c'.station s.other).inbox = (c.station s.other).inbox) : put c c' s = [] := by
  unfold put
  rw [h, if_neg (Nat.lt_irrefl _)]

theorem put_of_inbox_concat {c c' : Cable} {s : Side}
    (h : (c'.station s.other).inbox =
      (c.station s.other).inbox ++ [(c.station s).endpoint.data]) :
    put c c' s = [(c.station s).endpoint.data] := by
  unfold put
  rw [h, if_pos (by simp)]

section Attached

variable {c : Cable} (h : ∀ t, (c.station t).attached = true)
include h

theorem attached_modify (s : Side) {f : Station → Station}
    (hf : (f (c.station s)).attached = (c.station s).attached) (t : Side) :
    ((c.modify s f).station t).attached = true := by
  rcases s.eq_or_eq_other t with rfl | rfl
  · rw [station_modify, hf]
    exact h t
  · rw [station_modify_other]
    exact h s.other

theorem moved_modify (s : Side) {f : Station → Station} {done : List UInt8}
    (hattached : (f (c.station s)).attached = (c.station s).attached)
    (hinbox : (c.station s).inbox = done ++ (f (c.station s)).inbox)
    (hcount : c.owed s = done.length + (c.modify s f).owed s) :
    Moved c s done (c.modify s f) := by
  have hput : put c (c.modify s f) s = [] := put_of_inbox_eq (by rw [station_modify_other])
  refine ⟨attached_modify h s hattached, ?_, ?_, ?_, ?_⟩
  · rw [station_modify]
    exact hinbox
  · rw [station_modify_other, hput, List.append_nil]
  · rw [station_modify_other]
  · rw [hput, ← hcount]
    exact Nat.zero_add _

theorem moved_self (s : Side) : Moved c s [] c := by
  have hput : put c c s = [] := put_of_inbox_eq rfl
  refine ⟨h, rfl, ?_, rfl, ?_⟩
  · rw [hput, List.append_nil]
  · rw [hput]

theorem moved_modifyEndpoint (s : Side) (f : Endpoint → Endpoint) :
    Moved c s [] (c.modifyEndpoint s f) := by
  refine moved_modify h s rfl rfl ?_
  unfold owed
  rw [station_modify]
  exact (Nat.zero_add _).symm

theorem deliver?_of_attached (s : Side) :
    c.deliver? s = some (c.modify s.other fun st =>
      { st with inbox := st.inbox ++ [(c.station s).endpoint.data] }) := by
  unfold deliver?
  rw [h s, h s.other]
  rfl

theorem moved_of_put {c' : Cable} {s : Side} {done : List UInt8}
    (hattached : (c'.station s).attached = true)
    (hinbox : (c.station s).inbox = done ++ (c'.station s).inbox)
    (hother : c'.station s.other =
      { c.station s.other with
        inbox := (c.station s.other).inbox ++ [(c.station s).endpoint.data] })
    (hcount : 1 + c.owed s = done.length + c'.owed s) : Moved c s done c' := by
  have hput : put c c' s = [(c.station s).endpoint.data] := put_of_inbox_concat (by rw [hother])
  refine ⟨?_, hinbox, ?_, ?_, ?_⟩
  · intro t
    rcases s.eq_or_eq_other t with rfl | rfl
    · exact hattached
    · rw [hother]
      exact h s.other
  · rw [hother, hput]
  · rw [hother]
  · rw [hput]
    exact hcount

theorem moved_answer (s : Side) :
    Moved c s (Progress.ready (c.answer s).1).returned (c.answer s).2 := by
  unfold answer
  rw [if_pos (h s)]
  cases hinbox : (c.station s).inbox with
  | nil =>
    dsimp only
    rw [if_pos (h s.other)]
    exact moved_self h s
  | cons byte rest =>
    have htaken : ∀ t, ((c.modify s fun st => { st with inbox := rest }).station t).attached :=
      attached_modify h s rfl
    dsimp only
    rw [deliver?_of_attached htaken]
    refine moved_of_put h ?_ ?_ ?_ ?_
    · rw [station_other_modify]
      exact htaken s
    · rw [station_other_modify, station_modify, hinbox]
      rfl
    · rw [station_modify, station_modify_other, station_modify]
    · unfold owed
      rw [station_other_modify, station_modify]
      rfl

theorem moved_exchange (s : Side) (hwaiting : (c.station s).waiting = false) :
    Moved c s (c.exchange s).1.returned (c.exchange s).2 := by
  unfold exchange
  rw [deliver?_of_attached h]
  refine moved_of_put h ?_ ?_ ?_ ?_
  · rw [station_modify, station_other_modify]
    exact h s
  · rw [station_modify, station_other_modify]
    rfl
  · rw [station_modify_other, station_modify]
  · unfold owed
    rw [station_modify, hwaiting]
    rfl

omit h in
theorem Moved.of_advance {s : Side} {cycles : Nat} {done : List UInt8} {c' : Cable}
    (hmoved : Moved (c.modifyEndpoint s fun e => (e.advance cycles).2) s done c') :
    Moved c s done c' := by
  obtain ⟨hattached, hown, hother, hwaiting, hcount⟩ := hmoved
  have hput : put (c.modifyEndpoint s fun e => (e.advance cycles).2) c' s = put c c' s := by
    unfold put modifyEndpoint
    rw [station_modify_other, station_modify, Endpoint.data_advance]
  rw [hput] at hother hcount
  simp only [owed, modifyEndpoint, station_modify, station_modify_other] at *
  exact ⟨hattached, hown, hother, hwaiting, hcount⟩

omit h in
theorem receive_eq (c : Cable) (s : Side) (cycles : Nat) :
    c.receive s cycles =
      let counted := c.modifyEndpoint s fun e => (e.advance cycles).2
      match ((c.station s).endpoint.advance cycles).1 with
      | .idle => (.ready (counted.answer s).1, (counted.answer s).2)
      | .counting => (.ready .nothing, counted)
      | .due => counted.exchange s := rfl

theorem moved_receive (s : Side) (cycles : Nat) (hwaiting : (c.station s).waiting = false) :
    Moved c s (c.receive s cycles).1.returned (c.receive s cycles).2 := by
  have hadvanced : ∀ t, ((c.modifyEndpoint s fun e => (e.advance cycles).2).station t).attached :=
    attached_modify h s rfl
  rw [receive_eq]
  dsimp only
  cases hphase : ((c.station s).endpoint.advance cycles).1 with
  | idle => exact (moved_answer hadvanced s).of_advance
  | counting => exact moved_modifyEndpoint h s fun e => (e.advance cycles).2
  | due =>
    refine (moved_exchange hadvanced s ?_).of_advance
    unfold modifyEndpoint
    rw [station_modify]
    exact hwaiting

theorem moved_call (s : Side) (k : Call) (hwaiting : (c.station s).waiting = false) :
    Moved c s (c.call s k).1.returned (c.call s k).2 := by
  cases k with
  | status master start => exact moved_modifyEndpoint h s (·.setMaster master)
  | send byte => exact moved_modifyEndpoint h s (·.send byte)
  | receive cycles => exact moved_receive h s cycles hwaiting

theorem moved_finish {s : Side} {r : Endpoint.Received} {c' : Cable}
    (hwaiting : (c.station s).waiting = true) (hfinish : c.finish? s = some (r, c')) :
    Moved c s (Progress.ready r).returned c' := by
  unfold finish? at hfinish
  cases hinbox : (c.station s).inbox with
  | nil =>
    rw [hinbox, h s.other] at hfinish
    contradiction
  | cons byte rest =>
    rw [hinbox] at hfinish
    cases hfinish
    refine moved_modify h s rfl hinbox ?_
    unfold owed
    rw [station_modify, hwaiting]
    rfl

theorem moved_perform {m : Move} {p : Progress} {c' : Cable}
    (hperform : c.perform? m = some (p, c')) : Moved c m.side p.returned c' := by
  cases performed hperform with
  | @call s k hwaiting => exact moved_call h s k hwaiting
  | finish hwaiting hfinish => exact moved_finish h hwaiting hfinish

end Attached

end Cable

/-! ## Runs -/

open Cable (Move put)

/-- A cable, the bytes that each end has put on the wire and the ones that its completed transfers
returned, the oldest first. -/
structure Traffic where
  cable : Cable
  sent : Side → List UInt8
  returned : Side → List UInt8

namespace Traffic

def start (delay : Int) : Traffic :=
  { cable := .pair delay, sent := fun _ => [], returned := fun _ => [] }

def step? (t : Traffic) (m : Move) : Option Traffic :=
  (t.cable.perform? m).map fun (p, c) =>
    { cable := c
      sent := Function.update t.sent m.side (t.sent m.side ++ put t.cable c m.side)
      returned := Function.update t.returned m.side (t.returned m.side ++ p.returned) }

def run? (t : Traffic) (moves : List Move) : Option Traffic := moves.foldlM step? t

/-- What an end has returned and what is on its way to it is what the other end has put on the wire,
and an end has put a byte on the wire for each transfer that it completed or waits in. -/
structure Balanced (t : Traffic) : Prop where
  attached : ∀ s, (t.cable.station s).attached = true
  queued : ∀ s, t.sent s.other = t.returned s ++ (t.cable.station s).inbox
  counted : ∀ s, (t.sent s).length = (t.returned s).length + t.cable.owed s

theorem balanced_start (delay : Int) : Balanced (start delay) := by
  refine ⟨?_, ?_, ?_⟩ <;> (intro s; cases s <;> rfl)

theorem Balanced.step {t t' : Traffic} (h : Balanced t) {m : Move} (hstep : t.step? m = some t') :
    Balanced t' := by
  obtain ⟨⟨p, c⟩, hperform, rfl⟩ := Option.map_eq_some_iff.1 hstep
  obtain ⟨hattached, hown, hother, hwaiting, hcount⟩ := Cable.moved_perform h.attached hperform
  have hne := m.side.other_ne
  refine ⟨hattached, ?_, ?_⟩ <;> dsimp only
  · intro s
    rcases m.side.eq_or_eq_other s with rfl | rfl
    · rw [Function.update_of_ne hne, Function.update_self, h.queued, hown, List.append_assoc]
    · rw [Side.other_other, Function.update_self, Function.update_of_ne hne, hother,
        ← List.append_assoc, ← h.queued, Side.other_other]
  · intro s
    have hcounted := h.counted s
    rcases m.side.eq_or_eq_other s with rfl | rfl
    · rw [Function.update_self, Function.update_self, List.length_append, List.length_append]
      omega
    · rw [Function.update_of_ne hne, Function.update_of_ne hne, hcounted]
      unfold Cable.owed
      rw [hwaiting]

theorem run?_keeps {P : Traffic → Prop} (hP : ∀ t m t', t.step? m = some t' → P t → P t')
    {t t' : Traffic} (h : P t) {moves : List Move} (hrun : t.run? moves = some t') : P t' :=
  foldlM_keeps (k := 0) (P := fun _ => P) (fun hp hstep => hP _ _ _ hstep hp) h hrun

theorem Balanced.run {t t' : Traffic} (h : Balanced t) {moves : List Move}
    (hrun : t.run? moves = some t') : Balanced t' :=
  run?_keeps (fun _ _ _ hstep hmid => hmid.step hstep) h hrun

theorem Balanced.inboxes {t : Traffic} (h : Balanced t) :
    (t.cable.station .a).inbox.length + (t.cable.station .b).inbox.length =
      t.cable.owed .a + t.cable.owed .b := by
  have ha := congrArg List.length (h.queued .a)
  have hb := congrArg List.length (h.queued .b)
  rw [List.length_append] at ha hb
  have hcounta := h.counted .a
  have hcountb := h.counted .b
  simp only [Side.other] at ha hb
  omega

/-- In any run of two connected ends, the transfers of an end return what the other end put on the
wire for the transfers of the same number, and what is not returned yet is in the queue. Between
transfers nothing is on its way and the ends have completed equally many, and they never wait for
each other in vain. -/
theorem returned_eq_sent (delay : Int) {moves : List Move} {t : Traffic}
    (h : (start delay).run? moves = some t) :
    (∀ s (k : Nat) byte, (t.returned s)[k]? = some byte → (t.sent s.other)[k]? = some byte) ∧
      (∀ s, t.sent s.other = t.returned s ++ (t.cable.station s).inbox) ∧
      (∀ s, (t.sent s).length =
        (t.returned s).length + if (t.cable.station s).waiting then 1 else 0) ∧
      ((∀ s, (t.cable.station s).waiting = false) →
        (∀ s, (t.cable.station s).inbox = []) ∧
          (t.returned .a).length = (t.returned .b).length) ∧
      ¬ ∀ s, (t.cable.station s).waiting = true ∧ (t.cable.station s).inbox = [] := by
  have hbalanced := (balanced_start delay).run h
  have hinboxes := hbalanced.inboxes
  refine ⟨?_, hbalanced.queued, hbalanced.counted, ?_, ?_⟩
  · intro s k byte hk
    rw [hbalanced.queued s, List.getElem?_append_left (List.getElem?_eq_some_iff.1 hk).1]
    exact hk
  · -- Of two ends that owe each other nothing neither has anything on its way.
    intro hidle
    simp only [Cable.owed, hidle] at hinboxes
    have hempty : ∀ s, (t.cable.station s).inbox = [] := by
      intro s
      rw [← List.length_eq_zero_iff]
      cases s <;> simp only [Bool.false_eq_true, if_false] at hinboxes <;> omega
    refine ⟨hempty, ?_⟩
    have hsent := congrArg List.length (hbalanced.queued .b)
    have hcounted := hbalanced.counted .a
    rw [hempty, List.append_nil] at hsent
    simp only [Cable.owed, hidle] at hcounted
    simpa [Side.other] using hcounted.symm.trans hsent
  · intro hstuck
    obtain ⟨hwaita, hemptya⟩ := hstuck .a
    obtain ⟨hwaitb, hemptyb⟩ := hstuck .b
    simp only [Cable.owed, hwaita, hwaitb, hemptya, hemptyb] at hinboxes
    contradiction

/-- Both ends drive a transfer, and then `b` begins its next one before `a` has its reply. -/
def crossing : List Move :=
  [.call .a (.status true true), .call .b (.status true true), .call .a (.send 0x0a),
    .call .b (.send 0x0b), .call .a (.receive 8), .call .b (.receive 8), .finish .b,
    .call .b (.send 0x1b), .call .b (.receive 8), .finish .a, .call .a (.send 0x1a)]

/-- Only `a` drives a transfer, and `b` answers it when it is read next. Then they change places. -/
def answering : List Move :=
  [.call .a (.status true true), .call .a (.send 0x0a), .call .b (.status false true),
    .call .b (.send 0x0b), .call .a (.receive 8), .call .b (.receive 4), .finish .a,
    .call .a (.status false true), .call .b (.status true true), .call .a (.send 0x1a),
    .call .b (.send 0x1b), .call .b (.receive 8), .call .a (.receive 4), .finish .b]

/-- The first transfer of `a` returns the first byte of `b`, although the second one is in the queue
as well. And what an end answers with is returned at the other one. -/
theorem returned_eq_sent_crossing :
    (∃ t, (start 8).run? crossing = some t ∧ t.returned .a = [0x0b] ∧ t.sent .b = [0x0b, 0x1b] ∧
      ∀ (k : Nat) byte, (t.returned .a)[k]? = some byte → (t.sent .b)[k]? = some byte) ∧
    ∃ t, (start 8).run? answering = some t ∧ t.returned .a = [0x0b, 0x1b] ∧
      t.returned .b = [0x0a, 0x1a] ∧ t.sent .b = t.returned .a ∧ t.sent .a = t.returned .b := by
  constructor
  · have hrun : ∃ t, (start 8).run? crossing = some t := ⟨_, rfl⟩
    obtain ⟨t, ht⟩ := hrun
    have hagree := (returned_eq_sent 8 ht).1 .a
    cases ht
    exact ⟨_, rfl, rfl, rfl, hagree⟩
  · have hrun : ∃ t, (start 8).run? answering = some t := ⟨_, rfl⟩
    obtain ⟨t, ht⟩ := hrun
    obtain ⟨-, hqueued, -, hidle, -⟩ := returned_eq_sent 8 ht
    have hdone : ∀ s, (t.cable.station s).waiting = false := by
      cases ht
      intro s
      cases s <;> rfl
    obtain ⟨hempty, -⟩ := hidle hdone
    have hsent : ∀ s, t.sent s.other = t.returned s := by
      intro s
      rw [hqueued, hempty, List.append_nil]
    refine ⟨t, ht, ?_, ?_, hsent .a, hsent .b⟩ <;> cases ht <;> rfl

end Traffic

end Handheld.Link
