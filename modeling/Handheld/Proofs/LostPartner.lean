import Handheld.Proofs.CableTransfers

/-!
# A partner that is gone

When one end of a cable goes away, the other one gets the reply that is on its way, if it waits for
one, and is alone from then on. Nothing it returns tells it from an end that never had a partner.
-/

namespace Handheld.Link

/-! ## An end alone -/

namespace Endpoint

/-- A call at an end with nothing at the other side. -/
def callAlone (e : Endpoint) : Call → Received × Endpoint
  | .status master _ => (.nothing, e.setMaster master)
  | .send byte => (.nothing, e.send byte)
  | .receive cycles => e.receiveAlone cycles

def repliesAlone (e : Endpoint) : List Call → List Received
  | [] => []
  | k :: ks => (e.callAlone k).1 :: (e.callAlone k).2.repliesAlone ks

end Endpoint

namespace Cable

/-- What the calls at an end return, one after another. -/
def replies (c : Cable) (s : Side) : List Call → List Progress
  | [] => []
  | k :: ks => (c.call s k).1 :: (c.call s k).2.replies s ks

/-- Nobody is left to hear end `s`, and nothing is left for it to read. -/
def Alone (c : Cable) (s : Side) : Prop :=
  (c.station s).attached = false ∨
    -- It has not noticed yet.
    (c.station s.other).attached = false ∧ (c.station s).inbox = []

variable {c : Cable} {s : Side}

theorem Alone.modifyEndpoint (h : c.Alone s) (f : Endpoint → Endpoint) :
    (c.modifyEndpoint s f).Alone s := by
  unfold Alone Cable.modifyEndpoint
  rw [station_modify, station_modify_other]
  exact h

theorem Alone.detach (c : Cable) (s : Side) : (c.detach s).Alone s := by
  left
  unfold Cable.detach
  rw [station_modify]

theorem endpoint_detach (c : Cable) (s : Side) :
    ((c.detach s).station s).endpoint = (c.station s).endpoint := by
  unfold detach
  rw [station_modify]

theorem endpoint_modifyEndpoint (c : Cable) (s : Side) (f : Endpoint → Endpoint) :
    ((c.modifyEndpoint s f).station s).endpoint = f (c.station s).endpoint := by
  unfold modifyEndpoint
  rw [station_modify]

theorem Alone.answer (h : c.Alone s) :
    (c.answer s).1 = .nothing ∧ (c.answer s).2.Alone s ∧
      ((c.answer s).2.station s).endpoint = (c.station s).endpoint := by
  unfold Cable.answer
  cases hattached : (c.station s).attached with
  | false => exact ⟨rfl, .inl hattached, rfl⟩
  | true =>
    -- It looks for a byte, and notices that it is alone.
    obtain ⟨hother, hinbox⟩ := h.resolve_left (by rw [hattached]; decide)
    rw [if_pos rfl, hinbox, hother]
    exact ⟨rfl, .detach c s, endpoint_detach c s⟩

theorem Alone.deliver? (h : c.Alone s) : c.deliver? s = none := by
  unfold Cable.deliver?
  refine if_neg ?_
  rcases h with h | ⟨h, -⟩ <;> rw [h] <;> simp

theorem Alone.exchange (h : c.Alone s) : c.exchange s = (.ready ⟨0xff, true⟩, c.detach s) := by
  unfold Cable.exchange
  rw [h.deliver?]

theorem Alone.call (h : c.Alone s) (k : Call) :
    (c.call s k).1 = .ready ((c.station s).endpoint.callAlone k).1 ∧
      (c.call s k).2.Alone s ∧
      ((c.call s k).2.station s).endpoint = ((c.station s).endpoint.callAlone k).2 := by
  cases k with
  | status master start => exact ⟨rfl, h.modifyEndpoint _, endpoint_modifyEndpoint _ _ _⟩
  | send byte => exact ⟨rfl, h.modifyEndpoint _, endpoint_modifyEndpoint _ _ _⟩
  | receive cycles =>
    have hcounted := h.modifyEndpoint fun e => (e.advance cycles).2
    have hendpoint :
        ((c.modifyEndpoint s fun e => (e.advance cycles).2).station s).endpoint =
          ((c.station s).endpoint.advance cycles).2 :=
      endpoint_modifyEndpoint c s _
    unfold Cable.call Endpoint.callAlone Endpoint.receiveAlone
    dsimp only
    rw [receive_eq]
    generalize (c.station s).endpoint.advance cycles = advanced at hendpoint ⊢
    obtain ⟨phase, counted⟩ := advanced
    cases phase with
    | idle =>
      -- There is nothing to read, so there is nothing to answer.
      obtain ⟨hnothing, halone, hkept⟩ := hcounted.answer
      exact ⟨congrArg Progress.ready hnothing, halone, hkept.trans hendpoint⟩
    | counting => exact ⟨rfl, hcounted, hendpoint⟩
    | due =>
      dsimp only
      rw [hcounted.exchange]
      exact ⟨rfl, .detach _ s, (endpoint_detach _ s).trans hendpoint⟩

theorem Alone.replies (h : c.Alone s) (ks : List Call) :
    c.replies s ks = ((c.station s).endpoint.repliesAlone ks).map .ready := by
  induction ks generalizing c with
  | nil => rfl
  | cons k ks ih =>
    obtain ⟨hreply, halone, hendpoint⟩ := h.call k
    rw [Cable.replies, Endpoint.repliesAlone, List.map_cons, hreply, ih halone, hendpoint]

theorem alone_detached (delay : Int) : (detached delay).Alone .a := .inl rfl

/-! ## The delay -/

/-- Both ends count from the same delay. -/
def HasDelay (c : Cable) (delay : Int) : Prop := ∀ s, (c.station s).endpoint.delay = delay

variable {delay : Int}

theorem HasDelay.modify (h : c.HasDelay delay) (s : Side) {f : Station → Station}
    (hf : (f (c.station s)).endpoint.delay = (c.station s).endpoint.delay) :
    (c.modify s f).HasDelay delay := by
  intro t
  rcases s.eq_or_eq_other t with rfl | rfl
  · rw [station_modify, hf]
    exact h t
  · rw [station_modify_other]
    exact h s.other

theorem HasDelay.detach (h : c.HasDelay delay) (s : Side) : (c.detach s).HasDelay delay :=
  h.modify s rfl

theorem HasDelay.deliver (h : c.HasDelay delay) {c' : Cable} (hc : c.deliver? s = some c') :
    c'.HasDelay delay := by
  unfold deliver? at hc
  split at hc
  · cases hc
    exact h.modify s.other rfl
  · contradiction

theorem HasDelay.answer (h : c.HasDelay delay) (s : Side) : (c.answer s).2.HasDelay delay := by
  unfold Cable.answer
  split
  · split
    · split
      · rename_i hdelivered
        exact (h.modify s rfl).deliver hdelivered
      · exact h.detach s
    · split
      · exact h
      · exact h.detach s
  · exact h

theorem HasDelay.exchange (h : c.HasDelay delay) (s : Side) : (c.exchange s).2.HasDelay delay := by
  unfold Cable.exchange
  split
  · rename_i hdelivered
    exact (h.deliver hdelivered).modify s rfl
  · exact h.detach s

theorem delay_send (e : Endpoint) (byte : UInt8) : (e.send byte).delay = e.delay := by
  unfold Endpoint.send
  split <;> rfl

theorem delay_advance (e : Endpoint) (cycles : Nat) : (e.advance cycles).2.delay = e.delay := by
  unfold Endpoint.advance
  split
  · rfl
  · split <;> rfl

theorem HasDelay.call (h : c.HasDelay delay) (s : Side) (k : Call) :
    (c.call s k).2.HasDelay delay := by
  cases k with
  | status master start => exact h.modify s rfl
  | send byte => exact h.modify s (delay_send _ byte)
  | receive cycles =>
    have hcounted : (c.modifyEndpoint s fun e => (e.advance cycles).2).HasDelay delay :=
      h.modify s (delay_advance _ cycles)
    unfold Cable.call
    dsimp only
    rw [receive_eq]
    dsimp only
    split
    · exact hcounted.answer s
    · exact hcounted
    · exact hcounted.exchange s

theorem HasDelay.finish (h : c.HasDelay delay) {r : Endpoint.Received} {c' : Cable}
    (hfinish : c.finish? s = some (r, c')) : c'.HasDelay delay := by
  unfold finish? at hfinish
  split at hfinish
  · cases hfinish
    exact h.modify s rfl
  · split at hfinish
    · contradiction
    · cases hfinish
      exact (h.modify s rfl).detach s

theorem HasDelay.perform (h : c.HasDelay delay) {m : Move} {p : Progress} {c' : Cable}
    (hperform : c.perform? m = some (p, c')) : c'.HasDelay delay := by
  cases performed hperform with
  | @call s k => exact h.call s k
  | finish _ hfinish => exact h.finish hfinish

/-- An end that leads nowhere, with the byte, the clock source and the count of another one. -/
def detachedLike (delay : Int) (e : Endpoint) : Cable :=
  (detached delay).modifyEndpoint .a fun d =>
    { d with data := e.data, master := e.master, countdown := e.countdown }

theorem replies_detachedLike (h : c.HasDelay delay) (halone : c.Alone s) (ks : List Call) :
    c.replies s ks = (detachedLike delay (c.station s).endpoint).replies .a ks := by
  have hdetached : (detachedLike delay (c.station s).endpoint).Alone .a :=
    (alone_detached delay).modifyEndpoint _
  have hendpoint :
      ((detachedLike delay (c.station s).endpoint).station .a).endpoint =
        (c.station s).endpoint := by
    rw [← h s]
    rfl
  rw [halone.replies, hdetached.replies, hendpoint]

/-! ## The end of a wait -/

theorem finish?_of_lost {byte? : Option UInt8} (hinbox : (c.station s).inbox = byte?.toList)
    (hother : (c.station s.other).attached = false) :
    ∃ c', c.finish? s = some (⟨byte?.getD 0xff, true⟩, c') ∧ c'.Alone s ∧
      (c'.station s).waiting = false ∧ (c'.station s).endpoint = (c.station s).endpoint := by
  unfold finish?
  rw [hinbox]
  cases byte? with
  | none =>
    dsimp only [Option.toList_none]
    rw [hother]
    refine ⟨_, rfl, .detach _ s, ?_, ?_⟩
    · unfold detach
      rw [station_modify, station_modify]
    · rw [endpoint_detach, station_modify]
  | some byte =>
    refine ⟨_, rfl, .inr ⟨?_, ?_⟩, ?_, ?_⟩
    · rw [station_modify_other]
      exact hother
    · rw [station_modify]
    · rw [station_modify]
    · rw [station_modify]

end Cable

namespace Traffic

theorem hasDelay_run {delay : Int} {moves : List Cable.Move} {t : Traffic}
    (h : (start delay).run? moves = some t) : t.cable.HasDelay delay := by
  refine run?_keeps (P := fun t => t.cable.HasDelay delay) ?_ ?_ h
  · intro t m t' hstep ht
    obtain ⟨⟨p, c⟩, hperform, rfl⟩ := Option.map_eq_some_iff.1 hstep
    exact ht.perform hperform
  · intro s
    cases s <;> rfl

theorem inbox_length_le {delay : Int} {moves : List Cable.Move} {t : Traffic}
    (h : (start delay).run? moves = some t) {s : Side}
    (hs : (t.cable.station s).waiting = false) :
    (t.cable.station s.other).inbox.length ≤ t.cable.owed s.other := by
  have hinboxes := ((balanced_start delay).run h).inboxes
  have howed : t.cable.owed s = 0 := by
    unfold Cable.owed
    rw [hs]
    rfl
  cases s <;> dsimp only [Side.other] at * <;> omega

theorem inbox_eq {delay : Int} {moves : List Cable.Move} {t : Traffic}
    (h : (start delay).run? moves = some t) {s : Side}
    (hlength : (t.cable.station s.other).inbox.length ≤ 1) :
    (t.cable.station s.other).inbox = ((t.sent s)[(t.returned s.other).length]?).toList := by
  have hqueued := ((balanced_start delay).run h).queued s.other
  rw [Side.other_other] at hqueued
  rw [hqueued, List.getElem?_append_right (Nat.le_refl _), Nat.sub_self]
  generalize (t.cable.station s.other).inbox = inbox at hlength
  match inbox, hlength with
  | [], _ => rfl
  | [byte], _ => rfl

/-- When an end that does not wait goes away, the other one, if it waits, completes its transfer
with the byte that it was sent for it, or with 0xff if it was not sent one. From then on, and at
once if it does not wait, every call returns what it returns at an end that leads nowhere. -/
theorem lost_partner (delay : Int) {moves : List Cable.Move} {t : Traffic}
    (h : (start delay).run? moves = some t) {s : Side}
    (hs : (t.cable.station s).waiting = false) :
    let lost := t.cable.detach s
    let alone := Cable.detachedLike delay (t.cable.station s.other).endpoint
    ((t.cable.station s.other).waiting = false →
        ∀ ks, lost.replies s.other ks = alone.replies .a ks) ∧
      ((t.cable.station s.other).waiting = true →
        ∃ c, lost.finish? s.other =
            some (⟨((t.sent s)[(t.returned s.other).length]?).getD 0xff, true⟩, c) ∧
          (c.station s.other).waiting = false ∧
          ∀ ks, c.replies s.other ks = alone.replies .a ks) := by
  intro lost alone
  have hdelay : lost.HasDelay delay := (hasDelay_run h).detach s
  have hother : lost.station s.other = t.cable.station s.other := Cable.station_modify_other _ _ _
  have hgone : (lost.station s.other.other).attached = false := by
    rw [Side.other_other]
    exact congrArg Station.attached (Cable.station_modify _ _ _)
  have hlength := inbox_length_le h hs
  unfold Cable.owed at hlength
  constructor
  · intro hidle ks
    rw [hidle] at hlength
    have hinbox : (lost.station s.other).inbox = [] := by
      rw [hother]
      exact List.eq_nil_of_length_eq_zero (Nat.le_zero.1 hlength)
    rw [Cable.replies_detachedLike hdelay (.inr ⟨hgone, hinbox⟩), hother]
  · intro hwaiting
    rw [hwaiting] at hlength
    have hinbox := inbox_eq h hlength
    rw [← hother] at hinbox
    obtain ⟨c, hfinish, halone, hdone, hendpoint⟩ := Cable.finish?_of_lost hinbox hgone
    refine ⟨c, hfinish, hdone, fun ks => ?_⟩
    rw [Cable.replies_detachedLike (hdelay.finish hfinish) halone, hendpoint, hother]

/-- End `a` waits for the reply to its byte, which `b` has sent. -/
def answered : List Cable.Move :=
  [.call .a (.status true true), .call .a (.send 0x0a), .call .b (.send 0x0b),
    .call .a (.receive 8), .call .b (.receive 4)]

theorem lost_partner_answered :
    ∃ t, (start 8).run? answered = some t ∧
      ∃ c, (t.cable.detach .b).finish? .a = some (⟨0x0b, true⟩, c) ∧
        c.replies .a [.send 0x1a, .receive 4, .receive 4] =
          [.ready .nothing, .ready .nothing, .ready ⟨0xff, true⟩] := by
  obtain ⟨t, ht⟩ : ∃ t, (start 8).run? answered = some t := ⟨_, rfl⟩
  have hidle : (t.cable.station .b).waiting = false := by
    cases ht
    rfl
  have hwaiting : (t.cable.station .a).waiting = true := by
    cases ht
    rfl
  obtain ⟨c, hfinish, -, hreplies⟩ := (lost_partner 8 ht hidle).2 hwaiting
  refine ⟨t, ht, c, ?_, ?_⟩
  · cases ht
    exact hfinish
  · refine (hreplies _).trans ?_
    cases ht
    rfl

end Traffic

end Handheld.Link
