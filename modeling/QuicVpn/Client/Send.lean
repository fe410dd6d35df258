import QuicVpn.Client.Close
import QuicVpn.Client.Start

/-!
# Sending on a connection that ends

`thread_pkt_data_send` looks at the state of the connection, and then reads `MsQuic->ConnectionHandle`
and passes it to `DatagramSend`.  The handler of SHUTDOWN_COMPLETE, in a worker of MsQuic, writes the
state, clears the handle and closes the connection, with no lock that both would take.

* `SendSys.step`        the two threads, each access of the state and of the handle on its own;
* `SendSys.toConn`      without the sender a run is one of `ClientConn`;
* `SendSys.SendsLive`   `DatagramSend` was given connections that were open;
* `SendSys.Apart`       the handler neither clears the handle between the look at the state and the read,
                        nor closes the connection between the read and the call;
* `sends_live_iff`      then all calls are so; and only then, if the sender has finished its last call.
-/

set_option linter.unusedSectionVars false

namespace QuicVpn
open Conc

/-- where `thread_pkt_data_send` is: before `state_sync_check`, before the tests of `MsQuic` and its
`Api`, before the read of the handle, before the call with the value read -/
inductive SenderPt (H : Type) where
  | idle
  | checked
  | tested
  | call (a : Option H)
  deriving DecidableEq, Repr

def SenderPt.calling {H : Type} : SenderPt H → Bool
  | .call _ => true
  | _ => false

theorem SenderPt.exists_of_calling {H : Type} {p : SenderPt H} (h : p.calling = true) :
    ∃ a, p = .call a := by
  cases p with
  | call a => exact ⟨a, rfl⟩
  | _ => cases h

/-- `conn` is the connection, and `msQuic` says that the context is there; `closed` are the arguments of
`ConnectionClose`, and `sent` has, for each call of `DatagramSend`, its handle and what was closed
then -/
structure SendSys (H : Type) where
  conState : ConnectionState
  msQuic : Bool
  api : Bool
  handle : Option H
  conn : H
  sender : SenderPt H
  handler : HandlerPt
  closed : List H
  sent : List (Option H × List H)

inductive DatagramAct where
  | check
  | test
  | readHandle
  | datagramSend
  | connected
  | shutdownComplete
  | setDisconnected
  | clearHandle
  | closeParam
  deriving DecidableEq, Repr

section
variable {H : Type}

namespace SendSys
variable (s : SendSys H)

def step : DatagramAct → Option (SendSys H)
  | .check =>
    match s.sender with
    | .idle => some { s with
        sender := if s.conState = .sessionConnected then .checked else .idle }
    | _ => none
  | .test =>
    match s.sender with
    | .checked => some { s with sender := if s.msQuic = true ∧ s.api = true then .tested else .idle }
    | _ => none
  | .readHandle =>
    match s.sender with
    | .tested => some { s with sender := .call s.handle }
    | _ => none
  | .datagramSend =>
    match s.sender with
    | .call a => some { s with sender := .idle, sent := (a, s.closed) :: s.sent }
    | _ => none
  -- CONNECTED comes before SHUTDOWN_COMPLETE
  | .connected =>
    match s.handler with
    | .notYet => some { s with conState := .sessionConnected }
    | _ => none
  | .shutdownComplete =>
    match s.handler with
    | .notYet => some { s with handler := .entered }
    | _ => none
  | .setDisconnected =>
    match s.handler with
    -- `assert(MsQuic->ConnectionHandle)` ends the process where it fails
    | .entered =>
      if s.handle.isSome then some { s with conState := .sessionDisconnected, handler := .asserted }
      else none
    | _ => none
  | .clearHandle =>
    match s.handler with
    | .asserted => some { s with handle := none, handler := .cleared }
    | _ => none
  | .closeParam =>
    match s.handler with
    | .cleared => some { s with closed := s.conn :: s.closed, handler := .finished }
    | _ => none

/-- an open connection, whatever the state variable says -/
def init (conState : ConnectionState) (msQuic api : Bool) (conn : H) : SendSys H :=
  ⟨conState, msQuic, api, some conn, conn, .idle, .notYet, [], []⟩

/-- a handle that is not `NULL` and has not been closed -/
def IsOpen (closed : List H) (a : Option H) : Prop := ∃ h, a = some h ∧ h ∉ closed

/-- every call of `DatagramSend` had an open connection -/
def SendsLive : Prop := ∀ p ∈ s.sent, IsOpen p.2 p.1

/-- the sender has looked at the state and will read the handle -/
def Heading : Prop := s.sender = .checked ∧ s.msQuic = true ∧ s.api = true ∨ s.sender = .tested

/-- the handler does not come between the steps of the sender -/
def Apart : DatagramAct → Prop
  | .clearHandle => ¬ s.Heading
  | .closeParam => s.sender.calling = false
  | _ => True

instance [DecidableEq H] : Decidable s.Heading := inferInstanceAs (Decidable (_ ∨ _))

instance [DecidableEq H] : ∀ a, Decidable (s.Apart a)
  | .clearHandle => inferInstanceAs (Decidable (¬ s.Heading))
  | .closeParam => inferInstanceAs (Decidable (s.sender.calling = false))
  | .check | .test | .readHandle | .datagramSend | .connected => .isTrue trivial
  | .shutdownComplete | .setDisconnected => .isTrue trivial

/-! ## what a step can do -/

inductive Move : DatagramAct → SendSys H → Prop where
  | checked (hs : s.sender = .idle) (hc : s.conState = .sessionConnected) :
    Move .check { s with sender := .checked }
  | refused (hs : s.sender = .idle) : Move .check { s with sender := .idle }
  | tested (hs : s.sender = .checked) (hm : s.msQuic = true) (ha : s.api = true) :
    Move .test { s with sender := .tested }
  | missing (hs : s.sender = .checked) (hn : ¬ (s.msQuic = true ∧ s.api = true)) :
    Move .test { s with sender := .idle }
  | read (hs : s.sender = .tested) : Move .readHandle { s with sender := .call s.handle }
  | send {a : Option H} (hs : s.sender = .call a) :
    Move .datagramSend { s with sender := .idle, sent := (a, s.closed) :: s.sent }
  | connected (hh : s.handler = .notYet) : Move .connected { s with conState := .sessionConnected }
  | enter (hh : s.handler = .notYet) : Move .shutdownComplete { s with handler := .entered }
  | disconnect (hh : s.handler = .entered) (hs : s.handle.isSome = true) :
    Move .setDisconnected { s with conState := .sessionDisconnected, handler := .asserted }
  | clear (hh : s.handler = .asserted) :
    Move .clearHandle { s with handle := none, handler := .cleared }
  | close (hh : s.handler = .cleared) :
    Move .closeParam { s with closed := s.conn :: s.closed, handler := .finished }

variable {s} {s' : SendSys H} {a : DatagramAct}

theorem step_move (hs : s.step a = some s') : s.Move a s' := by
  cases a with
  | check =>
    simp only [step] at hs
    split at hs
    case h_2 => exact absurd hs (Option.some_ne_none s').symm
    next hm =>
      split at hs
      next hc => exact Option.some.inj hs ▸ .checked hm hc
      next => exact Option.some.inj hs ▸ .refused hm
  | test =>
    simp only [step] at hs
    split at hs
    case h_2 => exact absurd hs (Option.some_ne_none s').symm
    next hm =>
      split at hs
      next hc => exact Option.some.inj hs ▸ .tested hm hc.1 hc.2
      next hn => exact Option.some.inj hs ▸ .missing hm hn
  | readHandle =>
    simp only [step] at hs
    split at hs
    case h_2 => exact absurd hs (Option.some_ne_none s').symm
    next hm => exact Option.some.inj hs ▸ .read hm
  | datagramSend =>
    simp only [step] at hs
    split at hs
    case h_2 => exact absurd hs (Option.some_ne_none s').symm
    next hm => exact Option.some.inj hs ▸ .send hm
  | connected =>
    simp only [step] at hs
    split at hs
    case h_2 => exact absurd hs (Option.some_ne_none s').symm
    next hh => exact Option.some.inj hs ▸ .connected hh
  | shutdownComplete =>
    simp only [step] at hs
    split at hs
    case h_2 => exact absurd hs (Option.some_ne_none s').symm
    next hh => exact Option.some.inj hs ▸ .enter hh
  | setDisconnected =>
    simp only [step] at hs
    split at hs
    case h_2 => exact absurd hs (Option.some_ne_none s').symm
    next hh =>
      split at hs
      case isFalse => exact absurd hs (Option.some_ne_none s').symm
      next hsome => exact Option.some.inj hs ▸ .disconnect hh hsome
  | clearHandle =>
    simp only [step] at hs
    split at hs
    case h_2 => exact absurd hs (Option.some_ne_none s').symm
    next hh => exact Option.some.inj hs ▸ .clear hh
  | closeParam =>
    simp only [step] at hs
    split at hs
    case h_2 => exact absurd hs (Option.some_ne_none s').symm
    next hh => exact Option.some.inj hs ▸ .close hh

/-! ## runs in which the threads stay apart -/

/-- what holds as long as the handler does not come between the steps of the sender -/
structure Live (s : SendSys H) : Prop where
  held : s.handler.before = true → s.handle = some s.conn
  untouched : s.handler ≠ .finished → s.closed = []
  told : s.conState = .sessionConnected → s.handler = .notYet ∨ s.handler = .entered
  heading : s.Heading → s.handler.before = true
  calling : ∀ a, s.sender = .call a → a = some s.conn ∧ s.handler ≠ .finished
  sends : s.SendsLive

theorem init_live (conState : ConnectionState) (msQuic api : Bool) (conn : H) :
    (init conState msQuic api conn).Live := by
  refine ⟨fun _ => rfl, fun _ => rfl, fun _ => .inl rfl, fun _ => rfl, fun a h => ?_, fun p hp => ?_⟩
  · cases h
  · exact absurd hp List.not_mem_nil

theorem not_heading_of_idle (h : s.sender = .idle) : ¬ s.Heading := by
  rintro (⟨hc, -⟩ | ht)
  · cases h.symm.trans hc
  · cases h.symm.trans ht

theorem not_heading_of_call {x : Option H} (h : s.sender = .call x) : ¬ s.Heading := by
  rintro (⟨hc, -⟩ | ht)
  · cases h.symm.trans hc
  · cases h.symm.trans ht

/-- the sender goes back to its beginning -/
theorem Live.idle (hi : s.Live) : Live { s with sender := .idle } :=
  ⟨hi.held, hi.untouched, hi.told, fun h => absurd h (not_heading_of_idle rfl),
    fun _ h => (by cases h), hi.sends⟩

theorem before_of_told (h : s.handler = .notYet ∨ s.handler = .entered) : s.handler.before = true := by
  rcases h with h | h
  · rw [h]
    rfl
  · rw [h]
    rfl

theorem step_live (hi : s.Live) (hC : s.Apart a) (hs : s.step a = some s') : s'.Live := by
  have hm := step_move hs
  cases hm with
  | checked hq hc =>
    exact ⟨hi.held, hi.untouched, hi.told, fun _ => before_of_told (hi.told hc),
      fun _ h => (by cases h), hi.sends⟩
  | refused hq => exact hi.idle
  | tested hq hm ha =>
    exact ⟨hi.held, hi.untouched, hi.told, fun _ => hi.heading (.inl ⟨hq, hm, ha⟩),
      fun _ h => (by cases h), hi.sends⟩
  | missing hq hn => exact hi.idle
  | read hq =>
    have hb : s.handler.before = true := hi.heading (.inr hq)
    refine ⟨hi.held, hi.untouched, hi.told, fun h => absurd h (not_heading_of_call rfl),
      fun x hx => ?_, hi.sends⟩
    cases hx
    refine ⟨hi.held hb, fun hf => ?_⟩
    rw [hf] at hb
    cases hb
  | @send x hq =>
    obtain ⟨hx, hf⟩ := hi.calling x hq
    have hopen : IsOpen s.closed x := ⟨s.conn, hx, by rw [hi.untouched hf]; exact List.not_mem_nil⟩
    exact ⟨hi.held, hi.untouched, hi.told, fun h => absurd h (not_heading_of_idle rfl),
      fun _ h => (by cases h), List.forall_mem_cons.mpr ⟨hopen, hi.sends⟩⟩
  | connected hh => exact ⟨hi.held, hi.untouched, fun _ => .inl hh, hi.heading, hi.calling, hi.sends⟩
  | enter hh =>
    have hf : s.handler ≠ .finished := fun h => by cases hh.symm.trans h
    exact ⟨fun _ => hi.held (before_of_told (.inl hh)), fun _ => hi.untouched hf, fun _ => .inr rfl,
      fun _ => rfl, fun x hx => ⟨(hi.calling x hx).1, HandlerPt.noConfusion⟩, hi.sends⟩
  | disconnect hh _ =>
    have hf : s.handler ≠ .finished := fun h => by cases hh.symm.trans h
    exact ⟨fun _ => hi.held (before_of_told (.inr hh)), fun _ => hi.untouched hf,
      fun h => (by cases h), fun _ => rfl,
      fun x hx => ⟨(hi.calling x hx).1, HandlerPt.noConfusion⟩, hi.sends⟩
  | clear hh =>
    have hf : s.handler ≠ .finished := fun h => by cases hh.symm.trans h
    refine ⟨fun hb => (by cases hb), fun _ => hi.untouched hf, fun hc => ?_,
      fun h => absurd h hC, fun x hx => ⟨(hi.calling x hx).1, HandlerPt.noConfusion⟩, hi.sends⟩
    rcases hi.told hc with h | h <;> cases hh.symm.trans h
  | close hh =>
    refine ⟨fun hb => (by cases hb), fun h => absurd rfl h, fun hc => ?_, fun h => ?_,
      fun x hx => ?_, hi.sends⟩
    · rcases hi.told hc with h | h <;> cases hh.symm.trans h
    · have hb := hi.heading h
      rw [hh] at hb
      cases hb
    · have hcall : s.sender.calling = false := hC
      rw [show s.sender = .call x from hx] at hcall
      cases hcall

/-! ## runs in which they do not -/

/-- a call with `NULL` or a closed connection has been made, or will be -/
inductive Torn (s : SendSys H) : Prop where
  | sent {p : Option H × List H} (hp : p ∈ s.sent) (hn : ¬ IsOpen p.2 p.1)
  | heading (hh : s.Heading) (hn : s.handle = none)
  | calling {x : Option H} (hx : s.sender = .call x) (hn : ¬ IsOpen s.closed x)

theorem step_torn (hd : s.Torn) (hs : s.step a = some s') : s'.Torn := by
  have hm := step_move hs
  cases hd with
  | sent hp hn =>
    cases hm with
    | send hq => exact .sent (List.mem_cons_of_mem _ hp) hn
    | _ => exact .sent hp hn
  | heading hh hn =>
    cases hm with
    | checked hq _ => exact absurd hh (not_heading_of_idle hq)
    | refused hq => exact absurd hh (not_heading_of_idle hq)
    | tested hq hm ha => exact .heading (.inr rfl) hn
    | missing hq hno =>
      rcases hh with ⟨-, hm, ha⟩ | ht
      · exact absurd ⟨hm, ha⟩ hno
      · cases hq.symm.trans ht
    | read hq =>
      refine .calling rfl ?_
      rintro ⟨h, e, -⟩
      cases hn.symm.trans e
    | send hq => exact absurd hh (not_heading_of_call hq)
    | clear _ => exact .heading hh rfl
    | _ => exact .heading hh hn
  | calling hx hn =>
    cases hm with
    | checked hq _ => cases hq.symm.trans hx
    | refused hq => cases hq.symm.trans hx
    | tested hq _ _ => cases hq.symm.trans hx
    | missing hq _ => cases hq.symm.trans hx
    | read hq => cases hq.symm.trans hx
    | send hq =>
      cases hq.symm.trans hx
      exact .sent List.mem_cons_self hn
    | close _ =>
      refine .calling hx fun ho => hn ?_
      obtain ⟨h, e, hno⟩ := ho
      exact ⟨h, e, fun hmem => hno (List.mem_cons_of_mem _ hmem)⟩
    | _ => exact .calling hx hn

/-- a sender that has finished its last call has made the bad one -/
theorem Torn.not_sendsLive (hd : s.Torn) (hq : s.sender = .idle) : ¬ s.SendsLive := by
  intro hl
  cases hd with
  | sent hp hn => exact hn (hl _ hp)
  | heading hh _ => exact not_heading_of_idle hq hh
  | calling hx _ => cases hq.symm.trans hx

theorem torn_of_not_apart (hi : s.Live) (hC : ¬ s.Apart a) (hs : s.step a = some s') : s'.Torn := by
  have hm := step_move hs
  cases hm with
  | clear hh => exact .heading (not_not.mp hC) rfl
  | close hh =>
    obtain ⟨x, hx⟩ := SenderPt.exists_of_calling (Bool.not_eq_false _ ▸ hC)
    refine .calling hx ?_
    rw [(hi.calling x hx).1]
    rintro ⟨h, e, hn⟩
    cases e
    exact hn List.mem_cons_self
  | _ => exact absurd trivial hC

/-! ## the handler alone -/

/-- the context and the handler; the engine's thread has returned from `MsQuicConnectionStart` -/
def toConn (s : SendSys H) : ClientConn H :=
  ⟨s.api, s.handle, .returned 0, s.handler, some s.conn, s.closed.map some⟩

/-- a step is one of the handler of `ClientConn`, or is not seen there -/
theorem step_toConn (hs : s.step a = some s') :
    s'.toConn = s.toConn ∨ ∃ b, s.toConn.step b = some s'.toConn := by
  have hm := step_move hs
  cases hm with
  | enter hh => exact .inr ⟨.shutdownComplete, if_pos ⟨rfl, hh⟩⟩
  | disconnect hh hsome =>
    refine .inr ⟨.checkHandle, ?_⟩
    unfold ClientConn.step toConn
    simp only [hh]
    exact if_pos hsome
  | clear hh =>
    refine .inr ⟨.clearHandle, ?_⟩
    unfold ClientConn.step toConn
    simp only [hh]
  | close hh =>
    refine .inr ⟨.closeParam, ?_⟩
    unfold ClientConn.step toConn
    simp only [hh, List.map_cons]
  | _ => exact .inl rfl

/-- a run of the two threads, seen without the sender, is a run of `ClientConn` -/
theorem exec_toConn {u : SendSys H} {l : List DatagramAct} (h : exec step s l = some u) :
    ∃ l', exec ClientConn.step s.toConn l' = some u.toConn := by
  induction l generalizing s with
  | nil =>
    cases h
    exact ⟨[], rfl⟩
  | cons a l ih =>
    obtain ⟨t, ht, hl⟩ := exec_cons.mp h
    obtain ⟨l', hl'⟩ := ih hl
    rcases step_toConn ht with hsame | ⟨b, hb⟩
    · exact ⟨l', hsame ▸ hl'⟩
    · exact ⟨b :: l', exec_cons.mpr ⟨t.toConn, hb, hl'⟩⟩

end SendSys

/-- **The client sends only on a live connection**, in every state of every run in which the handler of
SHUTDOWN_COMPLETE does not come between the steps of the sender.  A run after which the sender has
finished its last call has such calls only if it is so. -/
theorem sends_live_iff (conState : ConnectionState) (msQuic api : Bool) (conn : H) (l : List DatagramAct)
    (u : SendSys H) (h : exec SendSys.step (.init conState msQuic api conn) l = some u) :
    (Along SendSys.step SendSys.Apart (.init conState msQuic api conn) l →
      Always SendSys.step SendSys.SendsLive (.init conState msQuic api conn) l) ∧
    (u.sender = .idle →
      (u.SendsLive ↔ Along SendSys.step SendSys.Apart (.init conState msQuic api conn) l)) := by
  have hinit := SendSys.init_live conState msQuic api conn
  constructor
  · intro hapart
    exact always_of_along (fun _ hi => hi.sends) (fun _ _ _ hi hC hs => SendSys.step_live hi hC hs)
      hinit hapart
  · intro hidle
    exact exec_iff_along (fun _ _ _ hi hC hs => SendSys.step_live hi hC hs)
      (fun _ _ _ hi hC hs => SendSys.torn_of_not_apart hi hC hs)
      (fun _ _ _ hd hs => SendSys.step_torn hd hs) hinit h (fun hi => hi.sends)
      (fun hd => hd.not_sendsLive hidle)

/-- a packet is sent, and the connection ends before the next one is looked at -/
def sendThenEnd : List DatagramAct :=
  [.check, .test, .readHandle, .datagramSend, .shutdownComplete, .setDisconnected, .clearHandle, .check,
    .closeParam]

theorem sends_live_iff_sendThenEnd :
    Always SendSys.step SendSys.SendsLive (.init .sessionConnected true true 7) sendThenEnd :=
  (sends_live_iff .sessionConnected true true 7 sendThenEnd _ rfl).1 (by decide)

/-- the connection ends between the look at the state and the read, or between the read and the call -/
theorem sends_on_ended_connection :
    (∃ u, exec SendSys.step (.init .sessionConnected true true 7)
        [.check, .test, .shutdownComplete, .setDisconnected, .clearHandle, .readHandle,
          .datagramSend] = some u ∧ u.sent = [(none, [])] ∧ ¬ u.SendsLive) ∧
    ∃ u, exec SendSys.step (.init .sessionConnected true true 7)
        [.check, .test, .readHandle, .shutdownComplete, .setDisconnected, .clearHandle, .closeParam,
          .datagramSend] = some u ∧ u.sent = [(some 7, [7])] ∧ ¬ u.SendsLive := by
  refine ⟨⟨_, rfl, rfl, fun h => ?_⟩, _, rfl, rfl, fun h => ?_⟩
  · obtain ⟨c, hc, -⟩ := h _ List.mem_cons_self
    cases hc
  · obtain ⟨c, hc, hn⟩ := h _ List.mem_cons_self
    cases hc
    exact hn List.mem_cons_self

end
end QuicVpn
