import QuicVpn.Packet.RecvLoop

/-!
# What the receive thread serves

`queue_wait_pop` returns `NULL` for the sentinel and for an interrupted `sem_wait` alike, and
`thread_pkt_data_recv` leaves its loop on both.

* `RecvLoop.Serves`     the thread leaves its loop only after the flag has been cleared, it takes the
                        elements in the order of the pushes, and while the flag is set its own steps
                        lead it through everything whose push is complete;
* `RecvLoop.HeedsOk`    no wait is interrupted while the flag is set;
* `RecvLoop.Inv`        the invariant: where the parties are in the queue, and that `NULL` is in it only
                        after the flag has been cleared;
* `drain`               the thread empties the queue, by induction on the tokens of `pop_semaphore`.

The main result is `recvLoop_serves_iff`.
-/

set_option linter.unusedSectionVars false

namespace QuicVpn
open Conc

/-- the thread is inside its loop -/
def LoopPc.inLoop {α : Type} : LoopPc α → Bool
  | .test => true
  | .wait => true
  | .popping => true
  | .popped => true
  | .handle _ => true
  | _ => false

/-- where the receive thread is in the queue -/
def LoopPc.At {α : Type} : LoopPc α → QueuePc α → Prop
  | .popping, p => p = .popping
  | .popped, p => ∃ x, p = .popped x
  | _, p => p = .idle

/-- where the cleanup is in the queue -/
def StopPc.At {α : Type} : StopPc → QueuePc α → Prop
  | .pushing, p => p = .pushing none
  | .pushed, p => p = .pushed
  | _, p => p = .idle

/-- a callback pushes packets and pops nothing -/
def QueuePc.Pushes {α : Type} : QueuePc α → Prop
  | .idle => True
  | .pushing x => x ≠ none
  | .pushed => True
  | .popping => False
  | .popped _ => False

section
variable {T α : Type} [Fintype T] [DecidableEq T]

/-- number of pushes between their section and their post -/
def RecvLoop.unposted (s : RecvLoop T α) : ℕ := ∑ p, (s.q.pc p).afterPush

structure RecvLoop.Serves (s : RecvLoop T α) : Prop where
  told : s.loop = .returned → s.running = false
  order : s.q.removed <+: s.q.inserted
  all : s.running = true → s.loop.inLoop = true → ∃ n s',
    exec RecvLoop.step s (List.replicate n .loop) = some s' ∧ s'.q.inserted = s.q.inserted ∧
      s'.q.removed.length + s'.unposted = s.q.inserted.length

def RecvLoop.HeedsOk (s : RecvLoop T α) : LoopAct T α → Prop
  | .interrupt => s.running = false
  | _ => True

instance (s : RecvLoop T α) : ∀ a, Decidable (s.HeedsOk a)
  | .interrupt => inferInstanceAs (Decidable (s.running = false))
  | .offer _ _ => .isTrue trivial
  | .refuse _ => .isTrue trivial
  | .store _ => .isTrue trivial
  | .post _ => .isTrue trivial
  | .enter _ => .isTrue trivial
  | .loop => .isTrue trivial
  | .stop => .isTrue trivial
  | .stopInterrupt => .isTrue trivial

/-! ## the invariant -/

theorem recv_ne_stop : (none : Option (Option T)) ≠ some none := nofun

theorem recv_ne_callback (t : T) : (none : Option (Option T)) ≠ some (some t) := nofun

theorem stop_ne_callback (t : T) : (some none : Option (Option T)) ≠ some (some t) := nofun

structure RecvLoop.Inv (size : ℕ) (s : RecvLoop T α) : Prop where
  queue : s.q.Inv size
  loop : s.loop.At (s.q.pc none)
  stop : s.stop.At (s.q.pc (some none))
  callback : ∀ t, (s.q.pc (some (some t))).Pushes
  null : none ∈ s.q.inserted → s.running = false
  last : ∀ x, s.q.pc none = .popped x → x ∈ s.q.inserted
  flag : s.stop ≠ .begin → s.running = false

theorem RecvLoop.init_inv {size : ℕ} {q : Queue α} (hq : queueInit size = some q) :
    (RecvLoop.init q : RecvLoop T α).Inv size :=
  ⟨QueueSys.init_inv hq, rfl, rfl, fun _ => trivial, nofun, nofun, fun h => absurd rfl h⟩

section
variable {size : ℕ} {s s' : RecvLoop T α} {q : QueueSys (Option (Option T)) α}

/-- a step of a callback in the queue -/
theorem RecvLoop.Inv.callback_move {t : T} {p : QueuePc α} (h : s.Inv size) (hq : q.Inv size)
    (hpc : q.pc = Function.update s.q.pc (some (some t)) p) (hp : p.Pushes)
    (hnull : none ∈ q.inserted → none ∈ s.q.inserted)
    (hsub : ∀ x ∈ s.q.inserted, x ∈ q.inserted) : RecvLoop.Inv size { s with q := q } := by
  have hloop : q.pc none = s.q.pc none := by
    rw [hpc, Function.update_of_ne (recv_ne_callback t)]
  have hstop : q.pc (some none) = s.q.pc (some none) := by
    rw [hpc, Function.update_of_ne (stop_ne_callback t)]
  refine ⟨hq, ?_, ?_, ?_, fun hn => h.null (hnull hn), ?_, h.flag⟩
  · show s.loop.At (q.pc none)
    rw [hloop]
    exact h.loop
  · show s.stop.At (q.pc (some none))
    rw [hstop]
    exact h.stop
  · intro u
    show (q.pc (some (some u))).Pushes
    rw [hpc]
    by_cases hu : u = t
    · subst hu
      rw [Function.update_self]
      exact hp
    · rw [Function.update_of_ne (fun e => hu (Option.some.inj (Option.some.inj e)))]
      exact h.callback u
  · intro x hx
    have hx' : q.pc none = .popped x := hx
    rw [hloop] at hx'
    exact hsub x (h.last x hx')

/-- a step of the receive thread -/
theorem RecvLoop.Inv.loop_move {p : QueuePc α} (h : s.Inv size) (hq : q.Inv size)
    (hpc : q.pc = Function.update s.q.pc none p) (hins : q.inserted = s.q.inserted)
    (hlast : ∀ x, p = .popped x → x ∈ s.q.inserted) (c : LoopPc α) (hc : c.At p) :
    RecvLoop.Inv size { s with q := q, loop := c } := by
  have hloop : q.pc none = p := by rw [hpc, Function.update_self]
  refine ⟨hq, ?_, ?_, ?_, ?_, ?_, h.flag⟩
  · show c.At (q.pc none)
    rw [hloop]
    exact hc
  · show s.stop.At (q.pc (some none))
    rw [hpc, Function.update_of_ne recv_ne_stop.symm]
    exact h.stop
  · intro u
    show (q.pc (some (some u))).Pushes
    rw [hpc, Function.update_of_ne (recv_ne_callback u).symm]
    exact h.callback u
  · show none ∈ q.inserted → _
    rw [hins]
    exact h.null
  · intro x hx
    have hx' : q.pc none = .popped x := hx
    show x ∈ q.inserted
    rw [hins]
    exact hlast x (hloop.symm.trans hx')

/-- a step of the cleanup in the queue, after it has cleared the flag -/
theorem RecvLoop.Inv.stop_move {p : QueuePc α} (h : s.Inv size) (hq : q.Inv size)
    (hpc : q.pc = Function.update s.q.pc (some none) p) (hrun : s.running = false)
    (hsub : ∀ x ∈ s.q.inserted, x ∈ q.inserted) (c : StopPc) (hc : c.At p) :
    RecvLoop.Inv size { s with q := q, stop := c } := by
  have hloop : q.pc none = s.q.pc none := by rw [hpc, Function.update_of_ne recv_ne_stop]
  refine ⟨hq, ?_, ?_, ?_, fun _ => hrun, ?_, fun _ => hrun⟩
  · show s.loop.At (q.pc none)
    rw [hloop]
    exact h.loop
  · show c.At (q.pc (some none))
    rw [hpc, Function.update_self]
    exact hc
  · intro u
    show (q.pc (some (some u))).Pushes
    rw [hpc, Function.update_of_ne (stop_ne_callback u).symm]
    exact h.callback u
  · intro x hx
    have hx' : q.pc none = .popped x := hx
    rw [hloop] at hx'
    exact hsub x (h.last x hx')

/-- a move of the receive thread outside the queue -/
theorem RecvLoop.Inv.loop_goto (h : s.Inv size) (c : LoopPc α) (hc : c.At (s.q.pc none)) :
    RecvLoop.Inv size { s with loop := c } :=
  ⟨h.queue, hc, h.stop, h.callback, h.null, h.last, h.flag⟩

theorem RecvLoop.step_inv (a : LoopAct T α) (h : s.Inv size) (hs : s.step a = some s') :
    s'.Inv size := by
  have hloop := h.loop
  have hstop := h.stop
  cases RecvLoop.step_move hs with
  | @offer t x q hq =>
    have hi := QueueSys.step_inv _ _ _ h.queue hq
    cases QueueSys.step_move hq
    have hp : (QueuePc.pushing (some x)).Pushes := Option.some_ne_none x
    exact h.callback_move hi rfl hp (fun hn => hn) (fun _ hx => hx)
  | refuse hq =>
    cases QueueSys.step_move hq
    exact h
  | @store t q hq =>
    have hi := QueueSys.step_inv _ _ _ h.queue hq
    cases QueueSys.step_move hq with
    | @push _ x hpc =>
      have hx : x ≠ none := by
        have hc := h.callback t
        rw [hpc] at hc
        exact hc
      refine h.callback_move hi rfl trivial ?_ (fun _ hm => List.mem_append_left _ hm)
      intro hn
      have hn' : none ∈ s.q.inserted ++ [x] := hn
      rcases List.mem_append.mp hn' with hn' | hn'
      · exact hn'
      · exact absurd (List.mem_singleton.mp hn').symm hx
  | post hq =>
    have hi := QueueSys.step_inv _ _ _ h.queue hq
    cases QueueSys.step_move hq
    exact h.callback_move hi rfl trivial (fun hn => hn) (fun _ hx => hx)
  | enter e ready =>
    rw [e] at hloop
    cases ready with
    | true => exact h.loop_goto .test hloop
    | false => exact h.loop_goto .refused hloop
  | goOn e hr =>
    rw [e] at hloop
    exact h.loop_goto .wait hloop
  | leave e hr =>
    rw [e] at hloop
    exact h.loop_goto .returned hloop
  | take e hq =>
    have hi := QueueSys.step_inv _ _ _ h.queue hq
    cases QueueSys.step_move hq
    exact h.loop_move hi rfl rfl (fun _ hx => by cases hx) .popping rfl
  | pop e hq =>
    have hi := QueueSys.step_inv _ _ _ h.queue hq
    cases QueueSys.step_move hq
    refine h.loop_move hi rfl rfl ?_ .popped ⟨_, rfl⟩
    intro x hx
    cases hx
    obtain ⟨xs, _, hio⟩ := hi.queue
    have hio' : s.q.inserted = (s.q.removed ++ [(queuePop s.q.q).1]) ++ xs := hio
    rw [hio']
    exact List.mem_append_left _ (List.mem_append_right _ (List.mem_singleton_self _))
  | packet e hx hq =>
    have hi := QueueSys.step_inv _ _ _ h.queue hq
    cases QueueSys.step_move hq
    exact h.loop_move hi rfl rfl (fun _ hx => by cases hx) (.handle _) rfl
  | sentinel e hx hq =>
    have hi := QueueSys.step_inv _ _ _ h.queue hq
    cases QueueSys.step_move hq
    exact h.loop_move hi rfl rfl (fun _ hx => by cases hx) .returned rfl
  | handled e =>
    rw [e] at hloop
    exact h.loop_goto .test hloop
  | interrupt e hq =>
    rw [e] at hloop
    cases QueueSys.step_move hq
    exact h.loop_goto .returned hloop
  | clear e hr =>
    rw [e] at hstop
    exact ⟨h.queue, hloop, hstop, h.callback, fun _ => rfl, h.last, fun _ => rfl⟩
  | rest e hr =>
    rw [e] at hstop
    exact ⟨h.queue, hloop, hstop, h.callback, h.null, h.last, fun _ => hr⟩
  | takeSlot e hq =>
    have hi := QueueSys.step_inv _ _ _ h.queue hq
    cases QueueSys.step_move hq
    exact h.stop_move hi rfl (h.flag fun hb => by cases e.symm.trans hb) (fun _ hx => hx) .pushing rfl
  | pushNull e hq =>
    rw [e] at hstop
    have hi := QueueSys.step_inv _ _ _ h.queue hq
    cases QueueSys.step_move hq
    exact h.stop_move hi rfl (h.flag fun hb => by cases e.symm.trans hb)
      (fun _ hx => List.mem_append_left _ hx) .pushed rfl
  | postNull e hq =>
    have hi := QueueSys.step_inv _ _ _ h.queue hq
    cases QueueSys.step_move hq
    exact h.stop_move hi rfl (h.flag fun hb => by cases e.symm.trans hb) (fun _ hx => hx) .join rfl
  | join e hg =>
    rw [e] at hstop
    exact ⟨h.queue, hloop, hstop, h.callback, h.null, h.last,
      fun _ => h.flag fun hb => by cases e.symm.trans hb⟩
  | stopInterrupt e hq =>
    rw [e] at hstop
    cases QueueSys.step_move hq
    exact ⟨h.queue, hloop, hstop, h.callback, h.null, h.last,
      fun _ => h.flag fun hb => by cases e.symm.trans hb⟩

/-! ## the thread empties the queue -/

/-- the receive thread alone leads from one state to the other -/
def RecvLoop.Goes (s s' : RecvLoop T α) : Prop :=
  (∃ n, exec RecvLoop.step s (List.replicate n .loop) = some s') ∧ s'.running = s.running ∧
    s'.q.inserted = s.q.inserted

theorem RecvLoop.Goes.refl (s : RecvLoop T α) : s.Goes s := ⟨⟨0, rfl⟩, rfl, rfl⟩

theorem RecvLoop.Goes.trans {u : RecvLoop T α} (h : s.Goes s') (h' : s'.Goes u) : s.Goes u := by
  obtain ⟨⟨n, hn⟩, hr, hi⟩ := h
  obtain ⟨⟨m, hm⟩, hr', hi'⟩ := h'
  refine ⟨⟨n + m, ?_⟩, hr'.trans hr, hi'.trans hi⟩
  rw [List.replicate_add]
  exact exec_append.mpr ⟨s', hn, hm⟩

theorem RecvLoop.Goes.cons {u : RecvLoop T α} (h : s'.Goes u) (hs : s.step .loop = some s')
    (hr : s'.running = s.running) (hi : s'.q.inserted = s.q.inserted) : s.Goes u :=
  RecvLoop.Goes.trans ⟨⟨1, exec_cons.mpr ⟨s', hs, rfl⟩⟩, hr, hi⟩ h

/-- while the flag is set, no `NULL` comes out of the queue -/
theorem RecvLoop.Inv.popped_some (h : s.Inv size) (hr : s.running = true) {x : Option α}
    (hx : s.q.pc none = .popped x) : ∃ y, x = some y := by
  cases x with
  | some y => exact ⟨y, rfl⟩
  | none =>
    have := h.null (h.last _ hx)
    rw [hr] at this
    cases this

/-- the thread comes to its wait without taking a token -/
def RecvLoop.Back (s : RecvLoop T α) : Prop :=
  ∃ s', s.Goes s' ∧ s'.loop = .wait ∧ s'.q.q.popSemaphore = s.q.q.popSemaphore

theorem RecvLoop.Back.cons (h : s'.Back) (hs : s.step .loop = some s')
    (hr : s'.running = s.running) (hi : s'.q.inserted = s.q.inserted)
    (hp : s'.q.q.popSemaphore = s.q.q.popSemaphore) : s.Back := by
  obtain ⟨u, hg, hw, hp'⟩ := h
  exact ⟨u, hg.cons hs hr hi, hw, hp'.trans hp⟩

theorem RecvLoop.back_wait (e : s.loop = .wait) : s.Back := ⟨s, RecvLoop.Goes.refl s, e, rfl⟩

theorem RecvLoop.back_test (hr : s.running = true) (e : s.loop = .test) : s.Back := by
  have hb : RecvLoop.Back { s with loop := .wait } := RecvLoop.back_wait rfl
  refine hb.cons ?_ rfl rfl rfl
  simp only [RecvLoop.step, RecvLoop.loopStep, e, hr, if_true]

theorem RecvLoop.back_handle {x : α} (hr : s.running = true) (e : s.loop = .handle x) : s.Back := by
  have hb : RecvLoop.Back { s with loop := .test } := RecvLoop.back_test hr rfl
  refine hb.cons ?_ rfl rfl rfl
  simp only [RecvLoop.step, RecvLoop.loopStep, e]

theorem RecvLoop.back_popped {x : α} (hr : s.running = true) (e : s.loop = .popped)
    (hx : s.q.pc none = .popped (some x)) : s.Back := by
  have hb : RecvLoop.Back
      { s with q := { s.q with q := queuePostPush s.q.q, pc := Function.update s.q.pc none .idle },
               loop := .handle x } := RecvLoop.back_handle hr rfl
  refine hb.cons ?_ rfl rfl rfl
  simp only [RecvLoop.step, RecvLoop.loopStep, e, hx, QueueSys.step, Option.map_some]

theorem RecvLoop.Inv.back_popping (h : s.Inv size) (hr : s.running = true) (e : s.loop = .popping) :
    s.Back := by
  have hpc : s.q.pc none = .popping := by
    have hat := h.loop
    rw [e] at hat
    exact hat
  have hs : s.step .loop = some
      { s with q := { s.q with q := (queuePop s.q.q).2, removed := s.q.removed ++ [(queuePop s.q.q).1],
                               pc := Function.update s.q.pc none (.popped (queuePop s.q.q).1),
                               filled := Function.update s.q.filled s.q.q.head false },
               loop := .popped } := by
    simp only [RecvLoop.step, RecvLoop.loopStep, e, QueueSys.step, hpc, Option.map_some]
  have hx := Function.update_self (β := fun _ => QueuePc α) none (.popped (queuePop s.q.q).1) s.q.pc
  -- the invariant behind the step says that it is not `NULL`
  obtain ⟨y, hy⟩ := (RecvLoop.step_inv .loop h hs).popped_some hr hx
  have hb : RecvLoop.Back
      { s with q := { s.q with q := (queuePop s.q.q).2, removed := s.q.removed ++ [(queuePop s.q.q).1],
                               pc := Function.update s.q.pc none (.popped (queuePop s.q.q).1),
                               filled := Function.update s.q.filled s.q.q.head false },
               loop := .popped } :=
    RecvLoop.back_popped (x := y) hr rfl (hx.trans (by rw [hy]))
  exact hb.cons hs rfl rfl rfl

/-- from any point of its loop -/
theorem RecvLoop.Inv.back (h : s.Inv size) (hr : s.running = true) (hl : s.loop.inLoop = true) :
    s.Back := by
  have hat := h.loop
  cases e : s.loop with
  | wait => exact RecvLoop.back_wait e
  | test => exact RecvLoop.back_test hr e
  | handle x => exact RecvLoop.back_handle hr e
  | popped =>
    rw [e] at hat
    obtain ⟨x, hx⟩ := hat
    obtain ⟨y, rfl⟩ := h.popped_some hr hx
    exact RecvLoop.back_popped hr e hx
  | popping => exact h.back_popping hr e
  | entry =>
    rw [e] at hl
    cases hl
  | refused =>
    rw [e] at hl
    cases hl
  | returned =>
    rw [e] at hl
    cases hl

theorem RecvLoop.Goes.inv (hg : s.Goes s') (h : s.Inv size) : s'.Inv size := by
  obtain ⟨⟨n, hn⟩, _⟩ := hg
  exact exec_inv (I := RecvLoop.Inv size) (fun _ a _ hi hs => RecvLoop.step_inv a hi hs) h hn

/-- the thread takes all tokens that are there -/
theorem RecvLoop.drain (n : ℕ) : ∀ s : RecvLoop T α, s.Inv size → s.running = true →
    s.loop = .wait → s.q.q.popSemaphore = n →
    ∃ s', s.Goes s' ∧ s'.loop = .wait ∧ s'.q.q.popSemaphore = 0 := by
  induction n with
  | zero =>
    intro s _ _ hw hp
    exact ⟨s, RecvLoop.Goes.refl s, hw, hp⟩
  | succ n ih =>
    intro s h hr hw hp
    have hpc : s.q.pc none = .idle := by
      have hat := h.loop
      rw [hw] at hat
      exact hat
    have htake : queueTakePop s.q.q = some { s.q.q with popSemaphore := n } := by
      unfold queueTakePop
      rw [if_pos (by omega), hp, Nat.add_sub_cancel]
    have hs : s.step .loop = some
        { s with q := { s.q with q := { s.q.q with popSemaphore := n },
                                 pc := Function.update s.q.pc none .popping },
                 loop := .popping } := by
      simp only [RecvLoop.step, RecvLoop.loopStep, hw, QueueSys.step, hpc, htake, Option.map_some]
    have h1 := RecvLoop.step_inv .loop h hs
    obtain ⟨s2, hg2, hw2, hp2⟩ := h1.back hr rfl
    obtain ⟨s', hg', hw', hp'⟩ := ih s2 (hg2.inv h1) (hg2.2.1.trans hr) hw2 hp2
    exact ⟨s', (hg2.trans hg').cons hs rfl rfl, hw', hp'⟩

/-- at the wait, without a token, only pushes that are not complete are left -/
theorem RecvLoop.Inv.drained (h : s.Inv size) (hw : s.loop = .wait)
    (hp : s.q.q.popSemaphore = 0) : s.q.removed.length + s.unposted = s.q.inserted.length := by
  obtain ⟨xs, hat, hio⟩ := h.queue.queue
  have hzero : ∑ p, (s.q.pc p).beforePop = 0 := by
    apply Finset.sum_eq_zero
    intro p _
    match p with
    | none =>
      have hl := h.loop
      rw [hw] at hl
      rw [show s.q.pc none = .idle from hl]
      rfl
    | some none =>
      have hs := h.stop
      cases e : s.stop <;> rw [e] at hs <;> rw [show s.q.pc (some none) = _ from hs] <;> rfl
    | some (some t) =>
      have hc := h.callback t
      cases e : s.q.pc (some (some t)) with
      | popping =>
        rw [e] at hc
        exact absurd hc not_false
      | _ => rfl
  have hitems := QueueInv.items hat
  have hlen := QueueInv.length hat
  rw [hzero, hp] at hitems
  rw [hio, List.length_append, hlen, ← hitems]
  show _ + ∑ p, (s.q.pc p).afterPush = _
  omega

/-! ## the result -/

theorem RecvLoop.Inv.serves (h : s.Inv size) (ht : s.loop = .returned → s.running = false) :
    s.Serves := by
  refine ⟨ht, ?_, ?_⟩
  · obtain ⟨xs, _, hio⟩ := h.queue.queue
    exact ⟨xs, hio.symm⟩
  · intro hr hl
    obtain ⟨s1, hg1, hw1, _⟩ := h.back hr hl
    obtain ⟨s2, hg2, hw2, hp2⟩ := RecvLoop.drain _ s1 (hg1.inv h) (hg1.2.1.trans hr) hw1 rfl
    have hg := hg1.trans hg2
    obtain ⟨⟨n, hn⟩, _, hi⟩ := id hg
    refine ⟨n, s2, hn, hi, ?_⟩
    rw [← hi]
    exact (hg.inv h).drained hw2 hp2

/-- a step after which the thread has returned while the flag is set -/
theorem RecvLoop.step_told (a : LoopAct T α) (h : s.Inv size)
    (ht : s.loop = .returned → s.running = false) (hC : s.HeedsOk a) (hs : s.step a = some s') :
    s'.loop = .returned → s'.running = false := by
  cases RecvLoop.step_move hs with
  | enter e ready =>
    intro hret
    cases ready <;> cases hret
  | leave e hr => exact fun _ => hr
  | sentinel e hx hq => exact fun _ => h.null (h.last none hx)
  | interrupt e hq => exact fun _ => hC
  | clear e hr => exact fun _ => rfl
  -- the other steps of the thread stay in the loop
  | goOn e hr | take e hq | pop e hq | packet e hx hq | handled e =>
    intro hret
    cases hret
  | _ => exact ht

end

/-- **The receive thread stops when told to.**  In a run of the callbacks, the receive thread and the
cleanup every state is served if and only if no `sem_wait` of `queue_wait_pop` is interrupted while
`running_pkt_data_recv` is set. -/
theorem recvLoop_serves_iff (size : ℕ) (q : Queue α) (hq : queueInit size = some q)
    (l : List (LoopAct T α)) (s : RecvLoop T α)
    (hs : exec RecvLoop.step (RecvLoop.init q) l = some s) :
    Always RecvLoop.step RecvLoop.Serves (RecvLoop.init q : RecvLoop T α) l ↔
      Along RecvLoop.step RecvLoop.HeedsOk (RecvLoop.init q : RecvLoop T α) l := by
  refine always_iff_along
    (I := fun s => s.Inv size ∧ (s.loop = .returned → s.running = false)) ?_ ?_ ?_ ?_ hs
  · rintro s ⟨hi, ht⟩
    exact hi.serves ht
  · rintro s a s' ⟨hi, ht⟩ hC hs
    exact ⟨RecvLoop.step_inv a hi hs, RecvLoop.step_told a hi ht hC hs⟩
  · rintro s a s' ⟨hi, _⟩ hC hs hn
    cases a with
    | interrupt =>
      simp only [RecvLoop.step] at hs
      split at hs
      · obtain ⟨q, _, rfl⟩ := Option.map_eq_some_iff.mp hs
        exact hC (hn.told rfl)
      · cases hs
    | _ => exact hC trivial
  · exact ⟨RecvLoop.init_inv hq, fun e => by cases e⟩

end

/-- two packets are served in order, and the thread leaves on the sentinel -/
def servedInOrder : List (LoopAct Unit ℕ) :=
  [.enter true, .offer () 5, .store (), .post (), .loop, .loop, .loop, .offer () 6, .loop, .store (),
    .loop, .loop, .post (), .loop, .loop, .loop, .loop, .loop, .stop, .interrupt]

theorem recvLoop_serves_iff_servedInOrder :
    ∃ s, exec RecvLoop.step (RecvLoop.init ⟨2, fun _ => none, 0, 0, 0, 2, 0⟩) servedInOrder = some s ∧
      s.q.removed = [some 5, some 6] ∧
      Along RecvLoop.step RecvLoop.HeedsOk (RecvLoop.init ⟨2, fun _ => none, 0, 0, 0, 2, 0⟩)
        servedInOrder ∧
      Always RecvLoop.step RecvLoop.Serves (RecvLoop.init ⟨2, fun _ => none, 0, 0, 0, 2, 0⟩)
        servedInOrder := by
  have hC : Along RecvLoop.step RecvLoop.HeedsOk
      (RecvLoop.init ⟨2, fun _ => none, 0, 0, 0, 2, 0⟩) servedInOrder := by decide
  exact ⟨_, rfl, rfl, hC,
    (recvLoop_serves_iff 2 ⟨2, fun _ => none, 0, 0, 0, 2, 0⟩ rfl servedInOrder _ rfl).mpr hC⟩

/-- a signal interrupts the wait of the receive thread, which takes it for the sentinel and returns
while the engine runs -/
theorem interrupted_thread_returns :
    ∃ s, exec RecvLoop.step (RecvLoop.init oneCell : RecvLoop Unit ℕ)
        [.enter true, .loop, .interrupt] = some s ∧
      s.loop = .returned ∧ s.running = true ∧ ¬ s.Serves :=
  ⟨_, rfl, rfl, rfl, fun h => nomatch h.told rfl⟩

end QuicVpn
