import QuicVpn.Server.Conn

/-!
# Connection handles: released exactly once

MsQuic releases the handle of a connection itself when `NEW_CONNECTION` returns a failure;
otherwise one `ConnectionClose` on that handle has to.  `Server.releases` counts both, and
`Server.ReleasedOnce` is the property.  Two handlers miss it:

* `SHUTDOWN_COMPLETE` reads the handle from the record after it has cleared it, so that it closes
  `NULL`, or the handle of the connection that got the record meanwhile;
* a failure of `ConnectionSetConfiguration` closes the handle and returns the failure as well.

`server_releases_iff`: the property holds along a run exactly as long as neither of them gets to
its end.
-/

set_option linter.unusedSectionVars false

namespace QuicVpn
open Conc

section
variable {K : Type} [DecidableEq K]

/-- how often the handle of `k` has been released, by `ConnectionClose` or by MsQuic itself -/
def Server.releases (s : Server K) (k : K) : ℕ :=
  s.closes.countP (fun c => c.2 = some k) + s.released.count k

/-- a handle is released once by the end of the last handler of its connection, and
`ConnectionClose` is only called by a handler on the handle of its own connection -/
structure Server.ReleasedOnce (s : Server K) : Prop where
  once : ∀ k, s.ph k = .closed ∨ s.ph k = .refused → s.releases k = 1
  own : ∀ c ∈ s.closes, c.2 = some c.1

/-- the step is neither the `ConnectionClose` of a `SHUTDOWN_COMPLETE` handler nor the return of a
`NEW_CONNECTION` handler that has closed the handle -/
def NoFaultyEnd (s : Server K) (a : ConnAct K) : Prop :=
  ∀ k, a = .run k → s.ph k ≠ .failing ∧ ∀ b, s.ph k ≠ .closing b

/-! ## the invariant -/

/-- the last points of a `SHUTDOWN_COMPLETE` handler -/
def Phase.ending : Phase → Bool
  | .closing _ => true
  | .closed => true
  | _ => false

/-- the number of releases so far, in the runs without the faulty ends -/
def Phase.releases : Phase → ℕ
  | .failing => 1
  | .refused => 1
  | _ => 0

structure Server.RelInv (s : Server K) : Prop where
  count : ∀ k, s.releases k = (s.ph k).releases
  notClosed : ∀ k, s.ph k ≠ .closed
  own : ∀ c ∈ s.closes, c.2 = some c.1
  cleared : ∀ k b, s.ph k = .closing b → (s.session.mem b).connectionHandle ≠ some k

theorem Server.RelInv.releasedOnce {s : Server K} (h : s.RelInv) : s.ReleasedOnce := by
  refine ⟨fun k hk => ?_, h.own⟩
  rcases hk with hk | hk
  · exact absurd hk (h.notClosed k)
  · rw [h.count k, hk]
    rfl

/-- the step of `k` writes no handle into a record but its own -/
def HandleFrame (k : K) (mem mem' : Blk → Client K) : Prop :=
  ∀ b, (mem' b).connectionHandle = (mem b).connectionHandle ∨
    (mem' b).connectionHandle = none ∨ (mem' b).connectionHandle = some k

theorem HandleFrame.refl (k : K) (mem : Blk → Client K) : HandleFrame k mem mem :=
  fun _ => Or.inl rfl

theorem HandleFrame.update {k : K} {mem : Blk → Client K} {b : Blk} {c : Client K}
    (h : c.connectionHandle = (mem b).connectionHandle ∨ c.connectionHandle = none ∨
      c.connectionHandle = some k) : HandleFrame k mem (Function.update mem b c) := by
  intro d
  by_cases hd : d = b
  · subst hd
    rw [Function.update_self]
    exact h
  · rw [Function.update_of_ne hd]
    exact Or.inl rfl

theorem Server.RelInv.count_same {s s' : Server K} (h : s.RelInv) {k : K} {q0 q : Phase}
    (hk : s.ph k = q0) (hc : s'.closes = s.closes) (hr : s'.released = s.released)
    (he : q.releases = q0.releases) (u : K) :
    s'.releases u = (Function.update s.ph k q u).releases := by
  have e : s'.releases u = s.releases u := by
    unfold Server.releases
    rw [hc, hr]
  rw [e, h.count u]
  by_cases hu : u = k
  · rw [hu, Function.update_self, hk, he]
  · rw [Function.update_of_ne hu]

/-- `k` goes on to `q`, which is no end of a `SHUTDOWN_COMPLETE`, with the releases counted -/
theorem Server.RelInv.next {s s' : Server K} (h : s.RelInv) (k : K) (q : Phase)
    (hph : s'.ph = Function.update s.ph k q)
    (hcount : ∀ u, s'.releases u = (Function.update s.ph k q u).releases) (hq : q ≠ .closed)
    (hown : ∀ c ∈ s'.closes, c.2 = some c.1)
    (hmem : HandleFrame k s.session.mem s'.session.mem)
    (hcl : ∀ b, q = .closing b → (s'.session.mem b).connectionHandle ≠ some k) : s'.RelInv := by
  refine ⟨fun u => ?_, fun u => ?_, hown, fun u b hu => ?_⟩
  · rw [hph]
    exact hcount u
  · rw [hph]
    by_cases hu : u = k
    · rw [hu, Function.update_self]
      exact hq
    · rw [Function.update_of_ne hu]
      exact h.notClosed u
  · rw [hph] at hu
    by_cases huk : u = k
    · rw [huk, Function.update_self] at hu
      rw [huk]
      exact hcl b hu
    · rw [Function.update_of_ne huk] at hu
      -- another handler has cleared the handle of `b`, and `k` can only have put its own there
      rcases hmem b with e | e | e
      · rw [e]
        exact h.cleared u b hu
      · rw [e]
        exact Option.some_ne_none u ∘ Eq.symm
      · rw [e]
        exact fun e' => huk (Option.some.inj e').symm

/-- a section that does not release a handle, nor come to the end of a `SHUTDOWN_COMPLETE` -/
theorem Server.RelInv.write {s s' : Server K} (h : s.RelInv) {k : K} {q0 : Phase}
    (hk : s.ph k = q0) (q : Phase) (hph : s'.ph = Function.update s.ph k q)
    (hc : s'.closes = s.closes) (hr : s'.released = s.released) (he : q.releases = q0.releases)
    (hq : q.ending = false) (hmem : HandleFrame k s.session.mem s'.session.mem) : s'.RelInv := by
  have hne : q ≠ .closed := by
    intro e
    rw [e] at hq
    cases hq
  refine h.next k q hph (h.count_same hk hc hr he) hne (by rw [hc]; exact h.own) hmem (fun b e => ?_)
  rw [e] at hq
  cases hq

/-- the same for a section that writes no record at all -/
theorem Server.RelInv.pass {s s' : Server K} (h : s.RelInv) {k : K} {q0 : Phase}
    (hk : s.ph k = q0) (q : Phase) (hph : s'.ph = Function.update s.ph k q)
    (hc : s'.closes = s.closes) (hr : s'.released = s.released) (he : q.releases = q0.releases)
    (hq : q.ending = false) (hmem : s'.session.mem = s.session.mem) : s'.RelInv := by
  refine h.write hk q hph hc hr he hq ?_
  rw [hmem]
  exact HandleFrame.refl k _

theorem Server.RelInv.count_update {s : Server K} (h : s.RelInv) {k : K} {q0 q : Phase}
    (hk : s.ph k = q0) (he : q.releases = q0.releases + 1) (u : K) :
    (Function.update s.ph k q u).releases = s.releases u + if k = u then 1 else 0 := by
  rw [h.count u]
  by_cases hu : u = k
  · rw [hu, Function.update_self, hk, he, if_pos rfl]
  · rw [Function.update_of_ne hu, if_neg (Ne.symm hu)]
    rfl

/-- `NEW_CONNECTION` returns a failure without a record -/
theorem Server.RelInv.refuse {s : Server K} (h : s.RelInv) {k : K} {q0 : Phase}
    (hk : s.ph k = q0) (h0 : q0.releases = 0) {t : Session K} (ht : t.mem = s.session.mem) :
    (s.refuse k t).RelInv := by
  refine h.next k .refused rfl (fun u => ?_) (fun e => by cases e) h.own ?_ (fun b e => by cases e)
  · rw [h.count_update hk (by rw [h0]; rfl) u]
    show s.closes.countP _ + (k :: s.released).count u = _
    rw [List.count_cons]
    unfold Server.releases
    simp only [beq_iff_eq]
    omega
  · show HandleFrame k s.session.mem t.mem
    rw [ht]
    exact HandleFrame.refl k _

/-- the explicit `ConnectionClose` after a configuration failure -/
theorem Server.RelInv.close {s : Server K} (h : s.RelInv) {k : K} {b : Blk}
    (hk : s.ph k = .removed b .config) :
    ({ s.goto k s.session .failing with closes := (k, some k) :: s.closes } : Server K).RelInv := by
  refine h.next k .failing rfl (fun u => ?_) (fun e => by cases e) (fun c hc => ?_)
    (HandleFrame.refl k _) (fun b e => by cases e)
  · rw [h.count_update hk rfl u]
    show ((k, some k) :: s.closes).countP _ + s.released.count u = _
    rw [List.countP_cons]
    unfold Server.releases
    simp only [decide_eq_true_eq, Option.some.injEq]
    omega
  · rcases List.mem_cons.mp hc with rfl | hc
    · rfl
    · exact h.own c hc

/-! ## every other section -/

theorem Server.step_rel (s : Server K) (a : ConnAct K) (s' : Server K) (h : s.RelInv)
    (hC : NoFaultyEnd s a) (hs : s.step a = some s') : s'.RelInv := by
  cases Server.step_move hs with
  | noSlot hk hslot => exact h.refuse hk rfl rfl
  | offer hk hslot => exact h.pass hk _ rfl rfl rfl rfl rfl rfl
  | alloc hk hr => exact h.pass hk _ rfl rfl rfl rfl rfl rfl
  | configured hk => exact h.pass hk _ rfl rfl rfl rfl rfl rfl
  | configFailed hk => exact h.pass hk _ rfl rfl rfl rfl rfl rfl
  | connected hk => exact h.pass hk _ rfl rfl rfl rfl rfl rfl
  | shutdown hk => exact h.pass hk _ rfl rfl rfl rfl rfl rfl
  | block hk hg => exact h.pass hk _ rfl rfl rfl rfl rfl rfl
  | full hk hg => exact h.refuse hk rfl rfl
  | reserve hk hg => exact h.pass hk _ rfl rfl rfl rfl rfl rfl
  | allocDone hk => exact h.pass hk _ rfl rfl rfl rfl rfl rfl
  | allocFailed hk => exact h.refuse hk rfl rfl
  | fill hk => exact h.write hk _ rfl rfl rfl rfl rfl (HandleFrame.update (Or.inr (Or.inr rfl)))
  | noEntry hk | entry hk | assign hk =>
    exact h.write hk _ rfl rfl rfl rfl rfl (HandleFrame.update (Or.inl rfl))
  | outOfRange hk ht => exact h.pass hk _ rfl rfl rfl rfl rfl rfl
  | clear hk ht =>
    obtain rfl := Session.removeClear_some ht
    exact h.write hk _ rfl rfl rfl rfl rfl (HandleFrame.update (Or.inl rfl))
  | unlist hk hlock => exact h.pass hk _ rfl rfl rfl rfl rfl rfl
  | put hk ht =>
    obtain ⟨p, -, rfl⟩ := Session.clientPut_some ht
    exact h.pass hk _ rfl rfl rfl rfl rfl rfl
  | @clearHandle k b hk =>
    -- the handle is gone before `ConnectionClose` reads it
    refine h.next k (.closing b) rfl (h.count_same hk rfl rfl rfl) Phase.noConfusion h.own
      (HandleFrame.update (Or.inr (Or.inl rfl))) (fun d e => ?_)
    cases e
    show (Function.update s.session.mem b _ b).connectionHandle ≠ some k
    rw [Function.update_self]
    exact (Option.some_ne_none k).symm
  | @close k b hk => exact absurd hk ((hC k rfl).2 b)
  | closeConfig hk => exact h.close hk
  | @fail k hk => exact absurd hk (hC k rfl).1

/-- both faulty ends break the property at once -/
theorem Server.step_rel_bad (s : Server K) (a : ConnAct K) (s' : Server K) (h : s.RelInv)
    (hC : ¬ NoFaultyEnd s a) (hs : s.step a = some s') : ¬ s'.ReleasedOnce := by
  unfold NoFaultyEnd at hC
  simp only [not_forall, not_and_or, not_not] at hC
  obtain ⟨k, rfl, hk | ⟨b, hk⟩⟩ := hC
  · simp only [Server.step, Server.run, hk] at hs
    cases hs
    intro hone
    have h1 := hone.once k (Or.inr (Function.update_self ..))
    have h0 : s.closes.countP (fun c => c.2 = some k) + s.released.count k = 1 := by
      have := h.count k
      rw [hk] at this
      exact this
    have h2 : s.closes.countP (fun c => c.2 = some k) + (k :: s.released).count k = 1 := h1
    rw [List.count_cons_self] at h2
    omega
  · simp only [Server.step, Server.run, hk] at hs
    cases hs
    intro hone
    exact h.cleared k b hk (hone.own (k, (s.session.mem b).connectionHandle) List.mem_cons_self)

theorem Server.init_rel (session : Session K) : (Server.init session : Server K).RelInv := by
  refine ⟨fun k => rfl, fun k e => ?_, fun c hc => ?_, fun k b e => ?_⟩
  · cases e
  · cases hc
  · cases e

/-- **Connection handles.**  Along every run of the callbacks, every handle is released exactly once
and `ConnectionClose` only gets the handle of the connection it is called for, if and only if no
`SHUTDOWN_COMPLETE` handler comes to its `ConnectionClose` and no `NEW_CONNECTION` handler returns a
configuration failure. -/
theorem server_releases_iff (session : Session K) (l : List (ConnAct K)) (s : Server K)
    (hs : exec Server.step (Server.init session) l = some s) :
    Always Server.step Server.ReleasedOnce (Server.init session) l ↔
      Along Server.step NoFaultyEnd (Server.init session) l :=
  always_iff_along (fun _ h => h.releasedOnce) Server.step_rel Server.step_rel_bad
    (Server.init_rel session) hs

end

/-- out of memory: `NEW_CONNECTION` returns a failure and MsQuic releases the handle -/
theorem server_releases_out_of_memory :
    Always Server.step Server.ReleasedOnce (Server.init (fourSlots ℕ))
      [.newConnection 0, .run 0, .alloc 0 none, .run 0] := by
  obtain ⟨s, hs⟩ := Option.isSome_iff_exists.mp (show (exec Server.step
    (Server.init (fourSlots ℕ)) [.newConnection 0, .run 0, .alloc 0 none, .run 0]).isSome = true
    by decide)
  refine (server_releases_iff (fourSlots ℕ) _ s hs).mpr ?_
  refine ⟨fun k e => (by cases e), fun s1 h1 => ⟨fun k e => ?_, fun s2 h2 =>
    ⟨fun k e => (by cases e), fun s3 h3 => ⟨fun k e => ?_, fun _ _ => trivial⟩⟩⟩⟩
  · cases e
    cases h1
    exact ⟨fun e => (by cases e), fun b e => (by cases e)⟩
  · cases e
    cases h1
    cases h2
    cases h3
    exact ⟨fun e => (by cases e), fun b e => (by cases e)⟩

/-- a connection comes up and goes down: `NEW_CONNECTION`, then `SHUTDOWN_COMPLETE` up to the point
before its `ConnectionClose` -/
def upAndDown : List (ConnAct ℕ) :=
  [.newConnection 0, .run 0, .alloc 0 (some 100), .run 0, .run 0, .configured 0 true,
   .shutdownComplete 0, .run 0, .run 0, .run 0, .run 0]

/-- a connection whose `ConnectionSetConfiguration` fails -/
def configFailure : List (ConnAct ℕ) :=
  [.newConnection 0, .run 0, .alloc 0 (some 100), .run 0, .run 0, .configured 0 false, .run 0,
   .run 0, .run 0, .run 0, .run 0]

/-- `SHUTDOWN_COMPLETE` closes `NULL`, or the handle of the connection that has got the record
meanwhile; a configuration failure releases the handle twice -/
theorem server_releases_faults :
    (∃ s, exec Server.step (Server.init (fourSlots ℕ)) (upAndDown ++ [.run 0]) = some s ∧
      s.closes = [(0, none)] ∧ ¬ s.ReleasedOnce) ∧
    (∃ s, exec Server.step (Server.init (fourSlots ℕ))
        (upAndDown ++ [.newConnection 1, .run 1, .run 1, .run 0]) = some s ∧
      s.closes = [(0, some 1)] ∧ ¬ s.ReleasedOnce) ∧
    (∃ s, exec Server.step (Server.init (fourSlots ℕ)) configFailure = some s ∧
      s.releases 0 = 2 ∧ ¬ s.ReleasedOnce) := by
  have h1 : (exec Server.step (Server.init (fourSlots ℕ)) (upAndDown ++ [.run 0])).map
      (fun s => s.closes) = some [(0, none)] := by decide
  have h2 : (exec Server.step (Server.init (fourSlots ℕ))
      (upAndDown ++ [.newConnection 1, .run 1, .run 1, .run 0])).map
      (fun s => s.closes) = some [(0, some 1)] := by decide
  have h3 : (exec Server.step (Server.init (fourSlots ℕ)) configFailure).map
      (fun s => (s.ph 0, s.releases 0)) = some (.refused, 2) := by decide
  refine ⟨?_, ?_, ?_⟩
  · obtain ⟨s, hs, e⟩ := Option.map_eq_some_iff.mp h1
    refine ⟨s, hs, e, fun hone => ?_⟩
    have := hone.own (0, none) (by rw [e]; exact List.mem_cons_self)
    cases this
  · obtain ⟨s, hs, e⟩ := Option.map_eq_some_iff.mp h2
    refine ⟨s, hs, e, fun hone => ?_⟩
    have := hone.own (0, some 1) (by rw [e]; exact List.mem_cons_self)
    exact absurd this (by decide)
  · obtain ⟨s, hs, e⟩ := Option.map_eq_some_iff.mp h3
    simp only [Prod.mk.injEq] at e
    refine ⟨s, hs, e.2, fun hone => ?_⟩
    have := hone.once 0 (Or.inr e.1)
    rw [e.2] at this
    cases this

end QuicVpn
