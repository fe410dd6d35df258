import QuicVpn.Server.Conn

/-!
# The connection handlers as whole calls

Where nothing comes between the sections of a handler, the handler is one function of the state.

* `onNewConnection`, `onConnected`, `onShutdownComplete`   the handlers, from the calls of
                   `Server/Client.lean`;
* `onNewConnection_run`, `onConnected_run`, `onShutdownComplete_run`   each of them is a run of the
                   sections of `Server/Conn.lean`, so that an invariant of the sections is one of
                   the handlers.
-/

set_option linter.unusedSectionVars false

namespace QuicVpn
open Conc

section
variable {K : Type} [DecidableEq K]

/-- the memory that `list_add_client` takes from `aligned_alloc` -/
def Session.taken (s : Session K) (alloc : Option Blk) : List Blk :=
  match s.freeSlot, poolTryGetLocked s.clientPool with
  | some _, (.reserved, _) => alloc.toList
  | _, _ => []

/-- `NEW_CONNECTION`; `ok` says whether `ConnectionSetConfiguration` succeeds -/
def Server.onNewConnection (s : Server K) (k : K) (alloc : Option Blk) (ok : Bool) :
    Option (Server K) :=
  if s.ph k = .idle ∧ ∀ b ∈ alloc, b ∉ s.heap then
    match listAddClient s.session k alloc with
    | (none, t) =>
      some { s.refuse k t with heap := s.session.taken alloc ++ s.heap }
    | (some b, t) =>
      if ok then
        some { s.goto k t (.live b false) with heap := s.session.taken alloc ++ s.heap }
      else
        match listRemoveClient t b with
        | none => none
        | some (_, t') =>
          some { s.goto k t' .refused with heap := s.session.taken alloc ++ s.heap
                                           closes := (k, some k) :: s.closes
                                           released := k :: s.released }
  else none

/-- `CONNECTED` -/
def Server.onConnected (s : Server K) (k : K) : Option (Server K) :=
  match s.ph k with
  | .live b false => some (s.goto k (initializeClientState s.session b).2 (.live b true))
  | _ => none

/-- `SHUTDOWN_COMPLETE` -/
def Server.onShutdownComplete (s : Server K) (k : K) : Option (Server K) :=
  match s.ph k with
  | .live b _ =>
    let p := (ipRelease s.session.ipPool (s.session.mem b).ipEntry).2
    match listRemoveClient { s.session with ipPool := p } b with
    | none => none
    | some (_, t) =>
      let t' := t.clearHandle b
      some { s.goto k t' .closed with closes := (k, (t'.mem b).connectionHandle) :: s.closes }
  | _ => none

/-- what `list_add_client` can come to, with the sections of `pool_try_get` it goes through -/
inductive AddOutcome (s : Session K) (k : K) : Option Blk → Option Blk × Session K → Prop where
  | noSlot {alloc : Option Blk} (hslot : s.freeSlot = none) : AddOutcome s k alloc (none, s)
  | full {alloc : Option Blk} {idx : ℕ} {p : Pool} (hslot : s.freeSlot = some idx)
      (hg : poolTryGetLocked s.clientPool = (.full, p)) :
    AddOutcome s k alloc (none, { s with clientPool := p })
  | failed {idx : ℕ} {p : Pool} (hslot : s.freeSlot = some idx)
      (hg : poolTryGetLocked s.clientPool = (.reserved, p)) :
    AddOutcome s k none (none, { s with clientPool := poolAllocFailed p })
  | recycled {alloc : Option Blk} {idx : ℕ} {b : Blk} {p : Pool} (hslot : s.freeSlot = some idx)
      (hg : poolTryGetLocked s.clientPool = (.block b, p)) :
    AddOutcome s k alloc (some b, ({ s with clientPool := p } : Session K).addFill idx b k)
  | fresh {idx : ℕ} {b : Blk} {p : Pool} (hslot : s.freeSlot = some idx)
      (hg : poolTryGetLocked s.clientPool = (.reserved, p)) :
    AddOutcome s k (some b)
      (some b, ({ s with clientPool := poolAllocDone p } : Session K).addFill idx b k)

theorem listAddClient_outcome (s : Session K) (k : K) (alloc : Option Blk) :
    AddOutcome s k alloc (listAddClient s k alloc) := by
  unfold listAddClient
  cases hslot : s.freeSlot with
  | none => exact .noSlot hslot
  | some idx =>
    dsimp only [poolTryGet]
    rcases hg : poolTryGetLocked s.clientPool with ⟨g, p⟩
    cases g with
    | block b => exact .recycled hslot hg
    | full => exact .full hslot hg
    | reserved =>
      cases alloc with
      | none => exact .failed hslot hg
      | some b => exact .fresh hslot hg

/-- without a client nothing is taken and no record is written -/
theorem listAddClient_none {s t : Session K} {k : K} {alloc : Option Blk}
    (h : listAddClient s k alloc = (none, t)) : t.mem = s.mem ∧ s.taken alloc = [] := by
  have ho := listAddClient_outcome s k alloc
  rw [h] at ho
  cases ho with
  | noSlot hslot => exact ⟨rfl, by simp only [Session.taken, hslot]⟩
  | full hslot hg => exact ⟨rfl, by simp only [Session.taken, hslot, hg]⟩
  | failed hslot hg => exact ⟨rfl, by simp only [Session.taken, hslot, hg]; rfl⟩

/-- what is taken is the record -/
theorem listAddClient_taken {s t : Session K} {k : K} {alloc : Option Blk} {b c : Blk}
    (h : listAddClient s k alloc = (some b, t)) (hc : c ∈ s.taken alloc) : c = b := by
  have ho := listAddClient_outcome s k alloc
  rw [h] at ho
  cases ho with
  | recycled hslot hg =>
    simp only [Session.taken, hslot, hg] at hc
    exact absurd hc List.not_mem_nil
  | fresh hslot hg =>
    simp only [Session.taken, hslot, hg] at hc
    exact List.mem_singleton.mp hc

/-! ## they are runs of the sections -/

theorem Server.goto_goto (s : Server K) (k : K) (t t' : Session K) (q q' : Phase) :
    (s.goto k t q).goto k t' q' = s.goto k t' q' := by
  simp only [Server.goto, Function.update_idem]

theorem Server.goto_ph (s : Server K) (k : K) (t : Session K) (q : Phase) :
    (s.goto k t q).ph k = q := Function.update_self ..

/-- `list_remove_client` as four sections, with the list lock free -/
theorem Server.remove_run {s : Server K} {k : K} {b : Blk} {why : Cause} {r : ℤ} {t : Session K}
    (hk : s.ph k = .removing b why) (hlock : s.listLock = none)
    (h : listRemoveClient s.session b = some (r, t)) :
    ∃ l, exec Server.step s l = some (s.goto k t (.removed b why)) := by
  unfold listRemoveClient at h
  cases hc : s.session.removeClear b with
  | none =>
    rw [hc] at h
    cases h
    refine ⟨[.run k], ?_⟩
    simp only [exec, Server.step, Server.run, hk, hc, Option.bind_some]
  | some s1 =>
    rw [hc] at h
    dsimp only at h
    cases hp : (s1.removeUnlist b).clientPut b with
    | none =>
      rw [hp] at h
      cases h
    | some s2 =>
      rw [hp] at h
      cases h
      refine ⟨[.run k, .run k, .run k], ?_⟩
      have h1 : s.run k = some (s.goto k s1 (.unlisting b why)) := by
        simp only [Server.run, hk, hc]
      have h2 : (s.goto k s1 (.unlisting b why)).run k
          = some (s.goto k (s1.removeUnlist b) (.putting b why)) := by
        have hl : (s.goto k s1 (.unlisting b why)).listLock = none := hlock
        simp only [Server.run, Server.goto_ph, hl, if_true, Server.goto_goto]
        rfl
      have h3 : (s.goto k (s1.removeUnlist b) (.putting b why)).run k
          = some (s.goto k t (.removed b why)) := by
        have hp' : (s.goto k (s1.removeUnlist b) (.putting b why)).session.clientPut b = some t := hp
        simp only [Server.run, Server.goto_ph, hp', Server.goto_goto]
      simp only [exec, Server.step, h1, h2, h3, Option.bind_some]

/-- `list_add_client` returns `NULL`, as a run of sections -/
theorem Server.add_run_none {s : Server K} {k : K} {alloc : Option Blk} {t : Session K}
    (hk : s.ph k = .idle) (hlock : s.listLock = none) (hfresh : ∀ b ∈ alloc, b ∉ s.heap)
    (h : listAddClient s.session k alloc = (none, t)) :
    ∃ l, exec Server.step s l
      = some { s.refuse k t with heap := s.session.taken alloc ++ s.heap } := by
  have ho := listAddClient_outcome s.session k alloc
  rw [h] at ho
  cases ho with
  | noSlot hslot =>
    refine ⟨[.newConnection k], ?_⟩
    simp [exec, Server.step, Session.taken, hk, hlock, hslot, Server.refuse, Server.goto]
  | full hslot hg =>
    refine ⟨[.newConnection k, .run k], ?_⟩
    simp [exec, Server.step, Server.run, Session.taken, Server.refuse, Server.goto, hk, hlock, hslot,
      hg]
  | failed hslot hg =>
    refine ⟨[.newConnection k, .run k, .alloc k none, .run k], ?_⟩
    simp [exec, Server.step, Server.run, Session.taken, Server.refuse, Server.goto, hk, hlock, hslot,
      hg]

theorem Server.add_run_some {s : Server K} {k : K} {alloc : Option Blk} {b : Blk} {t : Session K}
    (hk : s.ph k = .idle) (hlock : s.listLock = none) (hfresh : ∀ b ∈ alloc, b ∉ s.heap)
    (h : listAddClient s.session k alloc = (some b, t)) :
    ∃ l, exec Server.step s l
      = some { s.goto k t (.configuring b) with heap := s.session.taken alloc ++ s.heap } := by
  have ho := listAddClient_outcome s.session k alloc
  rw [h] at ho
  cases ho with
  | recycled hslot hg =>
    refine ⟨[.newConnection k, .run k, .run k], ?_⟩
    simp [exec, Server.step, Server.run, Session.taken, Server.goto, hk, hlock, hslot, hg]
  | fresh hslot hg =>
    have hb : b ∉ s.heap := hfresh b rfl
    refine ⟨[.newConnection k, .run k, .alloc k (some b), .run k, .run k], ?_⟩
    simp [exec, Server.step, Server.run, Session.taken, Server.goto, hk, hlock, hslot, hg, hb]

/-- runs one after the other -/
theorem Server.exec_trans {s u v : Server K} {l : List (ConnAct K)}
    (h1 : ∃ l, exec Server.step s l = some u) (h2 : exec Server.step u l = some v) :
    ∃ l, exec Server.step s l = some v := by
  obtain ⟨l1, h1⟩ := h1
  exact ⟨l1 ++ l, exec_append.mpr ⟨u, h1, h2⟩⟩

theorem Server.onNewConnection_run {s s' : Server K} {k : K} {alloc : Option Blk} {ok : Bool}
    (hlock : s.listLock = none) (h : s.onNewConnection k alloc ok = some s') :
    ∃ l, exec Server.step s l = some s' := by
  unfold Server.onNewConnection at h
  split at h
  · rename_i hk
    obtain ⟨hk, hfresh⟩ := hk
    split at h
    · rename_i t hadd
      cases h
      exact Server.add_run_none hk hlock hfresh hadd
    · rename_i b t hadd
      have hfill := Server.add_run_some hk hlock hfresh hadd
      have hconf : ∀ ok, exec Server.step
          { s.goto k t (.configuring b) with heap := s.session.taken alloc ++ s.heap }
          [.configured k ok]
          = some { s.goto k t (if ok then .live b false else .removing b .config) with
                   heap := s.session.taken alloc ++ s.heap } := by
        intro ok
        simp [exec, Server.step, Server.goto]
      cases ok with
      | true =>
        cases h
        exact Server.exec_trans hfill (hconf true)
      | false =>
        cases hrem : listRemoveClient t b with
        | none =>
          rw [hrem] at h
          cases h
        | some rt =>
          obtain ⟨r, t'⟩ := rt
          rw [hrem] at h
          cases h
          have hrun := Server.exec_trans hfill (hconf false)
          obtain ⟨l, hl⟩ := Server.remove_run
            (s := { s.goto k t (.removing b .config) with heap := s.session.taken alloc ++ s.heap })
            (Function.update_self ..) hlock hrem
          have hrun := Server.exec_trans hrun hl
          apply Server.exec_trans hrun (l := [.run k, .run k])
          simp [exec, Server.step, Server.run, Server.goto]
  · cases h

theorem Server.onConnected_run {s s' : Server K} {k : K} (h : s.onConnected k = some s') :
    ∃ l, exec Server.step s l = some s' := by
  unfold Server.onConnected at h
  split at h
  · rename_i b hk
    cases h
    unfold initializeClientState
    cases hip : ipAcquire s.session.ipPool b with
    | mk e p =>
      cases e with
      | none =>
        refine ⟨[.connected k, .run k], ?_⟩
        simp [exec, Server.step, Server.run, Server.goto, hk, hip]
      | some i =>
        refine ⟨[.connected k, .run k, .run k], ?_⟩
        simp [exec, Server.step, Server.run, Server.goto, hk, hip, Session.initEntry,
          Session.setClient]
  · cases h

theorem Server.onShutdownComplete_run {s s' : Server K} {k : K} (hlock : s.listLock = none)
    (h : s.onShutdownComplete k = some s') : ∃ l, exec Server.step s l = some s' := by
  unfold Server.onShutdownComplete at h
  split at h
  · rename_i b c hk
    dsimp only at h
    split at h
    · cases h
    · rename_i r t hrem
      cases h
      have hfirst : exec Server.step s [.shutdownComplete k]
          = some (s.goto k { s.session with
              ipPool := (ipRelease s.session.ipPool (s.session.mem b).ipEntry).2 }
            (.removing b .shutdown)) := by
        simp [exec, Server.step, hk]
      obtain ⟨l, hl⟩ := Server.remove_run (s := s.goto k { s.session with
          ipPool := (ipRelease s.session.ipPool (s.session.mem b).ipEntry).2 }
        (.removing b .shutdown)) (Server.goto_ph ..) hlock hrem
      have hrun := Server.exec_trans ⟨_, hfirst⟩ hl
      apply Server.exec_trans hrun (l := [.run k, .run k])
      simp [exec, Server.step, Server.run, Server.goto]
  · cases h

end

end QuicVpn
