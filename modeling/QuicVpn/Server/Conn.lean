import QuicVpn.Server.Client
import QuicVpn.Lib.Exec

/-!
# The connection callbacks of the server (`quic.c`)

`K` are the connections; MsQuic delivers the events of one connection one after another, and the
handlers of different connections interleave between the sections that hold a lock.  A step is

* `newConnection k`       `NEW_CONNECTION`, up to the slot found by `list_add_client`;
* `alloc k r`             `aligned_alloc` inside `pool_try_get` returns `r`;
* `configured k ok`       `ConnectionSetConfiguration` returns;
* `connected k`           `CONNECTED`, up to the return of `ip_acquire`;
* `shutdownComplete k`    `SHUTDOWN_COMPLETE`, up to the return of `ip_release`;
* `run k`                 the next section of the handler of `k`.

`list_add_client` keeps the list lock over its call of `pool_try_get`.  `closes` records each call
of `ConnectionClose` with the connection whose handler makes it, and `released` the handles that
MsQuic releases itself because `NEW_CONNECTION` returned a failure.

`Server.Move` lists what a step can do; every invariant of the callbacks is proved over its cases
(`Server.step_move`).
-/

set_option linter.unusedSectionVars false

namespace QuicVpn
open Conc

/-- who calls `list_remove_client`: the configuration failure of `NEW_CONNECTION`, or
`SHUTDOWN_COMPLETE` -/
inductive Cause where
  | config
  | shutdown
  deriving DecidableEq, Repr

/-- how far the handlers of a connection have come; `b` is its record -/
inductive Phase where
  | idle
  | slot (idx : ℕ)
  | reserved (idx : ℕ)
  | allocated (idx : ℕ) (r : Option Blk)
  | filling (idx : ℕ) (b : Blk)
  | configuring (b : Blk)
  | live (b : Blk) (connected : Bool)
  | acquired (b : Blk) (e : Option ℕ)
  | entered (b : Blk)
  | removing (b : Blk) (why : Cause)
  | unlisting (b : Blk) (why : Cause)
  | putting (b : Blk) (why : Cause)
  | removed (b : Blk) (why : Cause)
  | closing (b : Blk)
  | failing
  | refused
  | closed
  deriving DecidableEq, Repr

structure Server (K : Type) where
  session : Session K
  ph : K → Phase
  listLock : Option K
  heap : List Blk
  closes : List (K × Option K)
  released : List K

inductive ConnAct (K : Type) where
  | newConnection (k : K)
  | alloc (k : K) (r : Option Blk)
  | configured (k : K) (ok : Bool)
  | connected (k : K)
  | shutdownComplete (k : K)
  | run (k : K)

section
variable {K : Type} [DecidableEq K]

/-- the handler of `k` goes on to `q`, with the session `t` -/
def Server.goto (s : Server K) (k : K) (t : Session K) (q : Phase) : Server K :=
  { s with session := t, ph := Function.update s.ph k q }

/-- `list_add_client` returns `NULL` and `NEW_CONNECTION` a failure -/
def Server.refuse (s : Server K) (k : K) (t : Session K) : Server K :=
  { s.goto k t .refused with listLock := none, released := k :: s.released }

def Server.run (s : Server K) (k : K) : Option (Server K) :=
  match s.ph k with
  | .slot idx =>
    match poolTryGetLocked s.session.clientPool with
    | (.block b, p) => some (s.goto k { s.session with clientPool := p } (.filling idx b))
    | (.full, p) => some (s.refuse k { s.session with clientPool := p })
    | (.reserved, p) => some (s.goto k { s.session with clientPool := p } (.reserved idx))
  | .allocated idx (some b) =>
    some (s.goto k { s.session with clientPool := poolAllocDone s.session.clientPool }
      (.filling idx b))
  | .allocated _ none =>
    some (s.refuse k { s.session with clientPool := poolAllocFailed s.session.clientPool })
  | .filling idx b =>
    some { s.goto k (s.session.addFill idx b k) (.configuring b) with listLock := none }
  | .acquired b none => some (s.goto k (s.session.initEntry b none) (.live b true))
  | .acquired b (some i) => some (s.goto k (s.session.initEntry b (some i)) (.entered b))
  | .entered b => some (s.goto k (s.session.initUid b) (.live b true))
  | .removing b why =>
    match s.session.removeClear b with
    | none => some (s.goto k s.session (.removed b why))
    | some t => some (s.goto k t (.unlisting b why))
  | .unlisting b why =>
    if s.listLock = none then some (s.goto k (s.session.removeUnlist b) (.putting b why)) else none
  | .putting b why =>
    match s.session.clientPut b with
    | none => none
    | some t => some (s.goto k t (.removed b why))
  | .removed b .shutdown => some (s.goto k (s.session.clearHandle b) (.closing b))
  | .closing b =>
    some { s.goto k s.session .closed with
           closes := (k, (s.session.mem b).connectionHandle) :: s.closes }
  | .removed _ .config =>
    some { s.goto k s.session .failing with closes := (k, some k) :: s.closes }
  | .failing => some { s.goto k s.session .refused with released := k :: s.released }
  | _ => none

def Server.step (s : Server K) : ConnAct K → Option (Server K)
  | .newConnection k =>
    if s.ph k = .idle ∧ s.listLock = none then
      match s.session.freeSlot with
      | none => some (s.refuse k s.session)
      | some idx => some { s.goto k s.session (.slot idx) with listLock := some k }
    else none
  | .alloc k r =>
    match s.ph k with
    | .reserved idx =>
      if ∀ b ∈ r, b ∉ s.heap then
        some { s.goto k s.session (.allocated idx r) with heap := r.toList ++ s.heap }
      else none
    | _ => none
  | .configured k ok =>
    match s.ph k with
    | .configuring b =>
      some (s.goto k s.session (if ok then .live b false else .removing b .config))
    | _ => none
  | .connected k =>
    match s.ph k with
    | .live b false =>
      some (s.goto k { s.session with ipPool := (ipAcquire s.session.ipPool b).2 }
        (.acquired b (ipAcquire s.session.ipPool b).1))
    | _ => none
  | .shutdownComplete k =>
    match s.ph k with
    | .live b _ =>
      some (s.goto k { s.session with
          ipPool := (ipRelease s.session.ipPool (s.session.mem b).ipEntry).2 }
        (.removing b .shutdown))
    | _ => none
  | .run k => s.run k

/-- what a step can do: one case for each section of a handler, with what it found -/
inductive Server.Move (s : Server K) : ConnAct K → Server K → Prop where
  | noSlot {k : K} (hk : s.ph k = .idle) (hslot : s.session.freeSlot = none) :
    Move s (.newConnection k) (s.refuse k s.session)
  | offer {k : K} {idx : ℕ} (hk : s.ph k = .idle) (hslot : s.session.freeSlot = some idx) :
    Move s (.newConnection k) { s.goto k s.session (.slot idx) with listLock := some k }
  | alloc {k : K} {idx : ℕ} {r : Option Blk} (hk : s.ph k = .reserved idx)
      (hr : ∀ b ∈ r, b ∉ s.heap) :
    Move s (.alloc k r) { s.goto k s.session (.allocated idx r) with heap := r.toList ++ s.heap }
  | configured {k : K} {b : Blk} (hk : s.ph k = .configuring b) :
    Move s (.configured k true) (s.goto k s.session (.live b false))
  | configFailed {k : K} {b : Blk} (hk : s.ph k = .configuring b) :
    Move s (.configured k false) (s.goto k s.session (.removing b .config))
  | connected {k : K} {b : Blk} (hk : s.ph k = .live b false) :
    Move s (.connected k) (s.goto k
      { s.session with ipPool := (ipAcquire s.session.ipPool b).2 }
      (.acquired b (ipAcquire s.session.ipPool b).1))
  | shutdown {k : K} {b : Blk} {c : Bool} (hk : s.ph k = .live b c) :
    Move s (.shutdownComplete k) (s.goto k
      { s.session with ipPool := (ipRelease s.session.ipPool (s.session.mem b).ipEntry).2 }
      (.removing b .shutdown))
  | block {k : K} {idx : ℕ} {b : Blk} {p : Pool} (hk : s.ph k = .slot idx)
      (hg : poolTryGetLocked s.session.clientPool = (.block b, p)) :
    Move s (.run k) (s.goto k { s.session with clientPool := p } (.filling idx b))
  | full {k : K} {idx : ℕ} {p : Pool} (hk : s.ph k = .slot idx)
      (hg : poolTryGetLocked s.session.clientPool = (.full, p)) :
    Move s (.run k) (s.refuse k { s.session with clientPool := p })
  | reserve {k : K} {idx : ℕ} {p : Pool} (hk : s.ph k = .slot idx)
      (hg : poolTryGetLocked s.session.clientPool = (.reserved, p)) :
    Move s (.run k) (s.goto k { s.session with clientPool := p } (.reserved idx))
  | allocDone {k : K} {idx : ℕ} {b : Blk} (hk : s.ph k = .allocated idx (some b)) :
    Move s (.run k) (s.goto k
      { s.session with clientPool := poolAllocDone s.session.clientPool } (.filling idx b))
  | allocFailed {k : K} {idx : ℕ} (hk : s.ph k = .allocated idx none) :
    Move s (.run k)
      (s.refuse k { s.session with clientPool := poolAllocFailed s.session.clientPool })
  | fill {k : K} {idx : ℕ} {b : Blk} (hk : s.ph k = .filling idx b) :
    Move s (.run k)
      { s.goto k (s.session.addFill idx b k) (.configuring b) with listLock := none }
  | noEntry {k : K} {b : Blk} (hk : s.ph k = .acquired b none) :
    Move s (.run k) (s.goto k (s.session.initEntry b none) (.live b true))
  | entry {k : K} {b : Blk} {i : ℕ} (hk : s.ph k = .acquired b (some i)) :
    Move s (.run k) (s.goto k (s.session.initEntry b (some i)) (.entered b))
  | assign {k : K} {b : Blk} (hk : s.ph k = .entered b) :
    Move s (.run k) (s.goto k (s.session.initUid b) (.live b true))
  | outOfRange {k : K} {b : Blk} {why : Cause} (hk : s.ph k = .removing b why)
      (ht : s.session.removeClear b = none) :
    Move s (.run k) (s.goto k s.session (.removed b why))
  | clear {k : K} {b : Blk} {why : Cause} {t : Session K} (hk : s.ph k = .removing b why)
      (ht : s.session.removeClear b = some t) :
    Move s (.run k) (s.goto k t (.unlisting b why))
  | unlist {k : K} {b : Blk} {why : Cause} (hk : s.ph k = .unlisting b why)
      (hlock : s.listLock = none) :
    Move s (.run k) (s.goto k (s.session.removeUnlist b) (.putting b why))
  | put {k : K} {b : Blk} {why : Cause} {t : Session K} (hk : s.ph k = .putting b why)
      (ht : s.session.clientPut b = some t) :
    Move s (.run k) (s.goto k t (.removed b why))
  | clearHandle {k : K} {b : Blk} (hk : s.ph k = .removed b .shutdown) :
    Move s (.run k) (s.goto k (s.session.clearHandle b) (.closing b))
  | close {k : K} {b : Blk} (hk : s.ph k = .closing b) :
    Move s (.run k) { s.goto k s.session .closed with
      closes := (k, (s.session.mem b).connectionHandle) :: s.closes }
  | closeConfig {k : K} {b : Blk} (hk : s.ph k = .removed b .config) :
    Move s (.run k) { s.goto k s.session .failing with closes := (k, some k) :: s.closes }
  | fail {k : K} (hk : s.ph k = .failing) :
    Move s (.run k) { s.goto k s.session .refused with released := k :: s.released }

theorem Server.run_move {s s' : Server K} {k : K} (hs : s.run k = some s') :
    s.Move (.run k) s' := by
  cases hk : s.ph k with
  | slot idx =>
    simp only [Server.run, hk] at hs
    rcases hg : poolTryGetLocked s.session.clientPool with ⟨g, p⟩
    rw [hg] at hs
    cases g with
    | block b => exact Option.some.inj hs ▸ .block hk hg
    | full => exact Option.some.inj hs ▸ .full hk hg
    | reserved => exact Option.some.inj hs ▸ .reserve hk hg
  | allocated idx r =>
    simp only [Server.run, hk] at hs
    cases r with
    | some b => exact Option.some.inj hs ▸ .allocDone hk
    | none => exact Option.some.inj hs ▸ .allocFailed hk
  | filling idx b =>
    simp only [Server.run, hk] at hs
    exact Option.some.inj hs ▸ .fill hk
  | acquired b e =>
    cases e with
    | none =>
      simp only [Server.run, hk] at hs
      exact Option.some.inj hs ▸ .noEntry hk
    | some i =>
      simp only [Server.run, hk] at hs
      exact Option.some.inj hs ▸ .entry hk
  | entered b =>
    simp only [Server.run, hk] at hs
    exact Option.some.inj hs ▸ .assign hk
  | removing b why =>
    simp only [Server.run, hk] at hs
    cases ht : s.session.removeClear b with
    | none =>
      rw [ht] at hs
      exact Option.some.inj hs ▸ .outOfRange hk ht
    | some t =>
      rw [ht] at hs
      exact Option.some.inj hs ▸ .clear hk ht
  | unlisting b why =>
    simp only [Server.run, hk, Option.ite_none_right_eq_some] at hs
    exact Option.some.inj hs.2 ▸ .unlist hk hs.1
  | putting b why =>
    simp only [Server.run, hk] at hs
    cases ht : s.session.clientPut b with
    | none =>
      rw [ht] at hs
      exact absurd hs (Option.some_ne_none s').symm
    | some t =>
      rw [ht] at hs
      exact Option.some.inj hs ▸ .put hk ht
  | removed b why =>
    simp only [Server.run, hk] at hs
    cases why with
    | shutdown => exact Option.some.inj hs ▸ .clearHandle hk
    | config => exact Option.some.inj hs ▸ .closeConfig hk
  | closing b =>
    simp only [Server.run, hk] at hs
    exact Option.some.inj hs ▸ .close hk
  | failing =>
    simp only [Server.run, hk] at hs
    exact Option.some.inj hs ▸ .fail hk
  | _ =>
    simp only [Server.run, hk] at hs
    exact absurd hs (Option.some_ne_none s').symm

theorem Server.step_move {s s' : Server K} {a : ConnAct K} (hs : s.step a = some s') :
    s.Move a s' := by
  cases a with
  | newConnection k =>
    simp only [Server.step, Option.ite_none_right_eq_some] at hs
    obtain ⟨⟨hk, -⟩, hs⟩ := hs
    cases hslot : s.session.freeSlot with
    | none =>
      rw [hslot] at hs
      exact Option.some.inj hs ▸ .noSlot hk hslot
    | some idx =>
      rw [hslot] at hs
      exact Option.some.inj hs ▸ .offer hk hslot
  | alloc k r =>
    simp only [Server.step] at hs
    split at hs
    · rename_i idx hk
      rw [Option.ite_none_right_eq_some] at hs
      exact Option.some.inj hs.2 ▸ .alloc hk hs.1
    · exact absurd hs (Option.some_ne_none s').symm
  | configured k ok =>
    simp only [Server.step] at hs
    split at hs
    · rename_i b hk
      cases ok with
      | true => exact Option.some.inj hs ▸ .configured hk
      | false => exact Option.some.inj hs ▸ .configFailed hk
    · exact absurd hs (Option.some_ne_none s').symm
  | connected k =>
    simp only [Server.step] at hs
    split at hs
    · rename_i b hk
      exact Option.some.inj hs ▸ .connected hk
    · exact absurd hs (Option.some_ne_none s').symm
  | shutdownComplete k =>
    simp only [Server.step] at hs
    split at hs
    · rename_i b c hk
      exact Option.some.inj hs ▸ .shutdown hk
    · exact absurd hs (Option.some_ne_none s').symm
  | run k => exact Server.run_move hs

/-- no connection has been offered yet -/
def Server.init (session : Session K) : Server K :=
  ⟨session, fun _ => .idle, none, [], [], []⟩

/-- no handler of the connection is in progress -/
def Phase.quiet : Phase → Bool
  | .idle => true
  | .live _ _ => true
  | .refused => true
  | .closed => true
  | _ => false

/-- MsQuic delivers events of the connection and of its streams -/
def Phase.up : Phase → Bool
  | .live _ _ => true
  | _ => false

theorem Phase.up_ne_idle {q : Phase} (h : q.up = true) : q ≠ .idle := by
  rintro rfl
  exact Bool.false_ne_true h

/-- `b` is the record of a connection that is up -/
def Server.LiveClient (s : Server K) (b : Blk) : Prop := ∃ k c, s.ph k = .live b c

end

/-! ## what the handlers own -/

/-- what the handlers of a connection have of `client_pool` -/
def Phase.share : Phase → Share
  | .reserved _ => Share.reserved
  | .allocated _ r => Share.allocated r
  | .filling _ b => Share.held {b}
  | .configuring b => Share.held {b}
  | .live b _ => Share.held {b}
  | .acquired b _ => Share.held {b}
  | .entered b => Share.held {b}
  | .removing b _ => Share.held {b}
  | .unlisting b _ => Share.held {b}
  | .putting b _ => Share.held {b}
  | _ => 0

/-- the block that is the record of the connection -/
def Phase.hold (q : Phase) : Multiset Blk := q.share.1

section
variable {K : Type}

/-- the record and the entry of the address that the connection has been given -/
def Phase.given (mem : Blk → Client K) : Phase → Option (Blk × ℕ)
  | .acquired b e => e.map (b, ·)
  | .entered b => (mem b).ipEntry.map (b, ·)
  | .live b _ => (mem b).ipEntry.map (b, ·)
  | _ => none

/-- what a handler may rely on at this point, with `max` slots in the list -/
def Phase.Ok (max : ℕ) (mem : Blk → Client K) : Phase → Prop
  | .slot idx => idx < max
  | .reserved idx => idx < max
  | .allocated idx _ => idx < max
  | .filling idx _ => idx < max
  | .configuring b => (mem b).ipEntry = none ∧ 0 ≤ (mem b).slotIdx ∧ (mem b).slotIdx ≤ max
  | .live b c =>
    (c = false → (mem b).ipEntry = none) ∧ 0 ≤ (mem b).slotIdx ∧ (mem b).slotIdx ≤ max
  | .acquired b _ => (mem b).ipEntry = none ∧ 0 ≤ (mem b).slotIdx ∧ (mem b).slotIdx ≤ max
  | .entered b => (mem b).ipEntry ≠ none ∧ 0 ≤ (mem b).slotIdx ∧ (mem b).slotIdx ≤ max
  | .removing b _ => 0 ≤ (mem b).slotIdx ∧ (mem b).slotIdx ≤ max
  | _ => True

/-- the two memories agree on what `given` and `Ok` look at in `b` -/
def SameRecord (mem mem' : Blk → Client K) (b : Blk) : Prop :=
  (mem' b).ipEntry = (mem b).ipEntry ∧ (mem' b).slotIdx = (mem b).slotIdx

/-- `given` only looks at the block the connection holds -/
theorem Phase.given_same {mem mem' : Blk → Client K} (q : Phase)
    (h : ∀ b ∈ q.hold, SameRecord mem mem' b) : q.given mem' = q.given mem := by
  cases q with
  | live b c =>
    obtain ⟨h1, _⟩ := h b (Multiset.mem_singleton_self b)
    simp only [Phase.given, h1]
  | entered b =>
    obtain ⟨h1, _⟩ := h b (Multiset.mem_singleton_self b)
    simp only [Phase.given, h1]
  | _ => rfl

/-- and so does `Ok` -/
theorem Phase.ok_same {mem mem' : Blk → Client K} {max : ℕ} (q : Phase)
    (h : ∀ b ∈ q.hold, SameRecord mem mem' b) (hq : q.Ok max mem) : q.Ok max mem' := by
  cases q with
  | live b c =>
    obtain ⟨h1, h2⟩ := h b (Multiset.mem_singleton_self b)
    simp only [Phase.Ok, h1, h2]
    exact hq
  | configuring b =>
    obtain ⟨h1, h2⟩ := h b (Multiset.mem_singleton_self b)
    simp only [Phase.Ok, h1, h2]
    exact hq
  | acquired b e =>
    obtain ⟨h1, h2⟩ := h b (Multiset.mem_singleton_self b)
    simp only [Phase.Ok, h1, h2]
    exact hq
  | entered b =>
    obtain ⟨h1, h2⟩ := h b (Multiset.mem_singleton_self b)
    simp only [Phase.Ok, h1, h2]
    exact hq
  | removing b w =>
    obtain ⟨_, h2⟩ := h b (Multiset.mem_singleton_self b)
    simp only [Phase.Ok, h2]
    exact hq
  | _ => exact hq

/-- only a connection that holds a record has been given an address -/
theorem Phase.given_hold {mem : Blk → Client K} {q : Phase} {b : Blk} {i : ℕ}
    (h : q.given mem = some (b, i)) : b ∈ q.hold := by
  cases q with
  | live c _ =>
    obtain ⟨_, _, e⟩ := Option.map_eq_some_iff.mp h
    cases e
    exact Multiset.mem_singleton_self b
  | acquired c e =>
    obtain ⟨_, _, e⟩ := Option.map_eq_some_iff.mp h
    cases e
    exact Multiset.mem_singleton_self b
  | entered c =>
    obtain ⟨_, _, e⟩ := Option.map_eq_some_iff.mp h
    cases e
    exact Multiset.mem_singleton_self b
  | _ => cases h

end

/-- NEW_CONNECTION and CONNECTED of one connection, in the block `100` -/
def oneClient {K : Type} (k : K) : List (ConnAct K) :=
  [.newConnection k, .run k, .alloc k (some 100), .run k, .run k, .configured k true,
   .connected k, .run k, .run k]

/-- after `oneClient k`: that client goes, and `u` gets its record, its slot and its address -/
def nextClient {K : Type} (k u : K) : List (ConnAct K) :=
  [.shutdownComplete k, .run k, .run k, .run k, .run k, .run k, .newConnection u, .run u, .run u,
   .configured u true, .connected u, .run u, .run u]

end QuicVpn
