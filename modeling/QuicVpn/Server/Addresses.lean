import QuicVpn.Lib.Lease
import QuicVpn.Server.Conn
import Mathlib.Tactic.FinCases

/-!
# Tunnel addresses: exclusive, and never lost

The invariant of the connection callbacks ties the address table, the client records and
`client_pool` together: the blocks are accounted for by the connections that hold them, and an entry
of the table has the client `b` exactly when the connection with the record `b` has been given it
(`Leases`).  `Server.Inv.next` is the rule for one section of a handler; the main result is
`server_addresses`.
-/

set_option linter.unusedSectionVars false

namespace QuicVpn
open Conc

section
variable {K : Type} [Fintype K] [DecidableEq K]

/-- what the connections have been given -/
def Server.held (s : Server K) : K → Option (Blk × ℕ) := fun k => (s.ph k).given s.session.mem

/-- the blocks of `client_pool` are accounted for by the handlers -/
def ClientPoolOk (p : Pool) (ph : K → Phase) (H : List Blk) : Prop :=
  PoolOk p (∑ k, (ph k).share) H

structure Server.Inv (tun : TunIface) (n : ℕ) (s : Server K) : Prop where
  subnet : s.session.ipPool.Subnet tun n
  ok : s.session.ipPool.Ok tun
  pool : ClientPoolOk s.session.clientPool s.ph s.heap
  phases : ∀ k, (s.ph k).Ok s.session.ipPool.maxClients s.session.mem
  leases : Leases s.session.ipPool.clients s.held

theorem Server.Inv.phase_ok {tun : TunIface} {n : ℕ} {s : Server K} (h : s.Inv tun n) {k : K}
    {q : Phase} (hk : s.ph k = q) : q.Ok s.session.ipPool.maxClients s.session.mem :=
  hk ▸ h.phases k

/-! ## one handler and the others -/

/-- the share of one handler, and how it may be replaced -/
theorem ClientPoolOk.split {p : Pool} {ph : K → Phase} {H : List Blk} (h : ClientPoolOk p ph H)
    (k : K) : ∃ R, PoolOk p ((ph k).share + R) H ∧
      ∀ p' q H', PoolOk p' (q.share + R) H' → ClientPoolOk p' (Function.update ph k q) H' := by
  obtain ⟨R, r1, r2⟩ := sum_split Phase.share ph k
  refine ⟨R, ?_, fun p' q H' h' => ?_⟩
  · rw [← r1]
    exact h
  · unfold ClientPoolOk
    rw [r2]
    exact h'

/-- a handler goes on without touching the pool -/
theorem ClientPoolOk.same {p : Pool} {ph : K → Phase} {H : List Blk} (h : ClientPoolOk p ph H)
    {k : K} {q0 : Phase} (hk : ph k = q0) (q : Phase) (hsh : q.share = q0.share) :
    ClientPoolOk p (Function.update ph k q) H := by
  obtain ⟨R, hp, hput⟩ := h.split k
  apply hput p q H
  rw [hsh, ← hk]
  exact hp

theorem share_sum (ph : K → Phase) : (∑ k, (ph k).share).1 = ∑ k, (ph k).hold := Prod.fst_sum

/-- a block is the record of one connection only -/
theorem ClientPoolOk.owner {p : Pool} {ph : K → Phase} {H : List Blk} (h : ClientPoolOk p ph H)
    {k u : K} {b : Blk} (hk : b ∈ (ph k).hold) (hu : b ∈ (ph u).hold) : k = u := by
  have hn := PoolOk.nodup h
  rw [share_sum] at hn
  exact owner_unique Phase.hold ph hn hk hu

theorem ClientPoolOk.mem_heap {p : Pool} {ph : K → Phase} {H : List Blk} (h : ClientPoolOk p ph H)
    {k : K} {b : Blk} (hk : b ∈ (ph k).hold) : b ∈ H := by
  apply PoolOk.mem_heap h
  rw [share_sum]
  exact mem_share Phase.hold ph k hk

/-- **One section of a handler.**  It moves connection `k` to `q`, and writes no record but that of
`k`; what is left to show is about `k` alone. -/
theorem Server.Inv.next {tun : TunIface} {n : ℕ} {s s' : Server K} (h : s.Inv tun n) (k : K)
    (q : Phase) (hph : s'.ph = Function.update s.ph k q)
    (hsub : s'.session.ipPool.Subnet tun n) (hok : s'.session.ipPool.Ok tun)
    (hpool : ClientPoolOk s'.session.clientPool (Function.update s.ph k q) s'.heap)
    (hmem : ∀ b, b ∉ (s.ph k).hold → SameRecord s.session.mem s'.session.mem b)
    (hq : q.Ok s.session.ipPool.maxClients s'.session.mem)
    (hl : Leases s'.session.ipPool.clients (Function.update s.held k (q.given s'.session.mem))) :
    s'.Inv tun n := by
  have hmax : s'.session.ipPool.maxClients = s.session.ipPool.maxClients :=
    hsub.maxClients.trans h.subnet.maxClients.symm
  -- the records of the other connections are as they were
  have hothers : ∀ u, u ≠ k → ∀ b ∈ (s.ph u).hold, SameRecord s.session.mem s'.session.mem b := by
    intro u hu b hb
    apply hmem
    intro hb'
    exact hu (h.pool.owner hb hb')
  refine ⟨hsub, hok, ?_, fun u => ?_, hl.congr fun u => ?_⟩
  · rw [hph]
    exact hpool
  · rw [hph, hmax]
    by_cases hu : u = k
    · rw [hu, Function.update_self]
      exact hq
    · rw [Function.update_of_ne hu]
      exact Phase.ok_same (s.ph u) (hothers u hu) (h.phases u)
  · show (s'.ph u).given s'.session.mem = _
    rw [hph]
    by_cases hu : u = k
    · rw [hu, Function.update_self, Function.update_self]
    · rw [Function.update_of_ne hu, Function.update_of_ne hu]
      exact Phase.given_same (s.ph u) (hothers u hu)

/-- the address table does not change and neither does what `k` has been given -/
theorem Server.Inv.leases_same {tun : TunIface} {n : ℕ} {s : Server K} (h : s.Inv tun n) (k : K)
    (g : Option (Blk × ℕ)) (hg : g = s.held k) :
    Leases s.session.ipPool.clients (Function.update s.held k g) := by
  rw [hg, Function.update_eq_self]
  exact h.leases

/-- a section that leaves table and records alone -/
theorem Server.Inv.move {tun : TunIface} {n : ℕ} {s s' : Server K} (h : s.Inv tun n) {k : K}
    {q0 : Phase} (hk : s.ph k = q0) (q : Phase) (hph : s'.ph = Function.update s.ph k q)
    (hip : s'.session.ipPool = s.session.ipPool)
    (hpool : ClientPoolOk s'.session.clientPool (Function.update s.ph k q) s'.heap)
    (hmem : s'.session.mem = s.session.mem) (hq : q.Ok s.session.ipPool.maxClients s.session.mem)
    (hg : q.given s.session.mem = q0.given s.session.mem) : s'.Inv tun n := by
  apply h.next k q hph
  · rw [hip]
    exact h.subnet
  · rw [hip]
    exact h.ok
  · exact hpool
  · intro b _
    rw [hmem]
    exact ⟨rfl, rfl⟩
  · rw [hmem]
    exact hq
  · rw [hip, hmem]
    apply h.leases_same k
    show _ = (s.ph k).given s.session.mem
    rw [hk]
    exact hg

/-- a section that leaves everything but the handler itself alone -/
theorem Server.Inv.pass {tun : TunIface} {n : ℕ} {s s' : Server K} (h : s.Inv tun n) {k : K}
    {q0 : Phase} (hk : s.ph k = q0) (q : Phase) (hph : s'.ph = Function.update s.ph k q)
    (hip : s'.session.ipPool = s.session.ipPool)
    (hcp : s'.session.clientPool = s.session.clientPool) (hheap : s'.heap = s.heap)
    (hmem : s'.session.mem = s.session.mem) (hsh : q.share = q0.share)
    (hq : q.Ok s.session.ipPool.maxClients s.session.mem)
    (hg : q.given s.session.mem = q0.given s.session.mem) : s'.Inv tun n := by
  refine h.move hk q hph hip ?_ hmem hq hg
  rw [hcp, hheap]
  exact h.pool.same hk q hsh

/-- a section that writes the record `b` of the connection; what it has been given may move between
the handler and the record -/
theorem Server.Inv.write {tun : TunIface} {n : ℕ} {s s' : Server K} (h : s.Inv tun n) {k : K}
    {q0 : Phase} (hk : s.ph k = q0) (q : Phase) (b : Blk) (c : Client K)
    (hph : s'.ph = Function.update s.ph k q) (hb : q0.hold = {b})
    (hip : s'.session.ipPool = s.session.ipPool)
    (hcp : s'.session.clientPool = s.session.clientPool) (hheap : s'.heap = s.heap)
    (hmem : s'.session.mem = Function.update s.session.mem b c) (hsh : q.share = q0.share)
    (hq : q.Ok s.session.ipPool.maxClients (Function.update s.session.mem b c))
    (hg : q.given (Function.update s.session.mem b c) = q0.given s.session.mem) :
    s'.Inv tun n := by
  apply h.next k q hph
  · rw [hip]
    exact h.subnet
  · rw [hip]
    exact h.ok
  · rw [hcp, hheap]
    exact h.pool.same hk q hsh
  · intro d hd
    have hne : d ≠ b := by
      intro e
      rw [hk, hb, e] at hd
      exact hd (Multiset.mem_singleton_self b)
    unfold SameRecord
    rw [hmem, Function.update_of_ne hne]
    exact ⟨rfl, rfl⟩
  · rw [hmem]
    exact hq
  · rw [hip, hmem]
    apply h.leases_same k
    show _ = (s.ph k).given s.session.mem
    rw [hk]
    exact hg

/-! ## the sections of the block pool -/

section
variable {p p' : Pool} {ph : K → Phase} {H : List Blk} {k : K} {idx : ℕ}

theorem ClientPoolOk.get_block {b : Blk} (h : ClientPoolOk p ph H) (hk : ph k = .slot idx)
    (hg : poolTryGetLocked p = (.block b, p')) :
    ClientPoolOk p' (Function.update ph k (.filling idx b)) H := by
  obtain ⟨R, hp, hput⟩ := h.split k
  rw [hk] at hp
  have hp' : PoolOk p R H := (zero_add R) ▸ hp
  exact hput p' (.filling idx b) H (hp'.get_block hg)

theorem ClientPoolOk.get_reserved (h : ClientPoolOk p ph H) (hk : ph k = .slot idx)
    (hg : poolTryGetLocked p = (.reserved, p')) :
    ClientPoolOk p' (Function.update ph k (.reserved idx)) H := by
  obtain ⟨R, hp, hput⟩ := h.split k
  rw [hk] at hp
  have hp' : PoolOk p R H := (zero_add R) ▸ hp
  exact hput p' (.reserved idx) H (hp'.get_reserved hg)

theorem ClientPoolOk.alloc {r : Option Blk} (h : ClientPoolOk p ph H) (hk : ph k = .reserved idx)
    (hr : ∀ b ∈ r, b ∉ H) :
    ClientPoolOk p (Function.update ph k (.allocated idx r)) (r.toList ++ H) := by
  obtain ⟨R, hp, hput⟩ := h.split k
  rw [hk] at hp
  exact hput p (.allocated idx r) _ (hp.alloc hr)

theorem ClientPoolOk.allocDone {b : Blk} (h : ClientPoolOk p ph H)
    (hk : ph k = .allocated idx (some b)) :
    ClientPoolOk (poolAllocDone p) (Function.update ph k (.filling idx b)) H := by
  obtain ⟨R, hp, hput⟩ := h.split k
  rw [hk] at hp
  exact hput _ (.filling idx b) H hp.allocDone

theorem ClientPoolOk.allocFailed (h : ClientPoolOk p ph H) (hk : ph k = .allocated idx none) :
    ClientPoolOk (poolAllocFailed p) (Function.update ph k .refused) H := by
  obtain ⟨R, hp, hput⟩ := h.split k
  rw [hk] at hp
  apply hput _ .refused H
  show PoolOk _ (0 + R) H
  rw [zero_add]
  exact hp.allocFailed

/-- the record goes back: no underflow, and the connection holds nothing any more -/
theorem ClientPoolOk.put {b : Blk} {why : Cause} (h : ClientPoolOk p ph H)
    (hk : ph k = .putting b why) :
    ∃ q, poolPut p b = some q ∧ ClientPoolOk q (Function.update ph k (.removed b why)) H := by
  obtain ⟨R, hp, hput⟩ := h.split k
  rw [hk] at hp
  obtain ⟨q, hq, hp'⟩ := hp.put
  refine ⟨q, hq, hput q (.removed b why) H ?_⟩
  show PoolOk q (0 + R) H
  rw [zero_add]
  exact hp'

end

/-! ## every section keeps the invariant -/

section
variable {tun : TunIface} {n : ℕ} {s s' : Server K} {k : K}

/-- a handler that holds nothing returns a failure -/
theorem Server.Inv.refuse (h : s.Inv tun n) {p : Pool} {q0 : Phase} (hk : s.ph k = q0)
    (hp : ClientPoolOk p (Function.update s.ph k .refused) s.heap)
    (hg : q0.given s.session.mem = none) :
    (s.refuse k { s.session with clientPool := p }).Inv tun n :=
  h.move hk .refused rfl rfl hp rfl trivial hg.symm

theorem Server.configured_inv {b : Blk} (h : s.Inv tun n) (hk : s.ph k = .configuring b) :
    (s.goto k s.session (.live b false)).Inv tun n := by
  obtain ⟨hnone, hrange⟩ := h.phase_ok hk
  have hg : (Phase.live b false).given s.session.mem = none := by
    show Option.map _ (s.session.mem b).ipEntry = none
    rw [hnone]
    rfl
  exact h.pass hk (.live b false) rfl rfl rfl rfl rfl rfl ⟨fun _ => hnone, hrange⟩ hg

/-- `ip_acquire` leases an unused entry to the record, if there is one -/
theorem Server.connected_inv {b : Blk} (h : s.Inv tun n) (hk : s.ph k = .live b false) :
    (s.goto k { s.session with ipPool := (ipAcquire s.session.ipPool b).2 }
      (.acquired b (ipAcquire s.session.ipPool b).1)).Inv tun n := by
  obtain ⟨hnone, hrange⟩ := h.phase_ok hk
  have hfree : s.held k = none := by
    show (s.ph k).given s.session.mem = none
    rw [hk]
    show Option.map _ (s.session.mem b).ipEntry = none
    rw [hnone rfl]
    rfl
  obtain ⟨hok, hsub⟩ := ipAcquire_ok h.ok h.subnet b
  apply h.next k (.acquired b (ipAcquire s.session.ipPool b).1) rfl hsub hok
  · exact h.pool.same hk _ rfl
  · intro c _
    exact ⟨rfl, rfl⟩
  · exact ⟨hnone rfl, hrange⟩
  · show Leases (ipAcquire s.session.ipPool b).2.clients
      (Function.update s.held k ((ipAcquire s.session.ipPool b).1.map (b, ·)))
    rcases ipAcquire_cases s.session.ipPool b with ⟨e, _⟩ | ⟨i, hi, hu, e⟩
    · rw [e]
      exact h.leases_same k none hfree.symm
    · rw [e]
      show Leases (s.session.ipPool.setEntry i true (some b)).clients
        (Function.update s.held k (some (b, i)))
      rw [IpPool.setEntry_clients]
      exact h.leases.take hfree (h.ok.unused (IpPool.order_lt hi) hu).2

/-- `ip_release` gives the entry of the record back, if it has one -/
theorem Server.shutdownComplete_inv {b : Blk} {c : Bool} (h : s.Inv tun n)
    (hk : s.ph k = .live b c) :
    (s.goto k { s.session with
        ipPool := (ipRelease s.session.ipPool (s.session.mem b).ipEntry).2 }
      (.removing b .shutdown)).Inv tun n := by
  have hrange := (h.phase_ok hk).2
  have hpool := h.pool.same hk (.removing b .shutdown) rfl
  have hheld : s.held k = (s.session.mem b).ipEntry.map (b, ·) := by
    show (s.ph k).given s.session.mem = _
    rw [hk]
    rfl
  cases he : (s.session.mem b).ipEntry with
  | none =>
    refine h.move hk (.removing b .shutdown) rfl rfl hpool rfl hrange ?_
    show none = Option.map _ (s.session.mem b).ipEntry
    rw [he]
    rfl
  | some i =>
    rw [he] at hheld
    have hleased : (s.session.ipPool.ipEntry i).client = some b := (h.leases i b).mpr ⟨k, hheld⟩
    have hi := h.ok.bound i (by rw [hleased]; exact Option.some_ne_none b)
    refine h.next k (.removing b .shutdown) rfl (h.subnet.setEntry i false none)
      (h.ok.setEntry hi (h.ok.not_reserved hleased) none) hpool (fun _ _ => ⟨rfl, rfl⟩) hrange ?_
    show Leases (s.session.ipPool.setEntry i false none).clients (Function.update s.held k none)
    rw [IpPool.setEntry_clients]
    apply h.leases.drop hheld
    intro u j hu
    apply h.pool.owner (b := b) (Phase.given_hold hu)
    rw [hk]
    exact Multiset.mem_singleton_self b

/-- the new record: its slot, its handle, and no address -/
theorem Server.fill_inv {idx : ℕ} {b : Blk} (h : s.Inv tun n) (hk : s.ph k = .filling idx b) :
    ({ s.goto k (s.session.addFill idx b k) (.configuring b) with
       listLock := none } : Server K).Inv tun n := by
  have hidx : idx < s.session.ipPool.maxClients := h.phase_ok hk
  refine h.write hk (.configuring b) b _ rfl rfl rfl rfl rfl rfl rfl ?_ rfl
  simp only [Phase.Ok, Function.update_self]
  exact ⟨trivial, Int.natCast_nonneg idx, Int.ofNat_le.mpr (le_of_lt hidx)⟩

/-- there was no address -/
theorem Server.noEntry_inv {b : Blk} (h : s.Inv tun n) (hk : s.ph k = .acquired b none) :
    (s.goto k (s.session.initEntry b none) (.live b true)).Inv tun n := by
  obtain ⟨-, hrange⟩ := h.phase_ok hk
  refine h.write hk (.live b true) b _ rfl rfl rfl rfl rfl rfl rfl ?_ ?_
  · simp only [Phase.Ok, Function.update_self]
    exact ⟨fun e => (by cases e), hrange⟩
  · simp only [Phase.given, Function.update_self]

/-- the address goes from the handler into the record -/
theorem Server.entry_inv {b : Blk} {i : ℕ} (h : s.Inv tun n) (hk : s.ph k = .acquired b (some i)) :
    (s.goto k (s.session.initEntry b (some i)) (.entered b)).Inv tun n := by
  obtain ⟨-, hrange⟩ := h.phase_ok hk
  refine h.write hk (.entered b) b _ rfl rfl rfl rfl rfl rfl rfl ?_ ?_
  · simp only [Phase.Ok, Function.update_self]
    exact ⟨Option.some_ne_none i, hrange⟩
  · simp only [Phase.given, Function.update_self]

/-- and the uid behind it -/
theorem Server.assign_inv {b : Blk} (h : s.Inv tun n) (hk : s.ph k = .entered b) :
    (s.goto k (s.session.initUid b) (.live b true)).Inv tun n := by
  obtain ⟨-, hrange⟩ := h.phase_ok hk
  refine h.write hk (.live b true) b _ rfl rfl rfl rfl rfl rfl rfl ?_ ?_
  · simp only [Phase.Ok, Function.update_self]
    exact ⟨fun e => (by cases e), hrange⟩
  · simp only [Phase.given, Function.update_self]

/-- the range check of `list_remove_client` never fails -/
theorem Server.Inv.removeClear_ne_none {b : Blk} {why : Cause} (h : s.Inv tun n)
    (hk : s.ph k = .removing b why) : s.session.removeClear b ≠ none := by
  obtain ⟨h1, h2⟩ := h.phase_ok hk
  unfold Session.removeClear
  rw [if_neg (by omega)]
  exact Option.some_ne_none _

/-- the write to the record after it has been put back: it leaves slot and address alone -/
theorem Server.clearHandle_inv {b : Blk} (h : s.Inv tun n) (hk : s.ph k = .removed b .shutdown) :
    (s.goto k (s.session.clearHandle b) (.closing b)).Inv tun n := by
  refine h.next k (.closing b) rfl h.subnet h.ok
    (h.pool.same hk _ rfl) (fun d _ => ?_) trivial ?_
  · show SameRecord _ (Function.update s.session.mem b _) d
    unfold SameRecord
    by_cases hd : d = b
    · rw [hd, Function.update_self]
      exact ⟨rfl, rfl⟩
    · rw [Function.update_of_ne hd]
      exact ⟨rfl, rfl⟩
  · apply h.leases_same k none
    show none = (s.ph k).given s.session.mem
    rw [hk]
    rfl

theorem Server.step_inv (s : Server K) (a : ConnAct K) (s' : Server K) (h : s.Inv tun n)
    (hs : s.step a = some s') : s'.Inv tun n := by
  cases Server.step_move hs with
  | noSlot hk hslot => exact h.refuse hk (h.pool.same hk .refused rfl) rfl
  | offer hk hslot =>
    exact h.pass hk _ rfl rfl rfl rfl rfl rfl (Session.freeSlot_some hslot).1 rfl
  | alloc hk hr =>
    have hidx := h.phase_ok hk
    exact h.move hk _ rfl rfl (h.pool.alloc hk hr) rfl hidx rfl
  | configured hk => exact Server.configured_inv h hk
  | configFailed hk => exact h.pass hk _ rfl rfl rfl rfl rfl rfl (h.phase_ok hk).2 rfl
  | connected hk => exact Server.connected_inv h hk
  | shutdown hk => exact Server.shutdownComplete_inv h hk
  | block hk hg =>
    have hidx := h.phase_ok hk
    exact h.move hk _ rfl rfl (h.pool.get_block hk hg) rfl hidx rfl
  | full hk hg =>
    obtain rfl := PoolInv.get_full hg
    exact h.refuse hk (h.pool.same hk .refused rfl) rfl
  | reserve hk hg =>
    have hidx := h.phase_ok hk
    exact h.move hk _ rfl rfl (h.pool.get_reserved hk hg) rfl hidx rfl
  | allocDone hk =>
    have hidx := h.phase_ok hk
    exact h.move hk _ rfl rfl (h.pool.allocDone hk) rfl hidx rfl
  | allocFailed hk => exact h.refuse hk (h.pool.allocFailed hk) rfl
  | fill hk => exact Server.fill_inv h hk
  | noEntry hk => exact Server.noEntry_inv h hk
  | entry hk => exact Server.entry_inv h hk
  | assign hk => exact Server.assign_inv h hk
  | outOfRange hk ht => exact absurd ht (h.removeClear_ne_none hk)
  | clear hk ht =>
    obtain rfl := Session.removeClear_some ht
    exact h.write hk _ _ _ rfl rfl rfl rfl rfl rfl rfl trivial rfl
  | unlist hk hlock => exact h.pass hk _ rfl rfl rfl rfl rfl rfl trivial rfl
  | put hk ht =>
    obtain ⟨p, hp, rfl⟩ := Session.clientPut_some ht
    obtain ⟨q, hq, hpool⟩ := h.pool.put hk
    obtain rfl : q = p := Option.some.inj (hq.symm.trans hp)
    exact h.move hk _ rfl rfl hpool rfl trivial rfl
  | clearHandle hk => exact Server.clearHandle_inv h hk
  | close hk => exact h.pass hk _ rfl rfl rfl rfl rfl rfl trivial rfl
  | closeConfig hk => exact h.pass hk _ rfl rfl rfl rfl rfl rfl trivial rfl
  | fail hk => exact h.pass hk _ rfl rfl rfl rfl rfl rfl trivial rfl

end

/-! ## the main result -/

/-- a session that `init_client_manager` has set up on the subnet of `tun`, with a mask of `n` ones -/
structure Session.Fresh (tun : TunIface) (n : ℕ) (session : Session K) : Prop where
  pos : 1 ≤ n
  mask : ntohl tun.mask = prefixMask n
  ipPool : ∃ callocPool callocEntry,
    ipPoolCreate (some tun) callocPool callocEntry = some session.ipPool
  clients : ∃ s0, initClientManager s0 session.ipPool.maxClients = some session

theorem Session.Fresh.clientList {K : Type} {tun : TunIface} {n : ℕ} {session : Session K}
    (h : session.Fresh tun n) : session.clientList = fun _ => none := by
  obtain ⟨s0, hs0⟩ := h.clients
  obtain ⟨p, -, hsession⟩ := initClientManager_ok hs0
  rw [hsession]

theorem Server.init_inv {tun : TunIface} {n : ℕ} {session : Session K}
    (h : session.Fresh tun n) : (Server.init session).Inv tun n := by
  obtain ⟨p, hp, hsub, hok, hnone⟩ := ipPoolCreate_ok h.pos h.mask
  obtain ⟨c1, c2, hp'⟩ := h.ipPool
  obtain ⟨s0, hs0⟩ := h.clients
  have hpe : session.ipPool = p := ipPoolCreate_unique hp' hp
  obtain ⟨q, hq, hsession⟩ := initClientManager_ok hs0
  have hpool : PoolOk session.clientPool 0 [] := by
    rw [hsession]
    exact PoolOk.init hq []
  refine ⟨by rw [← hpe] at hsub; exact hsub, by rw [← hpe] at hok; exact hok, ?_,
    fun _ => trivial, Leases.none (fun _ => rfl) fun i => ?_⟩
  · have e : (∑ _k : K, Phase.idle.share) = 0 := Finset.sum_const_zero
    show PoolOk session.clientPool (∑ _k : K, Phase.idle.share) []
    rw [e]
    exact hpool
  · show (session.ipPool.ipEntry i).client = none
    rw [hpe]
    exact hnone i

/-- between the handlers, what a connection has been given stands in its record -/
theorem Server.held_quiet {s : Server K} (hquiet : ∀ k, (s.ph k).quiet = true) (b : Blk) (i : ℕ) :
    (∃ k, s.held k = some (b, i)) ↔ s.LiveClient b ∧ (s.session.mem b).ipEntry = some i := by
  constructor
  · intro ⟨k, hk⟩
    have hq := hquiet k
    have hk' : (s.ph k).given s.session.mem = some (b, i) := hk
    cases hp : s.ph k with
    | live c cn =>
      rw [hp] at hk'
      obtain ⟨j, hj, e⟩ := Option.map_eq_some_iff.mp hk'
      cases e
      exact ⟨⟨k, cn, hp⟩, hj⟩
    | acquired c e =>
      rw [hp] at hq
      cases hq
    | entered c =>
      rw [hp] at hq
      cases hq
    | _ =>
      rw [hp] at hk'
      cases hk'
  · intro ⟨⟨k, cn, hp⟩, hi⟩
    refine ⟨k, ?_⟩
    show (s.ph k).given s.session.mem = some (b, i)
    rw [hp]
    show (s.session.mem b).ipEntry.map (b, ·) = some (b, i)
    rw [hi]
    rfl

/-- **Tunnel addresses.**  In every reachable state in which no handler is in progress, an entry of
the address table is used if and only if its address is reserved or it is the entry of exactly one
live client; that client is the one the entry names, and reserved entries have none. -/
theorem server_addresses (tun : TunIface) (n : ℕ) (session : Session K)
    (h0 : session.Fresh tun n) (l : List (ConnAct K)) (s : Server K)
    (hs : exec Server.step (Server.init session) l = some s)
    (hquiet : ∀ k, (s.ph k).quiet = true) (i : ℕ) (hi : i < s.session.ipPool.maxClients) :
    ((s.session.ipPool.ipEntry i).used = true ↔
      tun.Reserved (s.session.ipPool.ipEntry i).ip ∨
      ∃! c, s.LiveClient c ∧ (s.session.mem c).ipEntry = some i) ∧
    (∀ c, s.LiveClient c → (s.session.mem c).ipEntry = some i →
      (s.session.ipPool.ipEntry i).client = some c) ∧
    (tun.Reserved (s.session.ipPool.ipEntry i).ip → (s.session.ipPool.ipEntry i).client = none ∧
      ∀ c, s.LiveClient c → (s.session.mem c).ipEntry ≠ some i) := by
  have h := exec_inv (I := Server.Inv tun n) Server.step_inv (Server.init_inv h0) hs
  have hlease : ∀ c, (s.session.ipPool.ipEntry i).client = some c ↔
      s.LiveClient c ∧ (s.session.mem c).ipEntry = some i := by
    intro c
    rw [← Server.held_quiet hquiet]
    exact h.leases i c
  refine ⟨?_, fun c hc he => (hlease c).mpr ⟨hc, he⟩, fun hr => ⟨h.ok.free i hi hr, fun c hc he => ?_⟩⟩
  · rw [h.ok.used i hi]
    apply or_congr Iff.rfl
    constructor
    · intro hne
      obtain ⟨c, hc⟩ := Option.ne_none_iff_exists'.mp hne
      refine ⟨c, (hlease c).mp hc, fun d hd => ?_⟩
      have hd' := (hlease d).mpr hd
      rw [hc] at hd'
      exact (Option.some.inj hd').symm
    · intro ⟨c, hc, _⟩
      rw [(hlease c).mpr hc]
      exact Option.some_ne_none c
  · exact h.ok.not_reserved ((hlease c).mpr ⟨hc, he⟩) hr

theorem fourSlots_fresh : (fourSlots K).Fresh tunThirty 30 := by
  refine ⟨by decide, by decide, ⟨true, true, ?_⟩, ⟨fourAddresses K, rfl⟩⟩
  rfl

end

/-- two connections compete for the one address of `10.8.0.1/30` that is not reserved: the first
gets it, the second is refused an address and goes -/
def twoForOne : List (ConnAct (Fin 2)) :=
  [.newConnection 0, .run 0, .alloc 0 (some 100), .run 0, .run 0, .newConnection 1,
   .configured 0 true, .run 1, .alloc 1 (some 200), .connected 0, .run 1, .run 1,
   .configured 1 true, .connected 1, .run 0, .run 0, .run 1, .shutdownComplete 1, .run 1, .run 1,
   .run 1, .run 1, .run 1]

/-- the entry still belongs to the first connection -/
theorem server_addresses_one_free :
    ∃ s, exec Server.step (Server.init (fourSlots (Fin 2))) twoForOne = some s ∧
      ∃! c, s.LiveClient c ∧ (s.session.mem c).ipEntry = some 2 := by
  have h : (exec Server.step (Server.init (fourSlots (Fin 2))) twoForOne).map
      (fun s => (s.ph 0, s.ph 1, s.session.ipPool.maxClients, (s.session.ipPool.ipEntry 2).used,
        (s.session.ipPool.ipEntry 2).ip))
      = some (.live 100 true, .closed, 4, true, 0x0200080a) := by decide
  obtain ⟨s, hs, e⟩ := Option.map_eq_some_iff.mp h
  simp only [Prod.mk.injEq] at e
  obtain ⟨h0, h1, hmax, hused, hip⟩ := e
  refine ⟨s, hs, ?_⟩
  have hquiet : ∀ k, (s.ph k).quiet = true := by
    intro k
    fin_cases k
    · show (s.ph 0).quiet = true
      rw [h0]
      rfl
    · show (s.ph 1).quiet = true
      rw [h1]
      rfl
  have hmain := server_addresses tunThirty 30 (fourSlots (Fin 2)) fourSlots_fresh twoForOne s hs
    hquiet 2 (by omega)
  apply (hmain.1.mp hused).resolve_left
  rw [hip]
  unfold TunIface.Reserved
  decide

end QuicVpn
