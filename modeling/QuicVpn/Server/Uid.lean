import QuicVpn.Server.Addresses
import QuicVpn.Server.Ctrl

/-!
# Looking a client up by its uid

`initialize_client_state` gives a client its uid, and `process_ctrl_pkt` finds the client of a
stream again by it.  The runs here are those of the connection callbacks in which no client is
removed; `assigned` notes each uid with the record `initialize_client_state` wrote it to.

* `Uids.step`         the steps of the callbacks, removals apart;
* `Uids.Right`        the search finds a record exactly by the uid assigned to it, and a CONFIG_REQ
                      is answered with the address of the client that sent it, or refused;
* `Uids.CleanBlock`   the record that `list_add_client` fills has the uid `0` from before;
* `uid_lookup_iff`    `Right` holds along a run exactly when each record was clean.

`list_add_client` leaves the uid of a record as the allocation left it.
-/

set_option linter.unusedSectionVars false

namespace QuicVpn
open Conc

/-! ## the search -/

section
variable {K : Type} {s : Session K} {u : BitVec 64} {b : Blk}

theorem listFindClientByUid_zero (s : Session K) : listFindClientByUid s 0 = none := if_pos rfl

theorem listFindClientByUid_some (h : listFindClientByUid s u = some b) :
    (∃ i < s.ipPool.maxClients, s.clientList i = some b) ∧ (s.mem b).uid = u := by
  unfold listFindClientByUid at h
  rw [Option.ite_none_left_eq_some] at h
  obtain ⟨i, hi, hb⟩ := List.exists_of_findSome?_eq_some h.2
  cases hc : s.clientList i with
  | none =>
    rw [hc] at hb
    exact absurd hb (Option.some_ne_none b).symm
  | some c =>
    rw [hc] at hb
    simp only [Option.ite_none_right_eq_some, Option.some.injEq] at hb
    obtain ⟨hu, rfl⟩ := hb
    exact ⟨⟨i, List.mem_range.mp hi, hc⟩, hu⟩

/-- a record in the list is found, or another one with its uid -/
theorem listFindClientByUid_isSome (hu : u ≠ 0) {i : ℕ} (hi : i < s.ipPool.maxClients)
    (hb : s.clientList i = some b) (hbu : (s.mem b).uid = u) :
    ∃ c, listFindClientByUid s u = some c := by
  apply Option.ne_none_iff_exists'.mp
  intro hn
  rw [listFindClientByUid, if_neg hu, List.findSome?_eq_none_iff] at hn
  have := hn i (List.mem_range.mpr hi)
  simp only [hb, if_pos hbu] at this
  exact absurd this (Option.some_ne_none b)

end

/-! ## runs without removals -/

/-- the step is the beginning of a removal -/
def ConnAct.removes {K : Type} : ConnAct K → Bool
  | .configured _ false => true
  | .shutdownComplete _ => true
  | _ => false

/-- the record of a connection, from the return of `list_add_client` on -/
def Phase.record : Phase → Option Blk
  | .configuring b => some b
  | .live b _ => some b
  | .acquired b _ => some b
  | .entered b => some b
  | _ => none

/-- the slot `list_add_client` has found, while it holds the lock of the list -/
def Phase.pending : Phase → Option ℕ
  | .slot idx => some idx
  | .reserved idx => some idx
  | .allocated idx _ => some idx
  | .filling idx _ => some idx
  | _ => none

/-- the block that `list_add_client` fills next -/
def Phase.fills : Phase → Option Blk
  | .filling _ b => some b
  | _ => none

/-- the block whose uid `initialize_client_state` assigns next -/
def Phase.assigns : Phase → Option Blk
  | .entered b => some b
  | _ => none

/-- the points a connection goes through before it is removed -/
def Phase.joining : Phase → Bool
  | .removing _ _ | .unlisting _ _ | .putting _ _ | .removed _ _ | .closing _ => false
  | .failing | .closed => false
  | _ => true

structure Uids (K : Type) where
  server : Server K
  assigned : List (Blk × BitVec 64)

section
variable {K : Type} [DecidableEq K]

/-- `q` of the handler that `a` runs -/
def Uids.ofRun (s : Uids K) (q : Phase → Option Blk) : ConnAct K → Option Blk
  | .run k => q (s.server.ph k)
  | _ => none

/-- the uids after the step `a` -/
def Uids.note (s : Uids K) (a : ConnAct K) : List (Blk × BitVec 64) :=
  match s.ofRun Phase.assigns a with
  | some b => (b, s.server.session.clientCnt) :: s.assigned
  | none => s.assigned

def Uids.step (s : Uids K) (a : ConnAct K) : Option (Uids K) :=
  if a.removes then none else (s.server.step a).map fun t => ⟨t, s.note a⟩

def Uids.init (session : Session K) : Uids K := ⟨Server.init session, []⟩

/-- `b` is the record of a connection -/
def Server.Recorded (s : Server K) (b : Blk) : Prop := ∃ k, (s.ph k).record = some b

/-- how a CONFIG_REQ on a stream of `b` may end: with the address of `b` itself, or with a refusal
before `b` has a uid -/
inductive Uids.Answers (s : Uids K) (b : Blk) : ReqOutcome → Prop where
  | own {req : PktCtrl} {resp : Option PktCtrl} {i : ℕ}
      (entry : (s.server.session.mem b).ipEntry = some i)
      (client : (s.server.session.ipPool.ipEntry i).client = some b)
      (ip : ∀ pkt, resp = some pkt →
        ConfigResp.ip.get pkt = (s.server.session.ipPool.ipEntry i).ip) :
    Answers s b (.responded req b resp)
  | refused {req : PktCtrl} (new : ∀ u, (b, u) ∉ s.assigned) : Answers s b (.unknown req)

structure Uids.Right (s : Uids K) : Prop where
  found : ∀ u, u ≠ 0 → ∀ b, listFindClientByUid s.server.session u = some b ↔ (b, u) ∈ s.assigned
  answered : ∀ b, s.server.Recorded b → ∀ calloc tun raw, IsConfigReq raw →
    s.Answers b (serverProcessCtrlPkt calloc tun s.server.session b raw)

/-- where the step fills a record, its uid is `0` already -/
def Uids.CleanBlock (s : Uids K) (a : ConnAct K) : Prop :=
  ∀ b ∈ s.ofRun Phase.fills a, (s.server.session.mem b).uid = 0

instance (s : Uids K) (a : ConnAct K) : Decidable (s.CleanBlock a) :=
  inferInstanceAs (Decidable (∀ b ∈ s.ofRun Phase.fills a, _))

end

/-! ## the invariant -/

section
variable {K : Type} [Fintype K] [DecidableEq K]

/-- the record `b` has no uid -/
structure Uids.New (s : Uids K) (b : Blk) : Prop where
  uid : (s.server.session.mem b).uid = 0
  unassigned : ∀ u, (b, u) ∉ s.assigned

structure Uids.Inv (tun : TunIface) (n : ℕ) (s : Uids K) : Prop where
  server : s.server.Inv tun n
  joining : ∀ k, (s.server.ph k).joining = true
  pending : ∀ k idx, (s.server.ph k).pending = some idx →
    s.server.listLock = some k ∧ s.server.session.clientList idx = none
  listed : ∀ i b, s.server.session.clientList i = some b → s.server.Recorded b
  slot : ∀ b, s.server.Recorded b →
    ∃ i < s.server.session.ipPool.maxClients, s.server.session.clientList i = some b
  known : ∀ k b, (s.server.ph k).record = some b →
    s.New b ∨ (b, (s.server.session.mem b).uid) ∈ s.assigned ∧ s.server.ph k = .live b true
  given : ∀ b u, (b, u) ∈ s.assigned → (s.server.session.mem b).uid = u ∧ 0 < u.toNat ∧
    u.toNat < s.server.session.clientCnt.toNat ∧ (s.server.session.mem b).ipEntry ≠ none ∧
    ∃ k, s.server.ph k = .live b true
  uids : (s.assigned.map Prod.snd).Nodup
  blocks : (s.assigned.map Prod.fst).Nodup
  count : s.server.session.clientCnt.toNat = s.assigned.length + 1

theorem Phase.record_hold {q : Phase} {b : Blk} (h : q.record = some b) : b ∈ q.hold := by
  cases q with
  | configuring c =>
    cases h
    exact Multiset.mem_singleton_self b
  | live c _ =>
    cases h
    exact Multiset.mem_singleton_self b
  | acquired c _ =>
    cases h
    exact Multiset.mem_singleton_self b
  | entered c =>
    cases h
    exact Multiset.mem_singleton_self b
  | _ => exact absurd h (Option.some_ne_none b).symm

section
variable {tun : TunIface} {n : ℕ} {s : Uids K}

/-- the address of a client is entered for it in the table -/
theorem Server.Inv.live_entry {s : Server K} (h : s.Inv tun n) {k : K} {b : Blk} {c : Bool} {i : ℕ}
    (hk : s.ph k = .live b c) (he : (s.session.mem b).ipEntry = some i) :
    (s.session.ipPool.ipEntry i).client = some b := by
  refine (h.leases i b).mpr ⟨k, ?_⟩
  show (s.ph k).given s.session.mem = some (b, i)
  rw [hk]
  show (s.session.mem b).ipEntry.map (b, ·) = some (b, i)
  rw [he]
  rfl

/-- there are no more uids than addresses, so the counter does not wrap -/
theorem Uids.Inv.length_le (hi : s.Inv tun n) :
    s.assigned.length ≤ s.server.session.ipPool.maxClients := by
  have hent : ∀ b ∈ s.assigned.map Prod.fst, ∃ i, (s.server.session.mem b).ipEntry = some i ∧
      (s.server.session.ipPool.ipEntry i).client = some b := by
    intro b hb
    obtain ⟨⟨c, u⟩, hc, rfl⟩ := List.mem_map.mp hb
    obtain ⟨-, -, -, he, k, hk⟩ := hi.given c u hc
    obtain ⟨i, he⟩ := Option.ne_none_iff_exists'.mp he
    exact ⟨i, he, hi.server.live_entry hk he⟩
  have hcard := Finset.card_le_card_of_injOn (s := (s.assigned.map Prod.fst).toFinset)
    (t := Finset.range s.server.session.ipPool.maxClients)
    (fun b => ((s.server.session.mem b).ipEntry).getD 0) ?_ ?_
  · rw [List.toFinset_card_of_nodup hi.blocks, Finset.card_range, List.length_map] at hcard
    exact hcard
  · intro b hb
    obtain ⟨i, he, hc⟩ := hent b (List.mem_toFinset.mp hb)
    have hlt := hi.server.ok.bound i (by rw [hc]; exact Option.some_ne_none b)
    simp only [he, Option.getD_some, Finset.coe_range, Set.mem_Iio]
    exact hlt
  · intro b hb c hc heq
    obtain ⟨i, hbe, hbc⟩ := hent b (List.mem_toFinset.mp hb)
    obtain ⟨j, hce, hcc⟩ := hent c (List.mem_toFinset.mp hc)
    simp only [hbe, hce, Option.getD_some] at heq
    rw [heq, hcc] at hbc
    exact (Option.some.inj hbc).symm

/-- a uid that was assigned finds its record -/
theorem Uids.Inv.find (hi : s.Inv tun n) {u : BitVec 64} (hu : u ≠ 0) (b : Blk) :
    listFindClientByUid s.server.session u = some b ↔ (b, u) ∈ s.assigned := by
  have hback : ∀ c, listFindClientByUid s.server.session u = some c → (c, u) ∈ s.assigned := by
    intro c hc
    obtain ⟨⟨i, -, hl⟩, hcu⟩ := listFindClientByUid_some hc
    obtain ⟨k, hk⟩ := hi.listed i c hl
    rcases hi.known k c hk with hn | ⟨ha, -⟩
    · exact absurd (hcu.symm.trans hn.uid) hu
    · exact hcu ▸ ha
  refine ⟨hback b, fun ha => ?_⟩
  obtain ⟨hbu, -, -, -, k, hk⟩ := hi.given b u ha
  obtain ⟨i, hlt, hl⟩ := hi.slot b ⟨k, by rw [hk]; rfl⟩
  obtain ⟨c, hc⟩ := listFindClientByUid_isSome hu hlt hl hbu
  -- the uids differ, so the one that is found is `b`
  have hcb : (c, u) = (b, u) := List.inj_on_of_nodup_map hi.uids (hback c hc) ha rfl
  rw [hc, (Prod.mk.inj hcb).1]

theorem Uids.Inv.right (hi : s.Inv tun n) : s.Right := by
  refine ⟨fun u hu b => hi.find hu b, fun b ⟨k, hk⟩ calloc dev raw hr => ?_⟩
  rcases hi.known k b hk with hn | ⟨ha, hlive⟩
  · have hnone : listFindClientByUid s.server.session (s.server.session.mem b).uid = none := by
      rw [hn.uid, listFindClientByUid_zero]
    rw [serverProcessCtrlPkt, serverProcessCtrlPktAcross_unknown hr hnone]
    exact .refused hn.unassigned
  · obtain ⟨-, hpos, -, he, -⟩ := hi.given b _ ha
    have hu : (s.server.session.mem b).uid ≠ 0 := by
      intro h0
      rw [h0] at hpos
      exact absurd hpos (by decide)
    obtain ⟨i, he⟩ := Option.ne_none_iff_exists'.mp he
    rw [serverProcessCtrlPkt, serverProcessCtrlPktAcross_found hr ((hi.find hu b).mpr ha) he]
    refine .own he (hi.server.live_entry hlive he) fun pkt hpkt => ?_
    simp only [pktCtrlCreateConfigResp, Option.ite_none_right_eq_some, Option.some.injEq] at hpkt
    obtain ⟨-, rfl⟩ := hpkt
    exact (fillConfigResp_body ..).2.2.1

/-! ## every step -/

variable {t : Server K} {k : K}

/-- a step that moves `k` to `q` and touches neither the list, nor a record, nor the counter -/
theorem Uids.Inv.pass (hi : s.Inv tun n) (ht : t.Inv tun n) (q : Phase)
    (hph : t.ph = Function.update s.server.ph k q)
    (hlist : t.session.clientList = s.server.session.clientList)
    (hmem : t.session.mem = s.server.session.mem)
    (hcnt : t.session.clientCnt = s.server.session.clientCnt) (hj : q.joining = true)
    (hrec : q.record = (s.server.ph k).record) (hlive : ∀ b, s.server.ph k ≠ .live b true)
    (hpend : ∀ u idx, (t.ph u).pending = some idx →
      t.listLock = some u ∧ s.server.session.clientList idx = none) :
    Uids.Inv tun n ⟨t, s.assigned⟩ := by
  have hmax : t.session.ipPool.maxClients = s.server.session.ipPool.maxClients :=
    ht.subnet.maxClients.trans hi.server.subnet.maxClients.symm
  have hrecord : ∀ u, (t.ph u).record = (s.server.ph u).record := by
    intro u
    rw [hph]
    by_cases hu : u = k
    · rw [hu, Function.update_self, hrec]
    · rw [Function.update_of_ne hu]
  have hstay : ∀ u b, s.server.ph u = .live b true → t.ph u = .live b true := by
    intro u b hu
    have huk : u ≠ k := fun e => hlive b (e ▸ hu)
    rw [hph, Function.update_of_ne huk]
    exact hu
  refine ⟨ht, fun u => ?_, fun u idx h => ?_, fun i b h => ?_, fun b ⟨u, hu⟩ => ?_,
    fun u b hu => ?_, fun b v hb => ?_, hi.uids, hi.blocks, ?_⟩
  · show (t.ph u).joining = true
    rw [hph]
    by_cases hu : u = k
    · rw [hu, Function.update_self]
      exact hj
    · rw [Function.update_of_ne hu]
      exact hi.joining u
  · obtain ⟨hl, hn⟩ := hpend u idx h
    exact ⟨hl, by rw [hlist]; exact hn⟩
  · rw [hlist] at h
    obtain ⟨u, hu⟩ := hi.listed i b h
    exact ⟨u, (hrecord u).trans hu⟩
  · show ∃ i < t.session.ipPool.maxClients, t.session.clientList i = some b
    rw [hmax, hlist]
    exact hi.slot b ⟨u, (hrecord u).symm.trans hu⟩
  · rcases hi.known u b ((hrecord u).symm.trans hu) with hn | ⟨ha, hl⟩
    · exact Or.inl ⟨by rw [hmem]; exact hn.uid, hn.unassigned⟩
    · exact Or.inr ⟨by rw [hmem]; exact ha, hstay u b hl⟩
  · obtain ⟨h1, h2, h3, h4, u, hu⟩ := hi.given b v hb
    refine ⟨by rw [hmem]; exact h1, h2, by rw [hcnt]; exact h3, by rw [hmem]; exact h4, u, ?_⟩
    exact hstay u b hu
  · show t.session.clientCnt.toNat = _
    rw [hcnt]
    exact hi.count

/-- the lock of the list stays with its holder, and `k` finds no slot -/
theorem Uids.Inv.pending_same (hi : s.Inv tun n) {q : Phase}
    (hph : t.ph = Function.update s.server.ph k q) (hlock : t.listLock = s.server.listLock)
    (hq : ∀ idx, q.pending = some idx → (s.server.ph k).pending = some idx) (u : K) (idx : ℕ)
    (h : (t.ph u).pending = some idx) :
    t.listLock = some u ∧ s.server.session.clientList idx = none := by
  rw [hlock]
  rw [hph] at h
  by_cases hu : u = k
  · rw [hu, Function.update_self] at h
    rw [hu]
    exact hi.pending k idx (hq idx h)
  · rw [Function.update_of_ne hu] at h
    exact hi.pending u idx h

/-- nobody but `k` can be looking for a slot, and `k` is done with it -/
theorem Uids.Inv.pending_done (hi : s.Inv tun n) {q : Phase}
    (hph : t.ph = Function.update s.server.ph k q)
    (hlock : s.server.listLock = none ∨ s.server.listLock = some k) (hq : q.pending = none)
    (u : K) : (t.ph u).pending = none := by
  rw [hph]
  by_cases hu : u = k
  · rw [hu, Function.update_self]
    exact hq
  · rw [Function.update_of_ne hu]
    by_contra hp
    obtain ⟨idx, hp⟩ := Option.ne_none_iff_exists'.mp hp
    have hl := (hi.pending u idx hp).1
    rcases hlock with h | h
    · exact absurd (hl.symm.trans h) (Option.some_ne_none u)
    · exact hu (Option.some.inj (hl.symm.trans h))

/-- a new connection is only taken up while nobody has the lock of the list -/
theorem Server.newConnection_lock {s s' : Server K} (hs : s.step (.newConnection k) = some s') :
    s.listLock = none := by
  simp only [Server.step, Option.ite_none_right_eq_some] at hs
  exact hs.1.2

/-- a block that is being filled is nobody's record yet -/
theorem Uids.Inv.filling_fresh (hi : s.Inv tun n) {idx : ℕ} {b : Blk}
    (hk : s.server.ph k = .filling idx b) : ¬ s.server.Recorded b := by
  rintro ⟨u, hu⟩
  have hown : u = k := by
    apply hi.server.pool.owner (Phase.record_hold hu)
    rw [hk]
    exact Multiset.mem_singleton_self b
  rw [hown, hk] at hu
  exact absurd hu (Option.some_ne_none b).symm

/-- a step that writes the record `b` of `k` only; what is left to show is about `b` alone -/
theorem Uids.Inv.write (hi : s.Inv tun n) {s' : Uids K} (ht : s'.server.Inv tun n) (q : Phase)
    (b : Blk) (hph : s'.server.ph = Function.update s.server.ph k q) (hj : q.joining = true)
    (hq : q.record = some b) (hk : ∀ c, (s.server.ph k).record = some c → c = b)
    (hown : ∀ u, u ≠ k → (s.server.ph u).record ≠ some b)
    (hmem : ∀ c, c ≠ b → s'.server.session.mem c = s.server.session.mem c)
    (hpend : ∀ u idx, (s'.server.ph u).pending = some idx →
      s'.server.listLock = some u ∧ s'.server.session.clientList idx = none)
    (hlist : ∀ i c, c ≠ b → (s'.server.session.clientList i = some c ↔
      s.server.session.clientList i = some c))
    (hslot : ∃ i < s.server.session.ipPool.maxClients, s'.server.session.clientList i = some b)
    (hcnt : s.server.session.clientCnt.toNat ≤ s'.server.session.clientCnt.toNat)
    (hasg : ∀ c v, c ≠ b → ((c, v) ∈ s'.assigned ↔ (c, v) ∈ s.assigned))
    (hknown : s'.New b ∨ (b, (s'.server.session.mem b).uid) ∈ s'.assigned ∧ q = .live b true)
    (hgiven : ∀ v, (b, v) ∈ s'.assigned → (s'.server.session.mem b).uid = v ∧ 0 < v.toNat ∧
      v.toNat < s'.server.session.clientCnt.toNat ∧ (s'.server.session.mem b).ipEntry ≠ none ∧
      q = .live b true)
    (huids : (s'.assigned.map Prod.snd).Nodup) (hblocks : (s'.assigned.map Prod.fst).Nodup)
    (hcount : s'.server.session.clientCnt.toNat = s'.assigned.length + 1) : s'.Inv tun n := by
  have hmax : s'.server.session.ipPool.maxClients = s.server.session.ipPool.maxClients :=
    ht.subnet.maxClients.trans hi.server.subnet.maxClients.symm
  have hself : s'.server.ph k = q := by rw [hph, Function.update_self]
  have hrest : ∀ u, u ≠ k → s'.server.ph u = s.server.ph u := by
    intro u hu
    rw [hph, Function.update_of_ne hu]
  -- a record other than `b` belongs to another connection than `k`
  have hother : ∀ u c, (s.server.ph u).record = some c → c ≠ b → u ≠ k :=
    fun u c hu hc e => hc (hk c (e ▸ hu))
  refine ⟨ht, fun u => ?_, hpend, fun i c h => ?_, fun c ⟨u, hu⟩ => ?_, fun u c hu => ?_,
    fun c v hc => ?_, huids, hblocks, hcount⟩
  · by_cases hu : u = k
    · rw [hu, hself]
      exact hj
    · rw [hrest u hu]
      exact hi.joining u
  · by_cases hc : c = b
    · exact ⟨k, by rw [hself, hc]; exact hq⟩
    · obtain ⟨u, hu⟩ := hi.listed i c ((hlist i c hc).mp h)
      exact ⟨u, by rw [hrest u (hother u c hu hc)]; exact hu⟩
  · rw [hmax]
    by_cases hc : c = b
    · rw [hc]
      exact hslot
    · have huk : u ≠ k := by
        rintro rfl
        rw [hself, hq] at hu
        exact hc (Option.some.inj hu).symm
      rw [hrest u huk] at hu
      obtain ⟨i, hlt, hl⟩ := hi.slot c ⟨u, hu⟩
      exact ⟨i, hlt, (hlist i c hc).mpr hl⟩
  · by_cases huk : u = k
    · rw [huk, hself, hq] at hu
      obtain rfl := Option.some.inj hu
      rw [huk, hself]
      exact hknown
    · rw [hrest u huk] at hu ⊢
      have hc : c ≠ b := fun e => hown u huk (e ▸ hu)
      rcases hi.known u c hu with hn | ⟨ha, hl⟩
      · exact Or.inl ⟨by rw [hmem c hc]; exact hn.uid,
          fun v hv => hn.unassigned v ((hasg c v hc).mp hv)⟩
      · exact Or.inr ⟨by rw [hmem c hc]; exact (hasg c _ hc).mpr ha, hl⟩
  · by_cases hcb : c = b
    · subst hcb
      obtain ⟨h1, h2, h3, h4, h5⟩ := hgiven v hc
      exact ⟨h1, h2, h3, h4, k, hself.trans h5⟩
    · obtain ⟨h1, h2, h3, h4, u, hu⟩ := hi.given c v ((hasg c v hcb).mp hc)
      have huk : u ≠ k := hother u c (by rw [hu]; rfl) hcb
      exact ⟨by rw [hmem c hcb]; exact h1, h2, by omega, by rw [hmem c hcb]; exact h4, u,
        (hrest u huk).trans hu⟩

/-- `list_add_client` fills a record with the uid `0` -/
theorem Uids.Inv.fill (hi : s.Inv tun n) {idx : ℕ} {b : Blk} (hk : s.server.ph k = .filling idx b)
    (hz : (s.server.session.mem b).uid = 0) :
    Uids.Inv tun n ⟨{ s.server.goto k (s.server.session.addFill idx b k) (.configuring b) with
      listLock := none }, s.assigned⟩ := by
  have hidx : idx < s.server.session.ipPool.maxClients := hi.server.phase_ok hk
  have hfresh := hi.filling_fresh hk
  have hnew : ∀ v, (b, v) ∉ s.assigned := by
    intro v hv
    obtain ⟨-, -, -, -, u, hu⟩ := hi.given b v hv
    exact hfresh ⟨u, by rw [hu]; rfl⟩
  obtain ⟨hlock, hslot⟩ := hi.pending k idx (by rw [hk]; rfl)
  refine hi.write (Server.fill_inv hi.server hk) (.configuring b) b rfl rfl rfl (fun c hc => ?_)
    (fun u _ hu => hfresh ⟨u, hu⟩) (fun c hc => Function.update_of_ne hc ..) (fun u i hu => ?_)
    (fun i c hc => ?_) ⟨idx, hidx, Function.update_self ..⟩ (le_refl _) (fun c v _ => Iff.rfl)
    (Or.inl ⟨?_, hnew⟩) (fun v hv => absurd hv (hnew v)) hi.uids hi.blocks hi.count
  · rw [hk] at hc
    exact absurd hc (Option.some_ne_none c).symm
  · exact absurd ((hi.pending_done rfl (Or.inr hlock) rfl u).symm.trans hu)
      (Option.some_ne_none i).symm
  · show Function.update s.server.session.clientList idx (some b) i = some c ↔ _
    by_cases he : i = idx
    · rw [he, Function.update_self, hslot]
      exact ⟨fun e => absurd (Option.some.inj e).symm hc,
        fun e => absurd e (Option.some_ne_none c).symm⟩
    · rw [Function.update_of_ne he]
  · show (Function.update s.server.session.mem b _ b).uid = 0
    rw [Function.update_self]
    exact hz

section
variable {b : Blk}

/-- until the end of `CONNECTED` the record of a connection has no uid -/
theorem Uids.Inv.record_new (hi : s.Inv tun n) (hr : (s.server.ph k).record = some b)
    (hl : s.server.ph k ≠ .live b true) : s.New b :=
  (hi.known k b hr).resolve_right fun h => hl h.2

/-- no other connection has its record -/
theorem Uids.Inv.record_own (hi : s.Inv tun n) (hr : (s.server.ph k).record = some b) (u : K)
    (hu : u ≠ k) : (s.server.ph u).record ≠ some b := by
  intro h
  exact hu (hi.server.pool.owner (Phase.record_hold h) (Phase.record_hold hr))

/-- the address is stored, or there was none: the record stays without a uid -/
theorem Uids.Inv.enter (hi : s.Inv tun n) {e : Option ℕ} (hk : s.server.ph k = .acquired b e)
    {q : Phase} (ht : (s.server.goto k (s.server.session.initEntry b e) q).Inv tun n)
    (hq : q.record = some b) (hj : q.joining = true) (hp : q.pending = none) :
    Uids.Inv tun n ⟨s.server.goto k (s.server.session.initEntry b e) q, s.assigned⟩ := by
  have hr : (s.server.ph k).record = some b := by
    rw [hk]
    rfl
  have hnew := hi.record_new hr (by rw [hk]; exact Phase.noConfusion)
  refine hi.write ht q b rfl hj hq (fun c hc => (Option.some.inj (hr.symm.trans hc)).symm)
    (hi.record_own hr) (fun c hc => Function.update_of_ne hc ..) (fun u idx hu => ?_)
    (fun i c _ => Iff.rfl) (hi.slot b ⟨k, hr⟩) (le_refl _) (fun c v _ => Iff.rfl)
    (Or.inl ⟨?_, hnew.unassigned⟩) (fun v hv => absurd hv (hnew.unassigned v)) hi.uids
    hi.blocks hi.count
  · exact hi.pending_same (t := s.server.goto k _ q) rfl rfl
      (fun idx h => absurd (hp.symm.trans h) (Option.some_ne_none idx).symm) u idx hu
  · show (Function.update s.server.session.mem b _ b).uid = 0
    rw [Function.update_self]
    exact hnew.uid

/-- a record that has its address gets the next uid -/
theorem Uids.Inv.assign (hi : s.Inv tun n) (hk : s.server.ph k = .entered b) :
    Uids.Inv tun n ⟨s.server.goto k (s.server.session.initUid b) (.live b true),
      (b, s.server.session.clientCnt) :: s.assigned⟩ := by
  have hr : (s.server.ph k).record = some b := by
    rw [hk]
    rfl
  have hnew := hi.record_new hr (by rw [hk]; exact Phase.noConfusion)
  obtain ⟨hentry, -⟩ := hi.server.phase_ok hk
  have hlen := hi.length_le
  have hcount := hi.count
  have hmax : s.server.session.ipPool.maxClients ≤ 2 ^ 32 := by
    rw [hi.server.subnet.maxClients]
    exact Nat.pow_le_pow_right (by decide) (Nat.sub_le 32 n)
  have hsucc : (s.server.session.clientCnt + 1).toNat = s.server.session.clientCnt.toNat + 1 := by
    rw [BitVec.toNat_add]
    exact Nat.mod_eq_of_lt (by show _ + 1 < _; omega)
  refine hi.write (Server.assign_inv hi.server hk) (.live b true) b rfl rfl rfl
    (fun c hc => (Option.some.inj (hr.symm.trans hc)).symm) (hi.record_own hr)
    (fun c hc => Function.update_of_ne hc ..) (fun u idx hu => ?_) (fun i c _ => Iff.rfl)
    (hi.slot b ⟨k, hr⟩) ?_ (fun c v hc => ?_) (Or.inr ⟨?_, rfl⟩) (fun v hv => ?_) ?_ ?_ ?_
  · exact hi.pending_same (t := s.server.goto k _ (.live b true)) rfl rfl
      (fun idx h => absurd h (Option.some_ne_none idx).symm) u idx hu
  · show _ ≤ (s.server.session.clientCnt + 1).toNat
    omega
  · rw [List.mem_cons, or_iff_right]
    exact fun e => hc (Prod.mk.inj e).1
  · show (b, (Function.update s.server.session.mem b _ b).uid) ∈ _
    rw [Function.update_self]
    exact List.mem_cons_self
  · rcases List.mem_cons.mp hv with e | hv
    · obtain ⟨-, rfl⟩ := Prod.mk.inj e
      show (Function.update s.server.session.mem b _ b).uid = _ ∧ _ ∧
        _ < (s.server.session.clientCnt + 1).toNat ∧
        (Function.update s.server.session.mem b _ b).ipEntry ≠ none ∧ _
      rw [Function.update_self, hsucc]
      exact ⟨rfl, by omega, by omega, hentry, rfl⟩
    · exact absurd hv (hnew.unassigned v)
  · rw [List.map_cons, List.nodup_cons]
    refine ⟨fun hm => ?_, hi.uids⟩
    obtain ⟨⟨c, v⟩, hc, hv⟩ := List.mem_map.mp hm
    have hlt := (hi.given c v hc).2.2.1
    rw [show v = s.server.session.clientCnt from hv] at hlt
    exact absurd hlt (lt_irrefl _)
  · rw [List.map_cons, List.nodup_cons]
    refine ⟨fun hm => ?_, hi.blocks⟩
    obtain ⟨⟨c, v⟩, hc, hv⟩ := List.mem_map.mp hm
    rw [show c = b from hv] at hc
    exact hnew.unassigned v hc
  · show (s.server.session.clientCnt + 1).toNat = s.assigned.length + 1 + 1
    omega

end

theorem Uids.step_some {s s' : Uids K} {a : ConnAct K} (hs : s.step a = some s') :
    a.removes = false ∧ ∃ t, s.server.step a = some t ∧ s' = ⟨t, s.note a⟩ := by
  simp only [Uids.step, Option.ite_none_left_eq_some, Bool.not_eq_true] at hs
  obtain ⟨ha, hs⟩ := hs
  obtain ⟨t, ht, e⟩ := Option.map_eq_some_iff.mp hs
  exact ⟨ha, t, ht, e.symm⟩

theorem Uids.note_run {s : Uids K} {k : K} {q : Phase} (hk : s.server.ph k = q)
    (hq : q.assigns = none) : s.note (.run k) = s.assigned := by
  simp only [Uids.note, Uids.ofRun, hk, hq]

/-- a step that fills no record, or one with the uid `0` -/
theorem Uids.step_inv {s s' : Uids K} {a : ConnAct K} (hi : s.Inv tun n) (hC : s.CleanBlock a)
    (hs : s.step a = some s') : s'.Inv tun n := by
  obtain ⟨ha, t, ht, rfl⟩ := Uids.step_some hs
  have hinv := Server.step_inv s.server a t hi.server ht
  -- the sections that only move one connection on, and keep the lock
  have hgo : ∀ (k : K) (q0 q : Phase), s.server.ph k = q0 → t.ph = Function.update s.server.ph k q →
      t.listLock = s.server.listLock → t.session.clientList = s.server.session.clientList →
      t.session.mem = s.server.session.mem →
      t.session.clientCnt = s.server.session.clientCnt → q.joining = true →
      q.record = q0.record → q.pending = q0.pending → (∀ b, q0 ≠ .live b true) →
      Uids.Inv tun n ⟨t, s.assigned⟩ := by
    intro k q0 q hk hph hlock hlist hmem hcnt hj hrec hp hlive
    subst hk
    exact hi.pass hinv q hph hlist hmem hcnt hj hrec hlive
      (hi.pending_same hph hlock fun idx h => hp ▸ h)
  -- the sections in which `list_add_client` gives up
  have hrefuse : ∀ (k : K) (q0 : Phase) (p : Pool), s.server.ph k = q0 →
      t = s.server.refuse k { s.server.session with clientPool := p } → q0.record = none →
      s.server.listLock = none ∨ s.server.listLock = some k →
      Uids.Inv tun n ⟨t, s.assigned⟩ := by
    intro k q0 p hk he hrec hlock
    subst hk he
    refine hi.pass hinv .refused rfl rfl rfl rfl rfl hrec.symm (fun b hb => ?_) fun u idx hu => ?_
    · rw [hb] at hrec
      exact absurd hrec (Option.some_ne_none b)
    · exact absurd ((hi.pending_done (t := s.server.refuse k _) rfl hlock rfl u).symm.trans hu)
        (Option.some_ne_none idx).symm
  cases Server.step_move ht with
  | @noSlot k hk hslot =>
    exact hrefuse k _ s.server.session.clientPool hk rfl rfl (Or.inl (Server.newConnection_lock ht))
  | @offer k idx hk hslot =>
    have hlock := Server.newConnection_lock ht
    refine hi.pass hinv (.slot idx) rfl rfl rfl rfl rfl (by rw [hk]; rfl)
      (fun b hb => Phase.noConfusion (hk.symm.trans hb)) fun u i hu => ?_
    by_cases hu' : u = k
    · subst hu'
      have e : Function.update s.server.ph u (.slot idx) u = .slot idx := Function.update_self ..
      have hi' : (Phase.slot idx).pending = some i := e ▸ hu
      obtain rfl := Option.some.inj hi'
      exact ⟨rfl, (Session.freeSlot_some hslot).2⟩
    · have e : Function.update s.server.ph k (.slot idx) u = s.server.ph u :=
        Function.update_of_ne hu' ..
      have hl := (hi.pending u i (e ▸ hu)).1
      exact absurd (hl.symm.trans hlock) (Option.some_ne_none u)
  | alloc hk hr => exact hgo _ _ _ hk rfl rfl rfl rfl rfl rfl rfl rfl fun _ => Phase.noConfusion
  | configured hk =>
    exact hgo _ _ _ hk rfl rfl rfl rfl rfl rfl rfl rfl fun _ => Phase.noConfusion
  | configFailed hk => exact absurd ha Bool.false_ne_true.symm
  | @connected k b hk =>
    refine hgo k _ _ hk rfl rfl rfl rfl rfl rfl rfl rfl fun c hc => ?_
    exact absurd (Phase.live.inj hc).2 Bool.false_ne_true
  | shutdown hk => exact absurd ha Bool.false_ne_true.symm
  | block hk hg =>
    rw [Uids.note_run hk rfl]
    exact hgo _ _ _ hk rfl rfl rfl rfl rfl rfl rfl rfl fun _ => Phase.noConfusion
  | full hk hg =>
    rw [Uids.note_run hk rfl]
    exact hrefuse _ _ _ hk rfl rfl (Or.inr (hi.pending _ _ (by rw [hk]; rfl)).1)
  | reserve hk hg =>
    rw [Uids.note_run hk rfl]
    exact hgo _ _ _ hk rfl rfl rfl rfl rfl rfl rfl rfl fun _ => Phase.noConfusion
  | allocDone hk =>
    rw [Uids.note_run hk rfl]
    exact hgo _ _ _ hk rfl rfl rfl rfl rfl rfl rfl rfl fun _ => Phase.noConfusion
  | allocFailed hk =>
    rw [Uids.note_run hk rfl]
    exact hrefuse _ _ _ hk rfl rfl (Or.inr (hi.pending _ _ (by rw [hk]; rfl)).1)
  | @fill k idx b hk =>
    rw [Uids.note_run hk rfl]
    exact hi.fill hk (hC b (by simp only [Uids.ofRun, hk, Phase.fills, Option.mem_def]))
  | noEntry hk =>
    rw [Uids.note_run hk rfl]
    exact hi.enter hk hinv rfl rfl rfl
  | entry hk =>
    rw [Uids.note_run hk rfl]
    exact hi.enter hk hinv rfl rfl rfl
  | @assign k b hk =>
    have hn : s.note (.run k) = (b, s.server.session.clientCnt) :: s.assigned := by
      simp only [Uids.note, Uids.ofRun, hk, Phase.assigns]
    rw [hn]
    exact hi.assign hk
  | @outOfRange k _ _ hk | @clear k _ _ _ hk | @unlist k _ _ hk | @put k _ _ _ hk
  | @clearHandle k _ hk | @close k _ hk | @closeConfig k _ hk | @fail k hk =>
    have hj := hi.joining k
    rw [hk] at hj
    exact absurd hj Bool.false_ne_true

/-- where requests are answered as they should be, the search can only find the client itself -/
theorem Uids.Right.found_self {s : Uids K} (hr : s.Right) {b c : Blk} (hb : s.server.Recorded b)
    (hc : listFindClientByUid s.server.session (s.server.session.mem b).uid = some c) : c = b := by
  have hreq := fillConfigReq_isConfigReq 0 0 none
  have ha := hr.answered b hb true none _ hreq
  simp only [serverProcessCtrlPkt, serverProcessCtrlPktAcross, hreq.1, hreq.2, Bool.false_eq_true,
    if_false, if_true, hc] at ha
  -- the contents of the packets do not matter
  generalize serverPkt _ = req at ha
  cases he : (s.server.session.mem c).ipEntry with
  | none =>
    simp only [he] at ha
    cases ha
  | some i =>
    simp only [he] at ha
    generalize pktCtrlCreateConfigResp true _ _ _ _ _ _ _ = resp at ha
    cases ha with
    | own => rfl

/-- a record that is filled with another uid is found by it, or another client in its place -/
theorem Uids.unclean_wrong {s s' : Uids K} {a : ConnAct K} (hi : s.Inv tun n)
    (hC : ¬ s.CleanBlock a) (hs : s.step a = some s') : ¬ s'.Right := by
  intro hr
  obtain ⟨-, t, ht, rfl⟩ := Uids.step_some hs
  simp only [Uids.CleanBlock, not_forall] at hC
  obtain ⟨b, hb, hu⟩ := hC
  obtain ⟨k, rfl, idx, hk⟩ : ∃ k, a = .run k ∧ ∃ idx, s.server.ph k = .filling idx b := by
    cases a with
    | run k =>
      have hf : (s.server.ph k).fills = some b := hb
      cases hk : s.server.ph k with
      | filling idx c =>
        rw [hk] at hf
        exact ⟨k, rfl, idx, Option.some.inj hf ▸ hk⟩
      | _ =>
        rw [hk] at hf
        exact absurd hf (Option.some_ne_none b).symm
    | _ => exact absurd hb (Option.not_mem_none b)
  rw [Uids.note_run hk rfl] at hr
  have he : t = { s.server.goto k (s.server.session.addFill idx b k) (.configuring b) with
      listLock := none } := by
    simp only [Server.step, Server.run, hk] at ht
    exact (Option.some.inj ht).symm
  subst he
  have hidx : idx < s.server.session.ipPool.maxClients := hi.server.phase_ok hk
  have hrec : Function.update s.server.ph k (.configuring b) k = .configuring b :=
    Function.update_self ..
  have huid : ((s.server.session.addFill idx b k).mem b).uid = (s.server.session.mem b).uid := by
    show (Function.update s.server.session.mem b _ b).uid = _
    rw [Function.update_self]
  obtain ⟨c, hc⟩ := listFindClientByUid_isSome (s := s.server.session.addFill idx b k) hu hidx
    (Function.update_self ..) huid
  obtain rfl : c = b := hr.found_self ⟨k, congrArg Phase.record hrec⟩ (huid.symm ▸ hc)
  obtain ⟨-, -, -, -, u, hlive⟩ := hi.given c _ ((hr.found _ hu c).mp hc)
  exact hi.filling_fresh hk ⟨u, by rw [hlive]; rfl⟩

/-! ## the main result -/

theorem Uids.init_inv {session : Session K} (h : session.Fresh tun n)
    (hcnt : session.clientCnt = 1) : (Uids.init session).Inv tun n := by
  refine ⟨Server.init_inv h, fun _ => rfl, nofun, fun i b hb => ?_, nofun, nofun, nofun,
    List.nodup_nil, List.nodup_nil, ?_⟩
  · rw [show (Uids.init session).server.session.clientList i = none from congrFun h.clientList i] at hb
    exact absurd hb (Option.some_ne_none b).symm
  · show session.clientCnt.toNat = 1
    rw [hcnt]
    rfl

/-- **The search by uid** finds the client that a uid was assigned to, and a CONFIG_REQ is answered
with the address of its own client or refused before that client has a uid, in every state of a run
without removals, exactly when the uid of each record that `list_add_client` fills is `0` in the
block already. -/
theorem uid_lookup_iff {session : Session K} (h0 : session.Fresh tun n)
    (hcnt : session.clientCnt = 1) {l : List (ConnAct K)} {u : Uids K}
    (h : exec Uids.step (Uids.init session) l = some u) :
    Always Uids.step Uids.Right (Uids.init session) l ↔
      Along Uids.step Uids.CleanBlock (Uids.init session) l :=
  always_iff_along (I := Uids.Inv tun n) (fun _ hi => hi.right)
    (fun _ _ _ hi hC hs => Uids.step_inv hi hC hs)
    (fun _ _ _ hi hC hs => Uids.unclean_wrong hi hC hs) (Uids.init_inv h0 hcnt) h

end

end

/-! ## a new block -/

/-- a zeroed block: the client is found by its uid and by no other -/
theorem uid_lookup_zeroed : ∃ u,
    exec Uids.step (Uids.init (fourSlots Unit)) (oneClient ()) = some u ∧
      Always Uids.step Uids.Right (Uids.init (fourSlots Unit)) (oneClient ()) := by
  have h : (exec Uids.step (Uids.init (fourSlots Unit)) (oneClient ())).isSome = true := by decide
  obtain ⟨u, hu⟩ := Option.isSome_iff_exists.mp h
  exact ⟨u, hu, (uid_lookup_iff fourSlots_fresh rfl hu).mpr (by decide)⟩

/-- `fourSlots` with other contents of the memory that is not allocated yet -/
def fourSlotsDirty : Session Unit :=
  { fourSlots Unit with mem := fun _ => ⟨none, 5, 0, none⟩ }

/-- a block with the uid `5` in it: the client is found by `5`, which no client was assigned -/
theorem uid_lookup_stale : ∃ u,
    exec Uids.step (Uids.init fourSlotsDirty) ((oneClient ()).take 5) = some u ∧ u.assigned = [] ∧
      listFindClientByUid u.server.session 5 = some 100 ∧ ¬ u.Right := by
  have h : (exec Uids.step (Uids.init fourSlotsDirty) ((oneClient ()).take 5)).map
      (fun u => (u.assigned, listFindClientByUid u.server.session 5)) = some ([], some 100) := by
    decide
  obtain ⟨u, hu, e⟩ := Option.map_eq_some_iff.mp h
  obtain ⟨ha, hf⟩ := Prod.mk.inj e
  refine ⟨u, hu, ha, hf, fun hr => ?_⟩
  have hm := (hr.found 5 (by decide) 100).mp hf
  rw [ha] at hm
  exact List.not_mem_nil hm

end QuicVpn
