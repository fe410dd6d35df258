import Mathlib.Data.Fintype.Option
import QuicVpn.Lib.History
import QuicVpn.Server.Uid

/-!
# Whose address a CONFIG_REQ is answered with

Here clients come and go.  The list may keep the records of clients that are gone, a block is used
again with the uid it had, and the allocator gives out blocks with any uid in them.  The handlers of
other connections go on between the search of `process_ctrl_pkt` and its read of `client->ip_entry`,
and between the two stores of `initialize_client_state`.

* `Server.Known`       the search by uid, or a connection, can meet the record;
* `Server.HasUid`      the record has an address, and behind it the uid that goes with it;
* `Server.Numbered`    of the records that can be met and have their uid, no two have the same;
* `Server.CleanBlock`  a record that is filled has the uid `0` in its block;
* `Server.Change`      what a step can do to the records;
* `Server.Held`        the connection keeps its record and its entry until it goes.

`answers_own`: a client that has an address is given that of another only if its request meets a record
that has its number from before and has not got its own yet.  Its request may stay without an answer.
-/

set_option linter.unusedSectionVars false

namespace QuicVpn
open Conc

section
variable {K : Type} [DecidableEq K]

def Server.Known (s : Server K) (b : Blk) : Prop :=
  (∃ i, s.session.clientList i = some b) ∨ s.Recorded b

/-- both stores of `initialize_client_state` have been made -/
def Server.HasUid (s : Server K) (b : Blk) : Prop :=
  (s.session.mem b).ipEntry ≠ none ∧ ∀ k, s.ph k ≠ .entered b

structure Server.Numbered (s : Server K) : Prop where
  pos : 0 < s.session.clientCnt.toNat
  given : ∀ b, s.Known b → s.HasUid b → 0 < (s.session.mem b).uid.toNat ∧
    (s.session.mem b).uid.toNat < s.session.clientCnt.toNat
  once : ∀ b c, s.Known b → s.Known c → s.HasUid b → s.HasUid c →
    (s.session.mem b).uid = (s.session.mem c).uid → b = c

/-- where the step fills a record, its uid is `0` already -/
def Server.CleanBlock (s : Server K) : ConnAct K → Prop
  | .run k => ∀ b ∈ (s.ph k).fills, (s.session.mem b).uid = 0
  | _ => True

instance (s : Server K) : (a : ConnAct K) → Decidable (s.CleanBlock a)
  | .run k => inferInstanceAs (Decidable (∀ b ∈ (s.ph k).fills, (s.session.mem b).uid = 0))
  | .newConnection _ | .alloc _ _ | .configured _ _ | .connected _ | .shutdownComplete _ =>
    .isTrue trivial

/-- a record that has not got its uid has none -/
def Server.Clean (s : Server K) : Prop :=
  ∀ b, s.Known b → ¬ s.HasUid b → (s.session.mem b).uid = 0

/-! ## what a step does to the records -/

/-- the step leaves the record `c` as it is: who knows of it, whether it has its uid, and which -/
structure Server.Agrees (s s' : Server K) (c : Blk) : Prop where
  known : s'.Known c → s.Known c
  hasUid : s'.HasUid c ↔ s.HasUid c
  uid : (s'.session.mem c).uid = (s.session.mem c).uid

/-- what a step can do to the records: nothing, make one a record without a uid, or give one its
uid -/
inductive Server.Change (s : Server K) (a : ConnAct K) (s' : Server K) : Prop where
  | same (hcnt : s'.session.clientCnt = s.session.clientCnt) (h : ∀ c, s.Agrees s' c)
  | taken {b : Blk} (hcnt : s'.session.clientCnt = s.session.clientCnt)
      (h : ∀ c, c ≠ b → s.Agrees s' c) (hno : ¬ s'.HasUid b)
      (huid : s.Clean → s.CleanBlock a → (s'.session.mem b).uid = 0)
  | given {b : Blk} (hcnt : s'.session.clientCnt = s.session.clientCnt + 1)
      (h : ∀ c, c ≠ b → s.Agrees s' c) (hhas : s'.HasUid b)
      (huid : (s'.session.mem b).uid = s.session.clientCnt)

section
variable {s s' : Server K} {k : K} {q0 q : Phase} {c : Blk}

/-- after a step of the handler of `k`, a record is in the list, or it was that of a connection
before, or it is now that of `k` -/
theorem Server.Known.before (hph : s'.ph = Function.update s.ph k q) (hc : s'.Known c) :
    (∃ i, s'.session.clientList i = some c) ∨ q.record = some c ∨ s.Recorded c := by
  rcases hc with hl | ⟨u, hu⟩
  · exact Or.inl hl
  · rw [hph] at hu
    by_cases huk : u = k
    · rw [huk, Function.update_self] at hu
      exact Or.inr (Or.inl hu)
    · rw [Function.update_of_ne huk] at hu
      exact Or.inr (Or.inr ⟨u, hu⟩)

/-- a handler that moves between points which are not before the store of the uid of `c` -/
theorem entered_iff (hk : s.ph k = q0) (hph : s'.ph = Function.update s.ph k q)
    (hq0 : q0 ≠ .entered c) (hq : q ≠ .entered c) :
    (∀ u, s'.ph u ≠ .entered c) ↔ ∀ u, s.ph u ≠ .entered c := by
  have hsame : ∀ u, s'.ph u = .entered c ↔ s.ph u = .entered c := by
    intro u
    rw [hph]
    by_cases huk : u = k
    · rw [huk, Function.update_self, hk]
      exact ⟨fun e => absurd e hq, fun e => absurd e hq0⟩
    · rw [Function.update_of_ne huk]
  exact forall_congr' fun u => not_congr (hsame u)

theorem Server.agrees_of (hk : s.ph k = q0) (hph : s'.ph = Function.update s.ph k q)
    (hlist : ∀ i, s'.session.clientList i = some c → s.session.clientList i = some c)
    (hrec : q.record = some c → q0.record = some c) (hq0 : q0 ≠ .entered c)
    (hq : q ≠ .entered c) (he : (s'.session.mem c).ipEntry = (s.session.mem c).ipEntry)
    (hu : (s'.session.mem c).uid = (s.session.mem c).uid) : s.Agrees s' c := by
  refine ⟨fun hc => ?_, ?_, hu⟩
  · rcases hc.before hph with ⟨i, hi⟩ | hq | hr
    · exact Or.inl ⟨i, hlist i hi⟩
    · exact Or.inr ⟨k, by rw [hk]; exact hrec hq⟩
    · exact Or.inr hr
  · rw [Server.HasUid, Server.HasUid, he, entered_iff hk hph hq0 hq]

/-- a step that writes only `r` to the record `b`, which the connection has from then on -/
theorem Server.agrees_of_write {b : Blk} {r : Client K} (hk : s.ph k = q0)
    (hph : s'.ph = Function.update s.ph k q)
    (hlist : ∀ i, s'.session.clientList i = some c → s.session.clientList i = some c)
    (hmem : s'.session.mem = Function.update s.session.mem b r)
    (hrec : ∀ d, q.record = some d → d = b) (hq0 : ∀ d, d ≠ b → q0 ≠ .entered d) (hcb : c ≠ b) :
    s.Agrees s' c := by
  have hsame : s'.session.mem c = s.session.mem c := by rw [hmem, Function.update_of_ne hcb]
  have hq : q ≠ .entered c := by
    rintro rfl
    exact hcb (hrec c rfl)
  exact Server.agrees_of hk hph hlist (fun e => absurd (hrec c e) hcb) (hq0 c hcb) hq
    (by rw [hsame]) (by rw [hsame])

end

section
variable [Fintype K] {tun : TunIface} {n : ℕ} {s s' : Server K} {a : ConnAct K} {k : K} {b : Blk}

/-- before its address is noted, a record has no uid -/
theorem Server.Inv.acquired_no (hi : s.Inv tun n) {e : Option ℕ} (hk : s.ph k = .acquired b e) :
    ¬ s.HasUid b := by
  intro h
  exact h.1 (hi.phase_ok hk).1

/-- who stands before the store of the uid of a record has the record -/
theorem Server.Inv.entered_own (hi : s.Inv tun n) {u : K} (hu : s.ph u = .entered b)
    (hb : b ∈ (s.ph k).hold) : u = k := by
  apply hi.pool.owner (b := b) _ hb
  rw [hu]
  exact Multiset.mem_singleton_self b

/-- from the store of its uid on, it has one -/
theorem Server.Inv.assign_has (hi : s.Inv tun n) (hk : s.ph k = .entered b) :
    (s.goto k (s.session.initUid b) (.live b true)).HasUid b := by
  refine ⟨?_, fun u hu => ?_⟩
  · have hself : ((s.session.initUid b).mem b) =
        { s.session.mem b with uid := s.session.clientCnt } := Session.setClient_self ..
    show ((s.session.initUid b).mem b).ipEntry ≠ none
    rw [hself]
    exact (hi.phase_ok hk).1
  · change Function.update s.ph k _ u = _ at hu
    by_cases huk : u = k
    · rw [huk, Function.update_self] at hu
      cases hu
    · rw [Function.update_of_ne huk] at hu
      refine huk (hi.entered_own hu ?_)
      rw [hk]
      exact Multiset.mem_singleton_self b

/-- a client with an address has its uid -/
theorem Server.Inv.live_has (hi : s.Inv tun n) {c : Bool} (hk : s.ph k = .live b c)
    (he : (s.session.mem b).ipEntry ≠ none) : s.HasUid b := by
  refine ⟨he, fun u hu => ?_⟩
  have huk : u = k := by
    apply hi.entered_own hu
    rw [hk]
    exact Multiset.mem_singleton_self b
  rw [huk, hk] at hu
  cases hu

theorem Server.step_change (hi : s.Inv tun n) (hs : s.step a = some s') : s.Change a s' := by
  -- the sections that write nothing of it
  have hgo : ∀ (k : K) (q0 q : Phase), s.ph k = q0 → (∀ c, q0 ≠ .entered c) →
      (∀ c, q ≠ .entered c) → s'.ph = Function.update s.ph k q →
      (∀ i c, s'.session.clientList i = some c → s.session.clientList i = some c) →
      s'.session.clientCnt = s.session.clientCnt → s'.session.mem = s.session.mem →
      (∀ c, q.record = some c → q0.record = some c) → s.Change a s' := by
    intro k q0 q hk hq0 hq hph hlist hcnt hmem hrec
    refine .same hcnt fun c => ?_
    exact Server.agrees_of hk hph (fun i => hlist i c) (hrec c) (hq0 c) (hq c) (by rw [hmem])
      (by rw [hmem])
  cases Server.step_move hs with
  | noSlot hk | offer hk | alloc hk | configured hk | connected hk | full hk | reserve hk
  | block hk | allocDone hk | allocFailed hk | close hk | closeConfig hk | fail hk =>
    exact hgo _ _ _ hk (fun _ => Phase.noConfusion) (fun _ => Phase.noConfusion) rfl
      (fun _ _ e => e) rfl rfl fun _ e => e
  | configFailed hk | shutdown hk | outOfRange hk =>
    exact hgo _ _ _ hk (fun _ => Phase.noConfusion) (fun _ => Phase.noConfusion) rfl
      (fun _ _ e => e) rfl rfl fun _ => nofun
  | put hk ht =>
    obtain ⟨p, -, rfl⟩ := Session.clientPut_some ht
    exact hgo _ _ _ hk (fun _ => Phase.noConfusion) (fun _ => Phase.noConfusion) rfl
      (fun _ _ e => e) rfl rfl fun _ => nofun
  | @unlist k b why hk hlock =>
    refine hgo k _ _ hk (fun _ => Phase.noConfusion) (fun _ => Phase.noConfusion) rfl
      (fun i c e => ?_) rfl rfl fun _ => nofun
    have e' : Function.update s.session.clientList (s.session.mem b).slotIdx.toNat none i =
      some c := e
    by_cases hi : i = (s.session.mem b).slotIdx.toNat
    · rw [hi, Function.update_self] at e'
      exact absurd e' (Option.some_ne_none c).symm
    · rw [Function.update_of_ne hi] at e'
      exact e'
  | @clearHandle k b hk =>
    refine .same rfl fun c => Server.agrees_of hk rfl (fun _ e => e) nofun Phase.noConfusion
      Phase.noConfusion (field_update Client.ipEntry s.session.mem b ?_ c)
      (field_update Client.uid s.session.mem b ?_ c)
    · rfl
    · rfl
  | @fill k idx b hk =>
    refine .taken (b := b) rfl (fun c hc => ?_) (fun h => h.1 ?_) fun _ hblock => ?_
    · refine Server.agrees_of_write hk rfl (fun i e => ?_) rfl
        (fun d hd => (Option.some.inj hd).symm) (fun _ _ => Phase.noConfusion) hc
      have e' : Function.update s.session.clientList idx (some b) i = some c := e
      by_cases hi : i = idx
      · rw [hi, Function.update_self] at e'
        exact absurd (Option.some.inj e').symm hc
      · rw [Function.update_of_ne hi] at e'
        exact e'
    · exact congrArg Client.ipEntry (Session.setClient_self ..)
    · refine (congrArg Client.uid (Session.setClient_self ..)).trans (hblock b ?_)
      rw [hk]
      rfl
  | @noEntry k b hk =>
    refine .taken (b := b) rfl (fun c hc => ?_) (fun h => h.1 ?_) fun hclean _ => ?_
    · exact Server.agrees_of_write hk rfl (fun _ e => e) rfl
        (fun d hd => (Option.some.inj hd).symm) (fun _ _ => Phase.noConfusion) hc
    · exact congrArg Client.ipEntry (Session.setClient_self ..)
    · refine (congrArg Client.uid (Session.setClient_self ..)).trans ?_
      exact hclean b (Or.inr ⟨k, by rw [hk]; rfl⟩) (hi.acquired_no hk)
  | @entry k b i hk =>
    refine .taken (b := b) rfl (fun c hc => ?_) (fun h => h.2 k ?_) fun hclean _ => ?_
    · exact Server.agrees_of_write hk rfl (fun _ e => e) rfl
        (fun d hd => (Option.some.inj hd).symm) (fun _ _ => Phase.noConfusion) hc
    · exact Function.update_self ..
    · refine (congrArg Client.uid (Session.setClient_self ..)).trans ?_
      exact hclean b (Or.inr ⟨k, by rw [hk]; rfl⟩) (hi.acquired_no hk)
  | @assign k b hk =>
    refine .given (b := b) rfl (fun c hc => ?_) (hi.assign_has hk) ?_
    · refine Server.agrees_of_write hk rfl (fun _ e => e) rfl
        (fun d hd => (Option.some.inj hd).symm) (fun d hd e => ?_) hc
      exact hd (Phase.entered.inj e).symm
    · exact congrArg Client.uid (Session.setClient_self ..)
  | @clear k b why t hk ht =>
    obtain rfl := Session.removeClear_some ht
    refine .taken (b := b) rfl (fun c hc => ?_) (fun h => h.1 ?_) fun _ _ => ?_
    · exact Server.agrees_of_write hk rfl (fun _ e => e) rfl nofun (fun _ _ => Phase.noConfusion)
        hc
    · exact congrArg Client.ipEntry (Session.setClient_self ..)
    · exact congrArg Client.uid (Session.setClient_self ..)

end

/-! ## the uids -/

section
variable {s s' : Server K} {a : ConnAct K}

/-- a step that gives no uid: every record with its uid had it before -/
theorem Server.Numbered.keep (h : s.Numbered)
    (hcnt : s'.session.clientCnt = s.session.clientCnt)
    (hold : ∀ c, s'.HasUid c → s.Agrees s' c) : s'.Numbered := by
  refine ⟨hcnt ▸ h.pos, fun b hb he => ?_, fun b c hb hc hbe hce hu => ?_⟩
  · have hs := hold b he
    rw [hs.uid, hcnt]
    exact h.given b (hs.known hb) (hs.hasUid.mp he)
  · have hsb := hold b hbe
    have hsc := hold c hce
    rw [hsb.uid, hsc.uid] at hu
    exact h.once b c (hsb.known hb) (hsc.known hc) (hsb.hasUid.mp hbe) (hsc.hasUid.mp hce) hu

/-- the next uid is that of no record yet -/
theorem Server.Numbered.give (h : s.Numbered) {b : Blk}
    (hcnt : s'.session.clientCnt.toNat = s.session.clientCnt.toNat + 1)
    (hold : ∀ c, c ≠ b → s.Agrees s' c)
    (huid : (s'.session.mem b).uid = s.session.clientCnt) : s'.Numbered := by
  -- the uids given before are below the counter
  have hlow : ∀ c, c ≠ b → s'.Known c → s'.HasUid c →
      0 < (s'.session.mem c).uid.toNat ∧
        (s'.session.mem c).uid.toNat < s.session.clientCnt.toNat := by
    intro c hcb hc he
    have hs := hold c hcb
    rw [hs.uid]
    exact h.given c (hs.known hc) (hs.hasUid.mp he)
  have hpos := h.pos
  refine ⟨by omega, fun c hc he => ?_, fun c d hc hd hce hde hu => ?_⟩
  · by_cases hcb : c = b
    · rw [hcb, huid]
      omega
    · have hlt := hlow c hcb hc he
      omega
  · by_cases hcb : c = b
    · by_cases hdb : d = b
      · rw [hcb, hdb]
      · have hlt := (hlow d hdb hd hde).2
        rw [← hu, hcb, huid] at hlt
        exact absurd hlt (lt_irrefl _)
    · by_cases hdb : d = b
      · have hlt := (hlow c hcb hc hce).2
        rw [hu, hdb, huid] at hlt
        exact absurd hlt (lt_irrefl _)
      · have hsc := hold c hcb
        have hsd := hold d hdb
        rw [hsc.uid, hsd.uid] at hu
        exact h.once c d (hsc.known hc) (hsd.known hd) (hsc.hasUid.mp hce) (hsd.hasUid.mp hde) hu

/-- no step breaks it, as long as the counter does not wrap -/
theorem Server.Numbered.step (h : s.Numbered) (hlt : s.session.clientCnt.toNat < 2 ^ 64 - 1)
    (hc : s.Change a s') : s'.Numbered ∧
      s'.session.clientCnt.toNat ≤ s.session.clientCnt.toNat + 1 := by
  cases hc with
  | same hcnt hall => exact ⟨h.keep hcnt fun c _ => hall c, by rw [hcnt]; omega⟩
  | @taken b hcnt hall hno _ =>
    refine ⟨h.keep hcnt fun c hc => hall c ?_, by rw [hcnt]; omega⟩
    rintro rfl
    exact hno hc
  | given hcnt hall _ huid =>
    have hsucc : s'.session.clientCnt.toNat = s.session.clientCnt.toNat + 1 := by
      rw [hcnt, BitVec.toNat_add]
      exact Nat.mod_eq_of_lt (by show _ + 1 < _; omega)
    exact ⟨h.give hsucc hall huid, le_of_eq hsucc⟩

/-- where the blocks are clean, a record has no uid but its own -/
theorem Server.Clean.step (h : s.Clean) (hblock : s.CleanBlock a) (hc : s.Change a s') :
    s'.Clean := by
  have hpass : ∀ c, s.Agrees s' c → s'.Known c → ¬ s'.HasUid c →
      (s'.session.mem c).uid = 0 := by
    intro c hs hc hno
    rw [hs.uid]
    exact h c (hs.known hc) fun he => hno (hs.hasUid.mpr he)
  intro c hk hno
  cases hc with
  | same _ hall => exact hpass c (hall c) hk hno
  | @taken b _ hall _ huid =>
    by_cases hcb : c = b
    · rw [hcb]
      exact huid h hblock
    · exact hpass c (hall c hcb) hk hno
  | @given b _ hall hhas _ =>
    by_cases hcb : c = b
    · exact absurd (hcb ▸ hhas) hno
    · exact hpass c (hall c hcb) hk hno

end

/-- nothing is known yet -/
theorem Server.init_unknown {tun : TunIface} {n : ℕ} {session : Session K}
    (h : session.Fresh tun n) (b : Blk) : ¬ (Server.init session).Known b := by
  rintro (⟨i, hi⟩ | ⟨k, hk⟩)
  · have hi' : session.clientList i = some b := hi
    rw [h.clientList] at hi'
    exact absurd hi' (Option.some_ne_none b).symm
  · exact absurd hk (Option.some_ne_none b).symm

theorem Server.init_numbered {tun : TunIface} {n : ℕ} {session : Session K}
    (h : session.Fresh tun n) (hcnt : session.clientCnt = 1) :
    (Server.init session).Numbered := by
  refine ⟨?_, fun b hb => absurd hb (Server.init_unknown h b),
    fun b c hb => absurd hb (Server.init_unknown h b)⟩
  show 0 < session.clientCnt.toNat
  rw [hcnt]
  decide

/-! ## the answer -/

section
variable {tun : TunIface} {n : ℕ} {s : Server K} {k : K} {b c : Blk} {calloc : Bool}
  {dev : Option TunDev} {raw req : PktCtrl} {resp : Option PktCtrl}

/-- what has been found when a response goes out, and what was read of it then -/
theorem serverProcessCtrlPktAcross_responded {s t : Session K}
    (ha : serverProcessCtrlPktAcross calloc dev s t b raw = .responded req c resp) :
    listFindClientByUid s (s.mem b).uid = some c ∧ ∃ i, (t.mem c).ipEntry = some i ∧
      resp = pktCtrlCreateConfigResp calloc (s.mem b).uid 0 (tunGet 0 TunDev.mtu dev)
        (t.ipPool.ipEntry i).ip (tunGet 0 TunDev.mask dev) (tunGet 0 TunDev.dns1 dev)
        (tunGet 0 TunDev.dns2 dev) := by
  simp only [serverProcessCtrlPktAcross] at ha
  split at ha
  · cases ha
  · split at ha
    · split at ha
      · cases ha
      · rename_i d hd
        split at ha
        · cases ha
        · rename_i i hi
          obtain ⟨-, rfl, hresp⟩ := ReqOutcome.responded.inj ha
          exact ⟨hd, i, hi, hresp.symm⟩
    · cases ha

/-- the search for a client with a uid meets its record, or one that has not got its own yet -/
theorem Server.Numbered.found (h : s.Numbered) (hb : s.Known b) (hu : s.HasUid b)
    (hf : listFindClientByUid s.session (s.session.mem b).uid = some c) :
    c = b ∨ ¬ s.HasUid c ∧ (s.session.mem c).uid = (s.session.mem b).uid := by
  obtain ⟨⟨x, -, hx⟩, hcu⟩ := listFindClientByUid_some hf
  by_cases hc : s.HasUid c
  · exact Or.inl (h.once c b (Or.inl ⟨x, hx⟩) hb hc hu hcu)
  · exact Or.inr ⟨hc, hcu⟩

/-- in clean blocks there is nothing to meet there -/
theorem Server.Clean.found (hclean : s.Clean) (h : s.Numbered) (hb : s.Known b) (hu : s.HasUid b)
    (hf : listFindClientByUid s.session (s.session.mem b).uid = some c) : c = b := by
  rcases h.found hb hu hf with hcb | ⟨hc, hcu⟩
  · exact hcb
  · obtain ⟨⟨x, -, hx⟩, -⟩ := listFindClientByUid_some hf
    rw [hclean c (Or.inl ⟨x, hx⟩) hc] at hcu
    rw [← hcu, listFindClientByUid_zero] at hf
    exact absurd hf (Option.some_ne_none c).symm

end

/-! ## how long an address is kept -/

/-- the connection whose handler makes the step -/
def ConnAct.conn : ConnAct K → K
  | .newConnection k => k
  | .alloc k _ => k
  | .configured k _ => k
  | .connected k => k
  | .shutdownComplete k => k
  | .run k => k

/-- `SHUTDOWN_COMPLETE` has begun -/
def Phase.left : Phase → Bool
  | .removing _ why => why == .shutdown
  | .unlisting _ why => why == .shutdown
  | .putting _ why => why == .shutdown
  | .removed _ why => why == .shutdown
  | .closing _ => true
  | .closed => true
  | _ => false

/-- the connection `k` is up with the record `b` and the entry `i`, or it has gone -/
inductive Server.Held (s : Server K) (k : K) (b : Blk) (i : ℕ) : Prop where
  | up (hk : s.ph k = .live b true) (he : (s.session.mem b).ipEntry = some i)
  | gone (hk : (s.ph k).left = true)

section
variable {s s' : Server K} {a : ConnAct K} {k : K} {b : Blk} {i : ℕ}

/-- a handler moves its own connection, and writes the address of its own record only -/
theorem Server.step_frame (hs : s.step a = some s') :
    (∀ u, u ≠ a.conn → s'.ph u = s.ph u) ∧ ∀ d, d ∉ (s.ph a.conn).hold →
      (s'.session.mem d).ipEntry = (s.session.mem d).ipEntry := by
  have hph : ∀ (j : K) (q : Phase) (u : K), u ≠ j → Function.update s.ph j q u = s.ph u :=
    fun j q u hu => Function.update_of_ne hu q s.ph
  -- a write to the record `c` that the connection holds
  have hrec : ∀ (j : K) (q0 : Phase) (c : Blk) (r : Client K), s.ph j = q0 → q0.hold = {c} →
      ∀ d, d ∉ (s.ph j).hold →
        (Function.update s.session.mem c r d).ipEntry = (s.session.mem d).ipEntry := by
    intro j q0 c r hj hq d hd
    rw [hj, hq, Multiset.mem_singleton] at hd
    rw [Function.update_of_ne hd]
  cases Server.step_move hs with
  | noSlot _ _ | offer _ _ | alloc _ _ | configured _ | configFailed _ | connected _ | shutdown _
  | block _ _ | full _ _ | reserve _ _ | allocDone _ | allocFailed _ | outOfRange _ _ | unlist _ _
  | close _ | closeConfig _ | fail _ => exact ⟨hph _ _, fun _ _ => rfl⟩
  | fill hk | noEntry hk | entry hk | assign hk => exact ⟨hph _ _, hrec _ _ _ _ hk rfl⟩
  | clear hk ht =>
    obtain rfl := Session.removeClear_some ht
    exact ⟨hph _ _, hrec _ _ _ _ hk rfl⟩
  | put hk ht =>
    obtain ⟨_, -, rfl⟩ := Session.clientPut_some ht
    exact ⟨hph _ _, fun _ _ => rfl⟩
  | @clearHandle _ c hk =>
    -- the record may be that of another connection by now, but only its handle is cleared
    refine ⟨hph _ _, fun d _ => field_update Client.ipEntry s.session.mem c ?_ d⟩
    rfl

/-- a connection that has gone is never up again -/
theorem Phase.left_step (hs : s.step a = some s') (hk : (s.ph a.conn).left = true) :
    (s'.ph a.conn).left = true := by
  have hleft : ∀ (j : K) (q : Phase), a.conn = j → s.ph j = q → q.left = true :=
    fun j q hj e => e ▸ hj ▸ hk
  have hself : ∀ (j : K) (q : Phase), q.left = true → (Function.update s.ph j q j).left = true := by
    intro j q hq
    rw [Function.update_self]
    exact hq
  cases Server.step_move hs with
  | noSlot e _ | offer e _ | alloc e _ | configured e | configFailed e | connected e | shutdown e
  | block e _ | full e _ | reserve e _ | allocDone e | allocFailed e | fill e | noEntry e | entry e
  | assign e | closeConfig e | fail e => exact absurd (hleft _ _ rfl e) Bool.false_ne_true
  | @outOfRange k _ _ e _ | @clear k _ _ _ e _ | @unlist k _ _ e _ | @put k _ _ _ e _ =>
    exact hself _ _ (hleft k _ rfl e :)
  | clearHandle e => exact hself _ _ rfl
  | close e => exact hself _ _ rfl

end

section
variable {K : Type} [Fintype K] [DecidableEq K] {tun : TunIface} {n : ℕ} {s s' : Server K}
  {a : ConnAct K} {k : K} {b : Blk} {i : ℕ}

theorem Server.Held.step (hi : s.Inv tun n) (h : s.Held k b i) (hs : s.step a = some s') :
    s'.Held k b i := by
  obtain ⟨hph, hmem⟩ := Server.step_frame hs
  by_cases hka : k = a.conn
  · subst hka
    cases h with
    | gone hk => exact .gone (Phase.left_step hs hk)
    | up hk he =>
      refine .gone ?_
      -- all a connection that is up can do is go down
      cases Server.step_move hs with
      | @shutdown j c cn e =>
        show (Function.update s.ph j (.removing c .shutdown) j).left = true
        rw [Function.update_self]
        rfl
      | connected e => exact absurd (Phase.live.inj (hk.symm.trans e)).2 Bool.false_ne_true.symm
      | noSlot e _ | offer e _ | alloc e _ | configured e | configFailed e | block e _ | full e _
      | reserve e _ | allocDone e | allocFailed e | fill e | noEntry e | entry e | assign e
      | outOfRange e _ | clear e _ | unlist e _ | put e _ | clearHandle e | close e | closeConfig e
      | fail e =>
        exact Phase.noConfusion (hk.symm.trans e)
  · cases h with
    | gone hk => exact .gone (by rw [hph k hka]; exact hk)
    | up hk he =>
      refine .up ((hph k hka).trans hk) ((hmem b fun hb => hka ?_).trans he)
      apply hi.pool.owner (b := b) _ hb
      rw [hk]
      exact Multiset.mem_singleton_self b

theorem Server.Held.live (h : s.Held k b i) {d : Blk} {c : Bool} (hk : s.ph k = .live d c) :
    d = b ∧ (s.session.mem b).ipEntry = some i := by
  cases h with
  | gone hg =>
    rw [hk] at hg
    exact absurd hg Bool.false_ne_true
  | up hk' he => exact ⟨(Phase.live.inj (hk.symm.trans hk')).1, he⟩

/-- a client with an address is past `CONNECTED` -/
theorem Server.Inv.held (hi : s.Inv tun n) {c : Bool} (hk : s.ph k = .live b c)
    (he : (s.session.mem b).ipEntry = some i) : s.Held k b i := by
  cases c with
  | true => exact .up hk he
  | false =>
    have hnone := (hi.phase_ok hk).1 rfl
    exact absurd (he.symm.trans hnone) (Option.some_ne_none i)

/-- what holds along a run from a client with an address -/
theorem Server.Held.run (hi : s.Inv tun n) (h : s.Held k b i) {l : List (ConnAct K)}
    (hs : exec Server.step s l = some s') : s'.Inv tun n ∧ s'.Held k b i := by
  refine exec_inv (I := fun t => t.Inv tun n ∧ t.Held k b i) (fun t a t' ht hst => ?_) ⟨hi, h⟩ hs
  exact ⟨Server.step_inv t a t' ht.1 hst, ht.2.step ht.1 hst⟩

/-- two clients that are up never have one address -/
theorem Server.Inv.address_unique (hi : s.Inv tun n) {u : K} {d : Blk} {c c' : Bool} {j : ℕ}
    (hk : s.ph k = .live b c) (he : (s.session.mem b).ipEntry = some i)
    (hu : s.ph u = .live d c') (hd : (s.session.mem d).ipEntry = some j)
    (hip : (s.session.ipPool.ipEntry j).ip = (s.session.ipPool.ipEntry i).ip) : u = k := by
  have hci := hi.live_entry hk he
  have hcj := hi.live_entry hu hd
  obtain rfl := hi.subnet.ip_inj (hi.ok.bound j (by rw [hcj]; exact Option.some_ne_none d))
    (hi.ok.bound i (by rw [hci]; exact Option.some_ne_none b)) hip
  obtain rfl : d = b := Option.some.inj (hcj.symm.trans hci)
  apply hi.pool.owner (b := d)
  · rw [hu]
    exact Multiset.mem_singleton_self d
  · rw [hk]
    exact Multiset.mem_singleton_self d

/-- an answer from the record of the client itself is its address, whenever it is read -/
theorem Server.Inv.answered_own (hi : s.Inv tun n) {c : Bool} (hk : s.ph k = .live b c)
    (he : (s.session.mem b).ipEntry = some i) {l : List (ConnAct K)} {t : Server K}
    (ht : exec Server.step s l = some t) (hkt : t.ph k = .live b c) {calloc : Bool}
    {dev : Option TunDev} {raw req pkt : PktCtrl} {resp : Option PktCtrl}
    (ha : serverProcessCtrlPktAcross calloc dev s.session t.session b raw =
      .responded req b resp) (hpkt : resp = some pkt) :
    ConfigResp.ip.get pkt = (s.session.ipPool.ipEntry i).ip := by
  obtain ⟨-, j, hj, hresp⟩ := serverProcessCtrlPktAcross_responded ha
  obtain ⟨hti, hheld⟩ := Server.Held.run hi (hi.held hk he) ht
  obtain rfl : i = j := Option.some.inj ((hheld.live hkt).2.symm.trans hj)
  rw [hresp, pktCtrlCreateConfigResp, Option.ite_none_right_eq_some] at hpkt
  obtain ⟨-, e⟩ := hpkt
  rw [← Option.some.inj e, (fillConfigResp_body ..).2.2.1, hti.subnet.ip, hi.subnet.ip]

/-! ## the main result -/

theorem Server.reach_numbered {session : Session K} (h0 : session.Fresh tun n)
    (hcnt : session.clientCnt = 1) {l : List (ConnAct K)} (hl : l.length < 2 ^ 64 - 1)
    (hs : exec Server.step (Server.init session) l = some s) : s.Inv tun n ∧ s.Numbered := by
  refine exec_bounded (I := fun t => t.Inv tun n ∧ t.Numbered)
    (μ := fun t : Server K => t.session.clientCnt.toNat) (N := 2 ^ 64 - 1)
    (fun t a t' h hlt hst => ?_) ⟨Server.init_inv h0, Server.init_numbered h0 hcnt⟩ ?_ hs
  · obtain ⟨hn, hle⟩ := h.2.step hlt (Server.step_change h.1 hst)
    exact ⟨⟨Server.step_inv t a t' h.1 hst, hn⟩, hle⟩
  · show session.clientCnt.toNat + l.length ≤ 2 ^ 64 - 1
    rw [hcnt]
    show 1 + l.length ≤ _
    omega

theorem Server.reach_clean {session : Session K} (h0 : session.Fresh tun n) {l : List (ConnAct K)}
    (hs : exec Server.step (Server.init session) l = some s)
    (hclean : Along Server.step Server.CleanBlock (Server.init session) l) : s.Clean := by
  have h : s.Inv tun n ∧ s.Clean := by
    refine exec_inv_along (I := fun t => t.Inv tun n ∧ t.Clean) (fun t a t' h hC hst => ?_)
      ⟨Server.init_inv h0, fun b hb => absurd hb (Server.init_unknown h0 b)⟩ hs hclean
    exact ⟨Server.step_inv t a t' h.1 hst, h.2.step hC (Server.step_change h.1 hst)⟩
  exact h.2

/-- **Whose address.**  Whatever clients have come and gone, a CONFIG_REQ of a client that has an
address is answered, if it is, from the record of that client, unless the search by uid meets one that
has not got its own uid yet and has the same number from before, which clean blocks exclude.  The
answer from its own record is its own address, whatever the other handlers do meanwhile, and nobody
else has that while the client is connected. -/
theorem answers_own {session : Session K} (h0 : session.Fresh tun n)
    (hcnt : session.clientCnt = 1) {l : List (ConnAct K)} (hl : l.length < 2 ^ 64 - 1)
    (hs : exec Server.step (Server.init session) l = some s) {c : Bool}
    (hk : s.ph k = .live b c) (he : (s.session.mem b).ipEntry = some i) {l' : List (ConnAct K)}
    {t : Server K} (ht : exec Server.step s l' = some t) (hkt : t.ph k = .live b c) {calloc : Bool}
    {dev : Option TunDev} {raw req : PktCtrl} {d : Blk} {resp : Option PktCtrl}
    (ha : serverProcessCtrlPktAcross calloc dev s.session t.session b raw =
      .responded req d resp) :
    (d = b ∨ ¬ s.HasUid d ∧ (s.session.mem d).uid = (s.session.mem b).uid) ∧
    (Along Server.step Server.CleanBlock (Server.init session) l → d = b) ∧
    (d = b → ∀ pkt, resp = some pkt →
      ConfigResp.ip.get pkt = (s.session.ipPool.ipEntry i).ip) ∧
    ∀ l'' v, exec Server.step s l'' = some v → ∀ d' c', v.ph k = .live d' c' →
      ∀ u e cu j, v.ph u = .live e cu → (v.session.mem e).ipEntry = some j →
        (v.session.ipPool.ipEntry j).ip = (s.session.ipPool.ipEntry i).ip → u = k := by
  obtain ⟨hi, hn⟩ := Server.reach_numbered h0 hcnt hl hs
  obtain ⟨hfind, -⟩ := serverProcessCtrlPktAcross_responded ha
  have hknown : s.Known b := Or.inr ⟨k, by rw [hk]; rfl⟩
  have hhas : s.HasUid b := hi.live_has hk (by rw [he]; exact Option.some_ne_none i)
  refine ⟨hn.found hknown hhas hfind, fun hclean => ?_, fun hd pkt hpkt => ?_,
    fun l'' v hv d' c' hkv u e cu j hu hj hip => ?_⟩
  · exact (Server.reach_clean h0 hs hclean).found hn hknown hhas hfind
  · exact hi.answered_own hk he ht hkt (hd ▸ ha) hpkt
  · obtain ⟨hvi, hheld⟩ := Server.Held.run hi (hi.held hk he) hv
    obtain ⟨rfl, hentry⟩ := hheld.live hkv
    refine hvi.address_unique hkv hentry hu hj (hip.trans ?_)
    rw [hvi.subnet.ip, hi.subnet.ip]

end

end

/-! ## one client after another -/

def oneAfterAnother : List (ConnAct (Option Bool)) :=
  oneClient (some false) ++ nextClient (some false) (some true)

/-- a third one comes in -/
def oneMore : List (ConnAct (Option Bool)) :=
  [.newConnection none, .run none, .alloc none (some 101), .run none, .run none]

theorem oneAfterAnother_ends : ∃ s t,
    exec Server.step (Server.init (fourSlots (Option Bool))) oneAfterAnother = some s ∧
      exec Server.step s oneMore = some t ∧
      s.ph (some true) = .live 100 true ∧ (s.session.mem 100).ipEntry = some 2 ∧
      listFindClientByUid s.session (s.session.mem 100).uid = some 100 ∧
      t.ph (some true) = .live 100 true ∧ (t.session.mem 100).ipEntry = some 2 := by
  have h : ((exec Server.step (Server.init (fourSlots (Option Bool))) oneAfterAnother).bind
      fun s => (exec Server.step s oneMore).map fun t => (s.ph (some true),
        (s.session.mem 100).ipEntry, listFindClientByUid s.session (s.session.mem 100).uid,
        t.ph (some true), (t.session.mem 100).ipEntry))
      = some (.live 100 true, some 2, some 100, .live 100 true, some 2) := by decide
  obtain ⟨s, hs, h⟩ := Option.bind_eq_some_iff.mp h
  obtain ⟨t, ht, e⟩ := Option.map_eq_some_iff.mp h
  simp only [Prod.mk.injEq] at e
  exact ⟨s, t, hs, ht, e⟩

theorem answers_own_second : ∃ s t req d resp,
    exec Server.step (Server.init (fourSlots (Option Bool))) oneAfterAnother = some s ∧
      exec Server.step s oneMore = some t ∧
      serverProcessCtrlPktAcross true none s.session t.session 100 (fillConfigReq 0 0 none) =
        .responded req d resp ∧
      d = 100 ∧ ∀ pkt, resp = some pkt →
        ConfigResp.ip.get pkt = (s.session.ipPool.ipEntry 2).ip := by
  obtain ⟨s, t, hs, ht, hk, he, hfind, hkt, het⟩ := oneAfterAnother_ends
  have ha : serverProcessCtrlPktAcross true none s.session t.session 100 (fillConfigReq 0 0 none) =
      .responded _ 100 _ := serverProcessCtrlPktAcross_found (fillConfigReq_isConfigReq 0 0 none) hfind het
  obtain ⟨-, hclean, hip, -⟩ := answers_own fourSlots_fresh rfl (by decide) hs hk he ht hkt ha
  have hd : (100 : Blk) = 100 := hclean (by decide)
  exact ⟨s, t, _, 100, _, hs, ht, ha, hd, hip hd⟩

/-- a session on the eight addresses of `10.8.0.1/29`, where every block has the number of the first
client in it -/
def eightNumbered : Session Bool where
  ipPool := ⟨0x0000080a, 0xf8ffffff, 0x0100080a, ipPoolEntry 0x0a080000 0x0a080001 8, 8, 0⟩
  clientList := fun _ => none
  clientPool := ⟨sizeofClient, 8, 0, 0, none, fun _ => none⟩
  clientCnt := 1
  mem := fun _ => ⟨none, 1, 0, none⟩

/-- a client connects while another stands between its address and its uid -/
def whileEntered : List (ConnAct Bool) :=
  (oneClient false).take 8 ++ [.newConnection true, .run true, .alloc true (some 101), .run true,
    .run true, .configured true true, .connected true, .run true, .run true]

/-- the search for the second client, with the entry 3, meets the record of the first, with the entry 2 -/
example : (exec Server.step (Server.init eightNumbered) whileEntered).map
    (fun s => (s.ph true, (s.session.mem 101).ipEntry, (s.session.mem 100).ipEntry,
      listFindClientByUid s.session (s.session.mem 101).uid)) =
    some (.live 101 true, some 3, some 2, some 100) := by decide

end QuicVpn
