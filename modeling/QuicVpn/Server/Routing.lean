import QuicVpn.Packet.Tunnel
import QuicVpn.Server.Capacity
import QuicVpn.Server.Client
import QuicVpn.Server.Lookup

/-!
# Routing of the packets from the TUN device (`thread_pkt_data_send` of the server)

One iteration of the loop, from the `read` on, while no handler runs.

* `threadPktDataSend`     what the iteration calls;
* `ipv4Dest x`            bytes 16 to 19 of `x`, as an address;
* `PoolHistory.Assigned`  the client that has an address, by the history of the address pool.

The main result is `send_routes`.
-/

set_option linter.unusedSectionVars false

namespace QuicVpn
open Conc

/-- the calls of an iteration that pass the block on -/
inductive SendCall (K : Type) where
  | datagramSend (connection : Option K) (bytes : List Byte)
  | poolPut
  deriving DecidableEq

/-- an iteration of `thread_pkt_data_send` with the block `pkt`.  `bytesRead` is what `read` has put
into it, nothing after an error; `msQuic` and `api` tell whether the two pointers are set, and `ok`
whether `DatagramSend` succeeds. -/
def threadPktDataSend {K : Type} (session : Session K) (msQuic api ok : Bool) (pkt : PktData) :
    Option (List Byte) → List (SendCall K)
  | none => [.poolPut]
  | some bytesRead =>
    let data := PktData.dataRegion.write pkt.data bytesRead
    match pktDataIphdr data bytesRead.length with
    | .error _ => [.poolPut]
    | .ok (_, dest) =>
      match ipClientSearch session.ipPool dest with
      | none => [.poolPut]
      | some client =>
        if !msQuic then []
        else if !api then []
        else
          let pkt : PktData := ⟨BitVec.ofNat 32 bytesRead.length, data⟩
          .datagramSend (session.mem client).connectionHandle pkt.bytes ::
            if ok then [] else [.poolPut]

/-- the destination in an IPv4 header -/
def ipv4Dest (x : List Byte) : InAddr := BitVec.ofNat 32 (leNat ((x.drop 16).take 4))

/-- by the history, the client `c` has the address `a` -/
def PoolHistory.Assigned (s : PoolHistory) (a : InAddr) (c : Blk) : Prop :=
  ∃ i < s.pool.maxClients, (s.pool.ipEntry i).ip = a ∧ owner s.log i = some c

/-! ## the header -/

/-- the destination that `pkt_data_iphdr` finds in the bytes read -/
theorem pktDataIphdr_read (r : Record datapktbuf) {x : List Byte} (hx : x.length ≤ datapktbuf) :
    if isIpv4 x = true then
      ∃ src, pktDataIphdr (PktData.dataRegion.write r x) x.length = .ok (src, ipv4Dest x)
    else ∃ e, pktDataIphdr (PktData.dataRegion.write r x) x.length = .error e := by
  have hlt : x.length < 2 ^ 32 := lt_of_le_of_lt hx (by decide)
  have hnat : (BitVec.ofNat 32 x.length).toNat = x.length := by
    rw [BitVec.toNat_ofNat, Nat.mod_eq_of_lt hlt]
  have hbytes : PktData.bytes ⟨BitVec.ofNat 32 x.length, PktData.dataRegion.write r x⟩ = x := by
    rw [PktData.bytes, hnat, PktData.write_data r hx, List.take_left]
  have hok := @pktDataIphdr_isOk ⟨BitVec.ofNat 32 x.length, PktData.dataRegion.write r x⟩
    (by rw [hnat]; exact hx)
  rw [hbytes, hnat] at hok
  cases h : pktDataIphdr (PktData.dataRegion.write r x) x.length with
  | error e =>
    rw [h] at hok
    rw [← hok, if_neg (show ¬ Except.isOk (.error e : Except ℤ (InAddr × InAddr)) = true from
      Bool.false_ne_true)]
    exact ⟨e, rfl⟩
  | ok v =>
    rw [h] at hok
    rw [← hok, if_pos (show Except.isOk (.ok v : Except ℤ (InAddr × InAddr)) = true from rfl)]
    have h20 : 20 ≤ x.length := by
      have hv : isIpv4 x = true := hok.symm
      rw [isIpv4, Bool.and_eq_true] at hv
      exact of_decide_eq_true hv.1
    -- the destination lies in the bytes that were read
    have hdest : Iphdr.daddr.get (PktData.dataRegion.write r x) = ipv4Dest x := by
      have hreg : Iphdr.daddr.region.get (PktData.dataRegion.write r x) = (x.drop 16).take 4 := by
        show ((PktData.dataRegion.write r x).1.drop 16).take 4 = _
        rw [PktData.write_data r hx, List.drop_append_of_le_length (by omega),
          List.take_append_of_le_length]
        rw [List.length_drop]
        omega
      rw [Field.get, hreg]
      rfl
    unfold pktDataIphdr at h
    split at h
    · cases h
    · split at h
      · cases h
      · cases h
        rw [hdest]
        exact ⟨_, rfl⟩

/-! ## the pool after any calls -/

section
variable {tun : TunIface} {p : IpPool} {c1 c2 : Bool} {l : List PoolCall} {u : PoolHistory}

/-- only a mask that `validate_mask` accepts makes a pool -/
theorem ipPoolCreate_validateMask (hp : ipPoolCreate (some tun) c1 c2 = some p) :
    validateMask tun.mask = true := by
  simp only [ipPoolCreate, Option.ite_none_left_eq_some] at hp
  simpa using hp.2.1

/-- nothing is ever handed out from an empty table -/
theorem PoolHistory.empty_step {s s' : PoolHistory} {a : PoolCall}
    (h : s.pool.maxClients = 0 ∧ s.log = []) (hs : s.step a = some s') :
    s'.pool.maxClients = 0 ∧ s'.log = [] := by
  rcases a with (_ | c) | e
  · exact Option.some.inj hs ▸ h
  · have hnone : (ipAcquire s.pool c).1 = none := by
      rw [ipAcquire_none_iff, h.1]
      exact fun i hi => absurd hi (Nat.not_lt_zero i)
    have hpool := (acquire_none hnone).1
    have e : ipAcquire s.pool c = (none, s.pool) := Prod.ext hnone hpool
    simp only [PoolHistory.step, e] at hs
    exact Option.some.inj hs ▸ h
  · simp only [PoolHistory.step, h.2, List.any_nil, Bool.false_eq_true, if_false] at hs
    cases hs

/-- **The search after any calls** returns the client that has the address by the history; a reserved
address is nobody's. -/
theorem search_assigned (hp : ipPoolCreate (some tun) c1 c2 = some p)
    (h : exec PoolHistory.step ⟨p, []⟩ l = some u) (a : InAddr) :
    (∀ c, ipClientSearch u.pool a = some c ↔ u.Assigned a c) ∧
      (tun.Reserved a → ipClientSearch u.pool a = none) := by
  by_cases h0 : tun.mask = 0
  · -- the table is empty
    obtain ⟨hmax, _⟩ := exec_inv (I := fun s : PoolHistory => s.pool.maxClients = 0 ∧ s.log = [])
      (fun _ _ _ hi hs => PoolHistory.empty_step hi hs) ⟨ipPoolCreate_zero h0 hp, rfl⟩ h
    have hnone : ipClientSearch u.pool a = none :=
      ipClientSearch_other a fun i hi => absurd (hmax ▸ hi) (Nat.not_lt_zero i)
    refine ⟨fun c => ?_, fun _ => hnone⟩
    rw [hnone]
    refine iff_of_false (Option.some_ne_none c).symm ?_
    rintro ⟨i, hi, _⟩
    exact absurd (hmax ▸ hi) (Nat.not_lt_zero i)
  · obtain ⟨n, hn, hm⟩ := prefix_of_ne_zero (ipPoolCreate_validateMask hp) h0
    have hi := PoolHistory.inv_of_exec hn hm hp h
    have hsearch : ∀ c, ipClientSearch u.pool a = some c ↔ u.Assigned a c := by
      intro c
      constructor
      · intro hc
        obtain ⟨i, hlt, hip, hcl⟩ := ipClientSearch_some hc
        exact ⟨i, hlt, hip, (congrFun hi.clients i).symm.trans hcl⟩
      · rintro ⟨i, hlt, rfl, ho⟩
        rw [ipClientSearch_entry hi.subnet hi.ok hlt, hi.clients]
        exact ho
    refine ⟨hsearch, fun hr => ?_⟩
    cases hc : ipClientSearch u.pool a with
    | none => rfl
    | some c =>
      obtain ⟨i, _, rfl, hcl⟩ := ipClientSearch_some hc
      exact absurd hr (hi.ok.not_reserved hcl)

end

/-! ## the iteration -/

section
variable {K : Type} {session : Session K} {ok : Bool} {pkt : PktData} {x : List Byte}

/-- the iteration on a packet of the header check and the search -/
theorem threadPktDataSend_some (hx : x.length ≤ datapktbuf) (h4 : isIpv4 x = true) {c : Blk}
    (hc : ipClientSearch session.ipPool (ipv4Dest x) = some c) :
    threadPktDataSend session true true ok pkt (some x) =
      .datagramSend (session.mem c).connectionHandle x :: if ok then [] else [.poolPut] := by
  have h := pktDataIphdr_read pkt.data hx
  rw [if_pos h4] at h
  obtain ⟨src, h⟩ := h
  have hlt : x.length < 2 ^ 32 := lt_of_le_of_lt hx (by decide)
  have hbytes : PktData.bytes ⟨BitVec.ofNat 32 x.length, PktData.dataRegion.write pkt.data x⟩ = x := by
    rw [PktData.bytes, BitVec.toNat_ofNat, Nat.mod_eq_of_lt hlt, PktData.write_data pkt.data hx,
      List.take_left]
  unfold threadPktDataSend
  dsimp only
  rw [h]
  dsimp only
  rw [hc]
  dsimp only
  rw [hbytes]
  rfl

theorem threadPktDataSend_none (hx : x.length ≤ datapktbuf)
    (hc : isIpv4 x = true → ipClientSearch session.ipPool (ipv4Dest x) = none) :
    threadPktDataSend session true true ok pkt (some x) = [.poolPut] := by
  have h := pktDataIphdr_read pkt.data hx
  by_cases h4 : isIpv4 x = true
  · rw [if_pos h4] at h
    obtain ⟨src, h⟩ := h
    unfold threadPktDataSend
    dsimp only
    rw [h]
    dsimp only
    rw [hc h4]
  · rw [if_neg h4] at h
    obtain ⟨e, h⟩ := h
    unfold threadPktDataSend
    dsimp only
    rw [h]

end

/-- **Routing.**  Whatever the address pool has gone through, an iteration with MsQuic set up passes the
bytes read on to the connection of the client that has the destination address, once; every other
packet is dropped and its block is put back, and so is a packet to a reserved address. -/
theorem send_routes {K : Type} {tun : TunIface} {p : IpPool} {c1 c2 : Bool}
    (hp : ipPoolCreate (some tun) c1 c2 = some p) {l : List PoolCall} {u : PoolHistory}
    (h : exec PoolHistory.step ⟨p, []⟩ l = some u) (session : Session K)
    (hs : session.ipPool = u.pool) (ok : Bool) (pkt : PktData) (x : List Byte)
    (hx : x.length ≤ 2048) :
    (∀ c, 20 ≤ x.length → (x.headD 0).toNat / 16 = 4 → u.Assigned (ipv4Dest x) c →
      threadPktDataSend session true true ok pkt (some x) =
        .datagramSend (session.mem c).connectionHandle x :: if ok then [] else [.poolPut]) ∧
    ((¬ ∃ c, 20 ≤ x.length ∧ (x.headD 0).toNat / 16 = 4 ∧ u.Assigned (ipv4Dest x) c) →
      threadPktDataSend session true true ok pkt (some x) = [.poolPut]) ∧
    (tun.Reserved (ipv4Dest x) →
      threadPktDataSend session true true ok pkt (some x) = [.poolPut]) := by
  obtain ⟨hsearch, hres⟩ := search_assigned hp h (ipv4Dest x)
  rw [← hs] at hsearch hres
  have h4 : isIpv4 x = true ↔ 20 ≤ x.length ∧ (x.headD 0).toNat / 16 = 4 := by
    rw [isIpv4, Bool.and_eq_true, decide_eq_true_iff, decide_eq_true_iff]
  refine ⟨?_, ?_, ?_⟩
  · intro c h20 hv hc
    exact threadPktDataSend_some hx (h4.mpr ⟨h20, hv⟩) ((hsearch c).mpr hc)
  · intro hno
    refine threadPktDataSend_none hx fun hip => ?_
    cases hc : ipClientSearch session.ipPool (ipv4Dest x) with
    | none => rfl
    | some c => exact absurd ⟨c, (h4.mp hip).1, (h4.mp hip).2, (hsearch c).mp hc⟩ hno
  · exact fun hr => threadPktDataSend_none hx fun _ => hres hr

/-- an IPv4 header of a packet to `10.0.0.2` -/
def toFirst : List Byte := 0x45 :: List.replicate 15 0 ++ [10, 0, 0, 2]

/-- client `7` has the first free address of `10.0.0.1/29` -/
theorem send_routes_first : ∃ p u, ipPoolCreate (some tunFive) true true = some p ∧
    exec PoolHistory.step ⟨p, []⟩ [.acquire (some 7)] = some u ∧
    threadPktDataSend ⟨u.pool, fun _ => none, ⟨64, 0, 0, 0, none, fun _ => none⟩, 0,
        fun b => ⟨some b, 0, 0, none⟩⟩ true true true ⟨0, Record.zero datapktbuf⟩ (some toFirst) =
      [.datagramSend (some 7) toFirst] := by
  refine ⟨_, _, rfl, rfl, ?_⟩
  exact (@send_routes ℕ tunFive _ true true rfl [.acquire (some 7)] _ rfl
    ⟨_, fun _ => none, ⟨64, 0, 0, 0, none, fun _ => none⟩, 0, fun b => ⟨some b, 0, 0, none⟩⟩ rfl true
    ⟨0, Record.zero datapktbuf⟩ toFirst (by decide)).1 7 (by decide) (by decide)
    ⟨2, by decide, by decide, by decide⟩

end QuicVpn
