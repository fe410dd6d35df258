import QuicVpn.Lib.Cycle
import QuicVpn.Server.RoundRobin

/-!
# The capacity of an address pool

A fresh pool is asked for addresses again and again, and nothing is released.

* `acquireAll p cs`       what the calls of `ip_acquire` for the clients `cs` return;
* `IpPool.freeAddrs p`    the addresses that are not in use, in the order of the next scan; a call takes
                          the first (`acquire_head`, `acquire_tail`);
* `HandsOut tun p`        the calls return the addresses of the subnet that are not reserved, each
                          once, and then NULL.

The main result is `handsOut_iff`: the size of the table is computed in 32 bits and is `0` for the mask
`0.0.0.0`.
-/

set_option linter.unusedSectionVars false

namespace QuicVpn
open Conc

/-- the addresses that successive calls of `ip_acquire` return -/
def acquireAll (p : IpPool) : List Blk → List (Option InAddr)
  | [] => []
  | c :: cs =>
    let r := ipAcquire p c
    r.1.map (fun i => (r.2.ipEntry i).ip) :: acquireAll r.2 cs

/-- the addresses that are not in use, in the order of the next scan -/
def IpPool.freeAddrs (p : IpPool) : List InAddr :=
  (p.order.filter fun i => !(p.ipEntry i).used).map fun i => (p.ipEntry i).ip

/-- the calls return exactly the addresses of the subnet but the reserved ones, each once, and then
NULL -/
def HandsOut (tun : TunIface) (p : IpPool) : Prop :=
  ∃ xs : List InAddr, xs.Nodup ∧
    (∀ a, a ∈ xs ↔ a &&& tun.mask = tunGetNet tun ∧ ¬ tun.Reserved a) ∧
    ∀ cs, acquireAll p cs = (List.range cs.length).map fun k => xs[k]?

/-! ## one call -/

section
variable {p : IpPool}

/-- a call that returns NULL leaves the pool as it is, and nothing was free -/
theorem acquire_none {c : Blk} (h : (ipAcquire p c).1 = none) :
    (ipAcquire p c).2 = p ∧ p.freeAddrs = [] := by
  have hall := (ipAcquire_none_iff p c).mp h
  rcases ipAcquire_cases p c with ⟨e, _⟩ | ⟨i, _, _, e⟩
  · refine ⟨by rw [e], ?_⟩
    unfold IpPool.freeAddrs
    rw [List.map_eq_nil_iff, List.filter_eq_nil_iff]
    intro i hi
    rw [hall i (IpPool.order_lt hi)]
    exact Bool.false_ne_true
  · rw [e] at h
    cases h

/-- a call that returns an entry takes the first free address -/
theorem acquire_some {c : Blk} {i : ℕ} (h : (ipAcquire p c).1 = some i) :
    p.freeAddrs = (p.ipEntry i).ip :: (ipAcquire p c).2.freeAddrs := by
  obtain ⟨A, B, hAB, hA, hu, hord, hpool⟩ := ipAcquire_split h
  have hn : (A ++ i :: B).Nodup := by
    rw [← hAB]
    exact nodup_cycle _ _
  have hiB : i ∉ B := (List.nodup_cons.mp (List.nodup_append.mp hn).2.1).1
  have hentry : (ipAcquire p c).2.ipEntry = (p.setEntry i true (some c)).ipEntry := by
    rw [hpool]
  have hold : ∀ k ∈ A, ¬ (!(p.ipEntry k).used) = true := by
    intro k hk
    rw [hA k hk]
    exact Bool.false_ne_true
  have hnew : ∀ k ∈ A ++ [i], ¬ (!((p.setEntry i true (some c)).ipEntry k).used) = true := by
    intro k hk
    by_cases hki : k = i
    · rw [hki, p.setEntry_self]
      exact Bool.false_ne_true
    · rw [p.setEntry_of_ne hki]
      refine hold k ((List.mem_append.mp hk).resolve_right fun hm => hki ?_)
      exact List.mem_singleton.mp hm
  have hB : (B.filter fun k => !((p.setEntry i true (some c)).ipEntry k).used)
      = B.filter fun k => !(p.ipEntry k).used := by
    apply List.filter_congr
    intro k hk
    have hki : k ≠ i := fun e => hiB (e ▸ hk)
    rw [p.setEntry_of_ne hki]
  unfold IpPool.freeAddrs
  rw [hord, hentry, hAB, List.filter_append, List.filter_eq_nil_iff.mpr hold, List.nil_append,
    List.filter_append, List.filter_eq_nil_iff.mpr hnew, List.append_nil, hB,
    List.filter_cons_of_pos (by rw [hu]; rfl), List.map_cons]
  congr 1
  apply List.map_congr_left
  intro k _
  rw [IpPool.setEntry_ip]

/-- **All the calls.**  The `k`-th returns the `k`-th free address. -/
theorem acquireAll_eq (p : IpPool) (cs : List Blk) :
    acquireAll p cs = (List.range cs.length).map fun k => p.freeAddrs[k]? := by
  induction cs generalizing p with
  | nil => rfl
  | cons c cs ih =>
    rw [acquireAll, ih, List.length_cons, List.range_succ_eq_map, List.map_cons, List.map_map]
    cases h : (ipAcquire p c).1 with
    | none =>
      obtain ⟨hp, hf⟩ := acquire_none h
      rw [hp, hf]
      rfl
    | some i =>
      have hf := acquire_some h
      have hip : ((ipAcquire p c).2.ipEntry i).ip = (p.ipEntry i).ip := by
        obtain ⟨_, _, _, _, _, _, hpool⟩ := ipAcquire_split h
        rw [hpool]
        exact IpPool.setEntry_ip p i i true (some c)
      rw [hf]
      show some ((ipAcquire p c).2.ipEntry i).ip :: _ = _
      rw [hip]
      rfl

end

/-! ## a fresh pool -/

section
variable {tun : TunIface} {n : ℕ} {p : IpPool}

/-- the addresses of the table are those of the subnet -/
theorem IpPool.Subnet.mem_iff (h : p.Subnet tun n) (a : InAddr) :
    a &&& tun.mask = tunGetNet tun ↔ ∃ i < p.maxClients, (p.ipEntry i).ip = a := by
  have hnet := ntohl_tunGetNet h.mask
  have hand : ∀ x : InAddr, x &&& tun.mask = tunGetNet tun ↔
      (ntohl x).toNat / 2 ^ (32 - n) * 2 ^ (32 - n) = (ntohl (tunGetNet tun)).toNat := by
    intro x
    rw [← and_prefixMask, ← h.mask, ← ntohl_and]
    constructor
    · intro e
      rw [e]
    · intro e
      rw [← ntohl_ntohl (x &&& tun.mask), BitVec.eq_of_toNat_eq e, ntohl_ntohl]
  have hpos : 0 < 2 ^ (32 - n) := Nat.two_pow_pos _
  rw [hand, h.maxClients]
  constructor
  · intro e
    have hdm := Nat.div_add_mod (ntohl a).toNat (2 ^ (32 - n))
    have hlt := Nat.mod_lt (ntohl a).toNat hpos
    refine ⟨(ntohl a).toNat % 2 ^ (32 - n), hlt, ?_⟩
    rw [h.ip, htonl_eq_iff]
    apply BitVec.eq_of_toNat_eq
    rw [netHost_add h.mask _ hlt, ← e, Nat.mul_comm]
    exact hdm
  · rintro ⟨i, hi, rfl⟩
    rw [h.ip, ntohl_htonl, netHost_add h.mask i hi, hnet]
    congr 1
    rw [Nat.mul_comm, Nat.mul_add_div hpos, Nat.div_eq_of_lt hi, Nat.add_zero]

/-- with a prefix of at least one bit the free addresses are the right ones -/
theorem freeAddrs_fresh (hs : p.Subnet tun n) (hok : p.Ok tun)
    (hc : ∀ i, (p.ipEntry i).client = none) :
    p.freeAddrs.Nodup ∧
      ∀ a, a ∈ p.freeAddrs ↔ a &&& tun.mask = tunGetNet tun ∧ ¬ tun.Reserved a := by
  have hused : ∀ i < p.maxClients, (p.ipEntry i).used = false ↔ ¬ tun.Reserved (p.ipEntry i).ip := by
    intro i hi
    rw [← Bool.not_eq_true, hok.used i hi, hc i]
    simp
  refine ⟨?_, fun a => ?_⟩
  · refine List.Nodup.map_on ?_ ((nodup_cycle _ _).filter _)
    intro i hi j hj e
    exact hs.ip_inj (IpPool.order_lt (List.mem_filter.mp hi).1)
      (IpPool.order_lt (List.mem_filter.mp hj).1) e
  · rw [hs.mem_iff]
    unfold IpPool.freeAddrs
    rw [List.mem_map]
    constructor
    · rintro ⟨i, hi, rfl⟩
      obtain ⟨hm, hu⟩ := List.mem_filter.mp hi
      have hlt := IpPool.order_lt hm
      exact ⟨⟨i, hlt, rfl⟩, (hused i hlt).mp (by simpa using hu)⟩
    · rintro ⟨⟨i, hi, rfl⟩, hr⟩
      refine ⟨i, List.mem_filter.mpr ⟨mem_cycle.mpr hi, ?_⟩, rfl⟩
      rw [(hused i hi).mpr hr]
      rfl

/-- any other mask than `0.0.0.0` that is accepted has a prefix of at least one bit -/
theorem prefix_of_ne_zero (hv : validateMask tun.mask = true) (h0 : tun.mask ≠ 0) :
    ∃ n, 1 ≤ n ∧ ntohl tun.mask = prefixMask n := by
  obtain ⟨n, _, hm⟩ := contiguous_of_validateMask hv
  refine ⟨n, ?_, hm⟩
  by_contra hlt
  obtain rfl : n = 0 := by omega
  have hz : ntohl tun.mask = 0 := hm.trans (by decide)
  exact h0 (by rw [← ntohl_ntohl tun.mask, hz]; decide)

/-- the table of the mask `0.0.0.0` is empty -/
theorem ipPoolCreate_zero {c1 c2 : Bool} (h0 : tun.mask = 0)
    (hp : ipPoolCreate (some tun) c1 c2 = some p) : p.maxClients = 0 := by
  simp only [ipPoolCreate, Option.ite_none_left_eq_some, Option.some.injEq] at hp
  rw [← hp.2.2.2]
  show (~~~(ntohl tun.mask) + 1).toNat = 0
  rw [h0]
  decide

/-- although the subnet has other addresses than the reserved ones -/
theorem exists_not_reserved (h0 : tun.mask = 0) : ∃ a, ¬ tun.Reserved a := by
  have hnet : tunGetNet tun = 0 := by
    rw [tunGetNet, h0]
    exact BitVec.and_zero
  have hb : tun.ip ||| ~~~tun.mask = BitVec.allOnes 32 := by
    rw [h0]
    exact BitVec.or_allOnes
  unfold TunIface.Reserved
  rw [hnet, hb]
  by_cases h1 : tun.ip = 1
  · refine ⟨2, ?_⟩
    rw [h1]
    decide
  · refine ⟨1, ?_⟩
    rintro (e | e | e)
    · exact absurd e (by decide)
    · exact absurd e (by decide)
    · exact h1 e.symm

/-- so the first call fails where it should not -/
theorem not_handsOut {c1 c2 : Bool} (h0 : tun.mask = 0)
    (hp : ipPoolCreate (some tun) c1 c2 = some p) : ¬ HandsOut tun p := by
  rintro ⟨xs, _, hmem, hall⟩
  obtain ⟨a, ha⟩ := exists_not_reserved h0
  have hsub : a &&& tun.mask = tunGetNet tun := by
    rw [tunGetNet, h0]
    exact BitVec.and_zero.trans BitVec.and_zero.symm
  have hxs : a ∈ xs := (hmem a).mpr ⟨hsub, ha⟩
  have hnone : (ipAcquire p 0).1 = none := by
    rw [ipAcquire_none_iff, ipPoolCreate_zero h0 hp]
    exact fun i hi => absurd hi (Nat.not_lt_zero i)
  have h1 := hall [0]
  rw [acquireAll, hnone] at h1
  have hhead : xs[0]? = none := (List.cons.inj h1).1.symm
  rw [List.getElem?_eq_none_iff] at hhead
  rw [List.length_eq_zero_iff.mp (Nat.le_zero.mp hhead)] at hxs
  cases hxs

end

/-- **Capacity.**  A fresh pool hands out the addresses of its subnet but the reserved ones, each once,
and then nothing, if and only if the mask is not `0.0.0.0`. -/
theorem handsOut_iff {tun : TunIface} {p : IpPool} {c1 c2 : Bool}
    (hv : validateMask tun.mask = true) (hp : ipPoolCreate (some tun) c1 c2 = some p) :
    HandsOut tun p ↔ tun.mask ≠ 0 := by
  constructor
  · exact fun h h0 => not_handsOut h0 hp h
  · intro h0
    obtain ⟨n, hn, hm⟩ := prefix_of_ne_zero hv h0
    obtain ⟨q, hq, hs, hok, hc⟩ := ipPoolCreate_ok hn hm
    obtain rfl := ipPoolCreate_unique hq hp
    obtain ⟨hnd, hmem⟩ := freeAddrs_fresh hs hok hc
    exact ⟨q.freeAddrs, hnd, hmem, acquireAll_eq q⟩

/-- the reserved addresses of `255.255.255.253/30` leave one -/
theorem handsOut_iff_last : ∃ p, ipPoolCreate (some ⟨0xfdffffff, 0xfcffffff⟩) true true = some p ∧
    HandsOut ⟨0xfdffffff, 0xfcffffff⟩ p ∧ acquireAll p [1, 2] = [some 0xfeffffff, none] := by
  have hp : ipPoolCreate (some ⟨0xfdffffff, 0xfcffffff⟩) true true = some _ := rfl
  exact ⟨_, hp, (handsOut_iff (by decide) hp).mpr (by decide), by decide⟩

/-- an interface with the mask `0.0.0.0`, which `validate_mask` accepts: no address is handed out, not
even `10.0.0.2` -/
theorem handsOut_not_zero : ∃ p, ipPoolCreate (some ⟨0x0100000a, 0⟩) true true = some p ∧
    validateMask 0 = true ∧ (ipAcquire p 7).1 = none ∧
    ¬ TunIface.Reserved ⟨0x0100000a, 0⟩ 0x0200000a ∧ ¬ HandsOut ⟨0x0100000a, 0⟩ p := by
  have hp : ipPoolCreate (some ⟨0x0100000a, 0⟩) true true = some _ := rfl
  refine ⟨_, hp, by decide, by decide, ?_, not_handsOut rfl hp⟩
  unfold TunIface.Reserved
  decide

end QuicVpn
