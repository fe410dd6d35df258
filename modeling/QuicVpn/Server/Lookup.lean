import QuicVpn.Lib.Exec
import QuicVpn.Server.IpPool

/-!
# Address lookup against the history of the pool

A pool is used by calls of `ip_acquire` and `ip_release` in any order.  The history is the list of
what these calls did, the latest first:

* `owner log i`    the client that the latest `ip_acquire` gave entry `i`, if it was not released
                   since;
* `entryOf p a`    the entry whose address is `a`.

`search_agrees_with_history`: `ip_client_search` returns the owner of the entry with that address,
also where the subnet ends at `255.255.255.255`.
-/

set_option linter.unusedSectionVars false

namespace QuicVpn
open Conc

/-- what a call did -/
inductive PoolEvent where
  | acquired (e : ℕ) (client : Blk)
  | released (e : ℕ)
  deriving DecidableEq, Repr

inductive PoolCall where
  | acquire (client : Option Blk)
  | release (e : ℕ)

structure PoolHistory where
  pool : IpPool
  log : List PoolEvent

/-- an `ip_acquire` that returned the entry `e` -/
def PoolEvent.gives (e : ℕ) : PoolEvent → Bool
  | .acquired i _ => i == e
  | .released _ => false

/-- an entry is only released when an earlier `ip_acquire` returned it; `ip_acquire` returns NULL for
a client that is NULL -/
def PoolHistory.step (s : PoolHistory) : PoolCall → Option PoolHistory
  | .acquire none => some s
  | .acquire (some c) =>
    match ipAcquire s.pool c with
    | (some i, p) => some ⟨p, .acquired i c :: s.log⟩
    | (none, p) => some ⟨p, s.log⟩
  | .release e =>
    if s.log.any (PoolEvent.gives e) then
      some ⟨(ipRelease s.pool (some e)).2, .released e :: s.log⟩
    else none

/-! ## what the history says -/

/-- the client of the latest `ip_acquire` that returned `i`, unless `i` was released since -/
def owner : List PoolEvent → ℕ → Option Blk
  | [], _ => none
  | .acquired e c :: log, i => if e = i then some c else owner log i
  | .released e :: log, i => if e = i then none else owner log i

/-- the entry whose address is `a` -/
def IpPool.entryOf (p : IpPool) (a : InAddr) : Option ℕ :=
  (List.range p.maxClients).find? fun i => (p.ipEntry i).ip == a

theorem owner_acquired (e : ℕ) (c : Blk) (log : List PoolEvent) :
    owner (.acquired e c :: log) = Function.update (owner log) e (some c) := by
  funext i
  rw [owner]
  by_cases h : e = i
  · rw [if_pos h, h, Function.update_self]
  · rw [if_neg h, Function.update_of_ne (Ne.symm h)]

theorem owner_released (e : ℕ) (log : List PoolEvent) :
    owner (.released e :: log) = Function.update (owner log) e none := by
  funext i
  rw [owner]
  by_cases h : e = i
  · rw [if_pos h, h, Function.update_self]
  · rw [if_neg h, Function.update_of_ne (Ne.symm h)]

/-- the table is that of the history, and only entries that are not reserved were given away -/
structure PoolHistory.Inv (tun : TunIface) (n : ℕ) (s : PoolHistory) : Prop where
  subnet : s.pool.Subnet tun n
  ok : s.pool.Ok tun
  clients : s.pool.clients = owner s.log
  given : ∀ e, s.log.any (PoolEvent.gives e) = true →
    e < s.pool.maxClients ∧ ¬ tun.Reserved (s.pool.ipEntry e).ip

section
variable {tun : TunIface} {n : ℕ} {s s' : PoolHistory}

theorem PoolHistory.Inv.acquired (hi : s.Inv tun n) {i : ℕ} {c : Blk} (hm : i ∈ s.pool.order)
    (hu : (s.pool.ipEntry i).used = false)
    (e : ipAcquire s.pool c = (some i,
      { s.pool.setEntry i true (some c) with nextIdx := (i + 1) % s.pool.maxClients })) :
    PoolHistory.Inv tun n ⟨(ipAcquire s.pool c).2, .acquired i c :: s.log⟩ := by
  obtain ⟨hok, hsub⟩ := ipAcquire_ok hi.ok hi.subnet c
  have hlt := IpPool.order_lt hm
  refine ⟨hsub, hok, ?_, fun j hj => ?_⟩
  · rw [e]
    show (s.pool.setEntry i true (some c)).clients = _
    rw [IpPool.setEntry_clients, hi.clients, owner_acquired]
  · rw [e]
    show j < s.pool.maxClients ∧ ¬ tun.Reserved ((s.pool.setEntry i true (some c)).ipEntry j).ip
    rw [IpPool.setEntry_ip]
    rw [List.any_cons, Bool.or_eq_true] at hj
    rcases hj with hj | hj
    · obtain rfl : i = j := eq_of_beq hj
      exact ⟨hlt, (hi.ok.unused hlt hu).1⟩
    · exact hi.given j hj

theorem PoolHistory.Inv.released (hi : s.Inv tun n) {e : ℕ}
    (he : s.log.any (PoolEvent.gives e) = true) :
    PoolHistory.Inv tun n ⟨(ipRelease s.pool (some e)).2, .released e :: s.log⟩ := by
  obtain ⟨hlt, hres⟩ := hi.given e he
  refine ⟨hi.subnet.setEntry e false none, hi.ok.setEntry hlt hres none, ?_, fun j hj => ?_⟩
  · show (s.pool.setEntry e false none).clients = _
    rw [IpPool.setEntry_clients, hi.clients, owner_released]
  · show j < s.pool.maxClients ∧ ¬ tun.Reserved ((s.pool.setEntry e false none).ipEntry j).ip
    rw [IpPool.setEntry_ip]
    exact hi.given j hj

theorem PoolHistory.step_inv {a : PoolCall} (hi : s.Inv tun n) (hs : s.step a = some s') :
    s'.Inv tun n := by
  rcases a with (_ | c) | e
  · exact Option.some.inj hs ▸ hi
  · rcases ipAcquire_cases s.pool c with ⟨e, _⟩ | ⟨i, hm, hu, e⟩
    · simp only [PoolHistory.step, e] at hs
      exact Option.some.inj hs ▸ hi
    · have hi' := hi.acquired hm hu e
      simp only [PoolHistory.step, e] at hs hi'
      exact Option.some.inj hs ▸ hi'
  · simp only [PoolHistory.step, Option.ite_none_right_eq_some] at hs
    exact Option.some.inj hs.2 ▸ hi.released hs.1

end

/-! ## the search -/

section
variable {tun : TunIface} {n : ℕ} {p : IpPool}

/-- past the bound check, the index is inside the table -/
theorem search_index_lt {a : InAddr} (h : ¬ (ntohl a < ntohl p.netAddr ∨
    (ntohl a).toNat ≥ (ntohl p.netAddr).toNat + p.maxClients)) :
    (ntohl a - ntohl p.netAddr).toNat < p.maxClients := by
  rw [not_or, BitVec.not_lt] at h
  obtain ⟨h1, h2⟩ := h
  have := BitVec.le_def.mp h1
  rw [BitVec.toNat_sub_of_le h1]
  omega

/-- the address of an entry passes the bound check, and its index is that of the entry -/
theorem search_index (hs : p.Subnet tun n) {i : ℕ} (hi : i < p.maxClients) :
    ¬ (ntohl (p.ipEntry i).ip < ntohl p.netAddr ∨
      (ntohl (p.ipEntry i).ip).toNat ≥ (ntohl p.netAddr).toNat + p.maxClients) ∧
    (ntohl (p.ipEntry i).ip - ntohl p.netAddr).toNat = i := by
  have hadd : (ntohl (p.ipEntry i).ip).toNat = (ntohl p.netAddr).toNat + i := by
    rw [hs.ip, ntohl_htonl, hs.netAddr]
    exact netHost_add hs.mask i (hs.maxClients ▸ hi)
  have hle : ntohl p.netAddr ≤ ntohl (p.ipEntry i).ip := BitVec.le_def.mpr (by omega)
  refine ⟨?_, ?_⟩
  · rw [not_or, BitVec.not_lt]
    exact ⟨hle, by omega⟩
  · rw [BitVec.toNat_sub_of_le hle]
    omega

/-- `ip_client_search` on the address of an entry -/
theorem ipClientSearch_entry (hs : p.Subnet tun n) (hok : p.Ok tun) {i : ℕ}
    (hi : i < p.maxClients) : ipClientSearch p (p.ipEntry i).ip = p.clients i := by
  obtain ⟨hin, hidx⟩ := search_index hs hi
  unfold ipClientSearch
  simp only [if_neg hin, hidx, and_true]
  cases hu : (p.ipEntry i).used with
  | true => rfl
  | false => exact (hok.unused hi hu).2.symm

/-- and on any other address -/
theorem ipClientSearch_other (a : InAddr) (h : ∀ i < p.maxClients, (p.ipEntry i).ip ≠ a) :
    ipClientSearch p a = none := by
  cases hc : ipClientSearch p a with
  | none => rfl
  | some c =>
    obtain ⟨i, hi, hip, -⟩ := ipClientSearch_some hc
    exact absurd hip (h i hi)

theorem IpPool.entryOf_some {a : InAddr} {i : ℕ} (h : p.entryOf a = some i) :
    i < p.maxClients ∧ (p.ipEntry i).ip = a := by
  have hip := List.find?_some h
  exact ⟨List.mem_range.mp (List.mem_of_find?_eq_some h), beq_iff_eq.mp hip⟩

theorem IpPool.entryOf_none {a : InAddr} (h : p.entryOf a = none) :
    ∀ i < p.maxClients, (p.ipEntry i).ip ≠ a := by
  intro i hi hip
  have := List.find?_eq_none.mp h i (List.mem_range.mpr hi)
  exact this (beq_iff_eq.mpr hip)

/-- the table agrees with the history, and so does the search in it -/
theorem PoolHistory.Inv.search {s : PoolHistory} (hi : s.Inv tun n) (a : InAddr) :
    ipClientSearch s.pool a = (s.pool.entryOf a).bind (owner s.log) := by
  cases he : s.pool.entryOf a with
  | none => exact ipClientSearch_other a (IpPool.entryOf_none he)
  | some i =>
    obtain ⟨hlt, rfl⟩ := IpPool.entryOf_some he
    rw [ipClientSearch_entry hi.subnet hi.ok hlt, hi.clients]
    rfl

/-- a pool of an interface with a prefix of at least one bit, after any calls -/
theorem PoolHistory.inv_of_exec {l : List PoolCall} {u : PoolHistory} (hn : 1 ≤ n)
    (hm : ntohl tun.mask = prefixMask n) {c1 c2 : Bool}
    (hp : ipPoolCreate (some tun) c1 c2 = some p)
    (h : exec PoolHistory.step ⟨p, []⟩ l = some u) : u.Inv tun n := by
  obtain ⟨q, hq, hsub, hok, hnone⟩ := ipPoolCreate_ok hn hm
  obtain rfl := ipPoolCreate_unique hq hp
  have hinit : PoolHistory.Inv tun n ⟨q, []⟩ :=
    ⟨hsub, hok, funext hnone, fun e he => absurd he Bool.false_ne_true⟩
  exact exec_inv (fun _ _ _ hi hs => PoolHistory.step_inv hi hs) hinit h

end

/-- **Lookup.**  After any calls of `ip_acquire` and `ip_release` on the pool of an interface with a
contiguous mask, `ip_client_search` returns the owner of the entry with the given address, NULL when
there is none, and does not index past the table. -/
theorem search_agrees_with_history {tun : TunIface} {n : ℕ} {p : IpPool} (hn : 1 ≤ n)
    (hm : ntohl tun.mask = prefixMask n) (hp : ipPoolCreate (some tun) true true = some p)
    {l : List PoolCall} {u : PoolHistory} (h : exec PoolHistory.step ⟨p, []⟩ l = some u)
    (a : InAddr) : ipClientSearch u.pool a = (u.pool.entryOf a).bind (owner u.log) ∧
      (¬ (ntohl a < ntohl u.pool.netAddr ∨
          (ntohl a).toNat ≥ (ntohl u.pool.netAddr).toNat + u.pool.maxClients) →
        (ntohl a - ntohl u.pool.netAddr).toNat < u.pool.maxClients) := by
  exact ⟨(PoolHistory.inv_of_exec hn hm hp h).search a, search_index_lt⟩

/-- the interface `255.255.255.253/30`, whose subnet ends at the last address -/
def tunLast : TunIface := ⟨0xfdffffff, 0xfcffffff⟩

/-- on it the one free address goes to client `5`, is released, and goes to client `6` -/
theorem search_in_last_subnet : ∃ p u, ipPoolCreate (some tunLast) true true = some p ∧
    exec PoolHistory.step ⟨p, []⟩ [.acquire (some 5), .release 2, .acquire (some 6)] = some u ∧
    ipClientSearch u.pool 0xfeffffff = (u.pool.entryOf 0xfeffffff).bind (owner u.log) ∧
    ipClientSearch u.pool 0xfeffffff = some 6 := by
  have hm : ntohl tunLast.mask = prefixMask 30 := by decide
  refine ⟨_, _, rfl, rfl, ?_, by decide⟩
  exact (@search_agrees_with_history tunLast 30 _ (by decide) hm rfl
    [.acquire (some 5), .release 2, .acquire (some 6)] _ rfl _).1

end QuicVpn
