import QuicVpn.Common.Basic
import QuicVpn.Common.InAddr
import QuicVpn.Common.Pool

/-!
# The address pool of the server (`ip_pool.c`)

An `ip_entry_t *` is the index of its entry in the table; a `client_t *` is the block it lives in.

* `ipPoolCreate`      one entry for each address of the subnet of the TUN interface;
* `ipAcquire`         the first unused entry from the cursor on;
* `ipRelease`, `ipClientSearch`.

`IpPool.Ok p` is what these keep: an entry is used when it is reserved or has a client, and never
both.  `reserved_iff` says which addresses are reserved.
-/

set_option linter.unusedSectionVars false

namespace QuicVpn

/-- the fields of `tun_iface_t` that the address pool is made from -/
structure TunIface where
  ip : InAddr
  mask : InAddr

/-- `tun_get_net` -/
def tunGetNet (tun : TunIface) : InAddr := tun.ip &&& tun.mask

/-- `ip_entry_t` -/
structure IpEntry where
  ip : InAddr
  ipStr : String
  used : Bool
  client : Option Blk

/-- `ip_pool_t` -/
structure IpPool where
  netAddr : InAddr
  netmask : InAddr
  serverIp : InAddr
  ipEntry : ℕ → IpEntry
  maxClients : ℕ
  nextIdx : ℕ

/-- one turn of the loop of `ip_pool_create` -/
def ipPoolEntry (netHost serverHost : BitVec 32) (maxClients i : ℕ) : IpEntry :=
  let currentHostIp := netHost + BitVec.ofNat 32 i
  let ip := htonl currentHostIp
  { ip := ip, ipStr := inetNtop ip, client := none
    used := decide (i = 0 ∨ i = maxClients - 1 ∨ currentHostIp = serverHost) }

/-- `ip_pool_create`; the flags say whether the two calls of `calloc` succeed -/
def ipPoolCreate (tun : Option TunIface) (callocPool callocEntry : Bool) : Option IpPool :=
  match tun with
  | none => none
  | some tun =>
    if !callocPool then none
    else
      let netHost := ntohl (tunGetNet tun)
      let maskHost := ntohl tun.mask
      let serverHost := ntohl tun.ip
      if !validateMask tun.mask then none
      else
        let maxClients := (~~~maskHost + 1).toNat
        if !callocEntry then none
        else some ⟨tunGetNet tun, tun.mask, tun.ip, ipPoolEntry netHost serverHost maxClients,
          maxClients, 0⟩

/-- the indices in the order in which the loop of `ip_acquire` looks at them -/
def IpPool.order (p : IpPool) : List ℕ :=
  (List.range p.maxClients).map fun i => (p.nextIdx + i) % p.maxClients

def IpPool.setEntry (p : IpPool) (i : ℕ) (used : Bool) (client : Option Blk) : IpPool :=
  { p with ipEntry :=
      Function.update p.ipEntry i { p.ipEntry i with used := used, client := client } }

/-- `ip_acquire` -/
def ipAcquire (p : IpPool) (client : Blk) : Option ℕ × IpPool :=
  match p.order.find? fun idx => !(p.ipEntry idx).used with
  | some idx =>
    (some idx, { p.setEntry idx true (some client) with nextIdx := (idx + 1) % p.maxClients })
  | none => (none, p)

/-- `ip_release` -/
def ipRelease (p : IpPool) (ipEntry : Option ℕ) : ℤ × IpPool :=
  match ipEntry with
  | none => (einval, p)
  | some i => (0, p.setEntry i false none)

/-- `ip_client_search`; the upper bound is computed in `size_t` -/
def ipClientSearch (p : IpPool) (ip : InAddr) : Option Blk :=
  let netNtoh := ntohl p.netAddr
  let ipNtoh := ntohl ip
  if ipNtoh < netNtoh ∨ ipNtoh.toNat ≥ netNtoh.toNat + p.maxClients then none
  else
    let idx := (ipNtoh - netNtoh).toNat
    if (p.ipEntry idx).used ∧ (p.ipEntry idx).ip = ip then (p.ipEntry idx).client else none

/-! ## the pool of a subnet -/

/-- the network, broadcast and server address of the interface -/
def TunIface.Reserved (tun : TunIface) (ip : InAddr) : Prop :=
  ip = tunGetNet tun ∨ ip = tun.ip ||| ~~~tun.mask ∨ ip = tun.ip

/-- `p` describes the subnet of `tun` with a mask of `n` ones -/
structure IpPool.Subnet (tun : TunIface) (n : ℕ) (p : IpPool) : Prop where
  pos : 1 ≤ n
  mask : ntohl tun.mask = prefixMask n
  netAddr : p.netAddr = tunGetNet tun
  maxClients : p.maxClients = 2 ^ (32 - n)
  ip : ∀ i, (p.ipEntry i).ip = htonl (ntohl (tunGetNet tun) + BitVec.ofNat 32 i)

section
variable {tun : TunIface} {n : ℕ} {p : IpPool}

theorem ntohl_tunGetNet (hm : ntohl tun.mask = prefixMask n) :
    (ntohl (tunGetNet tun)).toNat = (ntohl tun.ip).toNat / 2 ^ (32 - n) * 2 ^ (32 - n) := by
  unfold tunGetNet
  rw [ntohl_and, hm, and_prefixMask]

/-- the addresses of the subnet do not wrap around -/
theorem netHost_add (hm : ntohl tun.mask = prefixMask n) (i : ℕ) (hi : i < 2 ^ (32 - n)) :
    (ntohl (tunGetNet tun) + BitVec.ofNat 32 i).toNat = (ntohl (tunGetNet tun)).toNat + i := by
  have hle : (ntohl (tunGetNet tun)).toNat + (2 ^ (32 - n) - 1) < 2 ^ 32 := by
    rw [ntohl_tunGetNet hm, ← or_not_prefixMask]
    exact BitVec.isLt _
  have hpow : 2 ^ (32 - n) ≤ 2 ^ 32 := Nat.pow_le_pow_right (by norm_num) (by omega)
  rw [BitVec.toNat_add, BitVec.toNat_ofNat, Nat.mod_eq_of_lt (lt_of_lt_of_le hi hpow)]
  exact Nat.mod_eq_of_lt (by omega)

/-- two entries never have the same address -/
theorem IpPool.Subnet.ip_inj (h : p.Subnet tun n) {i j : ℕ} (hi : i < p.maxClients)
    (hj : j < p.maxClients) (e : (p.ipEntry i).ip = (p.ipEntry j).ip) : i = j := by
  rw [h.maxClients] at hi hj
  rw [h.ip, h.ip, htonl_eq_iff, ntohl_htonl] at e
  have hn := congrArg BitVec.toNat e
  rw [netHost_add h.mask i hi, netHost_add h.mask j hj] at hn
  omega

/-- **The reserved entries**: the first, the last and that of the server are those of the network,
broadcast and server address. -/
theorem reserved_iff (hm : ntohl tun.mask = prefixMask n) (i : ℕ) (hi : i < 2 ^ (32 - n)) :
    (i = 0 ∨ i = 2 ^ (32 - n) - 1 ∨ ntohl (tunGetNet tun) + BitVec.ofNat 32 i = ntohl tun.ip) ↔
      tun.Reserved (htonl (ntohl (tunGetNet tun) + BitVec.ofNat 32 i)) := by
  have hadd := netHost_add hm i hi
  unfold TunIface.Reserved
  rw [htonl_eq_iff, htonl_eq_iff, htonl_eq_iff]
  have h0 : ntohl (tunGetNet tun) + BitVec.ofNat 32 i = ntohl (tunGetNet tun) ↔ i = 0 := by
    rw [BitVec.toNat_inj.symm, hadd]
    omega
  have h1 : ntohl (tunGetNet tun) + BitVec.ofNat 32 i = ntohl (tun.ip ||| ~~~tun.mask)
      ↔ i = 2 ^ (32 - n) - 1 := by
    rw [BitVec.toNat_inj.symm, hadd, ntohl_or, ntohl_not, hm, or_not_prefixMask,
      ntohl_tunGetNet hm]
    omega
  rw [h0, h1]

end

/-! ## the invariant of the table -/

/-- the clients of the entries -/
def IpPool.clients (p : IpPool) : ℕ → Option Blk := fun i => (p.ipEntry i).client

/-- an entry is used when its address is reserved or it has a client, and never both -/
structure IpPool.Ok (tun : TunIface) (p : IpPool) : Prop where
  used : ∀ i < p.maxClients,
    (p.ipEntry i).used = true ↔ tun.Reserved (p.ipEntry i).ip ∨ (p.ipEntry i).client ≠ none
  free : ∀ i < p.maxClients, tun.Reserved (p.ipEntry i).ip → (p.ipEntry i).client = none
  bound : ∀ i, (p.ipEntry i).client ≠ none → i < p.maxClients

section
variable {tun : TunIface} {n : ℕ} {p : IpPool}

/-- a pool made from a contiguous mask with a prefix of at least one bit -/
theorem ipPoolCreate_ok (hn : 1 ≤ n) (hm : ntohl tun.mask = prefixMask n) :
    ∃ p, ipPoolCreate (some tun) true true = some p ∧ p.Subnet tun n ∧ p.Ok tun ∧
      ∀ i, (p.ipEntry i).client = none := by
  have hv := validateMask_contiguous tun.mask n hn hm
  have hmax : (~~~(ntohl tun.mask) + 1).toNat = 2 ^ (32 - n) := by
    rw [hm]
    exact not_prefixMask_add_one n hn
  refine ⟨⟨tunGetNet tun, tun.mask, tun.ip,
    ipPoolEntry (ntohl (tunGetNet tun)) (ntohl tun.ip) (2 ^ (32 - n)), 2 ^ (32 - n), 0⟩, ?_,
    ⟨hn, hm, rfl, rfl, fun _ => rfl⟩, ⟨?_, fun _ _ _ => rfl, ?_⟩, fun _ => rfl⟩
  · simp only [ipPoolCreate, hv, hmax, Bool.not_true, Bool.false_eq_true, if_false]
  · intro i hi
    have hc : ¬ (ipPoolEntry (ntohl (tunGetNet tun)) (ntohl tun.ip) (2 ^ (32 - n)) i).client ≠ none :=
      fun h => h rfl
    show decide _ = true ↔ _ ∨ _
    rw [or_iff_left hc, decide_eq_true_iff]
    exact reserved_iff hm i hi
  · intro i h
    exact absurd rfl h

/-- the pool does not depend on how the memory for it was found -/
theorem ipPoolCreate_unique {q : IpPool} {c1 c2 d1 d2 : Bool}
    (hp : ipPoolCreate (some tun) c1 c2 = some p) (hq : ipPoolCreate (some tun) d1 d2 = some q) :
    p = q := by
  simp only [ipPoolCreate, Option.ite_none_left_eq_some, Option.some.injEq] at hp hq
  exact hp.2.2.2.symm.trans hq.2.2.2

/-- the two outcomes of `ip_acquire` -/
theorem ipAcquire_cases (p : IpPool) (c : Blk) :
    (ipAcquire p c = (none, p) ∧ ∀ i ∈ p.order, (p.ipEntry i).used = true) ∨
    ∃ i ∈ p.order, (p.ipEntry i).used = false ∧ ipAcquire p c =
      (some i, { p.setEntry i true (some c) with nextIdx := (i + 1) % p.maxClients }) := by
  unfold ipAcquire
  cases hf : p.order.find? fun idx => !(p.ipEntry idx).used with
  | none =>
    refine Or.inl ⟨rfl, fun i hi => ?_⟩
    have := List.find?_eq_none.mp hf i hi
    simpa using this
  | some i =>
    have hu := List.find?_some hf
    exact Or.inr ⟨i, List.mem_of_find?_eq_some hf, by simpa using hu, rfl⟩

theorem IpPool.order_lt {i : ℕ} (hi : i ∈ p.order) : i < p.maxClients := by
  obtain ⟨j, hj, rfl⟩ := List.mem_map.mp hi
  exact Nat.mod_lt _ (lt_of_le_of_lt (Nat.zero_le j) (List.mem_range.mp hj))

theorem IpPool.setEntry_self (p : IpPool) (i : ℕ) (u : Bool) (c : Option Blk) :
    (p.setEntry i u c).ipEntry i = { p.ipEntry i with used := u, client := c } :=
  Function.update_self ..

theorem IpPool.setEntry_of_ne (p : IpPool) {i j : ℕ} (h : j ≠ i) (u : Bool) (c : Option Blk) :
    (p.setEntry i u c).ipEntry j = p.ipEntry j :=
  Function.update_of_ne h ..

theorem IpPool.setEntry_ip (p : IpPool) (i j : ℕ) (u : Bool) (c : Option Blk) :
    ((p.setEntry i u c).ipEntry j).ip = (p.ipEntry j).ip := by
  by_cases h : j = i
  · rw [h, p.setEntry_self]
  · rw [p.setEntry_of_ne h]

theorem IpPool.setEntry_clients (p : IpPool) (i : ℕ) (u : Bool) (c : Option Blk) :
    (p.setEntry i u c).clients = Function.update p.clients i c := by
  funext j
  unfold IpPool.clients
  by_cases h : j = i
  · rw [h, p.setEntry_self, Function.update_self]
  · rw [p.setEntry_of_ne h, Function.update_of_ne h]

theorem IpPool.Subnet.setEntry (h : p.Subnet tun n) (i : ℕ) (u : Bool) (c : Option Blk) :
    (p.setEntry i u c).Subnet tun n :=
  ⟨h.pos, h.mask, h.netAddr, h.maxClients, fun j => (IpPool.setEntry_ip p i j u c).trans (h.ip j)⟩

/-- an entry that is not reserved is given to or taken from a client -/
theorem IpPool.Ok.setEntry (h : p.Ok tun) {i : ℕ} (hi : i < p.maxClients)
    (hr : ¬ tun.Reserved (p.ipEntry i).ip) (c : Option Blk) : (p.setEntry i c.isSome c).Ok tun := by
  refine ⟨fun j hj => ?_, fun j hj hres => ?_, fun j hc => ?_⟩
  · by_cases hji : j = i
    · subst hji
      rw [p.setEntry_self]
      cases c with
      | none => simp [hr]
      | some b => simp
    · rw [p.setEntry_of_ne hji]
      exact h.used j hj
  · by_cases hji : j = i
    · subst hji
      rw [IpPool.setEntry_ip] at hres
      exact absurd hres hr
    · rw [p.setEntry_of_ne hji] at hres ⊢
      exact h.free j hj hres
  · by_cases hji : j = i
    · rw [hji]
      exact hi
    · rw [p.setEntry_of_ne hji] at hc
      exact h.bound j hc

/-- an unused entry is not reserved and has no client -/
theorem IpPool.Ok.unused (h : p.Ok tun) {i : ℕ} (hi : i < p.maxClients)
    (hu : (p.ipEntry i).used = false) :
    ¬ tun.Reserved (p.ipEntry i).ip ∧ (p.ipEntry i).client = none := by
  have hn : ¬ (tun.Reserved (p.ipEntry i).ip ∨ (p.ipEntry i).client ≠ none) := by
    rw [← h.used i hi, hu]
    exact Bool.false_ne_true
  rw [not_or, not_ne_iff] at hn
  exact hn

/-- an entry with a client is not reserved -/
theorem IpPool.Ok.not_reserved (h : p.Ok tun) {i : ℕ} {c : Blk}
    (hc : (p.ipEntry i).client = some c) : ¬ tun.Reserved (p.ipEntry i).ip := by
  intro hr
  have hi := h.bound i (by rw [hc]; exact Option.some_ne_none c)
  rw [h.free i hi hr] at hc
  cases hc

theorem ipAcquire_ok (h : p.Ok tun) (hs : p.Subnet tun n) (c : Blk) :
    (ipAcquire p c).2.Ok tun ∧ (ipAcquire p c).2.Subnet tun n := by
  rcases ipAcquire_cases p c with ⟨e, _⟩ | ⟨i, hi, hu, e⟩
  · rw [e]
    exact ⟨h, hs⟩
  · rw [e]
    have hlt := IpPool.order_lt hi
    have hok := h.setEntry hlt (h.unused hlt hu).1 (some c)
    have hsub := hs.setEntry i true (some c)
    exact ⟨⟨hok.used, hok.free, hok.bound⟩,
      ⟨hsub.pos, hsub.mask, hsub.netAddr, hsub.maxClients, hsub.ip⟩⟩

/-- what the search returns is the client of the entry with that address -/
theorem ipClientSearch_some {ip : InAddr} {c : Blk}
    (h : ipClientSearch p ip = some c) :
    ∃ i < p.maxClients, (p.ipEntry i).ip = ip ∧ (p.ipEntry i).client = some c := by
  unfold ipClientSearch at h
  simp only at h
  split at h
  · cases h
  · rename_i hr
    split at h
    · rename_i hu
      refine ⟨_, ?_, hu.2, h⟩
      rw [not_or, BitVec.not_lt] at hr
      obtain ⟨h1, h2⟩ := hr
      rw [BitVec.toNat_sub_of_le h1]
      have := BitVec.le_def.mp h1
      omega
    · cases h

end

end QuicVpn
