import QuicVpn.Server.IpPool

/-!
# The client records of the server (`client.c`)

A `client_t` lives in a block of `client_pool`; `mem` is the contents of these blocks, whether they
are checked out or not.  `K` is the type of connection handles; the `session` field of a record
always points to the one session and is left out.  The functions are cut where they take or drop a
lock, and put together again to whole calls:

* `freeSlot`, `addFill`                           inside `list_add_client`;
* `removeClear`, `removeUnlist`, `clientPut`      inside `list_remove_client`;
* `initEntry`, `initUid`                          inside `initialize_client_state`;
* `listAddClient`, `listRemoveClient`, `initializeClientState`   the calls as such.
-/

set_option linter.unusedSectionVars false

namespace QuicVpn

/-- `client_t` -/
structure Client (K : Type) where
  connectionHandle : Option K
  uid : BitVec 64
  slotIdx : ℤ
  ipEntry : Option ℕ

/-- the fields of `session_t` that the connection callbacks work on -/
structure Session (K : Type) where
  ipPool : IpPool
  clientList : ℕ → Option Blk
  clientPool : Pool
  clientCnt : BitVec 64
  mem : Blk → Client K

/-- `sizeof(client_t)` -/
def sizeofClient : ℕ := 40

/-- `init_client_manager`, when the list itself could be allocated -/
def initClientManager {K : Type} (s : Session K) (count : ℕ) : Option (Session K) :=
  match poolInit sizeofClient count with
  | some p => some { s with clientList := fun _ => none, clientPool := p }
  | none => none

section
variable {K : Type}

def Session.setClient (s : Session K) (b : Blk) (c : Client K) : Session K :=
  { s with mem := Function.update s.mem b c }

/-- the slot at which the loop of `list_add_client` stops -/
def Session.freeSlot (s : Session K) : Option ℕ :=
  (List.range s.ipPool.maxClients).find? fun idx => (s.clientList idx).isNone

/-- the end of `list_add_client`, once there is a slot and a block -/
def Session.addFill (s : Session K) (idx : ℕ) (b : Blk) (handle : K) : Session K :=
  { s.setClient b { s.mem b with slotIdx := idx, connectionHandle := some handle, ipEntry := none }
    with clientList := Function.update s.clientList idx (some b) }

/-- `list_remove_client` up to the lock; `none` is the return of `-ERANGE` -/
def Session.removeClear (s : Session K) (b : Blk) : Option (Session K) :=
  if (s.mem b).slotIdx < 0 ∨ (s.mem b).slotIdx > s.ipPool.maxClients then none
  else some (s.setClient b { s.mem b with slotIdx := 0, uid := 0, ipEntry := none })

/-- the locked section of `list_remove_client`, which reads the slot from the record again -/
def Session.removeUnlist (s : Session K) (b : Blk) : Session K :=
  { s with clientList := Function.update s.clientList (s.mem b).slotIdx.toNat none }

/-- `pool_put` on a record; `none` is its `FATAL` -/
def Session.clientPut (s : Session K) (b : Blk) : Option (Session K) :=
  match poolPut s.clientPool b with
  | some p => some { s with clientPool := p }
  | none => none

/-- `client->ip_entry = ip_acquire(..)`, once `ip_acquire` has returned `e` -/
def Session.initEntry (s : Session K) (b : Blk) (e : Option ℕ) : Session K :=
  s.setClient b { s.mem b with ipEntry := e }

/-- `client->uid = atomic_fetch_add_explicit(&session->client_cnt, 1, ..)` -/
def Session.initUid (s : Session K) (b : Blk) : Session K :=
  { s.setClient b { s.mem b with uid := s.clientCnt } with clientCnt := s.clientCnt + 1 }

/-- `client->ConnectionHandle = NULL` -/
def Session.clearHandle (s : Session K) (b : Blk) : Session K :=
  s.setClient b { s.mem b with connectionHandle := none }

/-! ## the calls -/

/-- `list_add_client`; `alloc` is what `aligned_alloc` would return -/
def listAddClient (s : Session K) (handle : K) (alloc : Option Blk) : Option Blk × Session K :=
  match s.freeSlot with
  | none => (none, s)
  | some idx =>
    match poolTryGet s.clientPool alloc with
    | (none, p) => (none, { s with clientPool := p })
    | (some b, p) => (some b, ({ s with clientPool := p } : Session K).addFill idx b handle)

/-- `list_remove_client`; `none` is the `FATAL` of `pool_put` -/
def listRemoveClient (s : Session K) (b : Blk) : Option (ℤ × Session K) :=
  match s.removeClear b with
  | none => some (erange, s)
  | some s1 =>
    match (s1.removeUnlist b).clientPut b with
    | none => none
    | some s2 => some (0, s2)

/-- `initialize_client_state` -/
def initializeClientState (s : Session K) (b : Blk) : ℤ × Session K :=
  match ipAcquire s.ipPool b with
  | (none, p) => (-1, ({ s with ipPool := p } : Session K).initEntry b none)
  | (some i, p) => (0, (({ s with ipPool := p } : Session K).initEntry b (some i)).initUid b)

/-! ## what they touch -/

/-- a session that `init_client_manager` has set up has an empty list and a new pool -/
theorem initClientManager_ok {s t : Session K} {count : ℕ} (h : initClientManager s count = some t) :
    ∃ p, poolInit sizeofClient count = some p ∧
      t = { s with clientList := fun _ => none, clientPool := p } := by
  unfold initClientManager at h
  cases hp : poolInit sizeofClient count with
  | none =>
    rw [hp] at h
    exact absurd h (Option.some_ne_none t).symm
  | some p =>
    rw [hp] at h
    exact ⟨p, rfl, (Option.some.inj h).symm⟩

theorem Session.setClient_self (s : Session K) (b : Blk) (c : Client K) :
    (s.setClient b c).mem b = c := Function.update_self ..

theorem Session.setClient_of_ne (s : Session K) {b d : Blk} (h : d ≠ b) (c : Client K) :
    (s.setClient b c).mem d = s.mem d := Function.update_of_ne h ..

theorem Session.freeSlot_some {s : Session K} {idx : ℕ} (h : s.freeSlot = some idx) :
    idx < s.ipPool.maxClients ∧ s.clientList idx = none := by
  have hm := List.mem_of_find?_eq_some h
  have hn := List.find?_some h
  exact ⟨List.mem_range.mp hm, Option.isNone_iff_eq_none.mp hn⟩

theorem Session.freeSlot_none {s : Session K} (h : s.freeSlot = none) {i : ℕ}
    (hi : i < s.ipPool.maxClients) : ∃ b, s.clientList i = some b := by
  have hn := List.find?_eq_none.mp h i (List.mem_range.mpr hi)
  simp only [Option.isNone_iff_eq_none] at hn
  exact Option.ne_none_iff_exists'.mp hn

/-- past its range check, `list_remove_client` clears slot, uid and address of the record -/
theorem Session.removeClear_some {s t : Session K} {b : Blk} (h : s.removeClear b = some t) :
    t = s.setClient b { s.mem b with slotIdx := 0, uid := 0, ipEntry := none } := by
  unfold Session.removeClear at h
  rw [Option.ite_none_left_eq_some] at h
  exact (Option.some.inj h.2).symm

theorem Session.clientPut_some {s t : Session K} {b : Blk} (h : s.clientPut b = some t) :
    ∃ p, poolPut s.clientPool b = some p ∧ t = { s with clientPool := p } := by
  unfold Session.clientPut at h
  cases hp : poolPut s.clientPool b with
  | none =>
    rw [hp] at h
    exact absurd h (Option.some_ne_none t).symm
  | some p =>
    rw [hp] at h
    exact ⟨p, rfl, (Option.some.inj h).symm⟩

/-- the new record has the handle, and no other record changes its handle -/
theorem listAddClient_handle {s t : Session K} {handle : K} {alloc : Option Blk} {b : Blk}
    (h : listAddClient s handle alloc = (some b, t)) :
    (t.mem b).connectionHandle = some handle ∧
      ∀ d, d ≠ b → (t.mem d).connectionHandle = (s.mem d).connectionHandle := by
  unfold listAddClient at h
  split at h
  · cases h
  · split at h
    · cases h
    · cases h
      refine ⟨?_, fun d hd => ?_⟩
      · exact congrArg Client.connectionHandle (Session.setClient_self ..)
      · exact congrArg Client.connectionHandle (Session.setClient_of_ne _ hd _)

/-- a write that keeps a field of the record keeps it in all records -/
theorem field_update {α : Type} (f : Client K → α) (mem : Blk → Client K) (b : Blk) {c : Client K}
    (hc : f c = f (mem b)) (d : Blk) : f (Function.update mem b c d) = f (mem d) := by
  by_cases hd : d = b
  · rw [hd, Function.update_self, hc]
  · rw [Function.update_of_ne hd]

theorem handle_update (mem : Blk → Client K) (b : Blk) {c : Client K}
    (hc : c.connectionHandle = (mem b).connectionHandle) (d : Blk) :
    (Function.update mem b c d).connectionHandle = (mem d).connectionHandle :=
  field_update Client.connectionHandle mem b hc d

/-- `list_remove_client` leaves the handle in the record -/
theorem listRemoveClient_handle {s t : Session K} {b : Blk} {r : ℤ}
    (h : listRemoveClient s b = some (r, t)) (d : Blk) :
    (t.mem d).connectionHandle = (s.mem d).connectionHandle := by
  unfold listRemoveClient at h
  split at h
  · cases h
    rfl
  · rename_i s1 h1
    split at h
    · cases h
    · rename_i s2 h2
      cases h
      obtain ⟨p, -, rfl⟩ := Session.clientPut_some h2
      obtain rfl := Session.removeClear_some h1
      refine handle_update s.mem b ?_ d
      rfl

theorem initializeClientState_handle (s : Session K) (b d : Blk) :
    ((initializeClientState s b).2.mem d).connectionHandle = (s.mem d).connectionHandle := by
  unfold initializeClientState
  split
  · refine handle_update s.mem b ?_ d
    rfl
  · refine (handle_update (Function.update s.mem b _) b ?_ d).trans (handle_update s.mem b ?_ d)
    · rfl
    · rfl

end

/-! ## a small session -/

/-- the interface `10.8.0.1/30` -/
def tunThirty : TunIface := ⟨0x0100080a, 0xfcffffff⟩

/-- a session on its four addresses, before `init_client_manager` -/
def fourAddresses (K : Type) : Session K where
  ipPool := ⟨0x0000080a, 0xfcffffff, 0x0100080a, ipPoolEntry 0x0a080000 0x0a080001 4, 4, 0⟩
  clientList := fun _ => none
  clientPool := ⟨0, 0, 0, 0, none, fun _ => none⟩
  clientCnt := 1
  mem := fun _ => ⟨none, 0, 0, none⟩

/-- `fourAddresses` after `init_client_manager` -/
def fourSlots (K : Type) : Session K :=
  { fourAddresses K with clientPool := ⟨sizeofClient, 4, 0, 0, none, fun _ => none⟩ }

end QuicVpn
