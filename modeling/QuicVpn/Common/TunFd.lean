import QuicVpn.Common.TunFlags

/-!
# The descriptor of a TUN device

`sys_tun_open` gets a descriptor from `open("/dev/net/tun")`; from then on only the field `tun_fd` of
the handle tells `sys_tun_cleanup` whether there is something to close.

* `FdCall`                  the calls of `open` and `close` that are made for a device;
* `TunRound`                a `tun_open` with the calls that follow it, up to one or more `tun_destroy`;
* `ClosedOnce`              every descriptor that was opened is closed once, and nothing else is;
* `fdRounds_closedOnce_iff` so it is unless `TUNSETIFF` refuses a descriptor: `sys_tun_open` closes
                            it then, and leaves its number in the handle.
-/

set_option linter.unusedSectionVars false

namespace QuicVpn

inductive FdCall where
  /-- `open` has returned a descriptor -/
  | opened (fd : ℕ)
  /-- `close` is called -/
  | closed (fd : ℕ)
  deriving DecidableEq

/-- a handle, and the calls so far -/
structure FdRun where
  dev : TunDev
  log : List FdCall

/-- the calls of `sys_tun_open` -/
def sysTunOpenFds (h : Host) : List FdCall :=
  if h.openTun ≠ 0 then []
  else if h.tunSetIff ≠ 0 then [.opened h.fd, .closed h.fd]
  else [.opened h.fd]

/-- the calls of `sys_tun_cleanup` -/
def sysTunCleanupFds (d : TunDev) : List FdCall :=
  if d.tunFd ≥ 0 then [.closed d.tunFd.toNat] else []

def FdRun.tunOpen (s : FdRun) (h : Host) : FdRun :=
  ⟨(QuicVpn.tunOpen h s.dev).2, s.log ++ sysTunOpenFds h⟩

def FdRun.tunDestroy (s : FdRun) (h : Host) : FdRun :=
  ⟨(QuicVpn.tunDestroy h s.dev).2, s.log ++ sysTunCleanupFds s.dev⟩

/-- a `tun_open` and what is called until the handle is destroyed, with the answers of the host -/
structure TunRound where
  openDev : Host
  /-- the calls that configure the device or undo that -/
  between : List (TunOp × Host)
  between_ok : ∀ a ∈ between, a.1 ≠ .openDev ∧ a.1 ≠ .destroy
  destroy : Host
  /-- `tun_destroy` may be called again -/
  again : List Host

section
variable (inetPton : String → Option InAddr)

def FdRun.call (s : FdRun) (a : TunOp × Host) : FdRun := { s with dev := (a.1.run inetPton a.2 s.dev).2 }

def FdRun.round (s : FdRun) (r : TunRound) : FdRun :=
  r.again.foldl FdRun.tunDestroy
    ((r.between.foldl (FdRun.call inetPton) (s.tunOpen r.openDev)).tunDestroy r.destroy)

/-- the rounds of a handle from `tun_create` -/
def fdRounds (rounds : List TunRound) : FdRun :=
  rounds.foldl (FdRun.round inetPton) ⟨tunCreate, []⟩

/-! ## the handle -/

variable {inetPton}

theorem setFlagsOn_tunFd (flags : BitVec 64) (r : ℤ × TunDev) :
    (setFlagsOn flags r).2.tunFd = r.2.tunFd := by
  unfold setFlagsOn
  split_ifs <;> rfl

theorem clearFlagsOn_tunFd (flags : BitVec 64) (r : ℤ × TunDev) :
    (clearFlagsOn flags r).2.tunFd = r.2.tunFd := by
  unfold clearFlagsOn
  split_ifs <;> rfl

theorem sysTunSetDnsText_tunFd (h : Host) (dns1 dns2 : Option String) (d : TunDev) :
    (sysTunSetDnsText inetPton h dns1 dns2 d).2.tunFd = d.tunFd := by
  unfold sysTunSetDnsText
  split
  · split_ifs
    · rfl
    · rfl
    · split
      · rfl
      · split
        · rfl
        · unfold sysTunSetDns
          split_ifs <;> rfl
  · rfl

theorem sysTunSetAddressText_tunFd (h : Host) (ip mask : Option String) (d : TunDev) :
    (sysTunSetAddressText inetPton h ip mask d).2.tunFd = d.tunFd := by
  unfold sysTunSetAddressText
  split
  · split
    · rfl
    · split
      · rfl
      · rw [sysTunSetAddress_dev]
  · rfl

/-- no call but `tun_open` and `tun_destroy` touches the descriptor -/
theorem TunOp.run_tunFd {op : TunOp} (ho : op ≠ .openDev) (hd : op ≠ .destroy) (h : Host)
    (d : TunDev) : (op.run inetPton h d).2.tunFd = d.tunFd := by
  cases op with
  | openDev => exact absurd rfl ho
  | setAddr ip mask =>
    exact (setFlagsOn_tunFd _ _).trans (sysTunSetAddressText_tunFd h ip mask d)
  | setMtu mtu =>
    refine (setFlagsOn_tunFd _ _).trans ?_
    unfold sysTunSetMtu
    split_ifs <;> rfl
  | setUp =>
    refine (setFlagsOn_tunFd _ _).trans ?_
    unfold sysTunSetUp
    split_ifs <;> rfl
  | setDown =>
    refine (clearFlagsOn_tunFd _ _).trans ?_
    unfold sysTunSetDown
    split_ifs <;> rfl
  | setDns dns1 dns2 => exact (setFlagsOn_tunFd _ _).trans (sysTunSetDnsText_tunFd h dns1 dns2 d)
  | clearDns =>
    refine (clearFlagsOn_tunFd _ _).trans ?_
    unfold sysTunClearDns
    dsimp only
    split_ifs <;> rfl
  | destroy => exact absurd rfl hd

theorem between_tunFd {l : List (TunOp × Host)}
    (hl : ∀ a ∈ l, a.1 ≠ .openDev ∧ a.1 ≠ .destroy) : ∀ s : FdRun,
    (l.foldl (FdRun.call inetPton) s).dev.tunFd = s.dev.tunFd ∧
      (l.foldl (FdRun.call inetPton) s).log = s.log := by
  induction l with
  | nil => exact fun s => ⟨rfl, rfl⟩
  | cons a l ih =>
    intro s
    obtain ⟨e1, e2⟩ := ih (fun b hb => hl b (List.mem_cons_of_mem _ hb)) (s.call inetPton a)
    obtain ⟨ho, hd⟩ := hl a List.mem_cons_self
    exact ⟨e1.trans (TunOp.run_tunFd ho hd a.2 s.dev), e2⟩

/-- `sys_tun_open` leaves a descriptor in the handle that it has already closed -/
theorem tunOpen_tunFd (h : Host) (d : TunDev) :
    (tunOpen h d).2.tunFd = if h.openTun ≠ 0 then -1 else (h.fd : ℤ) := by
  refine (setFlagsOn_tunFd _ _).trans ?_
  unfold sysTunOpen
  split_ifs <;> rfl

theorem cleanupDown_tunFd (h : Host) (d : TunDev) : (cleanupDown h d).2.tunFd = d.tunFd := by
  unfold cleanupDown
  split_ifs <;> rfl

/-- a destroyed handle has no descriptor -/
theorem tunDestroy_tunFd (h : Host) (d : TunDev) (hd : d.tunFd ≥ -1) :
    (tunDestroy h d).2.tunFd = -1 := by
  have e := cleanupDown_tunFd h d
  unfold tunDestroy sysTunCleanup
  dsimp only
  rw [e]
  by_cases hf : d.tunFd ≥ 0
  · simp only [if_pos hf]
  · simp only [if_neg hf]
    omega

theorem again_tunFd (l : List Host) : ∀ s : FdRun, s.dev.tunFd = -1 →
    (l.foldl FdRun.tunDestroy s).dev.tunFd = -1 ∧ (l.foldl FdRun.tunDestroy s).log = s.log := by
  induction l with
  | nil => exact fun s hs => ⟨hs, rfl⟩
  | cons h l ih =>
    intro s hs
    have hd : (s.tunDestroy h).dev.tunFd = -1 := tunDestroy_tunFd h s.dev (by omega)
    have hl : (s.tunDestroy h).log = s.log := by
      unfold FdRun.tunDestroy sysTunCleanupFds
      rw [hs]
      exact List.append_nil _
    obtain ⟨e1, e2⟩ := ih (s.tunDestroy h) hd
    exact ⟨e1, e2.trans hl⟩

/-! ## a round -/

/-- the calls of a round -/
def TunRound.fds (r : TunRound) : List FdCall :=
  if r.openDev.openTun ≠ 0 then []
  else if r.openDev.tunSetIff ≠ 0 then
    [.opened r.openDev.fd, .closed r.openDev.fd, .closed r.openDev.fd]
  else [.opened r.openDev.fd, .closed r.openDev.fd]

/-- `TUNSETIFF` refuses the descriptor -/
def TunRound.Refused (r : TunRound) : Prop := r.openDev.openTun = 0 ∧ r.openDev.tunSetIff ≠ 0

theorem FdRun.round_log (s : FdRun) (r : TunRound) :
    (s.round inetPton r).dev.tunFd = -1 ∧ (s.round inetPton r).log = s.log ++ r.fds := by
  obtain ⟨e1, e2⟩ := between_tunFd r.between_ok (s.tunOpen r.openDev)
  have eo := tunOpen_tunFd r.openDev s.dev
  generalize hm : r.between.foldl (FdRun.call inetPton) (s.tunOpen r.openDev) = m at *
  have ef : m.dev.tunFd = if r.openDev.openTun ≠ 0 then -1 else (r.openDev.fd : ℤ) := e1.trans eo
  have hge : m.dev.tunFd ≥ -1 := by
    rw [ef]
    split_ifs <;> omega
  obtain ⟨e3, e4⟩ := again_tunFd r.again (m.tunDestroy r.destroy)
    (tunDestroy_tunFd r.destroy m.dev hge)
  have eround : s.round inetPton r = r.again.foldl FdRun.tunDestroy (m.tunDestroy r.destroy) := by
    unfold FdRun.round
    rw [hm]
  rw [eround]
  refine ⟨e3, e4.trans ?_⟩
  show m.log ++ sysTunCleanupFds m.dev = s.log ++ r.fds
  rw [e2]
  show s.log ++ sysTunOpenFds r.openDev ++ sysTunCleanupFds m.dev = s.log ++ r.fds
  rw [List.append_assoc]
  congr 1
  unfold sysTunOpenFds sysTunCleanupFds TunRound.fds
  rw [ef]
  by_cases ho : r.openDev.openTun ≠ 0
  · simp [ho]
  · by_cases hi : r.openDev.tunSetIff ≠ 0
    · simp [ho, hi]
    · simp [ho, hi]

theorem fdRounds_log (rounds : List TunRound) :
    (fdRounds inetPton rounds).log = rounds.flatMap TunRound.fds := by
  have key : ∀ (l : List TunRound) (s : FdRun),
      (l.foldl (FdRun.round inetPton) s).log = s.log ++ l.flatMap TunRound.fds := by
    intro l
    induction l with
    | nil => exact fun s => (List.append_nil _).symm
    | cons r l ih =>
      intro s
      rw [List.foldl_cons, ih, (s.round_log r).2, List.flatMap_cons, List.append_assoc]
  exact key rounds _

end

/-! ## descriptors are closed once -/

/-- what was opened is closed as often, and nothing is closed that is not open -/
structure ClosedOnce (log : List FdCall) : Prop where
  once : ∀ fd, log.count (.closed fd) = log.count (.opened fd)
  isOpen : ∀ l r fd, log = l ++ .closed fd :: r → l.count (.closed fd) < l.count (.opened fd)

theorem ClosedOnce.append {a b : List FdCall} (ha : ClosedOnce a) (hb : ClosedOnce b) :
    ClosedOnce (a ++ b) := by
  refine ⟨fun fd => ?_, fun l r fd e => ?_⟩
  · rw [List.count_append, List.count_append, ha.once, hb.once]
  · rcases List.append_eq_append_iff.mp e with ⟨x, hl, hx⟩ | ⟨x, hl, hx⟩
    · rw [hl, List.count_append, List.count_append, ha.once]
      exact Nat.add_lt_add_left (hb.isOpen x r fd hx) _
    · cases x with
      | nil =>
        rw [List.nil_append] at hx
        rw [List.append_nil] at hl
        rw [← hl, ha.once]
        have hlt := hb.isOpen [] r fd hx.symm
        exact absurd hlt (Nat.lt_irrefl _)
      | cons y x =>
        rw [List.cons_append] at hx
        obtain ⟨rfl, -⟩ := List.cons.inj hx
        exact ha.isOpen l x fd hl

theorem ClosedOnce.nil : ClosedOnce [] :=
  ⟨fun _ => rfl, fun l _ _ e => absurd e.symm (List.append_ne_nil_of_right_ne_nil l (by simp))⟩

theorem ClosedOnce.pair (fd : ℕ) : ClosedOnce [.opened fd, .closed fd] := by
  refine ⟨fun n => by by_cases hn : fd = n <;> simp [hn], fun l r n e => ?_⟩
  cases l with
  | nil => exact absurd (List.cons.inj e).1 (by simp)
  | cons x l =>
    obtain ⟨rfl, e2⟩ := List.cons.inj e
    cases l with
    | nil =>
      obtain ⟨e3, -⟩ := List.cons.inj e2
      cases e3
      simp
    | cons y l => exact absurd (congrArg List.length (List.cons.inj e2).2) (by simp)

theorem TunRound.fds_closedOnce {r : TunRound} (hr : ¬ r.Refused) : ClosedOnce r.fds := by
  unfold TunRound.fds
  split_ifs with ho hi
  · exact ClosedOnce.nil
  · exact absurd ⟨not_not.mp ho, hi⟩ hr
  · exact ClosedOnce.pair _

/-- no round closes less than it has opened -/
theorem TunRound.count_le (r : TunRound) (fd : ℕ) :
    r.fds.count (.opened fd) ≤ r.fds.count (.closed fd) := by
  unfold TunRound.fds
  split_ifs with ho hi
  · exact Nat.le_refl 0
  · by_cases hn : r.openDev.fd = fd <;> simp [hn]
  · by_cases hn : r.openDev.fd = fd <;> simp [hn]

/-- one that was refused closes its descriptor twice -/
theorem TunRound.Refused.count_lt {r : TunRound} (hr : r.Refused) :
    r.fds.count (.opened r.openDev.fd) < r.fds.count (.closed r.openDev.fd) := by
  unfold TunRound.fds
  rw [if_neg (not_not.mpr hr.1), if_pos hr.2]
  simp

theorem count_fds_le (rounds : List TunRound) (fd : ℕ) :
    (rounds.flatMap TunRound.fds).count (.opened fd) ≤
      (rounds.flatMap TunRound.fds).count (.closed fd) := by
  induction rounds with
  | nil => exact Nat.le_refl 0
  | cons r l ih =>
    rw [List.flatMap_cons, List.count_append, List.count_append]
    exact Nat.add_le_add (r.count_le fd) ih

/-- the rounds of a handle close every descriptor once if and only if `TUNSETIFF` refuses none -/
theorem fdRounds_closedOnce_iff (inetPton : String → Option InAddr) (rounds : List TunRound) :
    ClosedOnce (fdRounds inetPton rounds).log ↔
      ∀ r ∈ rounds, r.openDev.openTun = 0 → r.openDev.tunSetIff = 0 := by
  rw [fdRounds_log]
  constructor
  · intro hc r hr ho
    by_contra hi
    obtain ⟨l, l', rfl⟩ := List.append_of_mem hr
    have h1 := hc.once r.openDev.fd
    rw [List.flatMap_append, List.flatMap_cons, List.count_append, List.count_append,
      List.count_append, List.count_append] at h1
    have h2 := count_fds_le l r.openDev.fd
    have h3 := count_fds_le l' r.openDev.fd
    have h4 := TunRound.Refused.count_lt ⟨ho, hi⟩
    omega
  · intro hr
    induction rounds with
    | nil => exact ClosedOnce.nil
    | cons r l ih =>
      rw [List.flatMap_cons]
      refine ClosedOnce.append (r.fds_closedOnce fun hf => hf.2 ?_) (ih fun s hs => ?_)
      · exact hr r List.mem_cons_self hf.1
      · exact hr s (List.mem_cons_of_mem _ hs)

/-- `tun_open` and `tun_destroy` -/
def plainRound (h : Host) : TunRound := ⟨h, [], by simp, h, []⟩

/-- `TUNSETIFF` answers `EPERM`: the descriptor is closed a second time -/
theorem refused_closed_twice :
    (fdRounds (fun _ => none) [plainRound { willingHost with tunSetIff := 1 }]).log =
        [.opened 3, .closed 3, .closed 3] ∧
      ¬ ClosedOnce (fdRounds (fun _ => none) [plainRound { willingHost with tunSetIff := 1 }]).log := by
  refine ⟨rfl, fun hc => ?_⟩
  have h := hc.once 3
  exact absurd h (by decide)

end QuicVpn
