import QuicVpn.Common.Netlink

/-!
# How far the netlink loops read

`recv` has filled `len` bytes of a buffer; what lies behind them is whatever was there before.  The
message loops trust the lengths they find.  The rest of the buffer is cast to `size_t` for `NLMSG_OK`,
so when the padding of a message goes beyond the end, the rest is a huge number and the loop goes on.

* `Inside body mem len s`     the loop ends, and has read nothing at or behind `len`;
* `MsgAt`, `AttrAt`           the messages and attributes that a loop comes to;
* `Bounded`                   the messages that it comes to lie inside the buffer, with their padding and
                              with the fields that are read;
* `inside_iff`                these are the same, for any body;
* `netlink_inside_iff`        and so for the three loops of the program.
-/

set_option linter.unusedSectionVars false

namespace QuicVpn
open Conc Conc.Reads

/-! ## messages -/

section
variable {σ : Type} (body : ℕ → ℕ → σ → Reads (Bool × σ)) (mem : ℕ → UInt8) (len : ℕ)

/-- from the message at `nlh` on, the loop ends and reads nothing at or behind `len` -/
def InsideFrom (nlh : ℕ) (s : σ) : Prop :=
  ∃ fuel r, nlmsgLoop body mem fuel nlh (BitVec.ofNat 64 (len - nlh)) s = some r ∧ ∀ i ∈ r.2, i < len

def Inside (s : σ) : Prop := InsideFrom body mem len 0 s

/-- the loop comes to `nlh`; at the messages in `stops` it is left -/
inductive MsgAt (stops : ℕ → Prop) : ℕ → Prop
  | first : MsgAt stops 0
  | next {nlh : ℕ} (h : MsgAt stops nlh) (hok : HeaderOk mem len nlh) (hs : ¬ stops nlh)
      (hle : nlh + align4 (le32 mem nlh) ≤ len) : MsgAt stops (nlh + align4 (le32 mem nlh))

/-- every message that the loop comes to has its fields and its padding inside the buffer -/
def Bounded (stops fits : ℕ → Prop) : Prop :=
  ∀ nlh, MsgAt mem len stops nlh → HeaderOk mem len nlh →
    fits nlh ∧ (stops nlh ∨ nlh + align4 (le32 mem nlh) ≤ len)

variable {body mem len}

theorem InsideFrom.of_short {nlh : ℕ} (h : len < nlh + 16) (s : σ) :
    InsideFrom body mem len nlh s := by
  refine ⟨1, (s, []), ?_, fun i hi => absurd hi List.not_mem_nil⟩
  have hnat : (BitVec.ofNat 64 (len - nlh)).toNat < 16 := by
    rw [BitVec.toNat_ofNat]
    omega
  rw [nlmsgLoop, if_pos hnat]

theorem InsideFrom.of_bad {nlh : ℕ} (hl : len ≤ 8192) (h16 : nlh + 16 ≤ len)
    (h : ¬ HeaderOk mem len nlh) (s : σ) : InsideFrom body mem len nlh s := by
  refine ⟨1, (s, [nlh, nlh + 1, nlh + 2, nlh + 3]), ?_, fun i hi => ?_⟩
  · rw [nlmsgLoop, toNat_rest hl, if_neg (by omega), if_pos]
    rintro ⟨h1, h2⟩
    exact h ⟨h16, h1, by omega⟩
  · simp only [List.mem_cons, List.not_mem_nil, or_false] at hi
    omega

/-- the loop goes on beyond the end if the padding does -/
theorem reads_beyond {nlh n fuel : ℕ} (hl : len ≤ 8192) (hn : nlh ≤ len) (h : len < nlh + n)
    (hsmall : n ≤ 16384) {s : σ} {r : σ × List ℕ}
    (hr : nlmsgLoop body mem fuel (nlh + n) (BitVec.ofNat 64 (len - nlh) - BitVec.ofNat 64 n) s = some r) :
    nlh + n ∈ r.2 := by
  have hbig : ¬ (BitVec.ofNat 64 (len - nlh) - BitVec.ofNat 64 n).toNat < 16 := by
    simp only [BitVec.toNat_sub, BitVec.toNat_ofNat]
    omega
  cases fuel with
  | zero => cases hr
  | succ fuel =>
    rw [nlmsgLoop, if_neg hbig] at hr
    dsimp only at hr
    split_ifs at hr with h1 h2
    · cases hr
      exact List.mem_cons_self
    · obtain ⟨rest, -, rfl⟩ := Option.map_eq_some_iff.mp hr
      exact List.mem_cons_self
    · cases hr
      exact List.mem_cons_self

theorem align4_le_add {n : ℕ} (h : n ≤ 8192) : align4 n ≤ n + 3 ∧ n ≤ align4 n := by
  unfold align4
  omega

/-- one turn: the body stays inside, and then the loop is left or goes on inside -/
theorem insideFrom_iff {nlh : ℕ} (hl : len ≤ 8192) (h : HeaderOk mem len nlh) (s : σ) :
    InsideFrom body mem len nlh s ↔ Within len (body nlh (le32 mem nlh) s) mem ∧
      (((body nlh (le32 mem nlh) s).val mem).1 = true ∨
        nlh + align4 (le32 mem nlh) ≤ len ∧
          InsideFrom body mem len (nlh + align4 (le32 mem nlh))
            ((body nlh (le32 mem nlh) s).val mem).2) := by
  obtain ⟨h16, hn, hfit⟩ := h
  have hal := align4_le_add (show le32 mem nlh ≤ 8192 by omega)
  have hhead : ∀ i ∈ [nlh, nlh + 1, nlh + 2, nlh + 3], i < len := by
    intro i hi
    simp only [List.mem_cons, List.not_mem_nil, or_false] at hi
    omega
  constructor
  · rintro ⟨fuel, r, hr, hin⟩
    cases fuel with
    | zero => cases hr
    | succ fuel =>
      rw [nlmsgLoop_turn body hl ⟨h16, hn, hfit⟩] at hr
      split_ifs at hr with hb
      · cases hr
        exact ⟨(List.forall_mem_append.mp hin).2, .inl hb⟩
      · obtain ⟨rest, hrest, rfl⟩ := Option.map_eq_some_iff.mp hr
        obtain ⟨hread, hrin⟩ := List.forall_mem_append.mp hin
        refine ⟨(List.forall_mem_append.mp hread).2, .inr ?_⟩
        have hle : nlh + align4 (le32 mem nlh) ≤ len := by
          by_contra hgt
          rw [not_le] at hgt
          have hmem := reads_beyond hl (by omega) hgt (by omega) hrest
          exact absurd (hrin _ hmem) (by omega)
        rw [rest_sub hl hle] at hrest
        exact ⟨hle, fuel, rest, hrest, hrin⟩
  · rintro ⟨hw, hnext⟩
    have hturn := nlmsgLoop_turn body hl ⟨h16, hn, hfit⟩
    by_cases hb : ((body nlh (le32 mem nlh) s).val mem).1 = true
    · exact ⟨1, _, (hturn 0 s).trans (if_pos hb), List.forall_mem_append.mpr ⟨hhead, hw⟩⟩
    · obtain ⟨hle, fuel, rest, hrest, hrin⟩ := hnext.resolve_left hb
      rw [← rest_sub hl hle] at hrest
      refine ⟨fuel + 1, _, (hturn fuel s).trans ((if_neg hb).trans (by rw [hrest, Option.map_some])), ?_⟩
      exact List.forall_mem_append.mpr ⟨List.forall_mem_append.mpr ⟨hhead, hw⟩, hrin⟩

theorem MsgAt.le {stops : ℕ → Prop} {nlh : ℕ} (h : MsgAt mem len stops nlh) : nlh ≤ len := by
  cases h with
  | first => exact Nat.zero_le len
  | next _ _ _ hle => exact hle

/-- where a body leaves the loop, and when it stays inside, in terms of the memory -/
structure Looks (body : ℕ → ℕ → σ → Reads (Bool × σ)) (mem : ℕ → UInt8) (len : ℕ)
    (stops fits : ℕ → Prop) : Prop where
  stop : ∀ nlh s, HeaderOk mem len nlh →
    (((body nlh (le32 mem nlh) s).val mem).1 = true ↔ stops nlh)
  within : ∀ nlh s, HeaderOk mem len nlh → (Within len (body nlh (le32 mem nlh) s) mem ↔ fits nlh)

/-- a loop that is inside comes to every message inside -/
theorem MsgAt.insideFrom {stops fits : ℕ → Prop} (hb : Looks body mem len stops fits)
    (hl : len ≤ 8192) {s : σ} (hs : Inside body mem len s) {nlh : ℕ} (h : MsgAt mem len stops nlh) :
    ∃ s', InsideFrom body mem len nlh s' := by
  induction h with
  | first => exact ⟨s, hs⟩
  | @next nlh _ hok hns _ ih =>
    obtain ⟨s', hs'⟩ := ih
    obtain ⟨-, hstop | ⟨-, hrest⟩⟩ := (insideFrom_iff hl hok s').mp hs'
    · exact absurd ((hb.stop nlh s' hok).mp hstop) hns
    · exact ⟨_, hrest⟩

/-- and one whose messages are bounded is inside from each of them on -/
theorem Bounded.insideFrom {stops fits : ℕ → Prop} (hb : Looks body mem len stops fits)
    (hl : len ≤ 8192) (h : Bounded mem len stops fits) {nlh : ℕ} (hm : MsgAt mem len stops nlh)
    (s : σ) : InsideFrom body mem len nlh s := by
  -- by induction on the rest of the buffer
  induction hk : len - nlh using Nat.strong_induction_on generalizing nlh s with
  | _ k ih =>
    by_cases h16 : nlh + 16 ≤ len
    swap
    · exact InsideFrom.of_short (by omega) s
    by_cases hok : HeaderOk mem len nlh
    swap
    · exact InsideFrom.of_bad hl h16 hok s
    obtain ⟨hfit, hnext⟩ := h nlh hm hok
    rw [insideFrom_iff hl hok]
    refine ⟨(hb.within nlh s hok).mpr hfit, ?_⟩
    by_cases hstop : stops nlh
    · exact .inl ((hb.stop nlh s hok).mpr hstop)
    · have hle := hnext.resolve_left hstop
      obtain ⟨-, hn, hfit'⟩ := hok
      have hal := align4_le_add (show le32 mem nlh ≤ 8192 by omega)
      exact .inr ⟨hle, ih (len - (nlh + align4 (le32 mem nlh))) (by omega)
        (hm.next ⟨h16, hn, hfit'⟩ hstop hle) _ rfl⟩

theorem inside_iff {stops fits : ℕ → Prop} (hb : Looks body mem len stops fits) (hl : len ≤ 8192)
    (s : σ) : Inside body mem len s ↔ Bounded mem len stops fits := by
  constructor
  · intro hs nlh hm hok
    obtain ⟨s', hs'⟩ := hm.insideFrom hb hl hs
    obtain ⟨hw, hnext⟩ := (insideFrom_iff hl hok s').mp hs'
    refine ⟨(hb.within nlh s' hok).mp hw, ?_⟩
    rcases hnext with hstop | ⟨hle, -⟩
    · exact .inl ((hb.stop nlh s' hok).mp hstop)
    · exact .inr hle
  · intro h
    exact h.insideFrom hb hl .first s

end

/-! ## attributes -/

/-- from the attribute at `rta₀` on the loop comes to `rta`, with `rtaLen` bytes left, in the state
`b`; it is left where `stops` says so, and `step` is what an attribute does to the state -/
inductive AttrAt {β : Type} (mem : ℕ → UInt8) (stops : ℕ → β → Prop) (step : ℕ → β → β) (rta₀ : ℕ)
    (rtaLen₀ : ℤ) (b₀ : β) : ℕ → ℤ → β → Prop
  | first : AttrAt mem stops step rta₀ rtaLen₀ b₀ rta₀ rtaLen₀ b₀
  | next {rta : ℕ} {rtaLen : ℤ} {b : β} (h : AttrAt mem stops step rta₀ rtaLen₀ b₀ rta rtaLen b)
      (hok : RtaOk mem rta rtaLen) (hs : ¬ stops rta b) :
      AttrAt mem stops step rta₀ rtaLen₀ b₀ (rta + align4 (le16 mem rta))
        (rtaLen - align4 (le16 mem rta)) (step rta b)

section
variable {β γ : Type} {mem : ℕ → UInt8} {stops : ℕ → β → Prop} {step : ℕ → β → β}
  {rta₀ rta : ℕ} {rtaLen₀ rtaLen : ℤ}

/-- the loop never goes beyond the message -/
theorem AttrAt.add_le {b₀ b : β} (h : AttrAt mem stops step rta₀ rtaLen₀ b₀ rta rtaLen b) :
    (rta : ℤ) + rtaLen = rta₀ + rtaLen₀ := by
  induction h with
  | first => rfl
  | next _ _ _ ih =>
    push_cast
    omega

theorem AttrAt.room {b₀ b : β} (h : AttrAt mem stops step rta₀ rtaLen₀ b₀ rta rtaLen b)
    (hok : RtaOk mem rta rtaLen) {len : ℕ} (hr : (rta₀ : ℤ) + rtaLen₀ ≤ len) : rta + 4 ≤ len := by
  have hend := h.add_le
  have h4 := hok.1
  omega

theorem RtaOk.toNat_lt (h : RtaOk mem rta rtaLen) :
    (rtaLen - align4 (le16 mem rta)).toNat < rtaLen.toNat := by
  have hlt := le16_lt mem rta
  obtain ⟨h4, hn, hnle⟩ := h
  unfold align4
  omega

/-- what holds where the loop ends, and is passed back over every attribute, holds where it starts -/
theorem AttrAt.back {P : ℕ → ℤ → β → Prop} {b₀ : β}
    (hend : ∀ rta rtaLen b, AttrAt mem stops step rta₀ rtaLen₀ b₀ rta rtaLen b →
      ¬ RtaOk mem rta rtaLen → P rta rtaLen b)
    (hback : ∀ rta rtaLen b, AttrAt mem stops step rta₀ rtaLen₀ b₀ rta rtaLen b →
      RtaOk mem rta rtaLen →
      (¬ stops rta b → P (rta + align4 (le16 mem rta)) (rtaLen - align4 (le16 mem rta)) (step rta b)) →
      P rta rtaLen b) : P rta₀ rtaLen₀ b₀ := by
  suffices hall : ∀ (k : ℕ) rta rtaLen b, rtaLen.toNat = k →
      AttrAt mem stops step rta₀ rtaLen₀ b₀ rta rtaLen b → P rta rtaLen b from
    hall _ _ _ _ rfl .first
  -- by induction on the bytes that are left
  intro k
  induction k using Nat.strong_induction_on with
  | _ k ih =>
    intro rta rtaLen b hk hat
    by_cases hok : RtaOk mem rta rtaLen
    · exact hback rta rtaLen b hat hok fun hs =>
        ih _ (by rw [← hk]; exact hok.toNat_lt) _ _ _ rfl (hat.next hok hs)
    · exact hend rta rtaLen b hat hok

section
variable {stops' : ℕ → γ → Prop} {step' : ℕ → γ → γ} {f : β → γ}

/-- a view of the state that is enough to tell where the loop is left -/
theorem AttrAt.view (hs : ∀ rta b, stops rta b ↔ stops' rta (f b))
    (hf : ∀ rta b, f (step rta b) = step' rta (f b)) {b₀ b : β}
    (h : AttrAt mem stops step rta₀ rtaLen₀ b₀ rta rtaLen b) :
    AttrAt mem stops' step' rta₀ rtaLen₀ (f b₀) rta rtaLen (f b) := by
  induction h with
  | first => exact .first
  | @next rta rtaLen b _ hok hns ih =>
    rw [hf]
    exact ih.next hok fun hc => hns ((hs rta b).mpr hc)

theorem AttrAt.lift (hs : ∀ rta b, stops rta b ↔ stops' rta (f b))
    (hf : ∀ rta b, f (step rta b) = step' rta (f b)) {b₀ : β} {c : γ}
    (h : AttrAt mem stops' step' rta₀ rtaLen₀ (f b₀) rta rtaLen c) :
    ∃ b, f b = c ∧ AttrAt mem stops step rta₀ rtaLen₀ b₀ rta rtaLen b := by
  induction h with
  | first => exact ⟨b₀, rfl, .first⟩
  | @next rta rtaLen c _ hok hns ih =>
    obtain ⟨b, rfl, hb⟩ := ih
    exact ⟨step rta b, hf rta b, hb.next hok fun hc => hns ((hs rta b).mp hc)⟩

end

end

section
variable {α : Type} (body : ℕ → α → Reads (Bool × α)) (mem : ℕ → UInt8)

/-- the attributes that the loop with this body comes to, and its variables there -/
abbrev BodyAt (rta₀ : ℕ) (rtaLen₀ : ℤ) (a₀ : α) (rta : ℕ) (rtaLen : ℤ) (a : α) : Prop :=
  AttrAt mem (fun rta a => ((body rta a).val mem).1 = true) (fun rta a => ((body rta a).val mem).2)
    rta₀ rtaLen₀ a₀ rta rtaLen a

variable {body mem} {len : ℕ}

theorem within_attrs_of_not {rta : ℕ} {rtaLen : ℤ} {a : α} (h : ¬ RtaOk mem rta rtaLen)
    (hr : (rta : ℤ) + rtaLen ≤ len) : Within len (attrs body rta rtaLen a) mem := by
  intro i hi
  unfold touched attrs at hi
  rw [rtaLoop] at hi
  by_cases h4 : 4 ≤ rtaLen
  · rw [dif_pos h4, dif_neg (fun hn => h ⟨h4, hn⟩)] at hi
    simp only [List.mem_cons, List.not_mem_nil, or_false] at hi
    omega
  · rw [dif_neg h4] at hi
    exact absurd hi List.not_mem_nil

/-- one turn of the loop -/
theorem within_attrs_iff {rta : ℕ} {rtaLen : ℤ} {a : α} (h : RtaOk mem rta rtaLen)
    (hr : (rta : ℤ) + rtaLen ≤ len) : Within len (attrs body rta rtaLen a) mem ↔
      Within len (body rta a) mem ∧ (¬ ((body rta a).val mem).1 = true →
        Within len (attrs body (rta + align4 (le16 mem rta)) (rtaLen - align4 (le16 mem rta))
          ((body rta a).val mem).2) mem) := by
  have hhead : ∀ i ∈ [rta, rta + 1], i < len := by
    intro i hi
    have h4 := h.1
    simp only [List.mem_cons, List.not_mem_nil, or_false] at hi
    omega
  have e : (attrs body rta rtaLen a).touched mem =
      if ((body rta a).val mem).1 = true then [rta, rta + 1] ++ (body rta a).touched mem
      else [rta, rta + 1] ++ (body rta a).touched mem ++
        (attrs body (rta + align4 (le16 mem rta)) (rtaLen - align4 (le16 mem rta))
          ((body rta a).val mem).2).touched mem := by
    unfold touched
    rw [attrs_turn body h]
    split_ifs <;> rfl
  unfold Within
  rw [e]
  split_ifs with hb
  · rw [List.forall_mem_append]
    exact ⟨fun hw => ⟨hw.2, fun hf => absurd hb hf⟩, fun hw => ⟨hhead, hw.1⟩⟩
  · rw [List.forall_mem_append, List.forall_mem_append]
    exact ⟨fun hw => ⟨hw.1.2, fun _ => hw.2⟩, fun hw => ⟨⟨hhead, hw.1⟩, hw.2 hb⟩⟩

/-- the attribute loop is inside if and only if its body is, at every attribute it comes to -/
theorem within_attrs {rta₀ : ℕ} {rtaLen₀ : ℤ} {a₀ : α} (hr : (rta₀ : ℤ) + rtaLen₀ ≤ len) :
    Within len (attrs body rta₀ rtaLen₀ a₀) mem ↔
      ∀ rta rtaLen a, BodyAt body mem rta₀ rtaLen₀ a₀ rta rtaLen a → RtaOk mem rta rtaLen →
        Within len (body rta a) mem := by
  have hle : ∀ {rta rtaLen a}, BodyAt body mem rta₀ rtaLen₀ a₀ rta rtaLen a →
      (rta : ℤ) + rtaLen ≤ len := by
    intro rta rtaLen a hat
    rw [hat.add_le]
    exact hr
  constructor
  · intro hw rta rtaLen a hat hok
    have hall : Within len (attrs body rta rtaLen a) mem := by
      clear hok
      induction hat with
      | first => exact hw
      | next hat hok hs ih => exact ((within_attrs_iff hok (hle hat)).mp ih).2 hs
    exact ((within_attrs_iff hok (hle hat)).mp hall).1
  · intro h
    refine AttrAt.back (P := fun rta rtaLen a => Within len (attrs body rta rtaLen a) mem)
      (fun rta rtaLen a hat hok => within_attrs_of_not hok (hle hat)) fun rta rtaLen a hat hok hnext => ?_
    exact (within_attrs_iff hok (hle hat)).mpr ⟨h rta rtaLen a hat hok, hnext⟩

/-! the variables at the end of the loop -/

theorem rtaLoop_next {rta : ℕ} {rtaLen : ℤ} {a : α} (h : RtaOk mem rta rtaLen)
    (hs : ¬ ((body rta a).val mem).1 = true) : (rtaLoop body mem rta rtaLen a).1 =
      (rtaLoop body mem (rta + align4 (le16 mem rta)) (rtaLen - align4 (le16 mem rta))
        ((body rta a).val mem).2).1 := by
  have hturn := congrArg Prod.fst (attrs_turn body h a)
  rw [if_neg hs] at hturn
  exact hturn

/-- a loop that is never left ends at the first attribute that is not sound -/
theorem rtaLoop_eq_iff (hb : ∀ rta a, ¬ ((body rta a).val mem).1 = true) {rta₀ : ℕ} {rtaLen₀ : ℤ}
    {a₀ b : α} : (rtaLoop body mem rta₀ rtaLen₀ a₀).1 = b ↔
      ∃ rta rtaLen, BodyAt body mem rta₀ rtaLen₀ a₀ rta rtaLen b ∧ ¬ RtaOk mem rta rtaLen := by
  constructor
  · rintro rfl
    refine AttrAt.back (P := fun rta rtaLen a => ∃ rta' rtaLen', BodyAt body mem rta₀ rtaLen₀ a₀ rta'
        rtaLen' (rtaLoop body mem rta rtaLen a).1 ∧ ¬ RtaOk mem rta' rtaLen')
      (fun rta rtaLen a (hat : BodyAt body mem rta₀ rtaLen₀ a₀ rta rtaLen a) hok => ?_)
      fun rta rtaLen a _ hok hnext => ?_
    · rw [rtaLoop_end body hok]
      exact ⟨rta, rtaLen, hat, hok⟩
    · rw [rtaLoop_next hok (hb rta a)]
      exact hnext (hb rta a)
  · rintro ⟨rta, rtaLen, hat, hend⟩
    have hsame : (rtaLoop body mem rta₀ rtaLen₀ a₀).1 = (rtaLoop body mem rta rtaLen b).1 := by
      clear hend
      induction hat with
      | first => rfl
      | next _ hok hs ih => rw [ih, rtaLoop_next hok hs]
    rw [hsame, rtaLoop_end body hend]

end

/-! ## routes -/

section
variable (q : IfQueries) (mem : ℕ → UInt8) (len : ℕ)

def EndStops (nlh : ℕ) : Prop :=
  le16 mem (nlh + 4) = nlmsgDone ∨ le16 mem (nlh + 4) = nlmsgError

/-- the `rtmsg` of a default route of the main table, as far as it is tested before its attributes -/
def RouteHeader (nlh : ℕ) : Prop :=
  (mem (nlh + 16)).toNat = afInet ∧ (mem (nlh + 20)).toNat = rtTableMain ∧
    (mem (nlh + 17)).toNat = 0 ∧ (mem (nlh + 23)).toNat = rtnUnicast ∧
    (mem (nlh + 22)).toNat ≠ rtScopeHost ∧ (mem (nlh + 22)).toNat ≠ rtScopeLink

/-- the bytes that the tests need -/
def RouteHeaderFits (nlh : ℕ) : Prop :=
  nlh + 17 ≤ len ∧ ((mem (nlh + 16)).toNat = afInet → nlh + 21 ≤ len ∧
    ((mem (nlh + 20)).toNat = rtTableMain → (mem (nlh + 17)).toNat = 0 → nlh + 24 ≤ len))

/-- the attributes are left at an interface that is not wanted -/
def RouteSkips (rta : ℕ) : Prop :=
  le16 mem (rta + 2) = rtaOif ∧ (netlinkIsLoopback q (asInt (le32 mem (rta + 4))) ||
    netlinkIsPointtopoint q (asInt (le32 mem (rta + 4)))) = true

/-- the attributes that have an integer for the program -/
def RouteReads (rta : ℕ) : Prop :=
  le16 mem (rta + 2) = rtaOif ∨ le16 mem (rta + 2) = rtaGateway ∨ le16 mem (rta + 2) = rtaPriority

/-- a `RTM_NEWROUTE` message has the bytes of its header, and its attributes those of their integers -/
def RouteFits (nlh : ℕ) : Prop :=
  le16 mem (nlh + 4) = rtmNewroute → RouteHeaderFits mem len nlh ∧ (RouteHeader mem nlh →
    ∀ rta rtaLen, AttrAt mem (fun rta _ => RouteSkips q mem rta) (fun _ b => b) (nlh + 28)
      (le32 mem nlh - 28) () rta rtaLen () → RtaOk mem rta rtaLen → RouteReads mem rta → rta + 8 ≤ len)

variable {q mem len}

theorem routeAttr_within {rta : ℕ} {a : RouteAttrs} (h : rta + 4 ≤ len) :
    Within len (routeAttr q rta a) mem ↔ (RouteReads mem rta → rta + 8 ≤ len) := by
  have h2 : rta + 2 + 1 < len := by omega
  have h8 : rta + 4 + 3 < len ↔ rta + 8 ≤ len := by omega
  unfold routeAttr s32
  rw [within_bind, val_u16, within_u16, and_iff_right h2]
  simp only [within_ite, within_bind, within_u32, within_pure, and_true, h8, implies_true]
  constructor
  · rintro ⟨ho, hrest⟩ ht
    by_cases h1 : le16 mem (rta + 2) = rtaOif
    · exact ho h1
    · by_cases h3 : le16 mem (rta + 2) = rtaGateway
      · exact (hrest h1).1 h3
      · exact (hrest h1).2 h3 ((ht.resolve_left h1).resolve_left h3)
  · intro ht
    exact ⟨fun h1 => ht (.inl h1), fun _ => ⟨fun h3 => ht (.inr (.inl h3)),
      fun _ h4 => ht (.inr (.inr h4))⟩⟩

theorem routeAttr_stops (rta : ℕ) (a : RouteAttrs) :
    ((routeAttr q rta a).val mem).1 = true ↔ RouteSkips q mem rta := by
  unfold routeAttr RouteSkips
  rw [val_bind, val_u16]
  by_cases h1 : le16 mem (rta + 2) = rtaOif
  · rw [if_pos h1, val_bind, val_pure, and_iff_right h1]
    show (RouteAttrs.oif q (asInt (le32 mem (rta + 4))) a).1 = true ↔ _
    unfold RouteAttrs.oif
    split_ifs with hs
    · exact iff_of_true rfl hs
    · exact iff_of_false id hs
  · refine iff_of_false ?_ fun h => h1 h.1
    rw [if_neg h1]
    split_ifs <;> exact Bool.false_ne_true

theorem routeAttrs_within {rta₀ : ℕ} {rtaLen₀ : ℤ} (hr : (rta₀ : ℤ) + rtaLen₀ ≤ len) :
    Within len (attrs (routeAttr q) rta₀ rtaLen₀ {}) mem ↔
      ∀ rta rtaLen, AttrAt mem (fun rta _ => RouteSkips q mem rta) (fun _ b => b) rta₀ rtaLen₀ () rta
        rtaLen () → RtaOk mem rta rtaLen → RouteReads mem rta → rta + 8 ≤ len := by
  rw [within_attrs hr]
  constructor
  · intro h rta rtaLen hat hok
    obtain ⟨a, -, ha⟩ := hat.lift (f := fun _ : RouteAttrs => ()) routeAttr_stops (fun _ _ => rfl)
    exact (routeAttr_within (ha.room hok hr)).mp (h rta rtaLen a ha hok)
  · intro h rta rtaLen a ha hok
    exact (routeAttr_within (ha.room hok hr)).mpr
      (h rta rtaLen (ha.view (f := fun _ => ()) routeAttr_stops (fun _ _ => rfl)) hok)

theorem routeWanted_within (nlh : ℕ) :
    Within len (routeWanted (nlh + 16)) mem ↔ RouteHeaderFits mem len nlh := by
  unfold routeWanted RouteHeaderFits
  simp only [within_bind, val_u8]
  simp only [within_ite, within_bind, within_u8, within_pure, implies_true, and_true, true_and,
    Nat.add_assoc, Nat.reduceAdd, not_not]
  constructor
  · rintro ⟨h1, h2⟩
    refine ⟨by omega, fun hf => ?_⟩
    obtain ⟨h3, h4⟩ := h2 hf
    refine ⟨by omega, fun ht hd => ?_⟩
    have h5 := ((h4 ht).2 hd).1
    omega
  · rintro ⟨h1, h2⟩
    refine ⟨by omega, fun hf => ?_⟩
    obtain ⟨h3, h4⟩ := h2 hf
    refine ⟨by omega, fun ht => ⟨by omega, fun hd => ?_⟩⟩
    have h5 := h4 ht hd
    exact ⟨by omega, fun _ => by omega⟩

theorem routeWanted_val (nlh : ℕ) :
    (routeWanted (nlh + 16)).val mem = true ↔ RouteHeader mem nlh := by
  unfold routeWanted RouteHeader
  rw [val_bind, val_u8]
  split_ifs with h1
  · exact iff_of_false Bool.false_ne_true fun h => h1 h.1
  rw [val_bind, val_u8]
  split_ifs with h2
  · exact iff_of_false Bool.false_ne_true fun h => h2 h.2.1
  rw [val_bind, val_u8]
  split_ifs with h3
  · exact iff_of_false Bool.false_ne_true fun h => h3 h.2.2.1
  rw [val_bind, val_u8]
  split_ifs with h4
  · exact iff_of_false Bool.false_ne_true fun h => h4 h.2.2.2.1
  rw [val_bind, val_u8, val_pure, decide_eq_true_iff, not_or]
  exact ⟨fun h => ⟨not_not.mp h1, not_not.mp h2, not_not.mp h3, not_not.mp h4, h⟩,
    fun h => h.2.2.2.2⟩

theorem routeMsg_stops {nlh : ℕ} (s : RouteScan) :
    ((routeMsg q nlh (le32 mem nlh) s).val mem).1 = true ↔ EndStops mem nlh := by
  unfold routeMsg EndStops
  rw [val_bind, val_u16]
  split_ifs with h1 h2
  · exact iff_of_true rfl h1
  · exact iff_of_false Bool.false_ne_true h1
  · rw [val_bind]
    split_ifs
    · exact iff_of_false Bool.false_ne_true h1
    · exact iff_of_false Bool.false_ne_true h1

theorem routeMsg_within (hl : len ≤ 8192) {nlh : ℕ} (hok : HeaderOk mem len nlh) (s : RouteScan) :
    Within len (routeMsg q nlh (le32 mem nlh) s) mem ↔ RouteFits q mem len nlh := by
  obtain ⟨h16, hn, hfit⟩ := hok
  have ht : nlh + 4 + 1 < len := by omega
  have hpay := nlmsgPayload_eq (show 28 ≤ 2 ^ 31 by decide) (show le32 mem nlh < 2 ^ 31 by omega)
  have hr : ((nlh + 28 : ℕ) : ℤ) + ((le32 mem nlh : ℤ) - (28 : ℕ)) ≤ len := by
    push_cast
    omega
  unfold routeMsg RouteFits
  rw [within_bind, within_u16, val_u16, and_iff_right ht]
  split_ifs with h1 h2
  · refine iff_of_true (within_pure _ _ _) fun hnew => ?_
    rw [hnew] at h1
    exact absurd h1 (by decide)
  · exact iff_of_true (within_pure _ _ _) fun hnew => absurd hnew h2
  · rw [not_not] at h2
    rw [within_bind, routeWanted_within, hpay, forall_prop_of_true h2]
    refine and_congr_right fun _ => ?_
    by_cases hw : (routeWanted (nlh + 16)).val mem = true
    · have hh := (routeWanted_val nlh).mp hw
      rw [hw, if_neg (by decide), within_bind, and_iff_left (within_pure _ _ _),
        forall_prop_of_true hh]
      exact routeAttrs_within hr
    · rw [Bool.eq_false_iff.mpr hw, if_pos (by decide)]
      exact iff_of_true (within_pure _ _ _) fun hh => absurd ((routeWanted_val nlh).mpr hh) hw

theorem routeMsg_looks (hl : len ≤ 8192) :
    Looks (routeMsg q) mem len (EndStops mem) (RouteFits q mem len) :=
  ⟨fun _ s _ => routeMsg_stops s, fun _ s hok => routeMsg_within hl hok s⟩

end

/-! ## addresses -/

section
variable (ifindex : ℤ) (mem : ℕ → UInt8) (len : ℕ)

/-- an IPv4 address of the interface, and not one of the host only -/
def AddrHeader (nlh : ℕ) : Prop :=
  (le32 mem (nlh + 20) : ℤ) = ifindex % 2 ^ 32 ∧ (mem (nlh + 16)).toNat = afInet ∧
    (mem (nlh + 19)).toNat ≠ rtScopeHost

/-- whether an address is held behind the attribute at `rta` -/
def addrHeld (rta : ℕ) (held : Bool) : Bool :=
  if le16 mem (rta + 2) = ifaLocal then decide (le32 mem (rta + 4) ≠ 0)
  else if le16 mem (rta + 2) = ifaAddress then held || decide (le32 mem (rta + 4) ≠ 0)
  else held

/-- the loop over the attributes comes to `rta`, and holds an address there or not -/
abbrev AddrAt (rta₀ : ℕ) (rtaLen₀ : ℤ) (rta : ℕ) (rtaLen : ℤ) (held : Bool) : Prop :=
  AttrAt mem (fun _ _ => False) (addrHeld mem) rta₀ rtaLen₀ false rta rtaLen held

/-- the attributes that have an address for the program -/
def AddrReads (rta : ℕ) (held : Bool) : Prop :=
  le16 mem (rta + 2) = ifaLocal ∨ le16 mem (rta + 2) = ifaAddress ∧ held = false ∨
    le16 mem (rta + 2) = ifaBroadcast

/-- a message with an address ends the loop too -/
def AddrStops (nlh : ℕ) : Prop :=
  EndStops mem nlh ∨ le16 mem (nlh + 4) = rtmNewaddr ∧ AddrHeader ifindex mem nlh ∧
    ∃ rta rtaLen, AddrAt mem (nlh + 24) (le32 mem nlh - 24) rta rtaLen true ∧ ¬ RtaOk mem rta rtaLen

/-- a `RTM_NEWADDR` message has the bytes of its header, and its attributes those of their addresses -/
def AddrFits (nlh : ℕ) : Prop :=
  le16 mem (nlh + 4) = rtmNewaddr → nlh + 24 ≤ len ∧ (AddrHeader ifindex mem nlh →
    ∀ rta rtaLen held, AddrAt mem (nlh + 24) (le32 mem nlh - 24) rta rtaLen held →
      RtaOk mem rta rtaLen → AddrReads mem rta held → rta + 8 ≤ len)

variable {ifindex mem len}

theorem addrAttr_goesOn (rta : ℕ) (a : AddrAttrs) : ¬ ((addrAttr rta a).val mem).1 = true := by
  unfold addrAttr
  rw [val_bind]
  split_ifs <;> exact Bool.false_ne_true

theorem ofNat_le32_ne (i : ℕ) : BitVec.ofNat 32 (le32 mem i) ≠ 0 ↔ le32 mem i ≠ 0 := by
  have hlt := le32_lt mem i
  rw [Ne, ← BitVec.toNat_inj, BitVec.toNat_ofNat, Nat.mod_eq_of_lt (by omega)]
  rfl

theorem addrAttr_held (rta : ℕ) (a : AddrAttrs) :
    decide (((addrAttr rta a).val mem).2.localIp ≠ 0) = addrHeld mem rta (decide (a.localIp ≠ 0)) := by
  unfold addrAttr addrHeld
  rw [val_bind, val_u16]
  by_cases h1 : le16 mem (rta + 2) = ifaLocal
  · rw [if_pos h1, if_pos h1, decide_eq_decide]
    exact ofNat_le32_ne _
  rw [if_neg h1, if_neg h1]
  by_cases h2 : le16 mem (rta + 2) = ifaAddress
  · rw [if_pos h2, if_pos h2]
    by_cases h3 : a.localIp = 0
    · rw [if_pos h3, decide_eq_false (not_not.mpr h3), Bool.false_or, decide_eq_decide]
      exact ofNat_le32_ne _
    · rw [if_neg h3, decide_eq_true h3, Bool.true_or]
      exact decide_eq_true h3
  rw [if_neg h2, if_neg h2]
  split_ifs <;> rfl

theorem addrAttr_within {rta : ℕ} {a : AddrAttrs} (h : rta + 4 ≤ len) :
    Within len (addrAttr rta a) mem ↔ (AddrReads mem rta (decide (a.localIp ≠ 0)) → rta + 8 ≤ len) := by
  have h2 : rta + 2 + 1 < len := by omega
  have h8 : rta + 4 + 3 < len ↔ rta + 8 ≤ len := by omega
  unfold addrAttr AddrReads
  rw [within_bind, val_u16, within_u16, and_iff_right h2, decide_eq_false_iff_not, not_not]
  simp only [within_ite, within_bind, within_u32, within_pure, and_true, h8, implies_true]
  constructor
  · rintro ⟨hlocal, hrest⟩ ht
    by_cases h1 : le16 mem (rta + 2) = ifaLocal
    · exact hlocal h1
    · obtain ⟨haddr, hbcast⟩ := hrest h1
      by_cases h3 : le16 mem (rta + 2) = ifaAddress
      · rcases ht with ht | ht | ht
        · exact absurd ht h1
        · exact haddr h3 ht.2
        · rw [h3] at ht
          exact absurd ht (by decide)
      · exact hbcast h3 ((ht.resolve_left h1).resolve_left fun hc => h3 hc.1)
  · intro ht
    exact ⟨fun h1 => ht (.inl h1), fun _ => ⟨fun h3 h0 => ht (.inr (.inl ⟨h3, h0⟩)),
      fun _ h4 => ht (.inr (.inr h4))⟩⟩

theorem addrAt_iff {rta₀ rta : ℕ} {rtaLen₀ rtaLen : ℤ} {held : Bool} :
    AddrAt mem rta₀ rtaLen₀ rta rtaLen held ↔ ∃ a : AddrAttrs, decide (a.localIp ≠ 0) = held ∧
      BodyAt addrAttr mem rta₀ rtaLen₀ {} rta rtaLen a := by
  have hs : ∀ rta (a : AddrAttrs), ((addrAttr rta a).val mem).1 = true ↔ False :=
    fun rta a => iff_of_false (addrAttr_goesOn rta a) id
  constructor
  · intro h
    exact AttrAt.lift (f := fun a : AddrAttrs => decide (a.localIp ≠ 0)) hs addrAttr_held h
  · rintro ⟨a, rfl, h⟩
    exact h.view (f := fun a : AddrAttrs => decide (a.localIp ≠ 0)) hs addrAttr_held

theorem addrAttrs_within {rta₀ : ℕ} {rtaLen₀ : ℤ} (hr : (rta₀ : ℤ) + rtaLen₀ ≤ len) :
    Within len (attrs addrAttr rta₀ rtaLen₀ {}) mem ↔
      ∀ rta rtaLen held, AddrAt mem rta₀ rtaLen₀ rta rtaLen held → RtaOk mem rta rtaLen →
        AddrReads mem rta held → rta + 8 ≤ len := by
  rw [within_attrs hr]
  constructor
  · intro h rta rtaLen held hat hok
    obtain ⟨a, rfl, ha⟩ := addrAt_iff.mp hat
    exact (addrAttr_within (ha.room hok hr)).mp (h rta rtaLen a ha hok)
  · intro h rta rtaLen a ha hok
    exact (addrAttr_within (ha.room hok hr)).mpr (h rta rtaLen _ (addrAt_iff.mpr ⟨a, rfl, ha⟩) hok)

/-- the loop over the attributes ends with an address -/
theorem addrAttrs_val {rta₀ : ℕ} {rtaLen₀ : ℤ} :
    ((attrs addrAttr rta₀ rtaLen₀ {}).val mem).localIp ≠ 0 ↔
      ∃ rta rtaLen, AddrAt mem rta₀ rtaLen₀ rta rtaLen true ∧ ¬ RtaOk mem rta rtaLen := by
  constructor
  · intro h
    obtain ⟨rta, rtaLen, hat, hend⟩ := (rtaLoop_eq_iff addrAttr_goesOn).mp
      (rfl : (rtaLoop addrAttr mem rta₀ rtaLen₀ {}).1 = _)
    exact ⟨rta, rtaLen, addrAt_iff.mpr ⟨_, decide_eq_true h, hat⟩, hend⟩
  · rintro ⟨rta, rtaLen, hat, hend⟩
    obtain ⟨a, ha, hbody⟩ := addrAt_iff.mp hat
    rw [val_attrs, (rtaLoop_eq_iff addrAttr_goesOn).mpr ⟨rta, rtaLen, hbody, hend⟩]
    exact of_decide_eq_true ha

theorem addrMsg_stops (hl : len ≤ 8192) {nlh : ℕ} (hok : HeaderOk mem len nlh) (s : AddrScan) :
    ((addrMsg ifindex nlh (le32 mem nlh) s).val mem).1 = true ↔ AddrStops ifindex mem nlh := by
  obtain ⟨h16, hn, hfit⟩ := hok
  have hpay := nlmsgPayload_eq (show 24 ≤ 2 ^ 31 by decide) (show le32 mem nlh < 2 ^ 31 by omega)
  unfold addrMsg AddrStops EndStops AddrHeader
  rw [val_bind, val_u16]
  split_ifs with h1 h2
  · exact iff_of_true rfl (.inl h1)
  · exact iff_of_false Bool.false_ne_true fun h => h2 (h.resolve_left h1).1
  rw [not_not] at h2
  rw [or_iff_right h1, and_iff_right h2, val_bind, val_u32]
  split_ifs with h3
  · exact iff_of_false Bool.false_ne_true fun h => h3 h.1.1
  rw [val_bind, val_u8]
  split_ifs with h4
  · exact iff_of_false Bool.false_ne_true fun h => h4 h.1.2.1
  rw [val_bind, val_u8]
  split_ifs with h5
  · exact iff_of_false Bool.false_ne_true fun h => h.1.2.2 h5
  rw [and_iff_right ⟨not_not.mp h3, not_not.mp h4, h5⟩, hpay, val_bind, ← addrAttrs_val]
  split_ifs with h6
  · exact iff_of_true rfl h6
  · exact iff_of_false Bool.false_ne_true h6

theorem addrMsg_within (hl : len ≤ 8192) {nlh : ℕ} (hok : HeaderOk mem len nlh) (s : AddrScan) :
    Within len (addrMsg ifindex nlh (le32 mem nlh) s) mem ↔ AddrFits ifindex mem len nlh := by
  obtain ⟨h16, hn, hfit⟩ := hok
  have ht : nlh + 4 + 1 < len := by omega
  have hpay := nlmsgPayload_eq (show 24 ≤ 2 ^ 31 by decide) (show le32 mem nlh < 2 ^ 31 by omega)
  have hr : ((nlh + 24 : ℕ) : ℤ) + ((le32 mem nlh : ℤ) - (24 : ℕ)) ≤ len := by
    push_cast
    omega
  unfold addrMsg AddrFits AddrHeader
  rw [within_bind, within_u16, val_u16, and_iff_right ht]
  split_ifs with h1 h2
  · refine iff_of_true (within_pure _ _ _) fun hnew => ?_
    rw [hnew] at h1
    exact absurd h1 (by decide)
  · exact iff_of_true (within_pure _ _ _) fun hnew => absurd hnew h2
  rw [not_not] at h2
  rw [forall_prop_of_true h2, within_bind, within_u32, val_u32, Nat.lt_iff_add_one_le]
  refine and_congr_right fun h24 => ?_
  split_ifs with h3
  · exact iff_of_true (within_pure _ _ _) fun h => absurd h.1 h3
  rw [within_bind, within_u8, val_u8, and_iff_right (by omega)]
  split_ifs with h4
  · exact iff_of_true (within_pure _ _ _) fun h => absurd h.2.1 h4
  rw [within_bind, within_u8, val_u8, and_iff_right (by omega)]
  split_ifs with h5
  · exact iff_of_true (within_pure _ _ _) fun h => absurd h5 h.2.2
  rw [within_bind, hpay, addrAttrs_within hr,
    forall_prop_of_true (⟨not_not.mp h3, not_not.mp h4, h5⟩ : _ ∧ _ ∧ _)]
  refine and_iff_left ?_
  split_ifs
  · rw [within_bind, within_u8]
    exact ⟨by omega, within_pure _ _ _⟩
  · exact within_pure _ _ _

theorem addrMsg_looks (hl : len ≤ 8192) :
    Looks (addrMsg ifindex) mem len (AddrStops ifindex mem) (AddrFits ifindex mem len) :=
  ⟨fun _ s hok => addrMsg_stops hl hok s, fun _ s hok => addrMsg_within hl hok s⟩

end

/-! ## events -/

section
variable (wanIfindex : ℤ) (mem : ℕ → UInt8) (len : ℕ)

/-- a message about a route or a link has the bytes that are tested -/
def EventFits (nlh : ℕ) : Prop :=
  (le16 mem (nlh + 4) = rtmNewroute ∨ le16 mem (nlh + 4) = rtmDelroute →
    nlh + 17 ≤ len ∧ ((mem (nlh + 16)).toNat = afInet → nlh + 21 ≤ len)) ∧
  (le16 mem (nlh + 4) = rtmNewlink ∨ le16 mem (nlh + 4) = rtmDellink →
    nlh + 24 ≤ len ∧ (asInt (le32 mem (nlh + 20)) = wanIfindex → nlh + 28 ≤ len))

variable {wanIfindex mem len}

theorem eventMsg_goesOn (nlh n : ℕ) (changed : Bool) :
    ((eventMsg wanIfindex nlh n changed).val mem).1 = false := by
  unfold eventMsg
  rw [val_bind, val_u16]
  split_ifs
  · rw [val_bind, val_u8]
    split_ifs
    · rfl
    · rw [val_bind, val_u8]
      split_ifs <;> rfl
  · rw [val_bind]
    split_ifs <;> rfl
  · rfl

theorem eventMsg_within {nlh : ℕ} (hok : HeaderOk mem len nlh) (changed : Bool) :
    Within len (eventMsg wanIfindex nlh (le32 mem nlh) changed) mem ↔ EventFits wanIfindex mem len nlh := by
  obtain ⟨h16, -, -⟩ := hok
  have ht : nlh + 4 + 1 < len := by omega
  unfold eventMsg EventFits s32
  rw [within_bind, within_u16, val_u16, and_iff_right ht]
  by_cases hroute : le16 mem (nlh + 4) = rtmNewroute ∨ le16 mem (nlh + 4) = rtmDelroute
  · have hlink : ¬ (le16 mem (nlh + 4) = rtmNewlink ∨ le16 mem (nlh + 4) = rtmDellink) := by
      rcases hroute with h | h <;> rw [h] <;> decide
    rw [if_pos hroute, forall_prop_of_true hroute, and_iff_left (fun h => absurd h hlink),
      within_bind, within_u8, val_u8, Nat.lt_iff_add_one_le]
    refine and_congr_right fun h17 => ?_
    split_ifs with hf
    · exact iff_of_true (within_pure _ _ _) fun h => absurd h hf
    rw [forall_prop_of_true (not_not.mp hf), within_bind, within_u8, val_u8, Nat.lt_iff_add_one_le]
    refine and_iff_left_of_imp fun h21 => ?_
    split_ifs
    · exact within_pure _ _ _
    · rw [within_bind, within_u8]
      exact ⟨by omega, within_pure _ _ _⟩
  · rw [if_neg hroute, and_iff_right (fun h => absurd h hroute)]
    by_cases hlink : le16 mem (nlh + 4) = rtmNewlink ∨ le16 mem (nlh + 4) = rtmDellink
    · rw [if_pos hlink, forall_prop_of_true hlink, within_bind, within_bind, within_u32, val_bind,
        val_u32, val_pure, and_iff_left (within_pure _ _ _), Nat.lt_iff_add_one_le]
      refine and_congr_right fun _ => ?_
      split_ifs with hi
      · rw [forall_prop_of_true hi, within_bind, within_u32, Nat.lt_iff_add_one_le]
        exact and_iff_left (within_pure _ _ _)
      · exact iff_of_true (within_pure _ _ _) fun h => absurd h hi
    · rw [if_neg hlink]
      exact iff_of_true (within_pure _ _ _) fun h => absurd h hlink

theorem eventMsg_looks :
    Looks (eventMsg wanIfindex) mem len (fun _ => False) (EventFits wanIfindex mem len) := by
  refine ⟨fun nlh changed _ => ?_, fun _ changed hok => eventMsg_within hok changed⟩
  rw [eventMsg_goesOn]
  exact iff_of_false Bool.false_ne_true id

end

/-! ## the loops of the program -/

/-- each of the loops ends and stays inside what was received if and only if its messages are bounded -/
theorem netlink_inside_iff (q : IfQueries) (ifindex wanIfindex : ℤ) (mem : ℕ → UInt8) (len : ℕ)
    (hl : len ≤ 8192) (r : RouteScan) (a : AddrScan) (changed : Bool) :
    (Inside (routeMsg q) mem len r ↔ Bounded mem len (EndStops mem) (RouteFits q mem len)) ∧
    (Inside (addrMsg ifindex) mem len a ↔
      Bounded mem len (AddrStops ifindex mem) (AddrFits ifindex mem len)) ∧
    (Inside (eventMsg wanIfindex) mem len changed ↔
      Bounded mem len (fun _ => False) (EventFits wanIfindex mem len)) :=
  ⟨inside_iff (routeMsg_looks hl) hl r, inside_iff (addrMsg_looks hl) hl a,
    inside_iff eventMsg_looks hl changed⟩

/-- every interface is an Ethernet device that is up -/
def ethernet : IfQueries := ⟨fun _ => false, fun _ => false, fun _ => some "eth0", fun _ => true⟩

/-- the search for a route, at its start -/
def noRoute : RouteScan := ⟨4294967295, false, false, ⟨0, "", 0, 0⟩⟩

/-- a default route with its interface, gateway and metric, and the end of the dump -/
def routeAndDone : List UInt8 :=
  [52, 0, 0, 0, 24, 0, 2, 0, 1, 0, 0, 0, 0, 0, 0, 0,
   2, 0, 0, 0, 254, 3, 0, 1, 0, 0, 0, 0,
   8, 0, 4, 0, 2, 0, 0, 0, 8, 0, 5, 0, 10, 0, 0, 1, 8, 0, 6, 0, 100, 0, 0, 0,
   20, 0, 0, 0, 3, 0, 2, 0, 1, 0, 0, 0, 0, 0, 0, 0, 0, 0, 0, 0]

def routeMem (i : ℕ) : UInt8 := routeAndDone.getD i 0

/-- it comes to the two messages and to the end of the buffer -/
theorem routeMem_messages {stops : ℕ → Prop} {nlh : ℕ} (h : MsgAt routeMem 72 stops nlh) :
    nlh = 0 ∨ nlh = 52 ∨ nlh = 72 := by
  induction h with
  | first => exact .inl rfl
  | next _ hok _ _ ih =>
    rcases ih with rfl | rfl | rfl
    · exact .inr (.inl (by decide))
    · exact .inr (.inr (by decide))
    · exact absurd hok.1 (by decide)

theorem routeMem_bounded {stops fits : ℕ → Prop} (h0 : fits 0) (h52 : fits 52) :
    Bounded routeMem 72 stops fits := by
  intro nlh hm hok
  rcases routeMem_messages hm with rfl | rfl | rfl
  · exact ⟨h0, .inr (by decide)⟩
  · exact ⟨h52, .inr (by decide)⟩
  · exact absurd hok.1 (by decide)

/-- the attributes of the route -/
theorem routeMem_attrs {β : Type} {stops : ℕ → β → Prop} {step : ℕ → β → β} {b₀ b : β} {rta : ℕ}
    {rtaLen : ℤ} (h : AttrAt routeMem stops step 28 24 b₀ rta rtaLen b) :
    rta = 28 ∧ rtaLen = 24 ∨ rta = 36 ∧ rtaLen = 16 ∨ rta = 44 ∧ rtaLen = 8 ∨ rta = 52 ∧ rtaLen = 0 := by
  induction h with
  | first => exact .inl ⟨rfl, rfl⟩
  | next _ hok _ ih =>
    rcases ih with ⟨rfl, rfl⟩ | ⟨rfl, rfl⟩ | ⟨rfl, rfl⟩ | ⟨rfl, rfl⟩
    · exact .inr (.inl (by decide))
    · exact .inr (.inr (.inl (by decide)))
    · exact .inr (.inr (.inr (by decide)))
    · exact absurd hok.1 (by decide)

/-- the three loops on a route with its attributes -/
theorem netlink_inside_iff_route :
    Inside (routeMsg ethernet) routeMem 72 noRoute ∧ Inside (addrMsg 2) routeMem 72 {} ∧
      Inside (eventMsg 2) routeMem 72 false := by
  obtain ⟨hr, ha, he⟩ := netlink_inside_iff ethernet 2 2 routeMem 72 (by decide) noRoute {} false
  refine ⟨hr.mpr (routeMem_bounded ?_ ?_), ha.mpr (routeMem_bounded ?_ ?_),
    he.mpr (routeMem_bounded ?_ ?_)⟩
  · refine fun _ => ⟨⟨by decide, fun _ => ⟨by decide, fun _ _ => by decide⟩⟩, fun _ rta rtaLen hat hok _ => ?_⟩
    rcases routeMem_attrs hat with ⟨rfl, rfl⟩ | ⟨rfl, rfl⟩ | ⟨rfl, rfl⟩ | ⟨rfl, rfl⟩
    · decide
    · decide
    · decide
    · exact absurd hok.1 (by decide)
  · exact fun h => absurd h (by decide)
  · exact fun h => absurd h (by decide)
  · exact fun h => absurd h (by decide)
  · exact ⟨fun _ => ⟨by decide, fun _ => by decide⟩, fun h => absurd h (by decide)⟩
  · exact ⟨fun h => absurd h (by decide), fun h => absurd h (by decide)⟩

/-! A message whose length is not a multiple of four, at the end of the buffer. -/

/-- behind the end a length that is aligned to `0` holds the loop for ever -/
theorem nlmsgLoop_stuck {σ : Type} {body : ℕ → ℕ → σ → Reads (Bool × σ)} {mem : ℕ → UInt8} {nlh : ℕ}
    {len : BitVec 64} (hbig : 2 ^ 32 ≤ len.toNat) (hn : 2 ^ 32 - 3 ≤ le32 mem nlh)
    (hb : ∀ s, ((body nlh (le32 mem nlh) s).val mem).1 = false) (fuel : ℕ) (s : σ) :
    nlmsgLoop body mem fuel nlh len s = none := by
  have hlt := le32_lt mem nlh
  have hal : align4 (le32 mem nlh) = 0 := by
    unfold align4
    omega
  induction fuel generalizing s with
  | zero => rfl
  | succ fuel ih =>
    have hs : (body nlh (le32 mem nlh) s mem).1.1 = false := hb s
    rw [nlmsgLoop, if_neg (by omega), if_neg (not_not.mpr ⟨by omega, by omega⟩)]
    dsimp only
    have hrest : len - BitVec.ofNat 64 0 = len := BitVec.sub_zero len
    rw [hs, if_neg Bool.false_ne_true, hal, hrest]
    exact congrArg (Option.map _) (ih _)

/-- `17` bytes, the length of the message; then the padding, and what was there before -/
def oddMsg (i : ℕ) : UInt8 :=
  if i = 0 then 17 else if i = 4 then 1 else if 20 ≤ i ∧ i < 24 then 255 else 0

theorem oddMsg_not_bounded {stops fits : ℕ → Prop} (hs : ¬ stops 0) :
    ¬ Bounded oddMsg 17 stops fits := by
  intro h
  obtain ⟨-, hnext⟩ := h 0 .first ⟨by decide, by decide, by decide⟩
  exact absurd (hnext.resolve_left hs) (by decide)

theorem oddMsg_stuck (wanIfindex : ℤ) (fuel : ℕ) (changed : Bool) :
    nlmsgLoop (eventMsg wanIfindex) oddMsg fuel 0 17 changed = none := by
  cases fuel with
  | zero => rfl
  | succ fuel =>
    have hturn := nlmsgLoop_turn (eventMsg wanIfindex) (show 17 ≤ 8192 by decide)
      (show HeaderOk oddMsg 17 0 from ⟨by decide, by decide, by decide⟩) fuel changed
    refine hturn.trans ?_
    rw [eventMsg_goesOn, if_neg Bool.false_ne_true, show align4 (le32 oddMsg 0) = 20 by decide,
      Nat.zero_add, nlmsgLoop_stuck (by decide) (by decide) (eventMsg_goesOn 20 _), Option.map_none]

/-- all three loops go on behind the end, and the last one does not return -/
theorem odd_reads_beyond :
    ¬ Inside (routeMsg ethernet) oddMsg 17 noRoute ∧ ¬ Inside (addrMsg 2) oddMsg 17 {} ∧
      ¬ Inside (eventMsg 2) oddMsg 17 false ∧
      ∀ fuel, nlmsgLoop (eventMsg 2) oddMsg fuel 0 17 false = none := by
  have hend : ¬ EndStops oddMsg 0 := by
    unfold EndStops
    decide
  refine ⟨?_, ?_, ?_, fun fuel => oddMsg_stuck 2 fuel false⟩
  · rw [inside_iff (routeMsg_looks (by decide)) (by decide)]
    exact oddMsg_not_bounded hend
  · rw [inside_iff (addrMsg_looks (by decide)) (by decide)]
    refine oddMsg_not_bounded fun h => ?_
    exact absurd (h.resolve_left hend).1 (by decide)
  · rw [inside_iff eventMsg_looks (by decide)]
    exact oddMsg_not_bounded id

end QuicVpn
