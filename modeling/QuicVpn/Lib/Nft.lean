import Mathlib.Data.List.Basic
import Mathlib.Data.Nat.Notation

/-!
# Rule sets of nftables

The part of the language of `nft` that filters by interface, address, port and connection state, with
its text and its meaning.  `A` are the IPv4 addresses, `text` prints one, and `covers a n b` says that
`b` is in the network of `a` with `n` leading bits.

* `Script.print`     the text of a script, as `nft -f` reads it;
* `Script.apply`     what a script does to the tables of a host: a table that exists already gets
                     the rules in addition to its own, a table that is destroyed need not exist;
* `Chain.verdict`    the first rule that matches decides, else the policy;
* `accepts`          a packet goes through a hook if no base chain of any table drops it;
* `passes_iff`       a chain of accepting rules that drops the rest.
-/

namespace Conc.Nft

/-- what a rule looks at -/
inductive Test (A : Type) where
  | iifname (name : String)
  | oifname (name : String)
  | daddr (a : A)
  | saddr (a : A) (len : ℕ)
  | udpDport (port : ℕ)
  | established
  deriving DecidableEq, Repr

inductive Verdict where
  | accept
  | drop
  | masquerade
  deriving DecidableEq, Repr

structure Rule (A : Type) where
  tests : List (Test A)
  verdict : Verdict
  deriving DecidableEq, Repr

inductive Hook where
  | input
  | forward
  | output
  | postrouting
  deriving DecidableEq, Repr

structure Chain (A : Type) where
  name : String
  kind : String
  hook : Hook
  priority : String
  policy : Verdict
  rules : List (Rule A)
  deriving DecidableEq, Repr

structure Table (A : Type) where
  name : String
  chains : List (Chain A)
  deriving DecidableEq, Repr

inductive Script (A : Type) where
  | table (t : Table A)
  | destroy (name : String)
  | flush
  deriving DecidableEq, Repr

/-- a packet at a hook; the fields of another protocol than the packet's say nothing -/
structure Packet (A : Type) where
  iif : String
  oif : String
  ipv4 : Bool
  src : A
  dst : A
  udp : Bool
  dport : ℕ
  established : Bool

section
variable {A : Type}

/-! ## the text -/

/-- the texts of the members, one after the other -/
def printAll {α : Type} (f : α → String) : List α → String
  | [] => ""
  | x :: l => f x ++ printAll f l

section
variable (text : A → String)

def Test.print : Test A → String
  | .iifname name => "iifname \"" ++ name ++ "\""
  | .oifname name => "oifname \"" ++ name ++ "\""
  | .daddr a => "ip daddr " ++ text a
  | .saddr a len => "ip saddr " ++ text a ++ "/" ++ toString len
  | .udpDport port => "udp dport " ++ toString port
  | .established => "ct state established,related"

def Verdict.print : Verdict → String
  | .accept => "accept"
  | .drop => "drop"
  | .masquerade => "masquerade"

def Hook.print : Hook → String
  | .input => "input"
  | .forward => "forward"
  | .output => "output"
  | .postrouting => "postrouting"

def Rule.print (r : Rule A) : String :=
  "        " ++ printAll (fun t => Test.print text t ++ " ") r.tests ++ r.verdict.print ++ "\n"

def Chain.print (c : Chain A) : String :=
  "    chain " ++ c.name ++ " \x7b\n" ++
  "        type " ++ c.kind ++ " hook " ++ c.hook.print ++ " priority " ++ c.priority ++
    "; policy " ++ c.policy.print ++ ";\n" ++
  printAll (Rule.print text) c.rules ++
  "    \x7d\n"

def Script.print : Script A → String
  | .table t => "table inet " ++ t.name ++ " \x7b\n" ++ printAll (Chain.print text) t.chains ++ "\x7d\n"
  | .destroy name => "destroy table inet " ++ name ++ "\n"
  | .flush => "flush ruleset\n"

end

/-! ## the tables of a host -/

/-- a chain that is there gets more rules -/
def addChain (cs : List (Chain A)) (c : Chain A) : List (Chain A) :=
  if c.name ∈ cs.map Chain.name then
    cs.map fun d => if d.name = c.name then { d with policy := c.policy, rules := d.rules ++ c.rules } else d
  else cs ++ [c]

def addTable (host : List (Table A)) (t : Table A) : List (Table A) :=
  if t.name ∈ host.map Table.name then
    host.map fun u => if u.name = t.name then { u with chains := t.chains.foldl addChain u.chains } else u
  else host ++ [t]

def Script.apply : Script A → List (Table A) → List (Table A)
  | .table t, host => addTable host t
  | .destroy name, host => host.filter fun t => t.name ≠ name
  | .flush, _ => []

theorem addTable_of_notMem {host : List (Table A)} {t : Table A} (h : t.name ∉ host.map Table.name) :
    addTable host t = host ++ [t] := if_neg h

/-- the table is the last one -/
theorem addTable_concat {host : List (Table A)} {t u : Table A} (h : t.name ∉ host.map Table.name)
    (hu : u.name = t.name) :
    addTable (host ++ [u]) t = host ++ [{ u with chains := t.chains.foldl addChain u.chains }] := by
  have hmem : t.name ∈ (host ++ [u]).map Table.name := by
    rw [List.map_append]
    exact List.mem_append_right _ (List.mem_singleton.mpr hu.symm)
  rw [addTable, if_pos hmem, List.map_append]
  congr 1
  · conv_rhs => rw [← List.map_id host]
    refine List.map_congr_left fun v hv => ?_
    have hne : v.name ≠ t.name := fun e => h (e ▸ List.mem_map_of_mem hv)
    exact if_neg hne
  · exact congrArg (· :: []) (if_pos hu)

theorem destroy_of_notMem {host : List (Table A)} {name : String}
    (h : name ∉ host.map Table.name) : (Script.destroy name : Script A).apply host = host := by
  refine List.filter_eq_self.mpr fun t ht => ?_
  have hne : t.name ≠ name := fun e => h (e ▸ List.mem_map_of_mem ht)
  exact decide_eq_true hne

theorem destroy_concat {host : List (Table A)} {u : Table A} (h : u.name ∉ host.map Table.name) :
    (Script.destroy u.name).apply (host ++ [u]) = host := by
  show (host ++ [u]).filter (fun t => t.name ≠ u.name) = host
  rw [List.filter_append]
  have h1 : host.filter (fun t => t.name ≠ u.name) = host := destroy_of_notMem h
  have h2 : [u].filter (fun t => t.name ≠ u.name) = [] := by simp
  rw [h1, h2, List.append_nil]

/-! ## packets -/

section
variable [DecidableEq A] (covers : A → ℕ → A → Bool)

def Test.holds (p : Packet A) : Test A → Bool
  | .iifname name => decide (p.iif = name)
  | .oifname name => decide (p.oif = name)
  | .daddr a => p.ipv4 && decide (p.dst = a)
  | .saddr a len => p.ipv4 && covers a len p.src
  | .udpDport port => p.udp && decide (p.dport = port)
  | .established => p.established

def Rule.applies (p : Packet A) (r : Rule A) : Bool := r.tests.all (Test.holds covers p)

def Chain.verdict (p : Packet A) (c : Chain A) : Verdict :=
  match c.rules.find? (Rule.applies covers p) with
  | some r => r.verdict
  | none => c.policy

def Table.accepts (hook : Hook) (p : Packet A) (t : Table A) : Prop :=
  ∀ c ∈ t.chains, c.hook = hook → c.verdict covers p ≠ .drop

def accepts (host : List (Table A)) (hook : Hook) (p : Packet A) : Prop :=
  ∀ t ∈ host, t.accepts covers hook p

variable {covers} {p : Packet A}

theorem accepts_concat {host : List (Table A)} {t : Table A} {hook : Hook} :
    accepts covers (host ++ [t]) hook p ↔ accepts covers host hook p ∧ t.accepts covers hook p := by
  simp only [accepts, List.mem_append, List.mem_singleton, or_imp, forall_and, forall_eq]

/-- accepting rules, and everything else dropped -/
theorem passes_iff {c : Chain A} (hr : ∀ r ∈ c.rules, r.verdict = .accept) (hp : c.policy = .drop) :
    c.verdict covers p ≠ .drop ↔ ∃ r ∈ c.rules, r.applies covers p = true := by
  unfold Chain.verdict
  split
  · next r hf =>
    rw [hr r (List.mem_of_find?_eq_some hf)]
    exact iff_of_true nofun ⟨r, List.mem_of_find?_eq_some hf, List.find?_some hf⟩
  · next hf =>
    rw [hp]
    refine iff_of_false (fun h => h rfl) ?_
    rintro ⟨r, hm, ha⟩
    exact List.find?_eq_none.mp hf r hm ha

end

end

end Conc.Nft
