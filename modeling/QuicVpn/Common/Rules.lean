import QuicVpn.Common.Cidr
import QuicVpn.Common.Tun
import QuicVpn.Lib.Nft

/-!
# The packet filter rules of the engines (`tun_driver.c`)

The client puts a kill switch around its tunnel, the server masquerades what comes out of its own.  Both
print a script into a buffer on the stack and run `nft -f -` on it; what `nft` does with a script is a
parameter, and `Understands nft s` says that it does to the tables of the host what the script `s` says.

* `sytClientRulesAddNftScript`, `sytClientRulesDelNftScript`   the rules of the client;
* `sytServerRulesAddNft`, `sysServerRulesDelNft`, `sysIptablesResetNft`   those of the server;
* `scripts_whole`      the four texts with something to fill in are scripts, and are never cut;
* `killSwitch_run`     what the kill switch lets through after any sequence of additions and removals.
-/

set_option linter.unusedSectionVars false

namespace QuicVpn
open Conc Conc.Nft

/-- `-ECHILD` -/
def echild : ℤ := -10

/-- a name in a `char [IFNAMSIZ]` -/
structure IfName where
  name : String
  short : name.length < 16
  noNul : CText.nul ∉ name.toList

/-! ## the texts -/

/-- the format of `syt_client_rules_del_nft` -/
def clientDestroy (tun : String) : String := "destroy table inet vpn_ks_" ++ tun ++ "\n"

/-- the format of `syt_server_rules_add_nft` -/
def serverRuleset (tun wanIf cidr : String) : String :=
  "table inet vpn_" ++ tun ++ " \x7b\n" ++
  "    chain forward \x7b\n" ++
  "        type filter hook forward priority filter; policy accept;\n" ++
  "        iifname \"" ++ tun ++ "\" oifname \"" ++ wanIf ++ "\" accept\n" ++
  "        iifname \"" ++ wanIf ++ "\" oifname \"" ++ tun ++
    "\" ct state established,related accept\n" ++
  "    \x7d\n" ++
  "    chain postrouting \x7b\n" ++
  "        type nat hook postrouting priority srcnat; policy accept;\n" ++
  "        ip saddr " ++ cidr ++ " oifname \"" ++ wanIf ++ "\" masquerade\n" ++
  "    \x7d\n" ++
  "\x7d\n"

/-- the format of `sys_server_rules_del_nft` -/
def serverDestroy (tun : String) : String := "destroy table inet vpn_" ++ tun ++ "\n"

/-- the text in a buffer of `size` bytes that held `junk`, after `snprintf` of `t` into it -/
def scriptIn (size : ℕ) (junk : Char) (t : String) : String :=
  String.ofList ((CText.text (CText.snprintf (List.replicate size junk) t.toList)).getD [])

/-! ## the functions -/

/-- how `run_nft_script` comes out: a call fails before `nft` runs, `nft` runs and is waited for, or
`waitpid` fails -/
inductive ScriptRun where
  | notRun (err : ℤ)
  | ran
  | unwaited (err : ℤ)
  deriving DecidableEq, Repr

/-- the tables of the host -/
abbrev Tables := List (Table InAddr)

section
variable (nft : String → Tables → Option Tables)

/-- `run_nft_script`; a script that `nft` refuses changes nothing -/
def runNftScript (run : ScriptRun) (ruleset : String) (host : Tables) : ℤ × Tables :=
  match run with
  | .notRun err => (err, host)
  | .ran =>
    match nft ruleset host with
    | some host' => (0, host')
    | none => (echild, host)
  | .unwaited err => (err, (nft ruleset host).getD host)

/-- `syt_client_rules_add_nft` -/
def sytClientRulesAddNftScript (priv : Bool) (run : ScriptRun) (junk : Char)
    (tun wanIf serverIp : String) (serverPort : BitVec 16) (host : Tables) : ℤ × Tables :=
  if serverPort = 0 then (einval, host)
  else
    let ruleset := scriptIn 1024 junk (killSwitchRules tun wanIf serverIp serverPort)
    if priv = false then (ecanceled, host) else runNftScript nft run ruleset host

/-- `syt_client_rules_del_nft` -/
def sytClientRulesDelNftScript (priv : Bool) (run : ScriptRun) (junk : Char) (tun : String)
    (host : Tables) : ℤ × Tables :=
  if tun = "" then (einval, host)
  else
    let ruleset := scriptIn 256 junk (clientDestroy tun)
    if priv = false then (ecanceled, host) else runNftScript nft run ruleset host

/-- `syt_server_rules_add_nft`; `ip` and `mask` are those of the device -/
def sytServerRulesAddNft (priv : Bool) (run : ScriptRun) (junk : Char) (tun wanIf : String)
    (ip mask : InAddr) (host : Tables) : ℤ × Tables :=
  let cidr := inAddrToCidrInto (some ip) (some mask) (some (List.replicate 20 CText.nul))
  if cidr.1 ≠ 0 then (einval, host)
  else
    let cidrText := String.ofList ((cidr.2.bind CText.text).getD [])
    let ruleset := scriptIn 1024 junk (serverRuleset tun wanIf cidrText)
    if priv = false then (ecanceled, host) else runNftScript nft run ruleset host

/-- `sys_server_rules_del_nft` -/
def sysServerRulesDelNft (priv : Bool) (run : ScriptRun) (junk : Char) (tun : String)
    (host : Tables) : ℤ × Tables :=
  if tun = "" then (einval, host)
  else
    let ruleset := scriptIn 256 junk (serverDestroy tun)
    if priv = false then (ecanceled, host) else runNftScript nft run ruleset host

/-- `sys_iptables_reset_nft` -/
def sysIptablesResetNft (priv : Bool) (run : ScriptRun) (host : Tables) : ℤ × Tables :=
  if priv = false then (ecanceled, host) else runNftScript nft run "flush ruleset\n" host

end

/-! ## the scripts -/

/-- where the client lets its own packets out: the interface, the address and the port of the server -/
structure Endpoint where
  wanIf : String
  serverIp : InAddr
  serverPort : BitVec 16
  deriving DecidableEq

/-- the rules that one addition puts into the chain `output` -/
def outputRules (tun : String) (e : Endpoint) : List (Rule InAddr) :=
  [⟨[.oifname "lo"], .accept⟩, ⟨[.oifname tun], .accept⟩,
    ⟨[.oifname e.wanIf, .daddr e.serverIp, .udpDport e.serverPort.toNat], .accept⟩]

/-- and into the chain `input` -/
def inputRules (tun : String) : List (Rule InAddr) :=
  [⟨[.iifname "lo"], .accept⟩, ⟨[.iifname tun], .accept⟩, ⟨[.established], .accept⟩]

/-- the kill switch with the rules of the additions `es` -/
def killSwitchTable (tun : String) (es : List Endpoint) : Table InAddr :=
  ⟨"vpn_ks_" ++ tun,
    [⟨"output", "filter", .output, "filter", .drop, es.flatMap (outputRules tun)⟩,
     ⟨"input", "filter", .input, "filter", .drop, es.flatMap fun _ => inputRules tun⟩]⟩

/-- the rules of the server -/
def serverNatTable (tun wanIf : String) (ip : InAddr) (len : ℕ) : Table InAddr :=
  ⟨"vpn_" ++ tun,
    [⟨"forward", "filter", .forward, "filter", .accept,
      [⟨[.iifname tun, .oifname wanIf], .accept⟩,
       ⟨[.iifname wanIf, .oifname tun, .established], .accept⟩]⟩,
     ⟨"postrouting", "nat", .postrouting, "srcnat", .accept,
      [⟨[.saddr ip len, .oifname wanIf], .masquerade⟩]⟩]⟩

/-! ## what is in the buffers -/

/-- at most `n` characters, and no NUL -/
structure Fits (n : ℕ) (s : String) : Prop where
  length_le : s.length ≤ n
  noNul : CText.nul ∉ s.toList

theorem Fits.append {m n : ℕ} {s t : String} (hs : Fits m s) (ht : Fits n t) : Fits (m + n) (s ++ t) := by
  constructor
  · rw [String.length_append]
    exact Nat.add_le_add hs.length_le ht.length_le
  · rw [String.toList_append, List.mem_append, not_or]
    exact ⟨hs.noNul, ht.noNul⟩

theorem Fits.mono {m n : ℕ} {s : String} (hs : Fits m s) (h : m ≤ n) : Fits n s :=
  ⟨hs.length_le.trans h, hs.noNul⟩

theorem fits_literal {s : String} (h : CText.nul ∉ s.toList) : Fits s.length s := ⟨le_refl _, h⟩

theorem IfName.fits (i : IfName) : Fits 15 i.name := ⟨Nat.le_of_lt_succ i.short, i.noNul⟩

/-- a text that is shorter than its buffer is the text in it -/
theorem scriptIn_of_fits {size n : ℕ} {t : String} (h : Fits n t) (hn : n < size) (junk : Char) :
    scriptIn size junk t = t := by
  have hlen : t.toList.length < (List.replicate size junk).length := by
    rw [List.length_replicate, String.length_toList]
    exact lt_of_le_of_lt h.length_le hn
  rw [scriptIn, CText.text_snprintf_of_lt h.noNul hlen, Option.getD_some, String.ofList_toList]

theorem inetNtop_fits (a : InAddr) : Fits 16 (inetNtop a) := by
  have he := printed_eq a 0
  have hl := length_cidrText (a := a) (Nat.zero_le 32)
  have hc := cidrLen_le a (Nat.zero_le 32)
  rw [← he, String.length_toList, String.length_append, String.length_append] at hl
  refine ⟨?_, fun hm => nul_not_mem_cidrText a 0 ?_⟩
  · have h1 : "/".length = 1 := rfl
    have h2 : (toString 0).length = 1 := rfl
    omega
  · rw [← he, String.toList_append, String.toList_append]
    exact List.mem_append_left _ (List.mem_append_left _ hm)

theorem port_fits (p : BitVec 16) : Fits 5 (toString p.toNat) := by
  constructor
  · rw [Nat.toString_eq_repr, Nat.length_repr_le_iff (by decide)]
    exact lt_of_lt_of_le p.isLt (by decide)
  · rw [Nat.toString_eq_repr, Nat.toList_repr]
    exact CText.not_mem_toDigits rfl _

theorem killSwitchRules_fits (tun wanIf : IfName) (ip : InAddr) (port : BitVec 16) :
    Fits 600 (killSwitchRules tun.name wanIf.name (inetNtop ip) port) := by
  have ht := tun.fits
  have hw := wanIf.fits
  have hi := inetNtop_fits ip
  have hp := port_fits port
  unfold killSwitchRules
  generalize inetNtop ip = ipText at hi ⊢
  generalize toString port.toNat = portText at hp ⊢
  apply Fits.mono
  · repeat' apply Fits.append
    all_goals first | exact fits_literal (by decide) | assumption
  · decide

theorem serverRuleset_fits (tun wanIf : IfName) {cidr : String} (hc : Fits 18 cidr) :
    Fits 600 (serverRuleset tun.name wanIf.name cidr) := by
  have ht := tun.fits
  have hw := wanIf.fits
  unfold serverRuleset
  apply Fits.mono
  · repeat' apply Fits.append
    all_goals first | exact fits_literal (by decide) | assumption
  · decide

theorem clientDestroy_fits (tun : IfName) : Fits 100 (clientDestroy tun.name) :=
  (((fits_literal (by decide)).append tun.fits).append (fits_literal (by decide))).mono (by decide)

theorem serverDestroy_fits (tun : IfName) : Fits 100 (serverDestroy tun.name) :=
  (((fits_literal (by decide)).append tun.fits).append (fits_literal (by decide))).mono (by decide)

theorem cidr_fits (ip : InAddr) {p : ℕ} (hp : p ≤ 32) : Fits 18 (inetNtop ip ++ "/" ++ toString p) := by
  constructor
  · rw [← String.length_toList, printed_eq, length_cidrText hp]
    exact cidrLen_le ip hp
  · rw [printed_eq]
    exact nul_not_mem_cidrText ip p

/-! ## the texts are scripts -/

section
variable {A : Type} (text : A → String)

theorem print_oifname (name : String) :
    Rule.print text ⟨[.oifname name], .accept⟩ = "        oifname \"" ++ (name ++ "\" accept\n") := by
  show "        " ++ (("oifname \"" ++ name ++ "\"") ++ " " ++ "") ++ "accept" ++ "\n" = _
  rw [String.append_assoc, String.append_assoc, String.append_assoc, String.append_assoc,
    String.append_assoc, String.append_assoc, ← String.append_assoc]
  rfl

theorem print_killSwitch_output (rules : List (Rule A)) :
    Chain.print text ⟨"output", "filter", .output, "filter", .drop, rules⟩ =
      "    chain output \x7b\n" ++ "        type filter hook output priority filter; policy drop;\n" ++
        printAll (Rule.print text) rules ++ "    \x7d\n" := rfl

theorem print_iifname (name : String) :
    Rule.print text ⟨[.iifname name], .accept⟩ = "        iifname \"" ++ (name ++ "\" accept\n") := by
  show "        " ++ (("iifname \"" ++ name ++ "\"") ++ " " ++ "") ++ "accept" ++ "\n" = _
  simp only [String.append_assoc]
  rw [← String.append_assoc]
  rfl

theorem print_endpoint (name : String) (a : A) (port : ℕ) :
    Rule.print text ⟨[.oifname name, .daddr a, .udpDport port], .accept⟩ =
      "        oifname \"" ++ (name ++ ("\" ip daddr " ++ (text a ++ (" udp dport " ++
        (toString port ++ " accept\n"))))) := by
  show "        " ++ (("oifname \"" ++ name ++ "\"") ++ " " ++ (("ip daddr " ++ text a) ++ " " ++
    (("udp dport " ++ toString port) ++ " " ++ ""))) ++ "accept" ++ "\n" = _
  generalize toString port = p
  generalize text a = t
  have h1 : ∀ r, "\"" ++ (" " ++ ("ip daddr " ++ r)) = "\" ip daddr " ++ r := by
    intro r
    rw [← String.append_assoc, ← String.append_assoc]
    rfl
  have h2 : ∀ r, " " ++ ("udp dport " ++ r) = " udp dport " ++ r := by
    intro r
    rw [← String.append_assoc]
    rfl
  simp only [String.append_assoc]
  rw [h1, h2, ← String.append_assoc]
  rfl

theorem print_established :
    Rule.print text ⟨[.established], .accept⟩ = "        ct state established,related accept\n" := rfl

theorem print_killSwitch_input (rules : List (Rule A)) :
    Chain.print text ⟨"input", "filter", .input, "filter", .drop, rules⟩ =
      "    chain input \x7b\n" ++ "        type filter hook input priority filter; policy drop;\n" ++
        printAll (Rule.print text) rules ++ "    \x7d\n" := rfl

theorem print_forward (i o : String) :
    Rule.print text ⟨[.iifname i, .oifname o], .accept⟩ =
      "        iifname \"" ++ (i ++ ("\" oifname \"" ++ (o ++ "\" accept\n"))) := by
  show "        " ++ (("iifname \"" ++ i ++ "\"") ++ " " ++ (("oifname \"" ++ o ++ "\"") ++ " " ++ "")) ++
    "accept" ++ "\n" = _
  have h1 : ∀ r, "\"" ++ (" " ++ ("oifname \"" ++ r)) = "\" oifname \"" ++ r := by
    intro r
    rw [← String.append_assoc, ← String.append_assoc]
    rfl
  simp only [String.append_assoc]
  rw [h1, ← String.append_assoc]
  rfl

theorem print_forward_back (i o : String) :
    Rule.print text ⟨[.iifname i, .oifname o, .established], .accept⟩ =
      "        iifname \"" ++ (i ++ ("\" oifname \"" ++ (o ++
        "\" ct state established,related accept\n"))) := by
  show "        " ++ (("iifname \"" ++ i ++ "\"") ++ " " ++ (("oifname \"" ++ o ++ "\"") ++ " " ++
    ("ct state established,related" ++ " " ++ ""))) ++ "accept" ++ "\n" = _
  have h1 : ∀ r, "\"" ++ (" " ++ ("oifname \"" ++ r)) = "\" oifname \"" ++ r := by
    intro r
    rw [← String.append_assoc, ← String.append_assoc]
    rfl
  simp only [String.append_assoc]
  rw [h1, ← String.append_assoc]
  rfl

theorem print_masquerade (a : A) (len : ℕ) (o : String) :
    Rule.print text ⟨[.saddr a len, .oifname o], .masquerade⟩ =
      "        ip saddr " ++ ((text a ++ "/" ++ toString len) ++ (" oifname \"" ++
        (o ++ "\" masquerade\n"))) := by
  show "        " ++ (("ip saddr " ++ text a ++ "/" ++ toString len) ++ " " ++
    (("oifname \"" ++ o ++ "\"") ++ " " ++ "")) ++ "masquerade" ++ "\n" = _
  have h1 : ∀ r, " " ++ ("oifname \"" ++ r) = " oifname \"" ++ r := by
    intro r
    rw [← String.append_assoc]
    rfl
  generalize toString len = l
  generalize text a = t
  simp only [String.append_assoc]
  rw [h1, ← String.append_assoc]
  rfl

theorem print_serverNat_forward (rules : List (Rule A)) :
    Chain.print text ⟨"forward", "filter", .forward, "filter", .accept, rules⟩ =
      "    chain forward \x7b\n" ++ "        type filter hook forward priority filter; policy accept;\n" ++
        printAll (Rule.print text) rules ++ "    \x7d\n" := rfl

theorem print_serverNat_postrouting (rules : List (Rule A)) :
    Chain.print text ⟨"postrouting", "nat", .postrouting, "srcnat", .accept, rules⟩ =
      "    chain postrouting \x7b\n" ++
        "        type nat hook postrouting priority srcnat; policy accept;\n" ++
        printAll (Rule.print text) rules ++ "    \x7d\n" := rfl

end

theorem killSwitchRules_print (tun wanIf : String) (ip : InAddr) (port : BitVec 16) :
    killSwitchRules tun wanIf (inetNtop ip) port =
      (Script.table (killSwitchTable tun [⟨wanIf, ip, port⟩])).print inetNtop := by
  have hname : "table inet " ++ ("vpn_ks_" ++ tun) = "table inet vpn_ks_" ++ tun := by
    rw [← String.append_assoc]
    rfl
  have hlo : Rule.print inetNtop ⟨[.oifname "lo"], .accept⟩ = "        oifname \"lo\" accept\n" := rfl
  have hlo' : Rule.print inetNtop ⟨[.iifname "lo"], .accept⟩ = "        iifname \"lo\" accept\n" := rfl
  show _ = "table inet " ++ ("vpn_ks_" ++ tun) ++ " \x7b\n" ++ (Chain.print inetNtop _ ++
    (Chain.print inetNtop _ ++ "")) ++ "\x7d\n"
  rw [hname, print_killSwitch_output, print_killSwitch_input]
  show _ = _ ++ (_ ++ (Rule.print inetNtop _ ++ (Rule.print inetNtop _ ++ (Rule.print inetNtop _ ++ ""))) ++ _ ++
    (_ ++ (Rule.print inetNtop _ ++ (Rule.print inetNtop _ ++ (Rule.print inetNtop _ ++ ""))) ++ _ ++ "")) ++ _
  rw [hlo, hlo', print_oifname, print_iifname, print_endpoint, print_established]
  unfold killSwitchRules
  generalize inetNtop ip = ipText
  generalize toString port.toNat = portText
  simp only [String.append_assoc, String.append_empty]

theorem serverRuleset_print (tun wanIf : String) (ip : InAddr) (len : ℕ) :
    serverRuleset tun wanIf (inetNtop ip ++ "/" ++ toString len) =
      (Script.table (serverNatTable tun wanIf ip len)).print inetNtop := by
  have hname : "table inet " ++ ("vpn_" ++ tun) = "table inet vpn_" ++ tun := by
    rw [← String.append_assoc]
    rfl
  show _ = "table inet " ++ ("vpn_" ++ tun) ++ " \x7b\n" ++ (Chain.print inetNtop _ ++
    (Chain.print inetNtop _ ++ "")) ++ "\x7d\n"
  rw [hname, print_serverNat_forward, print_serverNat_postrouting]
  show _ = _ ++ (_ ++ (Rule.print inetNtop _ ++ (Rule.print inetNtop _ ++ "")) ++ _ ++
    (_ ++ (Rule.print inetNtop _ ++ "") ++ _ ++ "")) ++ _
  rw [print_forward, print_forward_back, print_masquerade]
  unfold serverRuleset
  generalize inetNtop ip ++ "/" ++ toString len = cidr
  simp only [String.append_assoc, String.append_empty]

section
variable (nft : String → Tables → Option Tables) (run : ScriptRun) (junk : Char) (tun wanIf : IfName)

theorem clientRulesAdd_eq (ip : InAddr) {port : BitVec 16} (hp : port ≠ 0) (host : Tables) :
    sytClientRulesAddNftScript nft true run junk tun.name wanIf.name (inetNtop ip) port host =
      runNftScript nft run
        ((Script.table (killSwitchTable tun.name [⟨wanIf.name, ip, port⟩])).print inetNtop) host := by
  unfold sytClientRulesAddNftScript
  rw [if_neg hp, scriptIn_of_fits (killSwitchRules_fits tun wanIf ip port) (by decide),
    killSwitchRules_print]
  rfl

theorem clientRulesDel_eq (ht : tun.name ≠ "") (host : Tables) :
    sytClientRulesDelNftScript nft true run junk tun.name host =
      runNftScript nft run ((Script.destroy (killSwitchTable tun.name []).name).print inetNtop) host := by
  have hprint : clientDestroy tun.name =
      (Script.destroy (killSwitchTable tun.name []).name : Script InAddr).print inetNtop := by
    have hname : "destroy table inet " ++ ("vpn_ks_" ++ tun.name) =
        "destroy table inet vpn_ks_" ++ tun.name := by
      rw [← String.append_assoc]
      rfl
    exact congrArg (· ++ "\n") hname.symm
  unfold sytClientRulesDelNftScript
  rw [if_neg ht, scriptIn_of_fits (clientDestroy_fits tun) (by decide), hprint]
  rfl

theorem serverRulesAdd_eq {ip mask : InAddr} {p : ℕ} (hp : p ≤ 32)
    (hm : OnesThenZeros (ntohl mask) p) (host : Tables) :
    sytServerRulesAddNft nft true run junk tun.name wanIf.name ip mask host =
      runNftScript nft run
        ((Script.table (serverNatTable tun.name wanIf.name ip p)).print inetNtop) host := by
  have hlen : (cidrText ip p).length < (List.replicate 20 CText.nul).length := by
    rw [List.length_replicate, length_cidrText hp]
    have := cidrLen_le ip hp
    omega
  have htext : String.ofList (cidrText ip p) = inetNtop ip ++ "/" ++ toString p := by
    rw [← printed_eq, String.ofList_toList]
  unfold sytServerRulesAddNft
  rw [inAddrToCidrInto_of_ones hp hm]
  dsimp only
  rw [if_neg (not_not.mpr rfl), Option.bind_some,
    CText.text_snprintf_of_lt (nul_not_mem_cidrText ip p) hlen, Option.getD_some, htext,
    scriptIn_of_fits (serverRuleset_fits tun wanIf (cidr_fits ip hp)) (by decide),
    serverRuleset_print]
  rfl

theorem serverRulesDel_eq {ip : InAddr} {p : ℕ} (ht : tun.name ≠ "") (host : Tables) :
    sysServerRulesDelNft nft true run junk tun.name host =
      runNftScript nft run
        ((Script.destroy (serverNatTable tun.name wanIf.name ip p).name).print inetNtop) host := by
  have hname : "destroy table inet " ++ ("vpn_" ++ tun.name) = "destroy table inet vpn_" ++ tun.name := by
    rw [← String.append_assoc]
    rfl
  have hprint : serverDestroy tun.name =
      (Script.destroy (serverNatTable tun.name wanIf.name ip p).name).print inetNtop :=
    congrArg (· ++ "\n") hname.symm
  unfold sysServerRulesDelNft
  rw [if_neg ht, scriptIn_of_fits (serverDestroy_fits tun) (by decide), hprint]
  rfl

end

/-- **The scripts are whole.**  Whatever the interfaces are called, whatever the address, mask and port:
what `nft` gets is never cut by the buffer it was printed into, it is the text of the rules the engine
wants, and the table that is destroyed is the one that was made. -/
theorem scripts_whole (nft : String → Tables → Option Tables) (run : ScriptRun) (junk : Char)
    (tun wanIf : IfName) (ht : tun.name ≠ "") (host : Tables) :
    (∀ ip port, port ≠ 0 →
      sytClientRulesAddNftScript nft true run junk tun.name wanIf.name (inetNtop ip) port host =
        runNftScript nft run
          ((Script.table (killSwitchTable tun.name [⟨wanIf.name, ip, port⟩])).print inetNtop) host) ∧
    (∀ es, sytClientRulesDelNftScript nft true run junk tun.name host =
      runNftScript nft run ((Script.destroy (killSwitchTable tun.name es).name).print inetNtop) host) ∧
    (∀ ip mask p, p ≤ 32 → OnesThenZeros (ntohl mask) p →
      sytServerRulesAddNft nft true run junk tun.name wanIf.name ip mask host =
        runNftScript nft run
          ((Script.table (serverNatTable tun.name wanIf.name ip p)).print inetNtop) host) ∧
    ∀ ip p, sysServerRulesDelNft nft true run junk tun.name host =
      runNftScript nft run
        ((Script.destroy (serverNatTable tun.name wanIf.name ip p).name).print inetNtop) host :=
  ⟨fun ip _ hp => clientRulesAdd_eq nft run junk tun wanIf ip hp host,
    fun _ => clientRulesDel_eq nft run junk tun ht host,
    fun _ _ _ hp hm => serverRulesAdd_eq nft run junk tun wanIf hp hm host,
    fun _ _ => serverRulesDel_eq nft run junk tun wanIf ht host⟩

/-- an `nft` that knows some scripts and refuses every other text -/
def nftOf : List (Script InAddr) → String → Tables → Option Tables
  | [], _, _ => none
  | s :: l, t, host => if s.print inetNtop = t then some (s.apply host) else nftOf l t host

theorem nftOf_head (s : Script InAddr) (l : List (Script InAddr)) (host : Tables) :
    nftOf (s :: l) (s.print inetNtop) host = some (s.apply host) := if_pos rfl

/-- the device of the tests -/
def tun0 : IfName := ⟨"tun0", by decide, by decide⟩

/-- and the interface beside it -/
def eth0 : IfName := ⟨"eth0", by decide, by decide⟩

theorem scripts_whole_tun0 : tun0.name ≠ "" ∧
    (sytClientRulesDelNftScript (nftOf [.destroy (killSwitchTable tun0.name []).name]) true .ran 'x' tun0.name
      [killSwitchTable tun0.name []]).2 = [] := by
  refine ⟨by decide, ?_⟩
  rw [(scripts_whole (nftOf [.destroy (killSwitchTable tun0.name []).name]) .ran 'x' tun0 eth0 (by decide)
    [killSwitchTable tun0.name []]).2.1 [], runNftScript, nftOf_head]
  exact @destroy_concat _ [] (killSwitchTable tun0.name []) List.not_mem_nil

/-! ## the kill switch over a run -/

/-- `nft` does to the tables of a host what the script says -/
def Understands (nft : String → Tables → Option Tables) (s : Script InAddr) : Prop :=
  ∀ host, nft (s.print inetNtop) host = some (s.apply host)

/-- `nft` has been run -/
def ScriptRun.reached : ScriptRun → Bool
  | .notRun _ => false
  | _ => true

theorem runNftScript_understood {nft : String → Tables → Option Tables} {s : Script InAddr}
    (h : Understands nft s) (run : ScriptRun) (host : Tables) :
    (runNftScript nft run (s.print inetNtop) host).2 = if run.reached then s.apply host else host := by
  cases run with
  | notRun err => rfl
  | ran => simp only [runNftScript, h host, ScriptRun.reached, if_true]
  | unwaited err => simp only [runNftScript, h host, Option.getD_some, ScriptRun.reached, if_true]

/-- the two calls of the client, each with its outcome; `priv` says that the device has private data -/
inductive RuleOp where
  | add (wanIf : IfName) (serverIp : InAddr) (serverPort : BitVec 16) (priv : Bool) (run : ScriptRun)
      (junk : Char)
  | clear (priv : Bool) (run : ScriptRun) (junk : Char)

namespace RuleOp

def perform (nft : String → Tables → Option Tables) (tun : IfName) (host : Tables) : RuleOp → Tables
  | .add wanIf serverIp serverPort priv run junk =>
    (sytClientRulesAddNftScript nft priv run junk tun.name wanIf.name (inetNtop serverIp) serverPort host).2
  | .clear priv run junk => (sytClientRulesDelNftScript nft priv run junk tun.name host).2

def script (tun : IfName) : RuleOp → Script InAddr
  | .add wanIf serverIp serverPort _ _ _ =>
    .table (killSwitchTable tun.name [⟨wanIf.name, serverIp, serverPort⟩])
  | .clear _ _ _ => .destroy (killSwitchTable tun.name []).name

/-- the endpoints that were added since the rules were last cleared -/
def after (es : List Endpoint) : RuleOp → List Endpoint
  | .add wanIf serverIp serverPort priv run _ =>
    if serverPort ≠ 0 ∧ priv = true ∧ run.reached = true then es ++ [⟨wanIf.name, serverIp, serverPort⟩]
    else es
  | .clear priv run _ => if priv = true ∧ run.reached = true then [] else es

end RuleOp

/-- a host with the kill switch for `es` -/
def withSwitch (tun : String) (es : List Endpoint) (host : Tables) : Tables :=
  if es = [] then host else host ++ [killSwitchTable tun es]

theorem killSwitchTable_merge (tun : String) (es : List Endpoint) (e : Endpoint) :
    (killSwitchTable tun [e]).chains.foldl addChain (killSwitchTable tun es).chains =
      (killSwitchTable tun (es ++ [e])).chains := by
  simp [killSwitchTable, addChain]

section
variable {nft : String → Tables → Option Tables} {tun : IfName} {host : Tables} {es : List Endpoint}

theorem add_withSwitch (hnew : "vpn_ks_" ++ tun.name ∉ host.map Table.name) (e : Endpoint) :
    addTable (withSwitch tun.name es host) (killSwitchTable tun.name [e]) =
      withSwitch tun.name (es ++ [e]) host := by
  have hne : es ++ [e] ≠ [] := List.append_ne_nil_of_right_ne_nil _ (List.cons_ne_nil _ _)
  have hnew' : (killSwitchTable tun.name [e]).name ∉ host.map Table.name := hnew
  unfold withSwitch
  rw [if_neg hne]
  split
  · next h0 =>
    rw [h0, addTable_of_notMem hnew']
    rfl
  · have hname : (killSwitchTable tun.name es).name = (killSwitchTable tun.name [e]).name := rfl
    rw [addTable_concat hnew' hname, killSwitchTable_merge]
    rfl

theorem destroy_withSwitch (hnew : "vpn_ks_" ++ tun.name ∉ host.map Table.name) :
    (Script.destroy (killSwitchTable tun.name []).name).apply (withSwitch tun.name es host) = host := by
  unfold withSwitch
  split
  · exact destroy_of_notMem hnew
  · exact destroy_concat (u := killSwitchTable tun.name es) hnew

/-- one addition -/
theorem perform_add_withSwitch (hnew : "vpn_ks_" ++ tun.name ∉ host.map Table.name) {wanIf : IfName}
    {serverIp : InAddr} {serverPort : BitVec 16}
    (hu : Understands nft (.table (killSwitchTable tun.name [⟨wanIf.name, serverIp, serverPort⟩])))
    (priv : Bool) (run : ScriptRun) (junk : Char) :
    (RuleOp.add wanIf serverIp serverPort priv run junk).perform nft tun (withSwitch tun.name es host) =
      withSwitch tun.name ((RuleOp.add wanIf serverIp serverPort priv run junk).after es) host := by
  dsimp only [RuleOp.perform, RuleOp.after]
  by_cases hp : serverPort = 0
  · rw [if_neg fun h => h.1 hp, sytClientRulesAddNftScript, if_pos hp]
  cases priv with
  | false =>
    rw [if_neg fun h => Bool.false_ne_true h.2.1, sytClientRulesAddNftScript, if_neg hp]
    rfl
  | true =>
    rw [clientRulesAdd_eq nft run junk tun wanIf serverIp hp, runNftScript_understood hu]
    cases hr : run.reached with
    | false => rw [if_neg Bool.false_ne_true, if_neg fun h => Bool.false_ne_true h.2.2]
    | true =>
      rw [if_pos rfl, if_pos ⟨hp, rfl, rfl⟩]
      exact add_withSwitch hnew _

/-- one removal -/
theorem perform_clear_withSwitch (ht : tun.name ≠ "")
    (hnew : "vpn_ks_" ++ tun.name ∉ host.map Table.name)
    (hu : Understands nft (.destroy (killSwitchTable tun.name []).name))
    (priv : Bool) (run : ScriptRun) (junk : Char) :
    (RuleOp.clear priv run junk).perform nft tun (withSwitch tun.name es host) =
      withSwitch tun.name ((RuleOp.clear priv run junk).after es) host := by
  dsimp only [RuleOp.perform, RuleOp.after]
  cases priv with
  | false =>
    rw [if_neg fun h => Bool.false_ne_true h.1, sytClientRulesDelNftScript, if_neg ht]
    rfl
  | true =>
    rw [clientRulesDel_eq nft run junk tun ht, runNftScript_understood hu]
    cases hr : run.reached with
    | false => rw [if_neg Bool.false_ne_true, if_neg fun h => Bool.false_ne_true h.2]
    | true =>
      rw [if_pos rfl, if_pos ⟨rfl, rfl⟩]
      exact destroy_withSwitch hnew

theorem perform_all (ht : tun.name ≠ "") (hnew : "vpn_ks_" ++ tun.name ∉ host.map Table.name)
    {l : List RuleOp} (hu : ∀ o ∈ l, Understands nft (o.script tun)) (es : List Endpoint) :
    l.foldl (RuleOp.perform nft tun) (withSwitch tun.name es host) =
      withSwitch tun.name (l.foldl RuleOp.after es) host := by
  induction l generalizing es with
  | nil => rfl
  | cons o l ih =>
    have hstep : o.perform nft tun (withSwitch tun.name es host) = withSwitch tun.name (o.after es) host := by
      have ho := hu o List.mem_cons_self
      cases o with
      | add wanIf serverIp serverPort priv run junk => exact perform_add_withSwitch hnew ho priv run junk
      | clear priv run junk => exact perform_clear_withSwitch ht hnew ho priv run junk
    rw [List.foldl_cons, List.foldl_cons, hstep]
    exact ih (fun o ho => hu o (List.mem_cons_of_mem _ ho)) _

end

/-! ## what goes through -/

/-- a packet that the kill switch for `es` lets out -/
def LetOut (tun : String) (es : List Endpoint) (p : Packet InAddr) : Prop :=
  p.oif = "lo" ∨ p.oif = tun ∨
    ∃ e ∈ es, p.oif = e.wanIf ∧ p.ipv4 = true ∧ p.dst = e.serverIp ∧ p.udp = true ∧
      p.dport = e.serverPort.toNat

/-- a packet that it lets in -/
def LetIn (tun : String) (p : Packet InAddr) : Prop :=
  p.iif = "lo" ∨ p.iif = tun ∨ p.established = true

section
variable {covers : InAddr → ℕ → InAddr → Bool} {p : Packet InAddr} {tun : String} {es : List Endpoint}

theorem outputRules_accept {e : Endpoint} : ∀ r ∈ outputRules tun e, r.verdict = .accept := by
  simp [outputRules]

theorem inputRules_accept : ∀ r ∈ inputRules tun, r.verdict = .accept := by
  simp [inputRules]

theorem outputRules_applies {e : Endpoint} :
    (∃ r ∈ outputRules tun e, r.applies covers p = true) ↔ LetOut tun [e] p := by
  simp [outputRules, LetOut, Rule.applies, Test.holds, and_assoc]

theorem inputRules_applies :
    (∃ r ∈ inputRules tun, r.applies covers p = true) ↔ LetIn tun p := by
  simp [inputRules, LetIn, Rule.applies, Test.holds]

theorem killSwitch_output (hne : es ≠ []) :
    (killSwitchTable tun es).accepts covers .output p ↔ LetOut tun es p := by
  have hacc : ∀ r ∈ es.flatMap (outputRules tun), r.verdict = .accept := by
    intro r hr
    obtain ⟨e, -, he⟩ := List.mem_flatMap.mp hr
    exact outputRules_accept r he
  have hchain : (killSwitchTable tun es).accepts covers .output p ↔
      Chain.verdict covers p ⟨"output", "filter", .output, "filter", .drop,
        es.flatMap (outputRules tun)⟩ ≠ .drop := by
    simp [killSwitchTable, Table.accepts]
  rw [hchain, passes_iff hacc rfl]
  obtain ⟨e, he⟩ := List.exists_mem_of_ne_nil _ hne
  constructor
  · rintro ⟨r, hr, ha⟩
    obtain ⟨f, hf, hrf⟩ := List.mem_flatMap.mp hr
    rcases outputRules_applies.mp ⟨r, hrf, ha⟩ with h | h | ⟨g, hg, h⟩
    · exact .inl h
    · exact .inr (.inl h)
    · rw [List.mem_singleton.mp hg] at h
      exact .inr (.inr ⟨f, hf, h⟩)
  · have hone : ∀ f ∈ es, LetOut tun [f] p →
        ∃ r ∈ es.flatMap (outputRules tun), r.applies covers p = true := by
      intro f hf hl
      obtain ⟨r, hr, ha⟩ := outputRules_applies.mpr hl
      exact ⟨r, List.mem_flatMap.mpr ⟨f, hf, hr⟩, ha⟩
    rintro (h | h | ⟨f, hf, h⟩)
    · exact hone e he (.inl h)
    · exact hone e he (.inr (.inl h))
    · exact hone f hf (.inr (.inr ⟨f, List.mem_singleton_self f, h⟩))

theorem killSwitch_input (hne : es ≠ []) :
    (killSwitchTable tun es).accepts covers .input p ↔ LetIn tun p := by
  have hacc : ∀ r ∈ es.flatMap (fun _ => inputRules tun), r.verdict = .accept := by
    intro r hr
    obtain ⟨e, -, he⟩ := List.mem_flatMap.mp hr
    exact inputRules_accept r he
  have hchain : (killSwitchTable tun es).accepts covers .input p ↔
      Chain.verdict covers p ⟨"input", "filter", .input, "filter", .drop,
        es.flatMap fun _ => inputRules tun⟩ ≠ .drop := by
    simp [killSwitchTable, Table.accepts]
  obtain ⟨e, he⟩ := List.exists_mem_of_ne_nil _ hne
  rw [hchain, passes_iff hacc rfl, ← @inputRules_applies covers p]
  constructor
  · rintro ⟨r, hr, ha⟩
    obtain ⟨-, -, hrf⟩ := List.mem_flatMap.mp hr
    exact ⟨r, hrf, ha⟩
  · rintro ⟨r, hr, ha⟩
    exact ⟨r, List.mem_flatMap.mpr ⟨e, he, hr⟩, ha⟩

theorem killSwitch_other {hook : Hook} (ho : hook ≠ .output) (hi : hook ≠ .input) :
    (killSwitchTable tun es).accepts covers hook p := by
  intro c hc hk
  rcases List.mem_pair.mp hc with rfl | rfl
  · exact absurd hk.symm ho
  · exact absurd hk.symm hi

end

/-- **The kill switch.**  After any sequence of additions and removals, whatever became of each, let `es`
be the endpoints added since the last removal that got through.  A packet leaves the host if its other
tables let it and, when `es` is not empty, it goes to the loopback, into the tunnel, or by UDP to one of
`es`; it comes in if they let it and it is from the loopback, from the tunnel or of an established
connection.  Nothing else is filtered, and with `es` empty the host has the tables it had at first. -/
theorem killSwitch_run {nft : String → Tables → Option Tables} {tun : IfName} (ht : tun.name ≠ "")
    {host : Tables} (hnew : "vpn_ks_" ++ tun.name ∉ host.map Table.name) (l : List RuleOp)
    (hu : ∀ o ∈ l, Understands nft (o.script tun)) (covers : InAddr → ℕ → InAddr → Bool)
    (p : Packet InAddr) :
    (accepts covers (l.foldl (RuleOp.perform nft tun) host) .output p ↔ accepts covers host .output p ∧
      (l.foldl RuleOp.after [] = [] ∨ LetOut tun.name (l.foldl RuleOp.after []) p)) ∧
    (accepts covers (l.foldl (RuleOp.perform nft tun) host) .input p ↔ accepts covers host .input p ∧
      (l.foldl RuleOp.after [] = [] ∨ LetIn tun.name p)) ∧
    (∀ hook, hook ≠ .output → hook ≠ .input →
      (accepts covers (l.foldl (RuleOp.perform nft tun) host) hook p ↔ accepts covers host hook p)) ∧
    (l.foldl RuleOp.after [] = [] → l.foldl (RuleOp.perform nft tun) host = host) := by
  have hrun : l.foldl (RuleOp.perform nft tun) host =
      withSwitch tun.name (l.foldl RuleOp.after []) host := by
    have h0 : withSwitch tun.name [] host = host := if_pos rfl
    conv_lhs => rw [← h0]
    exact perform_all ht hnew hu []
  rw [hrun]
  generalize l.foldl RuleOp.after [] = es
  by_cases hes : es = []
  · subst hes
    refine ⟨?_, ?_, fun _ _ _ => Iff.rfl, fun _ => rfl⟩
    · exact ⟨fun h => ⟨h, .inl rfl⟩, fun h => h.1⟩
    · exact ⟨fun h => ⟨h, .inl rfl⟩, fun h => h.1⟩
  · have hon : withSwitch tun.name es host = host ++ [killSwitchTable tun.name es] := if_neg hes
    rw [hon]
    refine ⟨?_, ?_, ?_, fun h => absurd h hes⟩
    · rw [accepts_concat, killSwitch_output hes, or_iff_right hes]
    · rw [accepts_concat, killSwitch_input hes, or_iff_right hes]
    · intro hook ho hi
      rw [accepts_concat, and_iff_left (killSwitch_other ho hi)]

/-- the server of the tests -/
def server0 : Endpoint := ⟨"eth0", 0x0100000a#32, 4433⟩

theorem append_ne_append {s t : String} {c d : Char} (hs : s.toList.head? = some c)
    (ht : t.toList.head? = some d) (h : c ≠ d) (u v : String) : s ++ u ≠ t ++ v := by
  intro he
  have hhead := congrArg (fun w : String => w.toList.head?) he
  rw [String.toList_append, String.toList_append, List.head?_append, List.head?_append, hs, ht] at hhead
  exact h (Option.some.inj hhead)

theorem understands_head (t : Script InAddr) (l : List (Script InAddr)) : Understands (nftOf (t :: l)) t :=
  fun host => nftOf_head t l host

theorem understands_destroy (t : Table InAddr) (name : String) :
    Understands (nftOf [.table t, .destroy name]) (.destroy name) := by
  intro host
  have hhead : "table inet ".toList.head? = some 't' := by decide
  have hhead' : "destroy table inet ".toList.head? = some 'd' := by decide
  have hne : (Script.table t).print inetNtop ≠ (Script.destroy name : Script InAddr).print inetNtop := by
    intro h
    unfold Script.print at h
    dsimp only at h
    rw [String.append_assoc, String.append_assoc, String.append_assoc,
      @String.append_assoc "destroy table inet "] at h
    exact append_ne_append hhead hhead' (by decide) _ _ h
  exact (if_neg hne).trans (nftOf_head _ [] host)

/-- connected, disconnected and connected again: the server is reached, another host is not -/
theorem killSwitch_run_reconnect :
    let add := RuleOp.add eth0 server0.serverIp server0.serverPort true .ran 'x'
    let clear := RuleOp.clear true .ran 'x'
    let nft := nftOf [.table (killSwitchTable tun0.name [server0]), .destroy "vpn_ks_tun0"]
    let host := [add, clear, add].foldl (RuleOp.perform nft tun0) []
    accepts (fun _ _ _ => false) host .output ⟨"", "eth0", true, 0, 0x0100000a#32, true, 4433, false⟩ ∧
    ¬ accepts (fun _ _ _ => false) host .output ⟨"", "eth0", true, 0, 0x0200000a#32, true, 4433, false⟩ := by
  have hu : ∀ o ∈ [RuleOp.add eth0 server0.serverIp server0.serverPort true .ran 'x',
      RuleOp.clear true .ran 'x', RuleOp.add eth0 server0.serverIp server0.serverPort true .ran 'x'],
      Understands (nftOf [.table (killSwitchTable tun0.name [server0]), .destroy "vpn_ks_tun0"])
        (o.script tun0) := by
    intro o ho
    have hcases : o = RuleOp.add eth0 server0.serverIp server0.serverPort true .ran 'x' ∨
        o = RuleOp.clear true .ran 'x' := by
      simp only [List.mem_cons, List.not_mem_nil, or_false] at ho
      rcases ho with h | h | h
      · exact .inl h
      · exact .inr h
      · exact .inl h
    rcases hcases with rfl | rfl
    · exact understands_head _ _
    · exact understands_destroy _ _
  intro add clear nft host
  have hrun := @killSwitch_run nft tun0 (by decide) [] List.not_mem_nil [add, clear, add] hu (fun _ _ _ => false)
  refine ⟨(hrun _).1.mpr ⟨nofun, .inr (.inr (.inr ⟨server0, ?_, rfl, rfl, rfl, rfl, rfl⟩))⟩, fun h => ?_⟩
  · exact List.mem_singleton_self server0
  · rcases ((hrun _).1.mp h).2 with h0 | h1 | h2 | ⟨e, he, -, -, hd, -⟩
    · exact absurd h0 (List.cons_ne_nil _ _)
    · exact absurd h1 (by decide)
    · exact absurd h2 (by decide)
    · rw [List.mem_singleton.mp he] at hd
      exact absurd hd (by decide)

end QuicVpn
