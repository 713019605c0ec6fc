import Mathlib.Data.Multiset.Basic

/-!
# `route_fut`: the DNAT rules of one exit manager (`geph4-bridge/src/main.rs:114-139`)

An exit manager forwards its local UDP port to the exit's current sosistab
port with a pair of `iptables` DNAT rules, one for udp and one for tcp, and
replaces the pair whenever the exit announces a different port.

`run_command` hands a text to `sh -c`. Each text of `route_fut` is a
`;`-separated list of `iptables -t nat` invocations, and that list is what is
kept here (`Ipt`, `Command`); the shell's parsing of the text is not modelled.
The `nat` table is a multiset of rules: `-A` adds one, `-D` removes one copy,
and fails without a change when there is none. `sh -c` runs every invocation
whether or not an earlier one failed.

* `runCommand_add`, `runCommand_delete`: the add command adds the pair, and the
  delete command removes exactly the pair the matching add command added;
* `routeInv_step`: one received port keeps `RouteInv`, which says what the
  locals and the table are after the ports received so far;
* `routeRun_rules`: after any sequence of port updates, from any table `m₀`,
  `last_remote_port` is the last update; if every update was `0` (the initial
  `last_remote_port`) the table is `m₀` and `route_delete` is `None`; otherwise
  the table is `m₀` plus the udp/tcp pair for the last port, and
  `route_delete` is the deletion command of that pair. Rules never accumulate.
-/
namespace Geph4.Bridge

abbrev IpAddr := List UInt8

inductive Proto
  | udp
  | tcp
  deriving DecidableEq, Repr

/-- A `PREROUTING` rule `-p proto --dport dport -j DNAT --to-destination toIp:toPort`. -/
structure Dnat where
  proto : Proto
  dport : UInt16
  toIp : IpAddr
  toPort : UInt16
  deriving DecidableEq, Repr

/-- One `iptables -t nat` invocation on `PREROUTING`: `-A PREROUTING <rule>`
or `-D PREROUTING <rule>`. -/
inductive Ipt
  | append (r : Dnat)
  | delete (r : Dnat)
  deriving DecidableEq, Repr

abbrev Command := List Ipt

/-- One invocation on the `nat` table; `-D` of an absent rule changes nothing. -/
def Ipt.run (m : Multiset Dnat) : Ipt → Multiset Dnat
  | .append r => r ::ₘ m
  | .delete r => m.erase r

/-- mirrors geph4-bridge/src/main.rs:143-150: `sh -c` runs each invocation in turn. -/
def runCommand (m : Multiset Dnat) (cmd : Command) : Multiset Dnat := cmd.foldl Ipt.run m

/-- The udp and tcp rules forwarding `localPort` to `ip:remotePort`. -/
def dnatPair (localPort : UInt16) (ip : IpAddr) (remotePort : UInt16) : Multiset Dnat :=
  ⟨.udp, localPort, ip, remotePort⟩ ::ₘ ⟨.tcp, localPort, ip, remotePort⟩ ::ₘ 0

/-- mirrors geph4-bridge/src/main.rs:124-129:
`iptables -t nat -A PREROUTING -p udp --dport {} -j DNAT --to-destination {}:{};`
`iptables -t nat -A PREROUTING -p tcp --dport {} -j DNAT --to-destination {}:{}; ` -/
def addCommand (localPort : UInt16) (ip : IpAddr) (remotePort : UInt16) : Command :=
  [.append ⟨.udp, localPort, ip, remotePort⟩, .append ⟨.tcp, localPort, ip, remotePort⟩]

/-- mirrors geph4-bridge/src/main.rs:130-135:
`iptables -t nat -D PREROUTING -p udp --dport {} -j DNAT --to-destination {}:{};`
` iptables -t nat -D PREROUTING -p tcp --dport {} -j DNAT --to-destination {}:{}` -/
def deleteCommand (localPort : UInt16) (ip : IpAddr) (remotePort : UInt16) : Command :=
  [.delete ⟨.udp, localPort, ip, remotePort⟩, .delete ⟨.tcp, localPort, ip, remotePort⟩]

/-- The locals of `route_fut` (`main.rs:116-117`). -/
structure RouteFut where
  routeDelete : Option Command
  lastRemotePort : UInt16
  deriving DecidableEq, Repr

def RouteFut.init : RouteFut := ⟨none, 0⟩

/-- mirrors geph4-bridge/src/main.rs:119-137: one `(remote_port, _)` from
`recv_routes`, with the `nat` table it acts on. The public key is not read. -/
def RouteFut.step (localPort : UInt16) (ip : IpAddr) (rm : RouteFut × Multiset Dnat)
    (remotePort : UInt16) : RouteFut × Multiset Dnat :=
  if remotePort != rm.1.lastRemotePort then
    let m := match rm.1.routeDelete with
      | some deleteCmd => runCommand rm.2 deleteCmd
      | none => rm.2
    (⟨some (deleteCommand localPort ip remotePort), remotePort⟩,
      runCommand m (addCommand localPort ip remotePort))
  else rm

/-- `route_fut` after the updates `ps`, from the `nat` table `m₀`. -/
def routeRun (localPort : UInt16) (ip : IpAddr) (m₀ : Multiset Dnat) (ps : List UInt16) :
    RouteFut × Multiset Dnat :=
  ps.foldl (RouteFut.step localPort ip) (RouteFut.init, m₀)

/-! ## The two commands -/

section
variable (localPort : UInt16) (ip : IpAddr)

theorem runCommand_add (m : Multiset Dnat) (p : UInt16) :
    runCommand m (addCommand localPort ip p) = m + dnatPair localPort ip p := by
  show _ ::ₘ _ ::ₘ m = _
  rw [dnatPair, Multiset.add_cons, Multiset.add_cons, add_zero, Multiset.cons_swap]

theorem runCommand_delete (m : Multiset Dnat) (p : UInt16) :
    runCommand (m + dnatPair localPort ip p) (deleteCommand localPort ip p) = m := by
  show ((m + dnatPair localPort ip p).erase _).erase _ = m
  rw [dnatPair, Multiset.add_cons, Multiset.add_cons, add_zero, Multiset.erase_cons_head,
    Multiset.erase_cons_head]

/-! ## The installed port

What `route_fut` is for: at each moment one port's pair is installed, or none.
A received port different from the installed one (`0` when none is) becomes
the installed one. -/

def installNext (o : Option UInt16) (p : UInt16) : Option UInt16 := if p = o.getD 0 then o else some p

/-- The locals of `route_fut` and the table agree with the installed port `o`. -/
def RouteInv (m₀ : Multiset Dnat) (o : Option UInt16) (rm : RouteFut × Multiset Dnat) : Prop :=
  rm.1.lastRemotePort = o.getD 0 ∧ rm.2 = m₀ + o.elim 0 (dnatPair localPort ip) ∧
    rm.1.routeDelete = o.map (deleteCommand localPort ip)

theorem routeInv_step {m₀ : Multiset Dnat} {o : Option UInt16} {rm : RouteFut × Multiset Dnat}
    (p : UInt16) (hi : RouteInv localPort ip m₀ o rm) :
    RouteInv localPort ip m₀ (installNext o p) (RouteFut.step localPort ip rm p) := by
  obtain ⟨⟨del, last⟩, m⟩ := rm
  obtain ⟨hl, rfl, rfl⟩ := hi
  dsimp only at hl
  subst hl
  unfold RouteFut.step installNext
  by_cases hp : p = o.getD 0
  · simp only [hp, bne_self_eq_false, Bool.false_eq_true, if_false, if_true]
    exact ⟨rfl, rfl, rfl⟩
  · simp only [hp, bne_iff_ne, ne_eq, not_false_eq_true, if_true, if_false]
    refine ⟨rfl, ?_, rfl⟩
    cases o with
    | none => simp [runCommand_add]
    | some q => simp [runCommand_delete, runCommand_add]

theorem routeInv_foldl (m₀ : Multiset Dnat) (ps : List UInt16) :
    ∀ (o : Option UInt16) (rm : RouteFut × Multiset Dnat), RouteInv localPort ip m₀ o rm →
      RouteInv localPort ip m₀ (ps.foldl installNext o) (ps.foldl (RouteFut.step localPort ip) rm) := by
  induction ps with
  | nil => exact fun _ _ h => h
  | cons p ps ih => exact fun o rm hi => ih _ _ (routeInv_step localPort ip p hi)

end

theorem getLastD_of_all_zero {ps : List UInt16} (h : ps.all (· == 0)) : ps.getLastD 0 = 0 := by
  cases ps using List.reverseRecOn with
  | nil => rfl
  | append_singleton ps p =>
    rw [List.getLastD_concat]
    simp only [List.all_append, List.all_cons, List.all_nil, Bool.and_true, Bool.and_eq_true,
      beq_iff_eq] at h
    exact h.2

theorem foldl_installNext (ps : List UInt16) :
    ps.foldl installNext none = if ps.all (· == 0) then none else some (ps.getLastD 0) := by
  induction ps using List.reverseRecOn with
  | nil => rfl
  | append_singleton ps p ih =>
    rw [List.foldl_concat, ih, List.all_append, List.getLastD_concat]
    by_cases hz : ps.all (· == 0)
    · simp only [hz, if_true, Option.getD_none, installNext, List.all_cons, List.all_nil,
        Bool.and_true, Bool.true_and, beq_iff_eq]
    · simp only [hz, if_false, Option.getD_some, installNext, Bool.false_and, Bool.false_eq_true]
      split
      · next hp => rw [hp]
      · rfl

/-- **Routes.** After any sequence `ps` of port updates, from any `nat` table
`m₀`: `last_remote_port` is the last update; if no update differed from the
initial port `0`, the table is `m₀` and `route_delete` is `None`; otherwise
the table is `m₀` plus exactly the udp/tcp pair forwarding the local port to
`remote_addr:last_remote_port`, and `route_delete` is that pair's deletion
command. -/
theorem routeRun_rules (localPort : UInt16) (ip : IpAddr) (m₀ : Multiset Dnat) (ps : List UInt16) :
    (routeRun localPort ip m₀ ps).1.lastRemotePort = ps.getLastD 0 ∧
    if ps.all (· == 0) then
      (routeRun localPort ip m₀ ps).2 = m₀ ∧ (routeRun localPort ip m₀ ps).1.routeDelete = none
    else
      (routeRun localPort ip m₀ ps).2 = m₀ + dnatPair localPort ip (ps.getLastD 0) ∧
      (routeRun localPort ip m₀ ps).1.routeDelete = some (deleteCommand localPort ip (ps.getLastD 0)) := by
  have hi := routeInv_foldl localPort ip m₀ ps none (RouteFut.init, m₀) ⟨rfl, by simp, rfl⟩
  rw [foldl_installNext] at hi
  obtain ⟨hl, hm, hd⟩ := hi
  by_cases hz : ps.all (· == 0)
  · simp only [hz, if_true, Option.getD_none, Option.elim_none, add_zero, Option.map_none'] at hl hm hd
    exact ⟨hl.trans (getLastD_of_all_zero hz).symm, by simp [hz, routeRun, hm, hd]⟩
  · simp only [hz, if_false, Option.getD_some, Option.elim_some, Option.map_some'] at hl hm hd
    exact ⟨hl, by simp [hz, routeRun, hm, hd]⟩

example : (routeRun 4000 [10, 0, 0, 1] 0 [5, 5, 0, 7]).2 = dnatPair 4000 [10, 0, 0, 1] 7 := by decide

end Geph4.Bridge
