import Geph4.Bridge.Routes
import Mathlib.Logic.Function.Basic
import Mathlib.Logic.Relation

/-!
# The shared `nat` table under concurrent exit managers (`geph4-bridge/src/main.rs:37-41, 84-150`)

`main` flushes the `nat` table (`iptables -t nat -F`) before `bridge_loop`
spawns any exit manager, so `PREROUTING` starts empty. Every manager whose
resolve returned runs its own `route_fut` against that one table. A manager
holds its UDP socket for as long as its task runs, and binding fails on a port
that a live socket holds, so the running managers' local ports are distinct,
and the model keys them by that port.

`run_command` blocks its task until `sh -c` exits, but other managers may run
meanwhile on the executor's other threads: the unit that does not interleave
is one `iptables` invocation. A manager's task ends on a panic, at the
`unwrap` of `run_command`'s `output()` (`main.rs:149`) or in `manage_fut`
(`MY_IP`): its socket is dropped, which frees its port for a later manager,
and nothing removes the rules it installed.

A step (`RStep`) is a manager's `start` (its resolve returned and it bound a
free port), `recv` (its `route_fut` takes a port and queues the invocations of
its commands), `run` (it runs its oldest queued invocation) or `stop` (its
task ends, here between any two invocations); the managers' steps interleave
in any order. Two ghosts say whose rules are whose: each manager's `own`
rules, those its invocations put in and have not taken out, and the table's
`orphans`, the rules of managers that ended.

* `step_eq_onRecv`: `RouteFut.step` is `onRecv`'s locals with its invocations
  run in order, so the queued model is `route_fut` split at its invocations;
* `portRules_run`: an invocation changes only the rules of its own `--dport`;
* `natInv_step`: every step keeps the rules of each port equal to that port's
  orphans plus its running manager's own rules, and those own rules, with the
  manager's queue run on them, equal to what its `route_fut` alone makes of
  its updates from an empty table;
* `managers_independent`: in every reachable state, whatever the
  interleaving, every `PREROUTING` rule forwards a running manager's port or
  was left by one that ended; a free port has only orphans; and a manager
  between two commands has, besides its port's orphans, exactly the rules,
  and the locals, that `routeRun` gives for its own updates.
-/
namespace Geph4.Bridge

def Ipt.rule : Ipt → Dnat
  | .append r => r
  | .delete r => r

/-- mirrors geph4-bridge/src/main.rs:119-137, split at its invocations: on
receiving `remotePort`, the locals after the iteration and the invocations it
runs, the old pair's deletion first. -/
def RouteFut.onRecv (localPort : UInt16) (ip : IpAddr) (f : RouteFut) (remotePort : UInt16) :
    RouteFut × Command :=
  if remotePort != f.lastRemotePort then
    (⟨some (deleteCommand localPort ip remotePort), remotePort⟩,
      f.routeDelete.getD [] ++ addCommand localPort ip remotePort)
  else (f, [])

/-- A manager's `route_fut` (`main.rs:114-139`): the exit's address, its
locals and the invocations of the current iteration not yet run; and two
ghosts, the ports it has received and the rules it has put in the table and
not taken out. -/
structure RouteTask where
  ip : IpAddr
  fut : RouteFut
  pending : Command
  received : List UInt16
  own : Multiset Dnat

/-- `recv_routes.recv_async()` returns `remotePort`. -/
def RouteTask.recv (localPort : UInt16) (t : RouteTask) (remotePort : UInt16) : RouteTask :=
  { t with fut := (t.fut.onRecv localPort t.ip remotePort).1,
           pending := (t.fut.onRecv localPort t.ip remotePort).2,
           received := t.received ++ [remotePort] }

/-- The `PREROUTING` chain of the `nat` table, the running managers by local
port, and the ghost of the rules that managers which ended left in it. -/
structure NatTable where
  table : Multiset Dnat
  tasks : UInt16 → Option RouteTask
  orphans : Multiset Dnat

/-- After `iptables -t nat -F` (`main.rs:40`). The `POSTROUTING` rule that
`main` adds next is not a DNAT rule. -/
def NatTable.init : NatTable := ⟨0, fun _ => none, 0⟩

/-- One step of one manager: `start` once `manage_exit` has bound `localPort`
(`main.rs:89-92`) and its resolve returned; `recv` when `route_fut` takes
`remotePort`, its last command having run; `run` for one `iptables`
invocation of the running command; `stop` when the task ends and its socket
is dropped. -/
inductive RStep : NatTable → NatTable → Prop
  | start {s : NatTable} (localPort : UInt16) (ip : IpAddr) : s.tasks localPort = none →
      RStep s { s with tasks := Function.update s.tasks localPort (some ⟨ip, .init, [], [], 0⟩) }
  | recv {s : NatTable} {localPort : UInt16} {t : RouteTask} (remotePort : UInt16) :
      s.tasks localPort = some t → t.pending = [] →
      RStep s { s with tasks := Function.update s.tasks localPort (some (t.recv localPort remotePort)) }
  | run {s : NatTable} {localPort : UInt16} {t : RouteTask} {inv : Ipt} {rest : Command} :
      s.tasks localPort = some t → t.pending = inv :: rest →
      RStep s ⟨inv.run s.table,
        Function.update s.tasks localPort (some { t with pending := rest, own := inv.run t.own }), s.orphans⟩
  | stop {s : NatTable} {localPort : UInt16} {t : RouteTask} : s.tasks localPort = some t →
      RStep s ⟨s.table, Function.update s.tasks localPort none, s.orphans + t.own⟩

def NReach (s : NatTable) : Prop := Relation.ReflTransGen RStep NatTable.init s

/-- Each deletion of `c`, run in order on the rules `m`, finds its rule there. -/
def DeletesPresent : Multiset Dnat → Command → Prop
  | _, [] => True
  | m, inv :: c => (∀ r, inv = .delete r → r ∈ m) ∧ DeletesPresent (inv.run m) c

/-! ## One manager's `route_fut`, split at its invocations -/

section
variable (localPort : UInt16) (ip : IpAddr)

theorem step_eq_onRecv (rm : RouteFut × Multiset Dnat) (p : UInt16) :
    RouteFut.step localPort ip rm p =
      ((rm.1.onRecv localPort ip p).1, runCommand rm.2 (rm.1.onRecv localPort ip p).2) := by
  unfold RouteFut.step RouteFut.onRecv
  split
  · cases rm.1.routeDelete <;> simp only [Option.getD_none, Option.getD_some, List.nil_append, runCommand,
      List.foldl_append]
  · rfl

theorem routeRun_concat (m₀ : Multiset Dnat) (ps : List UInt16) (p : UInt16) :
    routeRun localPort ip m₀ (ps ++ [p]) = RouteFut.step localPort ip (routeRun localPort ip m₀ ps) p :=
  List.foldl_concat _ _ _ _

theorem routeRun_routeDelete (m₀ : Multiset Dnat) (ps : List UInt16) :
    ∀ c, (routeRun localPort ip m₀ ps).1.routeDelete = some c → ∀ inv ∈ c, inv.rule.dport = localPort := by
  have hi := routeInv_foldl localPort ip m₀ ps none (RouteFut.init, m₀) ⟨rfl, by simp, rfl⟩
  intro c hc inv hinv
  rw [routeRun, hi.2.2] at hc
  obtain ⟨q, -, rfl⟩ := Option.map_eq_some'.1 hc
  simp only [deleteCommand, List.mem_cons, List.mem_singleton, List.not_mem_nil, or_false] at hinv
  rcases hinv with rfl | rfl <;> rfl

/-- The deletion command an iteration runs removes the pair `route_fut`
installed. -/
theorem deletesPresent_onRecv (ps : List UInt16) (p : UInt16) :
    DeletesPresent (routeRun localPort ip 0 ps).2 ((routeRun localPort ip 0 ps).1.onRecv localPort ip p).2 := by
  obtain ⟨-, hm, hd⟩ := routeInv_foldl localPort ip 0 ps none (RouteFut.init, 0) ⟨rfl, by simp, rfl⟩
  rw [routeRun, hm]
  unfold RouteFut.onRecv
  split
  · rw [hd]
    cases ps.foldl installNext none with
    | none => simp [DeletesPresent, addCommand]
    | some q => simp [DeletesPresent, deleteCommand, addCommand, dnatPair, Ipt.run]
  · trivial

theorem onRecv_own {f : RouteFut} (p : UInt16)
    (hf : ∀ c, f.routeDelete = some c → ∀ inv ∈ c, inv.rule.dport = localPort) :
    ∀ inv ∈ (f.onRecv localPort ip p).2, inv.rule.dport = localPort := by
  unfold RouteFut.onRecv
  split
  · intro inv hinv
    rcases List.mem_append.1 hinv with h | h
    · cases hd : f.routeDelete with
      | none => rw [hd] at h; cases h
      | some c => rw [hd] at h; exact hf c hd inv h
    · simp only [addCommand, List.mem_cons, List.mem_singleton, List.not_mem_nil, or_false] at h
      rcases h with rfl | rfl <;> rfl
  · intro _ h; cases h

end

/-! ## An invocation touches only its own port -/

/-- The rules forwarding local port `q`. -/
def portRules (m : Multiset Dnat) (q : UInt16) : Multiset Dnat := m.filter (·.dport = q)

theorem portRules_run (inv : Ipt) (m : Multiset Dnat) (q : UInt16) :
    portRules (inv.run m) q = if inv.rule.dport = q then inv.run (portRules m q) else portRules m q := by
  cases inv with
  | append r =>
    by_cases h : r.dport = q
    · rw [Ipt.rule, if_pos h]
      exact Multiset.filter_cons_of_pos _ h
    · rw [Ipt.rule, if_neg h]
      exact Multiset.filter_cons_of_neg _ h
  | delete r =>
    simp only [Ipt.rule, Ipt.run, portRules, ← Multiset.sub_singleton, Multiset.filter_sub,
      Multiset.filter_singleton]
    split <;> simp

theorem mem_run {inv : Ipt} {m : Multiset Dnat} {r : Dnat} (h : r ∈ inv.run m) : r = inv.rule ∨ r ∈ m := by
  cases inv with
  | append r' => exact Multiset.mem_cons.1 h
  | delete r' => exact Or.inr (Multiset.mem_of_mem_erase h)

theorem portRules_add (a b : Multiset Dnat) (q : UInt16) : portRules (a + b) q = portRules a q + portRules b q :=
  Multiset.filter_add _ _ _

theorem run_add_own {o m : Multiset Dnat} {inv : Ipt} (h : ∀ r, inv = .delete r → r ∈ m) :
    inv.run (o + m) = o + inv.run m := by
  cases inv with
  | append r => exact (Multiset.add_cons r o m).symm
  | delete r => exact Multiset.erase_add_right_pos o (h r rfl)

/-! ## The invariant -/

/-- The rules the manager on port `q`, if any, has put in and not taken out. -/
def NatTable.ownAt (s : NatTable) (q : UInt16) : Multiset Dnat := ((s.tasks q).map RouteTask.own).getD 0

/-- What a manager on `localPort` has made of the table: its locals are
`route_fut`'s after its updates, and its queue, run on its own rules, gives
what `route_fut` alone makes of an empty table. -/
structure TaskInv (localPort : UInt16) (t : RouteTask) : Prop where
  fut : t.fut = (routeRun localPort t.ip 0 t.received).1
  rules : runCommand t.own t.pending = (routeRun localPort t.ip 0 t.received).2
  own : ∀ inv ∈ t.pending, inv.rule.dport = localPort
  ownPort : ∀ r ∈ t.own, r.dport = localPort
  deletes : DeletesPresent t.own t.pending

structure NatInv (s : NatTable) : Prop where
  tasks : ∀ q t, s.tasks q = some t → TaskInv q t
  split : ∀ q, portRules s.table q = portRules s.orphans q + s.ownAt q

/-- A step that changes one manager, and the table and the orphans only on
its port. -/
theorem natInv_update {s : NatTable} {m o : Multiset Dnat} {lp : UInt16} {t' : Option RouteTask} (hi : NatInv s)
    (ht' : ∀ t, t' = some t → TaskInv lp t)
    (hframe : ∀ q, q ≠ lp → portRules m q = portRules s.table q ∧ portRules o q = portRules s.orphans q)
    (hsplit : portRules m lp = portRules o lp + (t'.map RouteTask.own).getD 0) :
    NatInv ⟨m, Function.update s.tasks lp t', o⟩ := by
  refine ⟨fun q t hq => ?_, fun q => ?_⟩ <;> by_cases e : q = lp
  · subst e
    exact ht' t (by simpa using hq)
  · exact hi.tasks q t (by simpa [Function.update_noteq e] using hq)
  · subst e
    simpa [NatTable.ownAt] using hsplit
  · simp only [NatTable.ownAt, Function.update_noteq e, (hframe q e).1, (hframe q e).2]
    exact hi.split q

theorem natInv_start {s : NatTable} {lp : UInt16} (ip : IpAddr) (hfree : s.tasks lp = none) (hi : NatInv s) :
    NatInv { s with tasks := Function.update s.tasks lp (some ⟨ip, .init, [], [], 0⟩) } := by
  refine natInv_update hi ?_ (fun _ _ => ⟨rfl, rfl⟩) ?_
  · rintro t ⟨⟩
    exact ⟨rfl, rfl, fun _ h => (nomatch h), fun r h => (Multiset.not_mem_zero r h).elim, trivial⟩
  · simpa [NatTable.ownAt, hfree] using hi.split lp

theorem natInv_recv {s : NatTable} {lp : UInt16} {t : RouteTask} (p : UInt16) (ht : s.tasks lp = some t)
    (hp : t.pending = []) (hi : NatInv s) :
    NatInv { s with tasks := Function.update s.tasks lp (some (t.recv lp p)) } := by
  obtain ⟨hfut, hrules, -, hport, -⟩ := hi.tasks lp t ht
  rw [hp] at hrules
  -- with nothing queued, the manager's own rules are `route_fut`'s table
  have hown : t.own = (routeRun lp t.ip 0 t.received).2 := hrules
  have hrun : routeRun lp t.ip 0 (t.received ++ [p]) =
      ((t.fut.onRecv lp t.ip p).1, runCommand t.own (t.fut.onRecv lp t.ip p).2) := by
    rw [routeRun_concat, step_eq_onRecv, ← hfut, ← hown]
  refine natInv_update hi ?_ (fun _ _ => ⟨rfl, rfl⟩) (by simpa [NatTable.ownAt, ht] using hi.split lp)
  rintro _ ⟨⟩
  refine ⟨(congrArg Prod.fst hrun).symm, (congrArg Prod.snd hrun).symm, ?_, hport, ?_⟩
  · exact onRecv_own lp t.ip p (hfut ▸ routeRun_routeDelete lp t.ip 0 t.received)
  · show DeletesPresent t.own (t.fut.onRecv lp t.ip p).2
    rw [hown, hfut]
    exact deletesPresent_onRecv lp t.ip t.received p

theorem natInv_run {s : NatTable} {lp : UInt16} {t : RouteTask} {inv : Ipt} {rest : Command}
    (ht : s.tasks lp = some t) (hp : t.pending = inv :: rest) (hi : NatInv s) :
    NatInv ⟨inv.run s.table, Function.update s.tasks lp (some { t with pending := rest, own := inv.run t.own }),
      s.orphans⟩ := by
  obtain ⟨hfut, hrules, hown, hport, hdel⟩ := hi.tasks lp t ht
  rw [hp] at hrules hown hdel
  have hinv : inv.rule.dport = lp := hown inv (List.mem_cons_self _ _)
  refine natInv_update hi ?_ (fun q hq => ⟨?_, rfl⟩) ?_
  · rintro _ ⟨⟩
    refine ⟨hfut, hrules, fun i h => hown i (List.mem_cons_of_mem _ h), fun r hr => ?_, hdel.2⟩
    rcases mem_run hr with rfl | hr
    exacts [hinv, hport r hr]
  · rw [portRules_run, if_neg (hinv ▸ Ne.symm hq)]
  · have hs := hi.split lp
    simp only [NatTable.ownAt, ht, Option.map_some', Option.getD_some] at hs ⊢
    rw [portRules_run, if_pos hinv, hs, run_add_own hdel.1]

theorem natInv_stop {s : NatTable} {lp : UInt16} {t : RouteTask} (ht : s.tasks lp = some t) (hi : NatInv s) :
    NatInv ⟨s.table, Function.update s.tasks lp none, s.orphans + t.own⟩ := by
  have hport := (hi.tasks lp t ht).ownPort
  have hs := hi.split lp
  simp only [NatTable.ownAt, ht, Option.map_some', Option.getD_some] at hs
  refine natInv_update hi (fun _ h => (nomatch h)) (fun q hq => ⟨rfl, ?_⟩) ?_
  · have h0 : portRules t.own q = 0 := Multiset.filter_eq_nil.2 fun r hr (e : r.dport = q) => hq (e ▸ hport r hr)
    rw [portRules_add, h0, add_zero]
  · have hall : portRules t.own lp = t.own := Multiset.filter_eq_self.2 hport
    rw [hs, portRules_add, hall, Option.map_none', Option.getD_none, add_zero]

theorem natInv_step {s s' : NatTable} (hs : RStep s s') (hi : NatInv s) : NatInv s' := by
  cases hs with
  | start lp ip hfree => exact natInv_start ip hfree hi
  | recv p ht hp => exact natInv_recv p ht hp hi
  | run ht hp => exact natInv_run ht hp hi
  | stop ht => exact natInv_stop ht hi

theorem natInv_reach {s : NatTable} (h : NReach s) : NatInv s := by
  induction h with
  | refl => exact ⟨fun _ _ h => (nomatch h), fun _ => rfl⟩
  | tail _ hs ih => exact natInv_step hs ih

/-- **Managers do not interfere.** In every state the bridge reaches, whatever
the interleaving of the managers' `iptables` invocations and whenever they
end: every `PREROUTING` rule forwards the port of a running manager or was
left by a manager that ended; the rules of a port no manager holds are the
orphans of that port; and a manager between two commands has, besides the
orphans of its port, exactly the rules, and the locals, that its `route_fut`
makes of its own updates from an empty table (`routeRun`). -/
theorem managers_independent (s : NatTable) (h : NReach s) :
    (∀ r ∈ s.table, s.tasks r.dport ≠ none ∨ r ∈ s.orphans) ∧
    (∀ q, s.tasks q = none → s.table.filter (·.dport = q) = s.orphans.filter (·.dport = q)) ∧
    ∀ localPort t, s.tasks localPort = some t → t.pending = [] →
      s.table.filter (·.dport = localPort) =
        s.orphans.filter (·.dport = localPort) + (routeRun localPort t.ip 0 t.received).2 ∧
      t.fut = (routeRun localPort t.ip 0 t.received).1 := by
  have hi := natInv_reach h
  refine ⟨fun r hr => ?_, fun q hq => by simpa [NatTable.ownAt, hq] using hi.split q, fun lp t ht hp => ?_⟩
  · have hm : r ∈ portRules s.table r.dport := Multiset.mem_filter.2 ⟨hr, rfl⟩
    rw [hi.split] at hm
    rcases Multiset.mem_add.1 hm with hm | hm
    · exact .inr (Multiset.mem_of_mem_filter hm)
    · refine .inl fun hn => ?_
      simp [NatTable.ownAt, hn] at hm
  · have hr := (hi.tasks lp t ht).rules
    rw [hp] at hr
    have hs := hi.split lp
    simp only [NatTable.ownAt, ht, Option.map_some', Option.getD_some] at hs
    exact ⟨hs.trans (congrArg _ hr), (hi.tasks lp t ht).fut⟩

/-- Two managers whose invocations interleave: the one on port 4000 adds its
udp rule, the one on port 5000 installs its whole pair, and the first one
finishes its pair for port 7, then ends. A manager for another exit binds
port 4000 again and installs its pair for port 9: the ended manager's pair
stays next to it. -/
theorem managers_interleaved :
    ∃ s, NReach s ∧ (s.tasks 4000).map (fun t => (t.ip, t.received, t.pending)) = some ([10, 0, 0, 3], [9], []) ∧
      s.orphans.filter (·.dport = 4000) = dnatPair 4000 [10, 0, 0, 1] 7 ∧
      s.table.filter (·.dport = 4000) =
        s.orphans.filter (·.dport = 4000) + (routeRun 4000 [10, 0, 0, 3] 0 [9]).2 := by
  have r2 : NReach _ := (Relation.ReflTransGen.single (RStep.start 4000 [10, 0, 0, 1] rfl)).tail
    (RStep.start 5000 [10, 0, 0, 2] rfl)
  have r4 := (r2.tail (@RStep.recv _ 4000 _ 7 rfl rfl)).tail (@RStep.run _ 4000 _ _ _ rfl rfl)
  have r7 := ((r4.tail (@RStep.recv _ 5000 _ 9 rfl rfl)).tail (@RStep.run _ 5000 _ _ _ rfl rfl)).tail
    (@RStep.run _ 5000 _ _ _ rfl rfl)
  have r9 := (r7.tail (@RStep.run _ 4000 _ _ _ rfl rfl)).tail (@RStep.stop _ 4000 _ rfl)
  have r13 := (((r9.tail (RStep.start 4000 [10, 0, 0, 3] rfl)).tail (@RStep.recv _ 4000 _ 9 rfl rfl)).tail
    (@RStep.run _ 4000 _ _ _ rfl rfl)).tail (@RStep.run _ 4000 _ _ _ rfl rfl)
  exact ⟨_, r13, rfl, by decide, ((managers_independent _ r13).2.2 4000 _ rfl rfl).1⟩

end Geph4.Bridge
