import Geph4.L4Run.World

/-!
# Address bindings across reaps (`listener.rs:144-159`, `243-250`, `330-335`)

`by_addr[a]` decides which session a datagram from `a` reaches. It is set by
`rebind` on a `ClientResume` from `a` and cleared by `delete(t')`, which purges
every address `t'`'s `ShardedAddrs` lists, whichever token `by_addr` now maps
that address to.

* `handleItem_byAddr`: a datagram from `addr` changes no other address's
  binding, and binds `addr` only to a token the table knows;
* `byAddr_step`: in any step, `by_addr[a]` is unchanged, or the step handles a
  datagram from `a` and binds `a` to a known token, or the actor takes
  `DeadSess(t')` for a token `t'` whose `ShardedAddrs` lists `a`, and `a` is
  unbound;
* `reap_unbinds_moved_address`: that last case removes a live binding. Address
  1 resumes token `t'`, then token `t`, which moves `by_addr[1]` to `t` while
  `t'`'s `ShardedAddrs` still lists 1; `t'`'s session is dropped and reaped,
  and `lookup(1)` answers `none` while `t`'s session is live.
-/
namespace Geph4

/-- Every binding of `T` is that of `T₀`, or binds `addr` to a token `T` knows. -/
def BoundFrom (T₀ : SessionTable) (addr : Addr) (T : SessionTable) : Prop :=
  ∀ a, T.byAddr.lookup a = T₀.byAddr.lookup a ∨
    (a = addr ∧ ∃ t, T.byAddr.lookup a = some t ∧ t ∈ T.byToken)

theorem boundFrom_rebind {T₀ T : SessionTable} {addr : Addr} {sh : UInt8} {tok : Token}
    (h : BoundFrom T₀ addr T) : BoundFrom T₀ addr (T.rebind addr sh tok).2 := by
  intro a
  rw [SessionTable.byAddr_rebind]
  split_ifs with ha
  · exact .inr ⟨ha.1, tok, rfl, SessionTable.mem_rebind.2 ha.2⟩
  · rcases h a with h | ⟨ha, t, ht, hm⟩
    · exact .inl h
    · exact .inr ⟨ha, t, ht, SessionTable.mem_rebind.2 hm⟩

theorem boundFrom_newSess {T₀ T : SessionTable} {addr : Addr} {tok : Token} {c : ChanId}
    {sa : ShardedAddrs} (h : BoundFrom T₀ addr T) : BoundFrom T₀ addr (T.newSess tok c sa) := by
  intro a
  rcases h a with h | ⟨ha, t, ht, hm⟩
  · exact .inl h
  · exact .inr ⟨ha, t, ht, SessionTable.mem_newSess.2 (.inr hm)⟩

/-- **One datagram.** Handling `buf` from `addr` binds no address but `addr`,
and `addr` only to a token in `by_token`. -/
theorem handleItem_byAddr {P : Params} {c : Coins} {s s' : St} {buf : Bytes} {addr : Addr}
    (h : handleItem P c s buf addr = .ok s') : BoundFrom s.table addr s'.table := by
  refine handleItem_keeps_frame (fun x => BoundFrom s.table addr x.table) (fun _ _ hi => hi)
    (fun _ _ _ _ _ hi => hi) ?_ h (fun _ => .inl rfl)
  intro s tok sh s' hi _ hr
  rcases onResume_ok hr with rfl | ⟨info, -, ⟨-, rfl⟩ | ⟨-, -, rfl⟩⟩
  · exact hi
  · exact boundFrom_rebind hi
  · exact boundFrom_rebind (boundFrom_newSess hi)

theorem byAddr_handleDead (s : St) (tok : Token) (a : Addr) :
    (handleDead tok s).table.byAddr.lookup a = s.table.byAddr.lookup a ∨
      ∃ e, s.table.byToken.lookup tok = some e ∧ a ∈ e.addrs.getAddrs ∧
        (handleDead tok s).table.byAddr.lookup a = none := by
  cases h : s.table.byToken.lookup tok with
  | none => exact .inl (by simp [handleDead, SessionTable.delete, h])
  | some e =>
    simp only [handleDead, SessionTable.byAddr_delete h]
    by_cases ha : a ∈ e.addrs.getAddrs
    · exact .inr ⟨e, rfl, ha, if_pos ha⟩
    · exact .inl (if_neg ha)

/-- **Where bindings change.** A step leaves `by_addr[a]` alone, or handles a
datagram from `a` and binds `a` to a token `by_token` holds, or takes
`DeadSess(t')` for a token whose `ShardedAddrs` lists `a` and unbinds `a`. -/
theorem byAddr_step {P : Params} {adm : World → Int → Bytes → Prop} {w w' : World}
    (hs : Step P adm w w') (a : Addr) :
    w'.st.table.byAddr.lookup a = w.st.table.byAddr.lookup a ∨
    (∃ buf rest, w.batch = (buf, a) :: rest ∧
      ∃ t, w'.st.table.byAddr.lookup a = some t ∧ t ∈ w'.st.table.byToken) ∨
    (∃ t' rest e, w.st.reap = t' :: rest ∧ w.st.table.byToken.lookup t' = some e ∧
      a ∈ e.addrs.getAddrs ∧ w'.st.table.byAddr.lookup a = none) := by
  cases hs with
  | item c hb _ hh =>
    rcases handleItem_byAddr hh a with h | ⟨rfl, t, ht, hm⟩
    · exact .inl h
    · exact .inr (.inl ⟨_, _, hb, t, ht, hm⟩)
  | @dead tok rest _ hr =>
    rcases byAddr_handleDead w.st tok a with h | ⟨e, he, ha, hn⟩
    · exact .inl h
    · exact .inr (.inr ⟨tok, rest, e, hr, he, ha, hn⟩)
  | _ => exact .inl rfl

/-- In `World.movedDropped`, `DeadSess(movedFrom)` unbinds address 1. -/
theorem byAddr_dead :
    ∃ w', Step Params.plain (fun _ _ _ => True) World.movedDropped w' ∧
      World.movedDropped.st.table.byAddr.lookup 1 = some movedTo ∧ w'.st.table.byAddr.lookup 1 = none ∧
      (w'.st.table.byAddr.lookup 1 = World.movedDropped.st.table.byAddr.lookup 1 ∨
        (∃ buf rest, World.movedDropped.batch = (buf, 1) :: rest ∧
          ∃ t, w'.st.table.byAddr.lookup 1 = some t ∧ t ∈ w'.st.table.byToken) ∨
        (∃ t' rest e, World.movedDropped.st.reap = t' :: rest ∧
          World.movedDropped.st.table.byToken.lookup t' = some e ∧
          1 ∈ e.addrs.getAddrs ∧ w'.st.table.byAddr.lookup 1 = none)) :=
  have hs : Step Params.plain (fun _ _ _ => True) World.movedDropped _ := Step.dead rfl rfl
  ⟨_, hs, by decide, by decide, byAddr_step hs 1⟩

/-- **A reap unbinds a moved address.** Address 1 opened a session for
`movedFrom`, then resumed `movedTo`, which opened a second one and bound 1 to
`movedTo`; `movedFrom`'s session is dropped. Taking `DeadSess(movedFrom)`
purges every address `movedFrom`'s entry lists, 1 among them: `lookup 1`
finds nothing, although `movedTo`'s session is live with its entry. -/
theorem reap_unbinds_moved_address :
    ∃ w w', Reachable Params.plain w ∧ Step Params.plain (fun _ _ _ => True) w w' ∧
      w.st.table.byAddr.lookup 1 = some movedTo ∧ w.st.table.lookup 1 = some 1 ∧ w.st.reap = [movedFrom] ∧
      w' = { w with st := { handleDead movedFrom w.st with reap := [] } } ∧
      w'.st.table.lookup 1 = none ∧ (w'.st.table.byToken.lookup movedTo).isSome ∧
      ∃ sess ∈ w'.st.live, sess.token = movedTo :=
  ⟨_, _, movedDropped_reachable, Step.dead rfl rfl, by decide, by decide, by decide, rfl, by decide, by decide,
    by decide⟩

end Geph4
