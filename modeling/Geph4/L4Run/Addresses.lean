import Geph4.L4Run.World

/-!
# Where the listener sends (`listener.rs:220-227`, `243-250`, `275-301`, `330-335`)

The listener writes to its socket in two places: the `ServerHello` reply, sent
to the address the `ClientHello` came from, and each session's output poller,
which sends to `locked_addrs.get_addr()`. A session's `ShardedAddrs` gains an
address only when a datagram from that address carries, under some candidate
key, a `ClientResume` for the session's token, and that token opens under
`token_key` (`rebind`, or `ShardedAddrs::new` for a new session).

* `handleItem_sends`: one datagram from `addr` sends only to `addr`, and adds
  only `addr` to a session's addresses, and only when it carries an opening
  `ClientResume` for that session's token;
* `sends_heard`: in every reachable world, whatever the sender sends, every
  datagram the listener sent went to an address it had received a datagram
  from; every address a session entry lists, the next destination of its
  output poller among them, sent a `ClientResume` for the entry's token, and
  that token opens under `token_key`.
-/
namespace Geph4

/-- A datagram from `a` in the log carries, under some candidate key, a
`ClientResume` for `t`, and `t` opens under `token_key`. -/
def ResumedFrom (P : Params) (rx : List Rx) (t : Token) (a : Addr) : Prop :=
  ∃ r ∈ rx, r.addr = a ∧ ∃ sh, ResumeIn P r.clock r.buf t sh ∧ (TokenInfo.decrypt P.crypt P.tokenKey t).isSome

theorem resumedFrom_mono {P : Params} {rx rx' : List Rx} {t : Token} {a : Addr}
    (h : ResumedFrom P rx t a) (hs : rx ⊆ rx') : ResumedFrom P rx' t a :=
  let ⟨r, hr, hra, hres⟩ := h
  ⟨r, hs hr, hra, hres⟩

/-! ## One datagram -/

/-- Every address an entry of `T` lists was listed by `T₀`'s entry for the
same token, or satisfies `X`. -/
def AddrsWithin (T₀ : SessionTable) (X : Token → Addr → Prop) (T : SessionTable) : Prop :=
  ∀ t e', T.byToken.lookup t = some e' → ∀ a ∈ e'.addrs.getAddrs,
    (∃ e, T₀.byToken.lookup t = some e ∧ a ∈ e.addrs.getAddrs) ∨ X t a

theorem addrsWithin_rebind {T₀ T : SessionTable} {X : Token → Addr → Prop} {addr : Addr} {sh : UInt8}
    {tok : Token} (h : AddrsWithin T₀ X T) (hx : X tok addr) : AddrsWithin T₀ X (T.rebind addr sh tok).2 := by
  intro t e' he a ha
  rw [SessionTable.lookup_rebind] at he
  split_ifs at he with et
  · subst et
    obtain ⟨e, he₀, rfl⟩ := Option.map_eq_some'.1 he
    rcases ShardedAddrs.mem_getAddrs_insertAddr ha with ha | rfl
    · exact h t e he₀ a ha
    · exact .inr hx
  · exact h t e' he a ha

theorem addrsWithin_newSess {T₀ T : SessionTable} {X : Token → Addr → Prop} {tok : Token} {c : ChanId}
    {sa : ShardedAddrs} (h : AddrsWithin T₀ X T) (hx : ∀ a ∈ sa.getAddrs, X tok a) :
    AddrsWithin T₀ X (T.newSess tok c sa) := by
  intro t e' he a ha
  rw [SessionTable.lookup_newSess] at he
  split_ifs at he with et
  · cases he; exact .inr (et ▸ hx a ha)
  · exact h t e' he a ha

/-- What handling `buf` from `addr` at `clock` in state `s` may have added to
where the listener sends, by state `x`. -/
def SendsFrom (P : Params) (clock : Int) (s : St) (buf : Bytes) (addr : Addr) (x : St) : Prop :=
  (∀ p ∈ x.sent, p ∈ s.sent ∨ p.2 = addr) ∧
  AddrsWithin s.table
    (fun t a => a = addr ∧ ∃ sh, ResumeIn P clock buf t sh ∧ (TokenInfo.decrypt P.crypt P.tokenKey t).isSome)
    x.table

/-- **One datagram.** It is answered only at its source, and it adds its source
to a session's addresses only through an opening `ClientResume` for the
session's token. -/
theorem handleItem_sends {P : Params} {c : Coins} {s s' : St} {buf : Bytes} {addr : Addr}
    (h : handleItem P c s buf addr = .ok s') : SendsFrom P c.clock s buf addr s' := by
  refine handleItem_keeps (SendsFrom P c.clock s buf addr) (fun _ _ hi => hi) (fun _ hi => hi) ?_ ?_ h
    ⟨fun p hp => .inl hp, fun t e he a ha => .inl ⟨e, he, ha⟩⟩
  · intro x k d lp ep v r hi hh
    rcases onHello_ok hh with rfl | ⟨-, -, hr⟩
    · exact hi
    · rw [hr]
      refine ⟨fun p hp => ?_, hi.2⟩
      rcases List.mem_append.1 hp with hp | hp
      · exact hi.1 p hp
      · exact .inr (by rw [List.mem_singleton.1 hp])
  · intro x tok sh x' hi hin hr
    rcases onResume_ok hr with rfl | ⟨info, hdec, ⟨-, rfl⟩ | ⟨-, -, rfl⟩⟩
    · exact hi
    · exact ⟨hi.1, addrsWithin_rebind hi.2 ⟨rfl, sh, hin, by simp [hdec]⟩⟩
    · refine ⟨hi.1, addrsWithin_rebind (addrsWithin_newSess hi.2 fun a ha => ?_)
        ⟨rfl, sh, hin, by simp [hdec]⟩⟩
      exact ⟨ShardedAddrs.mem_getAddrs_new.1 ha, sh, hin, by simp [hdec]⟩

/-! ## Whole runs -/

structure AddrInv (P : Params) (w : World) : Prop where
  sent : ∀ p ∈ w.st.sent, ∃ r ∈ w.rx, r.addr = p.2
  listed : ∀ t e, w.st.table.byToken.lookup t = some e → ∀ a ∈ e.addrs.getAddrs, ResumedFrom P w.rx t a

theorem addrInv_item {P : Params} {c : Coins} {w : World} {buf : Bytes} {addr : Addr}
    {rest : List (Bytes × Addr)} {st' : St} (h : handleItem P c w.st buf addr = .ok st')
    (hi : AddrInv P w) : AddrInv P ⟨st', rest, w.rx ++ [w.st.rxOf c.clock buf addr]⟩ := by
  obtain ⟨hs, ht⟩ := handleItem_sends h
  have hnew : w.st.rxOf c.clock buf addr ∈ w.rx ++ [w.st.rxOf c.clock buf addr] :=
    List.mem_append_right _ (List.mem_singleton_self _)
  refine ⟨fun p hp => ?_, fun t e he a ha => ?_⟩
  · rcases hs p hp with hp | hp
    · obtain ⟨r, hr, hra⟩ := hi.sent p hp
      exact ⟨r, List.mem_append_left _ hr, hra⟩
    · exact ⟨_, hnew, by rw [St.rxOf_addr, hp]⟩
  · rcases ht t e he a ha with ⟨e₀, he₀, ha₀⟩ | ⟨rfl, sh, hin, hdec⟩
    · exact resumedFrom_mono (hi.listed t e₀ he₀ a ha₀) (List.subset_append_left _ _)
    · exact ⟨_, hnew, St.rxOf_addr _ _ _ _, sh, by rwa [St.rxOf_buf, St.rxOf_clock], hdec⟩

/-- The output poller sends to an address the entry lists, and only turns its
cursor. -/
theorem addrInv_pollOut {P : Params} {w : World} {sess : Session} {e : SessEntry} {data : Bytes}
    (he : w.st.table.byToken.lookup sess.token = some e) (hi : AddrInv P w) :
    AddrInv P { w with st := w.st.pollOut sess e data } := by
  refine ⟨fun p hp => ?_, fun t e' he' a ha => ?_⟩
  · rcases List.mem_append.1 hp with hp | hp
    · exact hi.sent p hp
    · obtain ⟨r, hr, hra, -⟩ := hi.listed _ e he _ (ShardedAddrs.getAddr_mem e.addrs)
      exact ⟨r, hr, by rw [hra, List.mem_singleton.1 hp]⟩
  · rw [St.lookup_pollOut he] at he'
    obtain ⟨x, hx, rfl⟩ := Option.map_eq_some'.1 he'
    refine hi.listed t x hx a ?_
    split at ha
    · rwa [ShardedAddrs.getAddrs_getAddr] at ha
    · exact ha

theorem addrInv_step {P : Params} {adm : World → Int → Bytes → Prop} {w w' : World} (hs : Step P adm w w')
    (hi : AddrInv P w) : AddrInv P w' := by
  cases hs with
  | item c _ _ hh => exact addrInv_item hh hi
  | dead => exact ⟨hi.sent, fun t e he => hi.listed t e (SessionTable.lookup_delete_some he)⟩
  | poll _ he => exact addrInv_pollOut he hi
  | _ => exact ⟨hi.sent, hi.listed⟩

theorem addrInv_reach {P : Params} {adm : World → Int → Bytes → Prop} {w : World} (h : Reach P adm w) :
    AddrInv P w :=
  Reach.inv (AddrInv P) (fun _ => ⟨fun p hp => by simp [World.init, St.init] at hp,
    fun t e he => by simp [World.init, St.init] at he⟩) addrInv_step h

/-- **Where the listener sends.** In every reachable world, against any sender:
every datagram the listener sent went to an address it had received a
datagram from; every address a session entry lists sent a `ClientResume` for
the entry's token that opens under `token_key`; in particular the address its
output poller sends to next did. -/
theorem sends_heard (P : Params) (w : World) (h : Reachable P w) :
    (∀ p ∈ w.st.sent, ∃ r ∈ w.rx, r.addr = p.2) ∧
    (∀ t e, w.st.table.byToken.lookup t = some e → ∀ a ∈ e.addrs.getAddrs, ResumedFrom P w.rx t a) ∧
    (∀ t e, w.st.table.byToken.lookup t = some e → ResumedFrom P w.rx t e.addrs.getAddr.1) :=
  have hi := addrInv_reach h
  ⟨hi.sent, hi.listed, fun t e he => hi.listed t e he _ (ShardedAddrs.getAddr_mem e.addrs)⟩

/-- In `World.moved`, the reply went to address 7, and address 1, listed by
both sessions, resumed both tokens. -/
theorem sends_heard_moved :
    Reachable Params.plain World.moved ∧ World.moved.st.sent.map Prod.snd = [7] ∧
      (∀ p ∈ World.moved.st.sent, ∃ r ∈ World.moved.rx, r.addr = p.2) ∧
      (∀ t e, World.moved.st.table.byToken.lookup t = some e → ∀ a ∈ e.addrs.getAddrs,
        ResumedFrom Params.plain World.moved.rx t a) ∧
      (∀ t e, World.moved.st.table.byToken.lookup t = some e →
        ResumedFrom Params.plain World.moved.rx t e.addrs.getAddr.1) :=
  ⟨moved_reachable, by decide, sends_heard _ _ moved_reachable⟩

end Geph4
