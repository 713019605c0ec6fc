import Geph4.L4Run.Addresses
import Geph4.L4Run.Delivery

/-!
# What reaches a session (`listener.rs:149-159`, `243-250`, `257-337`)

A datagram reaches a session's input channel only on a `lookup` hit: its
source is bound in `by_addr` to a token whose entry's sender is that channel.
`by_addr` gains a binding only through `rebind(addr, shard_id, token)` in the
`ClientResume` arm, for the datagram's own source and the token the datagram
carries, once that token opens under `token_key`. An entry's sender is set
once, by `new_sess`, to the input channel of the session made for the token.

* `handleItem_binds`: one datagram from `addr` binds only `addr`, and only to a
  token for which it carries an opening `ClientResume`;
* `ingInv_step`: every step keeps every binding justified by a datagram of the
  receive log, every entry's sender the input of an emitted session of its
  token, and every routed datagram justified by an earlier datagram;
* `ingress_resumed`: in every reachable world, against any sender, every
  buffer ever put into a session's input channel came from an address that,
  in an earlier datagram, sent a `ClientResume` for that session's token, and
  that token opens under `token_key`.
-/
namespace Geph4

/-- Every binding of `T` is one of `T₀`'s, or binds `addr` to a token for
which `buf`, at `clock`, carries an opening `ClientResume`. -/
def BindsFrom (P : Params) (clock : Int) (T₀ : SessionTable) (buf : Bytes) (addr : Addr) (T : SessionTable) :
    Prop :=
  ∀ a t, T.byAddr.lookup a = some t → T₀.byAddr.lookup a = some t ∨
    (a = addr ∧ ∃ sh, ResumeIn P clock buf t sh ∧ (TokenInfo.decrypt P.crypt P.tokenKey t).isSome)

/-- Every `by_token` entry's sender is the input channel of an emitted session
of the entry's token. -/
def EntriesEmitted (s : St) : Prop :=
  ∀ t e, s.table.byToken.lookup t = some e → ∃ sess ∈ s.emitted, sess.token = t ∧ sess.cfg.recvPacket = e.sessionSend

/-! ## One datagram -/

theorem bindsFrom_rebind {P : Params} {T₀ T : SessionTable} {buf : Bytes} {addr : Addr} {sh : UInt8}
    {tok : Token} {clock : Int} (h : BindsFrom P clock T₀ buf addr T) (hin : ResumeIn P clock buf tok sh)
    (hdec : (TokenInfo.decrypt P.crypt P.tokenKey tok).isSome) :
    BindsFrom P clock T₀ buf addr (T.rebind addr sh tok).2 := by
  intro a t ha
  rw [SessionTable.byAddr_rebind] at ha
  split_ifs at ha with e
  · cases ha
    exact .inr ⟨e.1, sh, hin, hdec⟩
  · exact h a t ha

theorem handleItem_binds {P : Params} {c : Coins} {s s' : St} {buf : Bytes} {addr : Addr}
    (h : handleItem P c s buf addr = .ok s') : BindsFrom P c.clock s.table buf addr s'.table := by
  refine handleItem_keeps_frame (fun x => BindsFrom P c.clock s.table buf addr x.table) (fun _ _ hi => hi)
    (fun _ _ _ _ _ hi => hi) ?_ h fun _ _ ha => .inl ha
  intro s tok sh s' hi hin hr
  rcases onResume_ok hr with rfl | ⟨info, hdec, ⟨-, rfl⟩ | ⟨-, -, rfl⟩⟩
  · exact hi
  · exact bindsFrom_rebind hi hin (by simp [hdec])
  · -- `new_sess` leaves `by_addr` alone
    exact bindsFrom_rebind (T := s.table.newSess _ _ _) hi hin (by simp [hdec])

theorem entriesEmitted_rebind {s s' : St} {addr : Addr} {sh : UInt8} {tok : Token}
    (ht : s'.table = (s.table.rebind addr sh tok).2) (he : s'.emitted = s.emitted) (hi : EntriesEmitted s) :
    EntriesEmitted s' := by
  intro t e hl
  have hs := SessionTable.lookup_rebind_sender s.table addr sh tok t
  rw [← ht, hl] at hs
  obtain ⟨e₀, he₀, hse⟩ := Option.map_eq_some'.1 hs.symm
  rw [he, ← hse]
  exact hi t e₀ he₀

theorem entriesEmitted_newSession {s : St} {P : Params} {addr : Addr} {tok : Token} {sh : UInt8}
    {info : TokenInfo} (hi : EntriesEmitted s) : EntriesEmitted (s.newSession P addr tok sh info) := by
  intro t e hl
  have hs := St.newSession_sender s P addr tok sh info t
  rw [hl] at hs
  split_ifs at hs with et
  · -- the entry of the new token sends to the new session's input
    refine ⟨_, List.mem_append_right _ (List.mem_singleton_self _), et.symm, ?_⟩
    exact (Option.some.inj hs).symm
  · obtain ⟨e₀, he₀, hse⟩ := Option.map_eq_some'.1 hs.symm
    obtain ⟨sess, hm, htok, hrecv⟩ := hi t e₀ he₀
    exact ⟨sess, List.mem_append_left _ hm, htok, hrecv.trans hse⟩

theorem entriesEmitted_handleItem {P : Params} {c : Coins} {s s' : St} {buf : Bytes} {addr : Addr}
    (h : handleItem P c s buf addr = .ok s') (hi : EntriesEmitted s) : EntriesEmitted s' := by
  refine handleItem_keeps_frame EntriesEmitted (fun _ _ hi => hi) (fun _ _ _ _ _ hi => hi) ?_ h hi
  intro s tok sh s' hi _ hr
  rcases onResume_ok hr with rfl | ⟨info, -, ⟨-, rfl⟩ | ⟨-, -, rfl⟩⟩
  · exact hi
  · exact entriesEmitted_rebind rfl rfl hi
  · exact entriesEmitted_newSession hi

theorem emitted_handleItem {P : Params} {c : Coins} {s s' : St} {buf : Bytes} {addr : Addr}
    (h : handleItem P c s buf addr = .ok s') : s.emitted ⊆ s'.emitted := by
  refine handleItem_keeps_frame (fun x => s.emitted ⊆ x.emitted) (fun _ _ hi => hi) (fun _ _ _ _ _ hi => hi)
    ?_ h (List.Subset.refl _)
  intro s tok sh s' hi _ hr
  rcases onResume_ok hr with rfl | ⟨info, -, ⟨-, rfl⟩ | ⟨-, -, rfl⟩⟩
  · exact hi
  · exact hi
  · exact hi.trans (List.subset_append_left _ _)

/-- A datagram `lookup` routes to `ch` is bound to the token of an emitted
session reading `ch`. -/
theorem lookup_emitted {s : St} (hi : EntriesEmitted s) {a : Addr} {ch : ChanId} (hl : s.table.lookup a = some ch) :
    ∃ t, s.table.byAddr.lookup a = some t ∧ ∃ sess ∈ s.emitted, sess.token = t ∧ sess.cfg.recvPacket = ch := by
  unfold SessionTable.lookup at hl
  split at hl
  · cases hl
  · rename_i t ht
    obtain ⟨e, he, rfl⟩ := Option.map_eq_some'.1 hl
    exact ⟨t, ht, hi t e he⟩

/-- A record names the channel `lookup` gave for its source. -/
theorem St.rxOf_target {s : St} {clock : Int} {buf : Bytes} {addr : Addr} {ch : ChanId}
    (h : (s.rxOf clock buf addr).target = some ch) : s.table.lookup addr = some ch := by
  unfold St.rxOf at h
  split at h
  · cases h
  · cases h; assumption

/-! ## Whole runs -/

structure IngInv (P : Params) (w : World) : Prop where
  bound : ∀ a t, w.st.table.byAddr.lookup a = some t → ResumedFrom P w.rx t a
  entries : EntriesEmitted w.st
  routed : ∀ i r, w.rx[i]? = some r → ∀ ch, r.target = some ch →
    ∃ sess ∈ w.st.emitted, sess.cfg.recvPacket = ch ∧ ResumedFrom P (w.rx.take i) sess.token r.addr

/-- A step that keeps the log and the emitted sessions, adds no binding, and
keeps the sender of every entry it keeps. -/
theorem ingInv_frame {P : Params} {w w' : World} (hrx : w'.rx = w.rx) (he : w'.st.emitted = w.st.emitted)
    (hb : ∀ a t, w'.st.table.byAddr.lookup a = some t → w.st.table.byAddr.lookup a = some t)
    (ht : ∀ t e, w'.st.table.byToken.lookup t = some e → ∃ e', w.st.table.byToken.lookup t = some e' ∧
      e'.sessionSend = e.sessionSend) (hi : IngInv P w) : IngInv P w' := by
  refine ⟨fun a t h => hrx ▸ hi.bound a t (hb a t h), fun t e h => ?_, fun i r h ch hc => ?_⟩
  · obtain ⟨e', he', hs⟩ := ht t e h
    rw [he, ← hs]
    exact hi.entries t e' he'
  · rw [hrx] at h ⊢
    rw [he]
    exact hi.routed i r h ch hc

theorem ingInv_item {P : Params} {c : Coins} {w : World} {buf : Bytes} {addr : Addr}
    {rest : List (Bytes × Addr)} {st' : St} (h : handleItem P c w.st buf addr = .ok st')
    (hi : IngInv P w) : IngInv P ⟨st', rest, w.rx ++ [w.st.rxOf c.clock buf addr]⟩ := by
  have hsub := emitted_handleItem h
  have hnew : w.st.rxOf c.clock buf addr ∈ w.rx ++ [w.st.rxOf c.clock buf addr] :=
    List.mem_append_right _ (List.mem_singleton_self _)
  refine ⟨fun a t ha => ?_, entriesEmitted_handleItem h hi.entries, fun i r hr ch hc => ?_⟩
  · rcases handleItem_binds h a t ha with ha | ⟨rfl, sh, hin, hdec⟩
    · exact resumedFrom_mono (hi.bound a t ha) (List.subset_append_left _ _)
    · exact ⟨_, hnew, St.rxOf_addr _ _ _ _, sh, by rwa [St.rxOf_buf, St.rxOf_clock], hdec⟩
  rcases Nat.lt_or_ge i w.rx.length with hlt | hge
  · -- an earlier datagram: its justification is still in the log
    rw [List.getElem?_append_left hlt] at hr
    obtain ⟨sess, hm, hrecv, hres⟩ := hi.routed i r hr ch hc
    exact ⟨sess, hsub hm, hrecv, by rwa [List.take_append_of_le_length hlt.le]⟩
  · -- the datagram itself: `lookup` hit a binding made by an earlier one
    rw [List.getElem?_append_right hge] at hr
    obtain ⟨hlt, hr⟩ := List.getElem?_eq_some_iff.1 hr
    obtain rfl : i = w.rx.length := by simp only [List.length_singleton] at hlt; omega
    obtain rfl : w.st.rxOf c.clock buf addr = r := by simpa using hr
    obtain ⟨t, ht, sess, hm, rfl, hrecv⟩ := lookup_emitted hi.entries (St.rxOf_target hc)
    refine ⟨sess, hsub hm, hrecv, ?_⟩
    rw [List.take_left' rfl, St.rxOf_addr]
    exact hi.bound addr _ ht

theorem ingInv_step {P : Params} {adm : World → Int → Bytes → Prop} {w w' : World} (hs : Step P adm w w')
    (hi : IngInv P w) : IngInv P w' := by
  cases hs with
  | item c _ _ hh => exact ingInv_item hh hi
  | @dead tok _ _ _ =>
    refine ingInv_frame (w := w) rfl rfl (fun a t ha => ?_)
      (fun _ e he => ⟨e, SessionTable.lookup_delete_some (t := w.st.table) he, rfl⟩) hi
    cases he : w.st.table.byToken.lookup tok with
    | none => simpa [handleDead, SessionTable.delete, he] using ha
    | some e =>
      simp only [handleDead, SessionTable.byAddr_delete he] at ha
      split_ifs at ha
      exact ha
  | poll _ he =>
    exact ingInv_frame (w := w) rfl rfl (fun _ _ ha => ha)
      (SessionTable.senders_kept fun t => (St.sender_pollOut he t).symm) hi
  | _ => exact ingInv_frame (w := w) rfl rfl (fun _ _ ha => ha) (fun _ e he => ⟨e, he, rfl⟩) hi

theorem ingInv_reach {P : Params} {adm : World → Int → Bytes → Prop} {w : World} (h : Reach P adm w) :
    IngInv P w :=
  Reach.inv (IngInv P) (fun _ => ⟨fun _ _ h => by simp [World.init, St.init] at h,
    fun _ _ h => by simp [World.init, St.init] at h, fun _ _ h => by simp [World.init] at h⟩) ingInv_step h

/-- **Only a resumed address reaches a session.** In every reachable world,
against any sender: every buffer ever put into input channel `ch` is a
handled datagram whose source `lookup` mapped to `ch`, and that source had, in
an earlier datagram, sent a `ClientResume` for the token of the emitted
session that reads `ch`, a token that opens under `token_key`. -/
theorem ingress_resumed (P : Params) (w : World) (h : Reachable P w) :
    ∀ ch x, w.st.inputs[ch]? = some x → ∀ b ∈ x.hist,
      ∃ i r, w.rx[i]? = some r ∧ r.buf = b ∧ r.target = some ch ∧
        ∃ sess ∈ w.st.emitted, sess.cfg.recvPacket = ch ∧ ResumedFrom P (w.rx.take i) sess.token r.addr := by
  intro ch x hx b hb
  rw [(delivInv_reach h).log ch x hx] at hb
  obtain ⟨r, hr, rfl⟩ := List.mem_map.1 hb
  obtain ⟨hmem, hhit⟩ := List.mem_filter.1 hr
  have hc : r.target = some ch := by
    simp only [Rx.Hits, Bool.and_eq_true, beq_iff_eq] at hhit
    exact hhit.1
  obtain ⟨i, hi⟩ := List.mem_iff_getElem?.1 hmem
  exact ⟨i, r, hi, rfl, hc, (ingInv_reach h).routed i r hi ch hc⟩

/-- Address 1 resumes a token, which opens a session on input channel 0; the
next datagram from 1, `[7]`, goes into channel 0, justified by the first. -/
theorem ingress_resumed_run :
    ∃ w, Reachable Params.plain w ∧ ∃ i r, w.rx[i]? = some r ∧ r.buf = [7] ∧ r.target = some 0 ∧
      ∃ sess ∈ w.st.emitted, sess.cfg.recvPacket = 0 ∧ ResumedFrom Params.plain (w.rx.take i) sess.token r.addr := by
  have r2 : Reachable Params.plain _ :=
    ((Reach.init []).step (Step.recv [(1 :: 0 :: List.replicate 24 0, 1)] rfl (by simp))).step
      (Step.item ⟨false, 0, fun _ => ⟨[], 0, 0⟩⟩ rfl trivial rfl)
  have r4 := (r2.step (Step.recv [([7], 1)] rfl (by simp))).step
    (Step.item ⟨true, 0, fun _ => ⟨[], 0, 0⟩⟩ rfl trivial rfl)
  exact ⟨_, r4, ingress_resumed _ _ r4 0 _ rfl [7] (by decide)⟩

end Geph4
