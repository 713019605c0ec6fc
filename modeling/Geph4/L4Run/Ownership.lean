import Geph4.L4Run.Reap

/-!
# Each live session owns its table entry (`listener.rs:144-148`, `266-337`)

A new session gets fresh bounded channels, and `new_sess` stores its input
sender under its token. Nothing replaces an entry's sender afterwards: `rebind`
and the output poller's `get_addr` keep it. `DeadSess(t)` deletes `t`'s entry,
but by `reapInv_reach` no session of `t` is live then.

* `ownInv_reach`: in every reachable world, the `i`-th emitted session reads
  input channel `i` and writes output channel `i`, and every live session's
  token has a `by_token` entry whose sender is that session's input channel;
* `live_owns_entry`: so `lookup(a)` reaches a live session's input exactly
  when `by_addr[a]` is its token, and the `poll` step's guard holds for every
  live session: its output poller can always run.
-/
namespace Geph4

structure OwnInv (s : St) : Prop where
  inputs : s.inputs.length = s.emitted.length
  outputs : s.outputs.length = s.emitted.length
  indexed : ∀ (i : Nat) sess, s.emitted[i]? = some sess → sess.cfg.recvPacket = i ∧ sess.cfg.sendPacket = i
  liveEmitted : ∀ sess ∈ s.live, sess ∈ s.emitted
  owns : ∀ sess ∈ s.live, ∃ e, s.table.byToken.lookup sess.token = some e ∧
    e.sessionSend = sess.cfg.recvPacket

/-- A change that keeps the channels' number, the emitted sessions, no new
live session, and the sender of every live session's entry. -/
theorem ownInv_frame {s s' : St} (hin : s'.inputs.length = s.inputs.length)
    (hout : s'.outputs.length = s.outputs.length) (he : s'.emitted = s.emitted) (hl : s'.live ⊆ s.live)
    (ht : ∀ sess ∈ s'.live, ∀ e, s.table.byToken.lookup sess.token = some e →
      ∃ e', s'.table.byToken.lookup sess.token = some e' ∧ e'.sessionSend = e.sessionSend)
    (hi : OwnInv s) : OwnInv s' := by
  refine ⟨by rw [hin, he, hi.inputs], by rw [hout, he, hi.outputs], fun i sess h => hi.indexed i sess (he ▸ h),
    fun sess h => he ▸ hi.liveEmitted sess (hl h), fun sess h => ?_⟩
  obtain ⟨e, he, hs⟩ := hi.owns sess (hl h)
  obtain ⟨e', he', hs'⟩ := ht sess h e he
  exact ⟨e', he', hs'.trans hs⟩

/-- A change that leaves the table alone. -/
theorem ownInv_of_table {s s' : St} (hin : s'.inputs.length = s.inputs.length)
    (hout : s'.outputs.length = s.outputs.length) (he : s'.emitted = s.emitted) (hl : s'.live ⊆ s.live)
    (ht : s'.table = s.table) (hi : OwnInv s) : OwnInv s' :=
  ownInv_frame hin hout he hl (fun _ _ e he' => ⟨e, ht ▸ he', rfl⟩) hi

theorem ownInv_newSession {s : St} {P : Params} {addr : Addr} {tok : Token} {sh : UInt8} {info : TokenInfo}
    (hi : OwnInv s) (hf : tok ∉ s.table.byToken) : OwnInv (s.newSession P addr tok sh info) := by
  refine ⟨by simp [St.newSession, hi.inputs], by simp [St.newSession, hi.outputs, hi.inputs], fun i sess h => ?_,
    fun sess h => ?_, fun sess h => ?_⟩
  · simp only [St.newSession, List.getElem?_append] at h
    split_ifs at h with hlt
    · exact hi.indexed i sess h
    · -- the one new session sits at index `emitted.length`
      obtain ⟨hb, rfl⟩ := List.getElem?_eq_some_iff.1 h
      simp only [List.length_singleton, List.getElem_singleton] at hb ⊢
      have e : i = s.emitted.length := by omega
      subst e
      exact ⟨hi.inputs, hi.outputs⟩
  · simp only [St.newSession, List.mem_append, List.mem_singleton] at h ⊢
    exact h.imp_left (hi.liveEmitted sess)
  · simp only [St.newSession, List.mem_append, List.mem_singleton] at h
    have hs : (((s.newSession P addr tok sh info).table.byToken.lookup sess.token).map SessEntry.sessionSend) =
        some sess.cfg.recvPacket := by
      rw [St.newSession_sender]
      rcases h with h | rfl
      · obtain ⟨e, he, hse⟩ := hi.owns sess h
        have hne : sess.token ≠ tok := fun et => hf (et ▸ AList.lookup_isSome.1 (by simp [he]))
        rw [if_neg hne, he, Option.map_some', hse]
      · rw [if_pos rfl]
    exact Option.map_eq_some'.1 hs

theorem ownInv_handleItem {P : Params} {c : Coins} {s s' : St} {buf : Bytes} {addr : Addr}
    (h : handleItem P c s buf addr = .ok s') (hi : OwnInv s) : OwnInv s' := by
  refine handleItem_keeps_frame OwnInv
    (fun x ch hi => ownInv_of_table (List.length_modify _ _ _) rfl rfl (fun _ => id) rfl hi)
    (fun _ _ _ _ _ hi => ⟨hi.inputs, hi.outputs, hi.indexed, hi.liveEmitted, hi.owns⟩) ?_ h hi
  intro s tok sh s' hi _ hr
  rcases onResume_ok hr with rfl | ⟨info, -, ⟨-, rfl⟩ | ⟨hf, -, rfl⟩⟩
  · exact hi
  · exact ownInv_frame (s := s) rfl rfl rfl (fun _ => id)
      (fun _ _ => SessionTable.senders_kept (SessionTable.lookup_rebind_sender s.table addr sh tok) _) hi
  · exact ownInv_newSession hi hf

theorem ownInv_step {P : Params} {adm : World → Int → Bytes → Prop} {w w' : World} (hs : Step P adm w w')
    (hr : ReapInv w.st) (hi : OwnInv w.st) : OwnInv w'.st := by
  cases hs with
  | item c _ _ hh => exact ownInv_handleItem hh hi
  | @dead tok rest _ hd =>
    refine ownInv_frame (s := w.st) rfl rfl rfl (fun _ => id) (fun sess hl e he => ⟨e, ?_, rfl⟩) hi
    have hne : sess.token ≠ tok := hr.token_ne (by rw [hd]; exact List.mem_cons_self _ _) hl
    simp only [handleDead, SessionTable.delete]
    split
    · exact he
    · exact (AList.lookup_erase_ne hne).trans he
  | drop =>
    exact ownInv_of_table (s := w.st) (List.length_modify _ _ _) rfl rfl (fun _ => List.mem_of_mem_erase) rfl hi
  | take => exact ownInv_of_table (s := w.st) (List.length_modify _ _ _) rfl rfl (fun _ => id) rfl hi
  | send => exact ownInv_of_table (s := w.st) rfl (List.length_modify _ _ _) rfl (fun _ => id) rfl hi
  | poll _ he =>
    exact ownInv_frame (s := w.st) rfl (List.length_modify _ _ _) rfl (fun _ => id)
      (fun _ _ => SessionTable.senders_kept (St.sender_pollOut he) _) hi
  | _ => exact ownInv_of_table (s := w.st) rfl rfl rfl (fun _ => id) rfl hi

theorem ownInv_reach {P : Params} {adm : World → Int → Bytes → Prop} {w : World} (h : Reach P adm w) :
    OwnInv w.st :=
  (Reach.inv (fun w => ReapInv w.st ∧ OwnInv w.st)
    (fun r => ⟨reapInv_reach (@Reach.init P adm r), rfl, rfl, fun _ _ h => by simp [World.init, St.init] at h,
      fun _ h => by simp [World.init, St.init] at h, fun _ h => by simp [World.init, St.init] at h⟩)
    (fun hs hi => ⟨reapInv_step hs hi.1, ownInv_step hs hi.1 hi.2⟩) h).2

/-- **Live sessions own their entries.** In every reachable world, the `i`-th
session emitted reads input channel `i` and writes output channel `i`; every
live session's token has a `by_token` entry whose sender is that session's
input channel; so a datagram from an address bound to a live session's token
is routed to that session, and the session's output poller can always run. -/
theorem live_owns_entry (P : Params) (w : World) (h : Reachable P w) :
    (∀ (i : Nat) sess, w.st.emitted[i]? = some sess → sess.cfg.recvPacket = i ∧ sess.cfg.sendPacket = i) ∧
    (∀ sess ∈ w.st.live, ∃ e, w.st.table.byToken.lookup sess.token = some e ∧
      e.sessionSend = sess.cfg.recvPacket) ∧
    (∀ sess ∈ w.st.live, ∀ a, w.st.table.byAddr.lookup a = some sess.token →
      w.st.table.lookup a = some sess.cfg.recvPacket) := by
  have hi := ownInv_reach h
  refine ⟨hi.indexed, hi.owns, fun sess hs a ha => ?_⟩
  obtain ⟨e, he, hse⟩ := hi.owns sess hs
  simp [SessionTable.lookup, ha, he, hse]

/-- Both sessions of `World.moved` are live and own their entries. -/
theorem live_owns_entry_moved :
    Reachable Params.plain World.moved ∧ World.moved.st.live.length = 2 ∧
      ∀ sess ∈ World.moved.st.live, ∃ e, World.moved.st.table.byToken.lookup sess.token = some e ∧
        e.sessionSend = sess.cfg.recvPacket :=
  ⟨moved_reachable, by decide, (live_owns_entry _ _ moved_reachable).2.1⟩

end Geph4
