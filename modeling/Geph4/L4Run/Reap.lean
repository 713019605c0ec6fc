import Geph4.L4Run.World

/-!
# One live session per resume token (`listener.rs:144-148`, `234-337`)

A resume token `t` sits in three places: in `by_token` while the table knows it,
with the consumer while its session is live, and on the reap channel from the
session's drop until the actor takes `DeadSess(t)`. The balance (`ReapInv`):

  (live sessions of `t`) + (pending `DeadSess(t)`) = 1 if `t ∈ by_token`, else 0.

* `reapInv_reach`: every reachable world keeps it, whatever the order of
  datagrams, drops and reaps, and whatever the sender sends;
* `reap_balance`: the balance, and from it: at most one live session per token;
  no step from a world where `t` is live or pending reap emits a session of `t`
  (a `ClientResume` there only rebinds); and no token pending reap has a live
  session, so the `DeadSess(t)` the actor takes never deletes a live entry.
-/
namespace Geph4

/-- Live sessions of `t` plus pending `DeadSess(t)` messages. -/
def St.tokCount (s : St) (t : Token) : Nat := s.live.countP (fun x => x.token = t) + s.reap.count t

/-- Sessions of `t` ever emitted on `accepted`. -/
def St.emittedOf (s : St) (t : Token) : Nat := s.emitted.countP (fun x => x.token = t)

def ReapInv (s : St) : Prop := ∀ t, s.tokCount t = if t ∈ s.table.byToken then 1 else 0

/-! ## The balance, piece by piece -/

theorem reapInv_frame {s s' : St} (hl : s'.live = s.live) (hr : s'.reap = s.reap)
    (hk : ∀ t, t ∈ s'.table.byToken ↔ t ∈ s.table.byToken) (hi : ReapInv s) : ReapInv s' := by
  intro t
  simpa only [St.tokCount, hl, hr, hk] using hi t

theorem reapInv_newSession {s : St} {P : Params} {addr : Addr} {tok : Token} {sh : UInt8}
    {info : TokenInfo} (hi : ReapInv s) (hf : tok ∉ s.table.byToken) :
    ReapInv (s.newSession P addr tok sh info) := by
  intro t
  have ht := hi t
  simp only [St.tokCount, St.newSession, List.countP_append, SessionTable.mem_rebind,
    SessionTable.mem_newSess, List.countP_singleton] at ht ⊢
  by_cases e : t = tok
  · subst e
    rw [if_neg hf] at ht
    simp only [true_or, if_true, decide_True]
    omega
  · simpa [e, Ne.symm e] using ht

theorem reapInv_handleItem {P : Params} {c : Coins} {s s' : St} {buf : Bytes} {addr : Addr}
    (h : handleItem P c s buf addr = .ok s') (hi : ReapInv s) : ReapInv s' := by
  refine handleItem_keeps_frame ReapInv (fun _ _ hi => hi) (fun _ _ _ _ _ hi => hi) ?_ h hi
  intro s tok sh s' hi _ hr
  rcases onResume_ok hr with rfl | ⟨info, -, ⟨-, rfl⟩ | ⟨hf, -, rfl⟩⟩
  · exact hi
  · exact reapInv_frame (s := s) rfl rfl (fun _ => SessionTable.mem_rebind) hi
  · exact reapInv_newSession hi hf

/-- The token at the head of the reap channel is in the table, and only there. -/
theorem reapInv_dead {s : St} {tok : Token} {rest : List Token} (hr : s.reap = tok :: rest)
    (hi : ReapInv s) : ReapInv { handleDead tok s with reap := rest } := by
  have hk : tok ∈ s.table.byToken := by
    by_contra hn
    have := hi tok
    simp [St.tokCount, hr, hn] at this
  intro t
  have ht := hi t
  simp only [St.tokCount, handleDead, SessionTable.mem_delete, hr, List.count_cons] at ht ⊢
  by_cases e : t = tok
  · subst e
    rw [if_pos hk] at ht
    simp only [beq_self_eq_true, if_true] at ht
    simp only [ne_eq, not_true_eq_false, false_and, if_false]
    omega
  · simpa [e, Ne.symm e] using ht

theorem reapInv_drop {s : St} {sess : Session} (hm : sess ∈ s.live) (hi : ReapInv s) :
    ReapInv (s.dropSession sess) := by
  intro t
  have hp := (List.perm_cons_erase hm).countP_eq (fun x => decide (x.token = t))
  simp only [List.countP_cons] at hp
  have ht := hi t
  simp only [St.tokCount, St.dropSession, List.count_append, List.count_singleton] at ht ⊢
  by_cases e : sess.token = t <;> simp [e] at hp ⊢ <;> omega

theorem reapInv_pollOut {s : St} {sess : Session} {e : SessEntry} {data : Bytes}
    (he : s.table.byToken.lookup sess.token = some e) (hi : ReapInv s) : ReapInv (s.pollOut sess e data) := by
  refine reapInv_frame (s := s) rfl rfl (fun t => ?_) hi
  simp only [St.pollOut, AList.mem_insert, or_iff_right_iff_imp]
  rintro rfl; exact AList.lookup_isSome.1 (by simp [he])

/-- No live session has a token pending reap. -/
theorem ReapInv.not_live {s : St} (hi : ReapInv s) {t : Token} (ht : t ∈ s.reap) :
    s.live.countP (fun x => x.token = t) = 0 := by
  have := hi t
  have := List.count_pos_iff.2 ht
  unfold St.tokCount at *; split at * <;> omega

theorem ReapInv.token_ne {s : St} (hi : ReapInv s) {t : Token} (ht : t ∈ s.reap) {sess : Session}
    (hs : sess ∈ s.live) : sess.token ≠ t := fun e =>
  List.countP_eq_zero.1 (hi.not_live ht) sess hs (decide_eq_true e)

theorem reapInv_step {P : Params} {adm : World → Int → Bytes → Prop} {w w' : World} (hs : Step P adm w w')
    (hi : ReapInv w.st) : ReapInv w'.st := by
  cases hs with
  | item c _ _ hh => exact reapInv_handleItem hh hi
  | dead _ hr => exact reapInv_dead hr hi
  | drop hm => exact reapInv_drop hm hi
  | poll _ he => exact reapInv_pollOut he hi
  | _ => exact hi

theorem reapInv_reach {P : Params} {adm : World → Int → Bytes → Prop} {w : World} (h : Reach P adm w) :
    ReapInv w.st :=
  Reach.inv (fun w => ReapInv w.st)
    (fun _ _ => by simp [St.tokCount, World.init, St.init, AList.not_mem_empty]) reapInv_step h

/-! ## No second session for a token still live or pending reap -/

theorem emittedOf_newSession {s : St} {P : Params} {addr : Addr} {tok t : Token} {sh : UInt8}
    {info : TokenInfo} (e : tok ≠ t) : (s.newSession P addr tok sh info).emittedOf t = s.emittedOf t := by
  simp [St.emittedOf, St.newSession, e]

/-- While `t` is in the table, handling a datagram emits no session of `t`. -/
theorem emittedOf_handleItem {P : Params} {c : Coins} {s s' : St} {buf : Bytes} {addr : Addr}
    {t : Token} (h : handleItem P c s buf addr = .ok s') (hk : t ∈ s.table.byToken) :
    s'.emittedOf t = s.emittedOf t := by
  refine (handleItem_keeps_frame (fun x => t ∈ x.table.byToken ∧ x.emittedOf t = s.emittedOf t)
    (fun _ _ hi => hi) (fun _ _ _ _ _ hi => hi) ?_ h ⟨hk, rfl⟩).2
  intro s tok sh s' hi _ hr
  rcases onResume_ok hr with rfl | ⟨info, -, ⟨-, rfl⟩ | ⟨hf, -, rfl⟩⟩
  · exact hi
  · exact ⟨SessionTable.mem_rebind.2 hi.1, hi.2⟩
  · have e : tok ≠ t := fun e => hf (e ▸ hi.1)
    exact ⟨SessionTable.mem_rebind.2 (SessionTable.mem_newSess.2 (.inr hi.1)),
      (emittedOf_newSession e).trans hi.2⟩

theorem emittedOf_step {P : Params} {adm : World → Int → Bytes → Prop} {w w' : World} {t : Token}
    (hs : Step P adm w w') (hk : t ∈ w.st.table.byToken) : w'.st.emittedOf t = w.st.emittedOf t := by
  cases hs with
  | item c _ _ hh => exact emittedOf_handleItem hh hk
  | _ => rfl

/-- **Reap balance.** In every reachable world, for every token: live sessions
plus pending `DeadSess` messages count 1 exactly when the token is in
`by_token`; so at most one session per token is live, no step from a world
where the token is live or pending reap emits a session of it, and no token
pending reap has a live session. -/
theorem reap_balance (P : Params) (w : World) (h : Reachable P w) :
    (∀ t, w.st.live.countP (fun x => x.token = t) + w.st.reap.count t =
      if t ∈ w.st.table.byToken then 1 else 0) ∧
    (∀ t, w.st.live.countP (fun x => x.token = t) ≤ 1) ∧
    (∀ w' t, Step P (fun _ _ _ => True) w w' → 0 < w.st.tokCount t →
      w'.st.emittedOf t = w.st.emittedOf t) ∧
    (∀ t ∈ w.st.reap, w.st.live.countP (fun x => x.token = t) = 0) := by
  have hi := reapInv_reach h
  refine ⟨hi, fun t => ?_, fun w' t hs hp => emittedOf_step hs ?_, fun t ht => hi.not_live ht⟩
  · have := hi t; unfold St.tokCount at this; split at this <;> omega
  · by_contra hn; have := hi t; simp only [hn, if_false] at this; omega

/-- In `World.movedDropped`, `movedFrom`'s session is dropped and its
`DeadSess` pending: the token counts once, on the reap channel. -/
theorem reap_balance_moved :
    Reachable Params.plain World.movedDropped ∧ World.movedDropped.st.reap = [movedFrom] ∧
      movedFrom ∈ World.movedDropped.st.table.byToken ∧
      World.movedDropped.st.live.countP (fun x => x.token = movedFrom) + World.movedDropped.st.reap.count movedFrom =
        if movedFrom ∈ World.movedDropped.st.table.byToken then 1 else 0 :=
  ⟨movedDropped_reachable, by decide, by decide, (reap_balance _ _ movedDropped_reachable).1 movedFrom⟩

end Geph4
