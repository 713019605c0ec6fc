import Geph4.L4Run.World

/-!
# Where received datagrams go (`listener.rs:149-159`)

The only `try_send` into a session's input channel is the one on a `lookup`
hit; the handshake path only adds new, empty channels. A `bounded(1000)`
channel refuses a buffer when 1000 are queued or when its receiver is gone,
and `try_send`'s result is ignored, so a refused buffer is dropped.

* `handleItem_inputs`: one datagram appends to at most the `lookup` channel,
  exactly when that channel can take it, and otherwise only adds empty channels;
* `delivery_log`: in every reachable world, everything ever sent on input
  channel `ch` is, in order, exactly the handled datagrams whose source
  `lookup` mapped to `ch` when they were handled and that `ch` could take then.
  So each datagram goes into at most one channel, at most once, channels see
  their datagrams in receive order, and a datagram is dropped only when its
  channel was full or closed;
* `closed_channel_drops`: the "closed" case happens: after a session is dropped
  and before its token is reaped, datagrams from its address are dropped into
  an empty channel.
-/
namespace Geph4

/-- `r` was put into input channel `ch`. -/
def Rx.Hits (ch : ChanId) (r : Rx) : Bool := r.target == some ch && r.delivered

theorem trySend_hist (c : Chan) (b : Bytes) : (c.trySend b).hist = c.hist ++ if c.canSend then [b] else [] := by
  unfold Chan.trySend; split <;> simp [*]

/-- The state after grows the input channels of the state before by empty ones. -/
def InputsGrow (a b : St) : Prop := ∃ l : List Chan, (∀ x ∈ l, x.hist = []) ∧ b.inputs = a.inputs ++ l

theorem inputsGrow_refl (a : St) : InputsGrow a a := ⟨[], by simp, by simp⟩

theorem inputsGrow_trans {a b c : St} : InputsGrow a b → InputsGrow b c → InputsGrow a c := by
  rintro ⟨l₁, e₁, h₁⟩ ⟨l₂, e₂, h₂⟩
  refine ⟨l₁ ++ l₂, fun x hx => ?_, by rw [h₂, h₁, List.append_assoc]⟩
  rcases List.mem_append.1 hx with hx | hx
  exacts [e₁ x hx, e₂ x hx]

theorem inputsGrow_tryKey {P : Params} {k : Key} {d : Draw} {buf : Bytes} {addr : Addr} {key : Key}
    {s : St} {r : Bool × St} (h : tryKey P k d buf addr key s = .ok r) : InputsGrow s r.2 := by
  rcases tryKey_ok h with rfl | ⟨hs, -, -, hd⟩
  · exact inputsGrow_refl s
  rcases dispatch_ok hd with rfl | ⟨lp, ep, v, _, hh⟩ | ⟨tok, sh, _, _, hr⟩
  · exact inputsGrow_refl s
  · rcases onHello_ok hh with rfl | ⟨_, _, hr⟩
    · exact inputsGrow_refl s
    · rw [hr]; exact inputsGrow_refl s
  · rcases onResume_ok hr with hr | ⟨info, _, ⟨_, hr⟩ | ⟨_, _, hr⟩⟩ <;> rw [hr]
    · exact inputsGrow_refl s
    · exact inputsGrow_refl s
    · exact ⟨[Chan.empty], by simp [Chan.empty], rfl⟩

/-- The input channels after the `lookup` branch of `listener.rs:149-159` has
routed `buf` from `addr`: `try_send` into the channel `lookup` names, if any. -/
def St.route (s : St) (buf : Bytes) (addr : Addr) : List Chan :=
  match s.table.lookup addr with
  | some ch => s.inputs.modify (·.trySend buf) ch
  | none => s.inputs

theorem route_length (s : St) (buf : Bytes) (addr : Addr) : (s.route buf addr).length = s.inputs.length := by
  unfold St.route; split <;> simp

/-- Routing appends `buf` to channel `ch` exactly when its ghost record hits `ch`. -/
theorem route_hist (s : St) (clock : Int) (buf : Bytes) (addr : Addr) (ch : ChanId) :
    ((s.route buf addr)[ch]?).map Chan.hist =
      (s.inputs[ch]?).map (fun y => y.hist ++ if (s.rxOf clock buf addr).Hits ch then [buf] else []) := by
  unfold St.route St.rxOf
  cases s.table.lookup addr with
  | none => cases s.inputs[ch]? <;> simp [Rx.Hits]
  | some ch₀ =>
    simp only [List.getElem?_modify]
    by_cases e : ch₀ = ch
    · subst e
      simp only [if_true, Rx.Hits, beq_self_eq_true, Bool.true_and]
      cases s.inputs[ch₀]? <;> simp [trySend_hist]
    · cases s.inputs[ch]? <;> simp [e, Rx.Hits]

/-- **One datagram.** Handling `buf` from `addr` routes it (`St.route`), and
the handshake path may append new empty channels. -/
theorem handleItem_inputs {P : Params} {c : Coins} {s s' : St} {buf : Bytes} {addr : Addr}
    (h : handleItem P c s buf addr = .ok s') :
    ∃ l : List Chan, (∀ x ∈ l, x.hist = []) ∧ s'.inputs = s.route buf addr ++ l := by
  have hpath : ∀ s₁ : St, handshakePath P c buf addr s₁ = .ok s' → InputsGrow s₁ s' := by
    intro s₁ h
    unfold handshakePath at h
    split at h
    · cases h
    · exact keyLoop_rel InputsGrow inputsGrow_refl (fun _ _ _ => inputsGrow_trans)
        (fun _ _ _ _ _ ht => inputsGrow_tryKey ht) h
  unfold handleItem at h
  unfold St.route
  cases hl : s.table.lookup addr with
  | none => rw [hl] at h; exact hpath s h
  | some ch =>
    cases ht : c.throttled <;> simp only [hl, ht, if_true, if_false, Bool.false_eq_true] at h
    · exact hpath _ h
    · cases h; exact ⟨[], by simp, by simp [St.deliver]⟩

/-! ## The delivery log -/

/-- Every `by_token` entry's sender is an existing input channel. -/
def SendersIn (s : St) : Prop := ∀ t e, s.table.byToken.lookup t = some e → e.sessionSend < s.inputs.length

theorem lookup_lt {s : St} (h : SendersIn s) {a : Addr} {ch : ChanId} (hl : s.table.lookup a = some ch) :
    ch < s.inputs.length := by
  unfold SessionTable.lookup at hl
  split at hl
  · cases hl
  · obtain ⟨e, he, rfl⟩ := Option.map_eq_some'.1 hl
    exact h _ e he

/-- A datagram's record names a channel that exists. -/
theorem rxOf_target_lt {s : St} (h : SendersIn s) {clock : Int} {buf : Bytes} {addr : Addr} {ch : ChanId}
    (ht : (s.rxOf clock buf addr).target = some ch) : ch < s.inputs.length := by
  unfold St.rxOf at ht
  split at ht
  · cases ht
  · cases ht; exact lookup_lt h ‹_›

structure DelivInv (w : World) : Prop where
  senders : SendersIn w.st
  targets : ∀ r ∈ w.rx, ∀ ch, r.target = some ch → ch < w.st.inputs.length
  log : ∀ ch x, w.st.inputs[ch]? = some x → x.hist = (w.rx.filter (Rx.Hits ch)).map Rx.buf

theorem sendersIn_frame {s s' : St} (hl : s'.inputs.length = s.inputs.length)
    (ht : ∀ t e, s'.table.byToken.lookup t = some e → ∃ e', s.table.byToken.lookup t = some e' ∧
      e'.sessionSend = e.sessionSend) (hi : SendersIn s) : SendersIn s' := by
  intro t e he
  obtain ⟨e', he', hs⟩ := ht t e he
  rw [hl, ← hs]; exact hi t e' he'

theorem sendersIn_handleItem {P : Params} {c : Coins} {s s' : St} {buf : Bytes} {addr : Addr}
    (h : handleItem P c s buf addr = .ok s') (hi : SendersIn s) : SendersIn s' := by
  refine handleItem_keeps_frame (fun x => SendersIn x)
    (fun x _ hi => by simpa [SendersIn, St.deliver] using hi) (fun _ _ _ _ _ hi => hi) ?_ h hi
  intro s tok sh s' hi _ hr
  rcases onResume_ok hr with rfl | ⟨info, _, ⟨_, rfl⟩ | ⟨_, _, rfl⟩⟩
  · exact hi
  · exact sendersIn_frame (s := s) rfl
      (SessionTable.senders_kept fun t => (SessionTable.lookup_rebind_sender s.table addr sh tok t).symm) hi
  · intro t e he
    have hs := St.newSession_sender s P addr tok sh info t
    rw [he] at hs
    have hlen : (s.newSession P addr tok sh info).inputs.length = s.inputs.length + 1 := by
      simp [St.newSession]
    rw [hlen]
    split_ifs at hs
    · rw [← Option.some.inj hs]; exact Nat.lt_succ_self _
    · obtain ⟨e', he', hs⟩ := Option.map_eq_some'.1 hs.symm
      exact hs ▸ Nat.lt_succ_of_lt (hi t e' he')

/-- Changing a channel's `taken` or `closed` keeps its history. -/
theorem hist_modify {l : List Chan} {f : Chan → Chan} (hf : ∀ c, (f c).hist = c.hist) (n m : Nat) :
    ((l.modify f n)[m]?).map Chan.hist = (l[m]?).map Chan.hist := by
  rw [List.getElem?_modify]
  by_cases e : n = m <;> cases l[m]? <;> simp [e, hf]

theorem filter_hits_nil {rx : List Rx} {n ch : Nat} (h : ∀ r ∈ rx, ∀ ch', r.target = some ch' → ch' < n)
    (hn : n ≤ ch) : rx.filter (Rx.Hits ch) = [] := by
  rw [List.filter_eq_nil_iff]
  intro r hr hh
  simp only [Rx.Hits, Bool.and_eq_true, beq_iff_eq] at hh
  exact absurd (h r hr ch hh.1) (Nat.not_lt.2 hn)

theorem delivInv_frame {w w' : World} (hrx : w'.rx = w.rx) (hl : w'.st.inputs.length = w.st.inputs.length)
    (hh : ∀ ch : ChanId, (w'.st.inputs[ch]?).map Chan.hist = (w.st.inputs[ch]?).map Chan.hist)
    (hs : SendersIn w'.st) (hi : DelivInv w) : DelivInv w' := by
  refine ⟨hs, fun r hr ch ht => hl ▸ hi.targets r (hrx ▸ hr) ch ht, fun ch x hx => ?_⟩
  have := hh ch
  rw [hx] at this
  obtain ⟨y, hy, hxy⟩ := Option.map_eq_some'.1 this.symm
  rw [← hxy, hrx]; exact hi.log ch y hy

theorem delivInv_item {P : Params} {c : Coins} {w : World} {buf : Bytes} {addr : Addr}
    {rest : List (Bytes × Addr)} {st' : St} (h : handleItem P c w.st buf addr = .ok st')
    (hi : DelivInv w) : DelivInv ⟨st', rest, w.rx ++ [w.st.rxOf c.clock buf addr]⟩ := by
  obtain ⟨l, hl, he⟩ := handleItem_inputs h
  have hlen : w.st.inputs.length ≤ st'.inputs.length := by simp [he, route_length]
  -- every record, the new one included, names a channel that existed before
  have hold : ∀ r ∈ w.rx ++ [w.st.rxOf c.clock buf addr], ∀ ch, r.target = some ch → ch < w.st.inputs.length := by
    intro r hr ch ht
    rcases List.mem_append.1 hr with hr | hr
    · exact hi.targets r hr ch ht
    · exact rxOf_target_lt hi.senders (List.mem_singleton.1 hr ▸ ht)
  refine ⟨sendersIn_handleItem h hi.senders, fun r hr ch ht => Nat.lt_of_lt_of_le (hold r hr ch ht) hlen,
    fun ch x hx => ?_⟩
  by_cases hch : ch < w.st.inputs.length
  · have hr := route_hist w.st c.clock buf addr ch
    have hlt : ch < (w.st.route buf addr).length := by rwa [route_length]
    rw [he, List.getElem?_append_left hlt] at hx
    rw [hx] at hr
    obtain ⟨y, hy, hxy⟩ := Option.map_eq_some'.1 hr.symm
    rw [← hxy, hi.log ch y hy, List.filter_append, List.map_append]
    cases hh : (w.st.rxOf c.clock buf addr).Hits ch <;> simp [hh]
  · have hn : (w.st.route buf addr).length ≤ ch := by rw [route_length]; exact Nat.le_of_not_lt hch
    rw [he, List.getElem?_append_right hn] at hx
    rw [hl x (List.getElem?_mem hx), filter_hits_nil hold (Nat.not_lt.1 hch), List.map_nil]

/-- Steps that leave the table's senders, the channels' histories and the log
alone: everything but `item`, `dead` and `poll` changes at most `taken`,
`closed`, outputs or flags. -/
theorem delivInv_inputs {w w' : World} (hrx : w'.rx = w.rx) (ht : w'.st.table = w.st.table)
    (hl : w'.st.inputs.length = w.st.inputs.length)
    (hh : ∀ ch : ChanId, (w'.st.inputs[ch]?).map Chan.hist = (w.st.inputs[ch]?).map Chan.hist)
    (hi : DelivInv w) : DelivInv w' :=
  delivInv_frame hrx hl hh (sendersIn_frame hl (fun _ e he => ⟨e, ht ▸ he, rfl⟩) hi.senders) hi

theorem delivInv_table {w w' : World} (hrx : w'.rx = w.rx) (hin : w'.st.inputs = w.st.inputs)
    (ht : ∀ t e, w'.st.table.byToken.lookup t = some e → ∃ e', w.st.table.byToken.lookup t = some e' ∧
      e'.sessionSend = e.sessionSend) (hi : DelivInv w) : DelivInv w' :=
  delivInv_frame hrx (by rw [hin]) (by simp [hin]) (sendersIn_frame (by rw [hin]) ht hi.senders) hi

theorem delivInv_step {P : Params} {adm : World → Int → Bytes → Prop} {w w' : World} (hs : Step P adm w w')
    (hi : DelivInv w) : DelivInv w' := by
  cases hs with
  | item c _ _ hh => exact delivInv_item hh hi
  | dead =>
    exact delivInv_table (w := w) rfl rfl
      (fun _ e he => ⟨e, SessionTable.lookup_delete_some (t := w.st.table) he, rfl⟩) hi
  | drop =>
    exact delivInv_inputs (w := w) rfl rfl (List.length_modify _ _ _)
      (hist_modify (f := fun c => { c with closed := true }) (fun _ => rfl) _) hi
  | take ch =>
    refine delivInv_inputs (w := w) rfl rfl (List.length_modify _ _ _) (hist_modify (fun c => ?_) _) hi
    split <;> rfl
  | poll _ he =>
    exact delivInv_table (w := w) rfl rfl
      (SessionTable.senders_kept fun t => (St.sender_pollOut he t).symm) hi
  | _ => exact delivInv_inputs (w := w) rfl rfl rfl (fun _ => rfl) hi

theorem delivInv_reach {P : Params} {adm : World → Int → Bytes → Prop} {w : World} (h : Reach P adm w) :
    DelivInv w :=
  Reach.inv DelivInv (fun _ => ⟨fun _ _ he => by simp [World.init, St.init] at he, by simp [World.init],
    fun ch x hx => by simp [World.init, St.init] at hx⟩) delivInv_step h

/-- **Delivery log.** In every reachable world, the buffers ever put into input
channel `ch` are, in order, the handled datagrams whose source `lookup` mapped
to `ch` when they were handled and that `ch` could take then (open, fewer than
1000 queued); every record's channel exists. -/
theorem delivery_log (P : Params) (w : World) (h : Reachable P w) :
    (∀ ch x, w.st.inputs[ch]? = some x → x.hist = (w.rx.filter (Rx.Hits ch)).map Rx.buf) ∧
    (∀ r ∈ w.rx, ∀ ch, r.target = some ch → ch < w.st.inputs.length) :=
  ⟨(delivInv_reach h).log, (delivInv_reach h).targets⟩

/-- After `World.moved`, `[9]` from address 1 goes into channel 1, the
channel of `movedTo`'s session. -/
theorem delivery_log_moved :
    ∃ w, Reachable Params.plain w ∧ w.st.inputs[1]? = some ⟨[[9]], 0, false⟩ ∧
      ((∀ ch x, w.st.inputs[ch]? = some x → x.hist = (w.rx.filter (Rx.Hits ch)).map Rx.buf) ∧
      (∀ r ∈ w.rx, ∀ ch, r.target = some ch → ch < w.st.inputs.length)) :=
  have h : Reachable Params.plain (World.moved.feed Params.plain { Coins.calm with throttled := true } [9] 1) :=
    moved_reachable.feed (by rfl) trivial (by exact rfl)
  ⟨_, h, by decide, delivery_log _ _ h⟩

/-- A resume from address 1 opens a session on input channel 0; the session is
dropped; before `DeadSess` is taken, a datagram from address 1 is routed to
channel 0, which is closed and empty, and is dropped. -/
theorem closed_channel_drops :
    ∃ w, Reachable Params.plain w ∧ w.st.table.lookup 1 = some 0 ∧
      ⟨[9], 1, 0, some 0, false⟩ ∈ w.rx ∧ w.st.inputs[0]? = some ⟨[], 0, true⟩ := by
  let tok : Token := List.replicate 24 0
  let sess : Session := ⟨⟨0, 0, 3600, 128, [2], [1], [2], [1], 0⟩, tok⟩
  have r1 : Reachable Params.plain _ :=
    (Reach.init [] ).step (Step.recv [(1 :: 0 :: tok, 1)] rfl (by simp))
  have r2 := r1.step (Step.item ⟨false, 0, fun _ => ⟨[], 0, 0⟩⟩ rfl trivial rfl)
  have r3 := r2.step (Step.drop (show sess ∈ _ by decide))
  have r4 := r3.step (Step.recv [([9], 1)] rfl (by simp))
  have r5 := r4.step (Step.item ⟨true, 0, fun _ => ⟨[], 0, 0⟩⟩ rfl trivial rfl)
  exact ⟨_, r5, by decide, by decide, by decide⟩

end Geph4
