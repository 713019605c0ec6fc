import Geph4.L4Run.World

/-!
# Where sessions come from (`listener.rs:181-346`, `359-382`)

The listener keeps no state for a `ClientHello`: it seals what a session needs
into the resume token (`TokenInfo` under `token_key`) and answers. Sessions are
born from a `ClientResume` whose token opens.

The AEAD is read symbolically: a ciphertext opens under `token_key` only if
`TokenInfo::encrypt` made it under that key, and `token_key` never leaves the
actor. So a sender can only present tokens the listener minted before
(`Sealed`, the admissibility of `item` steps here); it may replay them, from any
address, as often as it likes.

* `onHello_frame`: the `ClientHello` arm changes neither the table nor the
  sessions emitted, nor the live ones;
* `handleItem_touches`: a datagram that changes the table or the emitted
  sessions carries, under some candidate key, a `ClientResume` whose token
  opens under `token_key`;
* `provInv_reach`: in every run against such a sender, every emitted session
  has the version and the up/down keys of a `TokenInfo` the `ClientHello` arm
  minted, answering a hello of an accepted version whose `ServerHello` it sent;
* `listener_provenance`: the three together.
-/
namespace Geph4

/-- The sender only presents resume tokens the listener minted: any
`ClientResume` it sends whose token opens under `token_key` carries a minted
token. -/
def Sealed (P : Params) (w : World) (clock : Int) (buf : Bytes) : Prop :=
  ∀ tok sh, ResumeIn P clock buf tok sh → (TokenInfo.decrypt P.crypt P.tokenKey tok).isSome →
    tok ∈ w.st.minted.map Minted.token

/-- What the `ClientHello` arm computed for `m`: an accepted version, the
listener's triple-ECDH key for the hello's keys, a token sealing the info under
`token_key`, and a `ServerHello` with that token sent to the hello's source. -/
structure Minted.Wf (P : Params) (sent : List (Bytes × Addr)) (m : Minted) : Prop where
  version : VersionOk m.info.version
  sessKey : m.info.sessKey = P.crypt.tripleEcdh P.longSk m.mySk m.longPk m.ephPk
  sealed : ∃ n, m.token = TokenInfo.encrypt P.crypt m.info P.tokenKey n
  replied : ∃ k, (helloReply P k m, m.addr) ∈ sent

/-- A session built from `info` by `St.newSession`: its version and keys. -/
def SessionOf (P : Params) (info : TokenInfo) (sess : Session) : Prop :=
  sess.cfg.version = info.version ∧
  sess.cfg.recvCryptLegacy = P.crypt.keyedHash P.crypt.upKey info.sessKey ∧
  sess.cfg.recvCryptNg = P.crypt.keyedHash P.crypt.upKey info.sessKey ∧
  sess.cfg.sendCryptLegacy = P.crypt.keyedHash P.crypt.dnKey info.sessKey ∧
  sess.cfg.sendCryptNg = P.crypt.keyedHash P.crypt.dnKey info.sessKey

structure ProvInv (P : Params) (s : St) : Prop where
  minted : ∀ m ∈ s.minted, m.Wf P s.sent
  emitted : ∀ sess ∈ s.emitted, ∃ m ∈ s.minted, SessionOf P m.info sess ∧ sess.token = m.token

/-! ## The `ClientHello` arm keeps no session state -/

theorem onHello_frame {P : Params} {k : Key} {d : Draw} {addr : Addr} {lp ep : PubKey}
    {v : UInt64} {s : St} {r : Bool × St} (h : onHello P k d addr lp ep v s = .ok r) :
    r.2.table = s.table ∧ r.2.emitted = s.emitted ∧ r.2.live = s.live := by
  rcases onHello_ok h with rfl | ⟨-, -, hr⟩ <;> simp [*]

/-- A datagram that changes the table or the emitted sessions carries a
`ClientResume` whose token opens under `token_key`. -/
theorem handleItem_touches {P : Params} {c : Coins} {s s' : St} {buf : Bytes} {addr : Addr}
    (h : handleItem P c s buf addr = .ok s') :
    (s'.table = s.table ∧ s'.emitted = s.emitted) ∨
      ∃ tok sh, ResumeIn P c.clock buf tok sh ∧ (TokenInfo.decrypt P.crypt P.tokenKey tok).isSome := by
  refine handleItem_keeps_frame (fun x => (x.table = s.table ∧ x.emitted = s.emitted) ∨
      ∃ tok sh, ResumeIn P c.clock buf tok sh ∧ (TokenInfo.decrypt P.crypt P.tokenKey tok).isSome)
    (fun _ _ hi => hi) (fun _ _ _ _ _ hi => hi) ?_ h (.inl ⟨rfl, rfl⟩)
  intro x tok sh x' hi hin hr
  rcases onResume_ok hr with rfl | ⟨info, hdec, -⟩
  · exact hi
  · exact .inr ⟨tok, sh, hin, by simp [hdec]⟩

/-! ## The provenance invariant -/

theorem Minted.Wf.mono {P : Params} {sent sent' : List (Bytes × Addr)} {m : Minted}
    (h : m.Wf P sent) (hs : sent ⊆ sent') : m.Wf P sent' :=
  ⟨h.version, h.sessKey, h.sealed, let ⟨k, hk⟩ := h.replied; ⟨k, hs hk⟩⟩

theorem provInv_frame {P : Params} {s s' : St} (hm : s'.minted = s.minted) (he : s'.emitted = s.emitted)
    (hs : s.sent ⊆ s'.sent) (hi : ProvInv P s) : ProvInv P s' :=
  ⟨fun m h => (hi.minted m (hm ▸ h)).mono hs, fun sess h => by
    simpa only [hm] using hi.emitted sess (he ▸ h)⟩

theorem mintOf_wf (P : Params) (k : Key) (d : Draw) (addr : Addr) (lp ep : PubKey) (v : UInt64)
    (hv : VersionOk v) (sent : List (Bytes × Addr)) :
    (mintOf P d addr lp ep v).Wf P (sent ++ [(helloReply P k (mintOf P d addr lp ep v), addr)]) :=
  ⟨hv, rfl, ⟨d.nonce, rfl⟩, ⟨k, by simp [mintOf]⟩⟩

theorem provInv_onHello {P : Params} {k : Key} {d : Draw} {addr : Addr} {lp ep : PubKey}
    {v : UInt64} {s : St} {r : Bool × St} (h : onHello P k d addr lp ep v s = .ok r)
    (hi : ProvInv P s) : ProvInv P r.2 ∧ s.minted ⊆ r.2.minted := by
  rcases onHello_ok h with rfl | ⟨hv, -, hr⟩
  · exact ⟨hi, fun _ => id⟩
  · rw [hr]
    refine ⟨⟨fun m hm => ?_, fun sess hs => ?_⟩, fun m hm => List.mem_append_left _ hm⟩
    · rcases List.mem_append.1 hm with hm | hm
      · exact (hi.minted m hm).mono (List.subset_append_left _ _)
      · rw [List.mem_singleton.1 hm]; exact mintOf_wf P k d addr lp ep v hv s.sent
    · obtain ⟨m, hm, h⟩ := hi.emitted sess hs
      exact ⟨m, List.mem_append_left _ hm, h⟩

/-- A session built from a token that opens to `info`, where the token was
minted: `info` is what was minted. -/
theorem provInv_newSession {P : Params} (hC : P.crypt.Sound) {s : St} {addr : Addr} {tok : Token}
    {sh : UInt8} {info : TokenInfo} (hi : ProvInv P s)
    (hdec : TokenInfo.decrypt P.crypt P.tokenKey tok = some info) (hm : tok ∈ s.minted.map Minted.token) :
    ProvInv P (s.newSession P addr tok sh info) := by
  obtain ⟨m, hmem, rfl⟩ := List.mem_map.1 hm
  obtain ⟨n, hn⟩ := (hi.minted m hmem).sealed
  have hinfo : info = m.info := by
    rw [hn, TokenInfo.decrypt_encrypt hC] at hdec
    exact (Option.some.inj hdec).symm
  subst hinfo
  refine ⟨hi.minted, fun sess hs => ?_⟩
  rcases List.mem_append.1 hs with hs | hs
  · exact hi.emitted sess hs
  · rw [List.mem_singleton.1 hs]
    exact ⟨m, hmem, ⟨rfl, rfl, rfl, rfl, rfl⟩, rfl⟩

theorem provInv_handleItem {P : Params} (hC : P.crypt.Sound) {w : World} {c : Coins} {buf : Bytes}
    {addr : Addr} {s' : St} (hs : Sealed P w c.clock buf) (h : handleItem P c w.st buf addr = .ok s')
    (hi : ProvInv P w.st) : ProvInv P s' := by
  refine (handleItem_keeps (fun x => ProvInv P x ∧ w.st.minted ⊆ x.minted)
    (fun x _ hi => ⟨provInv_frame (s := x) rfl rfl (fun _ => id) hi.1, hi.2⟩)
    (fun x hi => ⟨provInv_frame (s := x) rfl rfl (fun _ => id) hi.1, hi.2⟩) ?_ ?_ h ⟨hi, fun _ => id⟩).1
  · intro s k d lp ep v r hi hh
    have := provInv_onHello hh hi.1
    exact ⟨this.1, hi.2.trans this.2⟩
  · intro s tok sh s' hi hin hr
    rcases onResume_ok hr with rfl | ⟨info, hdec, ⟨-, rfl⟩ | ⟨-, -, rfl⟩⟩
    · exact hi
    · exact ⟨provInv_frame (s := s) rfl rfl (fun _ => id) hi.1, hi.2⟩
    · have hm := hs tok sh hin (by simp [hdec])
      obtain ⟨m, hm, ht⟩ := List.mem_map.1 hm
      exact ⟨provInv_newSession hC hi.1 hdec (List.mem_map.2 ⟨m, hi.2 hm, ht⟩),
        hi.2.trans (fun _ => id)⟩

theorem provInv_step {P : Params} (hC : P.crypt.Sound) {w w' : World} (hs : Step P (Sealed P) w w')
    (hi : ProvInv P w.st) : ProvInv P w'.st := by
  cases hs with
  | item c _ ha hh => exact provInv_handleItem hC ha hh hi
  | poll => exact provInv_frame (s := w.st) rfl rfl (List.subset_append_left _ _) hi
  | _ => exact provInv_frame (s := w.st) rfl rfl (fun _ => id) hi

theorem provInv_reach {P : Params} (hC : P.crypt.Sound) {w : World} (h : Reach P (Sealed P) w) :
    ProvInv P w.st :=
  Reach.inv (fun w => ProvInv P w.st) (fun _ => ⟨by simp [World.init, St.init], by simp [World.init, St.init]⟩)
    (provInv_step hC) h

/-- **Provenance.** Against a sender that can only replay resume tokens the
listener minted: a datagram changes the table or the emitted sessions only
through a `ClientResume` whose token opens under `token_key`; the
`ClientHello` arm never does; and every emitted session carries the version
(1, 2 or 3) and the up/down keys of a `TokenInfo` whose session key the
listener computed by triple ECDH for a hello it accepted and answered with a
`ServerHello` earlier in the run. -/
theorem listener_provenance (P : Params) (hC : P.crypt.Sound) :
    (∀ c s buf addr s', handleItem P c s buf addr = .ok s' →
      (s'.table = s.table ∧ s'.emitted = s.emitted) ∨
      ∃ tok sh, ResumeIn P c.clock buf tok sh ∧ (TokenInfo.decrypt P.crypt P.tokenKey tok).isSome) ∧
    (∀ k d addr lp ep v s r, onHello P k d addr lp ep v s = .ok r →
      r.2.table = s.table ∧ r.2.emitted = s.emitted) ∧
    (∀ w, Reach P (Sealed P) w → ∀ sess ∈ w.st.emitted, ∃ m ∈ w.st.minted,
      VersionOk sess.cfg.version ∧ sess.token = m.token ∧
      m.info.sessKey = P.crypt.tripleEcdh P.longSk m.mySk m.longPk m.ephPk ∧
      SessionOf P m.info sess ∧ ∃ k, (helloReply P k m, m.addr) ∈ w.st.sent) := by
  refine ⟨fun c s buf addr s' h => handleItem_touches h,
    fun k d addr lp ep v s r h => ⟨(onHello_frame h).1, (onHello_frame h).2.1⟩,
    fun w hw sess hs => ?_⟩
  have hi := provInv_reach hC hw
  obtain ⟨m, hm, hof, ht⟩ := hi.emitted sess hs
  have hwf := hi.minted m hm
  exact ⟨m, hm, hof.1 ▸ hwf.version, ht, hwf.sessKey, hof, hwf.replied⟩

/-- Over the transparent crypto, a datagram carries a `ClientResume` only as
the bytes `1, s, t…`. -/
theorem resumeIn_plain {clock : Int} {buf tok : Bytes} {sh : UInt8} (h : ResumeIn Params.plain clock buf tok sh) :
    buf = 1 :: sh :: tok := by
  obtain ⟨key, -, hs, hd, hh⟩ := h
  simp only [Params.plain, Crypt.plain] at hd
  split at hd <;> cases hd <;> simp at hh
  obtain ⟨rfl, rfl⟩ := hh; rfl

/-- A version-1 hello from address 7 is answered; the echo of the token it
minted, a sealed datagram, opens the run's one session. -/
theorem provenance_plain :
    Params.plain.crypt.Sound ∧
    (∀ k d addr lp ep v s r, onHello Params.plain k d addr lp ep v s = .ok r →
      r.2.table = s.table ∧ r.2.emitted = s.emitted) ∧
    ∃ w, Reach Params.plain (Sealed Params.plain) w ∧ w.st.emitted.length = 1 ∧
      ∀ sess ∈ w.st.emitted, ∃ m ∈ w.st.minted,
        VersionOk sess.cfg.version ∧ sess.token = m.token ∧
        m.info.sessKey = Params.plain.crypt.tripleEcdh Params.plain.longSk m.mySk m.longPk m.ephPk ∧
        SessionOf Params.plain m.info sess ∧ ∃ k, (helloReply Params.plain k m, m.addr) ∈ w.st.sent := by
  have hp := listener_provenance Params.plain plain_sound
  have r₁ : Reach Params.plain (Sealed Params.plain) ((World.init []).feed Params.plain Coins.calm [2, 1] 7) :=
    (Reach.init []).feed rfl (fun _ _ h _ => absurd (resumeIn_plain h) (by simp)) (by exact rfl)
  have r₂ : Reach Params.plain (Sealed Params.plain)
      (((World.init []).feed Params.plain Coins.calm [2, 1] 7).feed Params.plain Coins.calm
        (1 :: 0 :: (mintOf Params.plain ⟨[], 0, 0⟩ 7 [] [] 1).token) 7) :=
    r₁.feed (by rfl) (fun _ _ h _ => by rw [← (List.cons.inj (List.cons.inj (resumeIn_plain h)).2).2]; decide)
      (by exact rfl)
  exact ⟨plain_sound, hp.2.1, _, r₂, by decide, hp.2.2 _ r₂⟩

end Geph4
