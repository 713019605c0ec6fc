import Geph4.L3Listener.Listener

/-!
# The handshake completes (`listener.rs:160-350`)

`Listener.lean` says what a datagram can do. Here: what it does when it is
what a client sends. The candidate-key loop does not `break` after a handled
`ClientHello` or `ClientResume`; it goes on with the next key. The recent
filter now holds the datagram, so every later key passes it over, and the
first key that opens the datagram decides it, as the spec's "stop at first
success" says.

* `keyLoop_first_open`: the loop computes the spec's first-success search
  (`firstOpen`), for every datagram, state and key sequence;
* `handleItem_replay`: a datagram the recent filter holds is delivered to its
  source's session, if any, and otherwise ignored: no arm runs again;
* `handshake_dropped`: a `ClientHello` of another version, a `ClientResume`
  whose token does not open, and any other first frame change nothing but the
  recent filter;
* `resume_opens_session`: a `ClientResume` from an address with no session,
  whose token opens under `token_key` and has no table entry, builds a session
  and binds the address to the session's input channel;
* `resume_rebinds_address`: one whose token has an entry binds the address to
  that entry's sender and changes nothing else but the recent filter;
* `handshake_completes`: a `ClientHello` of version 1, 2 or 3 is answered at
  its source, and a `ClientResume` that echoes the token of that answer builds
  the session from the `TokenInfo` the hello sealed: the triple-ECDH key of
  the hello's keys, and its version.
-/
namespace Geph4

/-! ## The candidate-key loop -/

section Loop

variable {P : Params} {s2cKey : Key} {c : Coins} {buf : Bytes} {addr : Addr}

theorem tryKey_seen {d : Draw} {key : Key} {s : St} (h : buf ∈ s.recent) :
    tryKey P s2cKey d buf addr key s = .ok (true, s) := by
  unfold tryKey recentCheck
  split
  · rfl
  · simp only [h, if_true]

theorem keyLoop_seen {s : St} (h : buf ∈ s.recent) :
    ∀ (i : Nat) (ks : List Key), keyLoop P s2cKey c buf addr i ks s = .ok s
  | _, [] => rfl
  | i, k :: ks => by simp only [keyLoop, tryKey_seen h, keyLoop_seen h (i + 1) ks]

theorem dispatch_recent {d : Draw} {hd : Option HandshakeFrame} {s : St} {r : Bool × St}
    (h : dispatch P s2cKey d addr hd s = .ok r) : r.2.recent = s.recent := by
  rcases dispatch_ok h with rfl | ⟨lp, ep, v, -, hh⟩ | ⟨tok, sh, -, -, hr⟩
  · rfl
  · rcases onHello_ok hh with rfl | ⟨-, -, e⟩
    · rfl
    · rw [e]
  · rcases onResume_ok hr with e | ⟨info, -, ⟨-, e⟩ | ⟨-, -, e⟩⟩ <;> simp only [e, St.newSession]

/-- The spec's side of the key loop, for `keyLoop_first_open` to compare the
code with: "for each candidate c2s key, attempt `pad_decrypt_v1`; stop at
first success", then "check `RecentFilter`; discard duplicates", then dispatch
on `handshake[0]` (§4.3). -/
def firstOpen (P : Params) (s2cKey : Key) (c : Coins) (buf : Bytes) (addr : Addr) :
    Nat → List Key → St → Except Stop St
  | _, [], s => .ok s
  | i, k :: ks, s =>
    match P.crypt.padDecryptV1 k buf with
    | none => firstOpen P s2cKey c buf addr (i + 1) ks s
    | some hs =>
      if buf ∈ s.recent then .ok s
      else (dispatch P s2cKey (c.draw i) addr hs.head? { s with recent := buf :: s.recent }).map Prod.snd

/-- **The loop refines the first-success search.** Running every candidate
key, as the code does, ends as stopping at the first key that opens the
datagram: a duplicate is discarded, and otherwise that key's arm decides the
result, an error included. -/
theorem keyLoop_first_open (P : Params) (s2cKey : Key) (c : Coins) (buf : Bytes) (addr : Addr) :
    ∀ (i : Nat) (ks : List Key) (s : St),
      keyLoop P s2cKey c buf addr i ks s = firstOpen P s2cKey c buf addr i ks s
  | _, [], _ => rfl
  | i, k :: ks, s => by
    simp only [keyLoop, firstOpen, tryKey, recentCheck]
    cases hk : P.crypt.padDecryptV1 k buf with
    | none => exact keyLoop_first_open P s2cKey c buf addr (i + 1) ks s
    | some hs =>
      by_cases hm : buf ∈ s.recent
      · simp only [hm, if_true]; exact keyLoop_seen hm _ _
      · simp only [hm, if_false]
        cases hd : dispatch P s2cKey (c.draw i) addr hs.head? { s with recent := buf :: s.recent } with
        | error e => rfl
        | ok r =>
          obtain ⟨b, s₁⟩ := r
          have hseen : buf ∈ s₁.recent := by rw [dispatch_recent hd]; exact List.mem_cons_self _ _
          cases b
          · rfl
          · exact keyLoop_seen hseen _ _

theorem keyLoop_opens {pre post : List Key} {key : Key} {hs : List HandshakeFrame} {i : Nat}
    {s : St} {r : Bool × St} (hpre : ∀ k ∈ pre, P.crypt.padDecryptV1 k buf = none)
    (hkey : P.crypt.padDecryptV1 key buf = some hs) (hfresh : buf ∉ s.recent)
    (hd : dispatch P s2cKey (c.draw (i + pre.length)) addr hs.head? { s with recent := buf :: s.recent } =
      .ok r) :
    keyLoop P s2cKey c buf addr i (pre ++ key :: post) s = .ok r.2 := by
  obtain ⟨b, s₁⟩ := r
  have hseen : buf ∈ s₁.recent := by rw [dispatch_recent hd]; exact List.mem_cons_self _ _
  rw [keyLoop_skip pre hpre]
  cases b <;> simp only [keyLoop, tryKey, hkey, recentCheck, hfresh, if_false, hd, keyLoop_seen hseen]

end Loop

/-! ## Replays -/

/-- **Replays reach no arm.** A datagram the recent filter holds is delivered
to its source's session, if there is one, and is otherwise ignored: a captured
`ClientResume` replayed from another address does not move the session, and a
replayed `ClientHello` gets no answer. -/
theorem handleItem_replay (P : Params) (c : Coins) (s : St) (buf : Bytes) (addr : Addr)
    (hs2c : P.cookie.generateS2c c.clock ≠ []) (hseen : buf ∈ s.recent) :
    handleItem P c s buf addr = .ok (match s.table.lookup addr with
      | some ch => s.deliver ch buf
      | none => s) := by
  obtain ⟨k, ks, hk⟩ := List.exists_cons_of_ne_nil hs2c
  -- `deliver` keeps the filter, so the whole key loop passes
  have hpath : ∀ s₁ : St, buf ∈ s₁.recent → handshakePath P c buf addr s₁ = .ok s₁ := fun s₁ h => by
    simp only [handshakePath, hk, keyLoop_seen h]
  cases hl : s.table.lookup addr with
  | none => simp only [handleItem, hl]; exact hpath s hseen
  | some ch =>
    simp only [handleItem, hl]
    split
    · rfl
    · exact hpath _ hseen

theorem replay_ignored_plain :
    handleItem Params.plain ⟨false, 0, fun _ => ⟨[], 0, 0⟩⟩ (St.init [[2, 1]]) [2, 1] 7 = .ok (St.init [[2, 1]]) :=
  handleItem_replay Params.plain ⟨false, 0, fun _ => ⟨[], 0, 0⟩⟩ (St.init [[2, 1]]) [2, 1] 7 (by decide)
    (List.mem_singleton_self _)

/-! ## A datagram a client sends -/

/-- The datagram `buf` from `addr` reaches the handshake path in state `s`:
its source has no session, `k` is the first s2c key, the `i`-th c2s key is the
first to open it, to the frames `hs`, and the recent filter has not seen it. -/
structure OpensAt (P : Params) (c : Coins) (s : St) (buf : Bytes) (addr : Addr) (k : Key) (i : Nat)
    (hs : List HandshakeFrame) : Prop where
  unbound : s.table.lookup addr = none
  s2c : ∃ ks, P.cookie.generateS2c c.clock = k :: ks
  c2s : ∃ pre key post, P.cookie.generateC2s c.clock = pre ++ key :: post ∧ pre.length = i ∧
    (∀ k' ∈ pre, P.crypt.padDecryptV1 k' buf = none) ∧ P.crypt.padDecryptV1 key buf = some hs
  fresh : buf ∉ s.recent

theorem OpensAt.after {P : Params} {c : Coins} {s s' : St} {buf x : Bytes} {addr : Addr} {k : Key}
    {i : Nat} {hs : List HandshakeFrame} (h : OpensAt P c s buf addr k i hs) (ht : s'.table = s.table)
    (hr : s'.recent = x :: s.recent) (hx : buf ≠ x) : OpensAt P c s' buf addr k i hs :=
  ⟨ht ▸ h.unbound, h.s2c, h.c2s, by rw [hr, List.mem_cons, not_or]; exact ⟨hx, h.fresh⟩⟩

theorem handleItem_opensAt {P : Params} {c : Coins} {s : St} {buf : Bytes} {addr : Addr} {k : Key}
    {i : Nat} {hs : List HandshakeFrame} {r : Bool × St} (h : OpensAt P c s buf addr k i hs)
    (hd : dispatch P k (c.draw i) addr hs.head? { s with recent := buf :: s.recent } = .ok r) :
    handleItem P c s buf addr = .ok r.2 := by
  obtain ⟨hu, ⟨ks, hk⟩, ⟨pre, key, post, hc, rfl, hpre, hkey⟩, hf⟩ := h
  simp only [handleItem, hu, handshakePath, hk, hc]
  exact keyLoop_opens hpre hkey hf (by rwa [Nat.zero_add])

theorem lookup_newSession (s : St) (P : Params) (addr : Addr) (tok : Token) (sh : UInt8)
    (info : TokenInfo) : (s.newSession P addr tok sh info).table.lookup addr = some s.inputs.length := by
  unfold St.newSession
  exact SessionTable.lookup_rebind_self (e := ⟨s.inputs.length, ShardedAddrs.new sh addr⟩)
    (AList.lookup_insert _)

theorem handleItem_resume_new {P : Params} {c : Coins} {s : St} {buf : Bytes} {addr : Addr} {k : Key}
    {i : Nat} {tok : Token} {sh : UInt8} {rest : List HandshakeFrame} {info : TokenInfo}
    (h : OpensAt P c s buf addr k i (.clientResume tok sh :: rest))
    (hdec : TokenInfo.decrypt P.crypt P.tokenKey tok = some info) (hnew : tok ∉ s.table.byToken)
    (hopen : s.acceptedClosed = false) :
    handleItem P c s buf addr = .ok ({ s with recent := buf :: s.recent }.newSession P addr tok sh info) := by
  refine handleItem_opensAt (r := (true, _)) h ?_
  simp only [dispatch, onResume, hdec, SessionTable.rebind_fst, hnew, hopen, decide_False, List.head?_cons]
  rfl

theorem handleItem_hello {P : Params} {c : Coins} {s : St} {buf : Bytes} {addr : Addr} {k : Key}
    {i : Nat} {lp ep : PubKey} {v : UInt64} {rest : List HandshakeFrame}
    (h : OpensAt P c s buf addr k i (.clientHello lp ep v :: rest)) (hv : VersionOk v)
    (hclock : 0 ≤ (c.draw i).nowMs) :
    handleItem P c s buf addr = .ok
      { s with
        recent := buf :: s.recent
        sent := s.sent ++ [(helloReply P k (mintOf P (c.draw i) addr lp ep v), addr)]
        origin := s.origin ++ [none]
        minted := s.minted ++ [mintOf P (c.draw i) addr lp ep v] } := by
  refine handleItem_opensAt (r := (true, _)) h ?_
  have hv' : (v != 1 && v != 2 && v != 3) = false := by rcases hv with rfl | rfl | rfl <;> rfl
  simp only [dispatch, onHello, hv', List.head?_cons, Bool.false_eq_true, if_false, not_lt.2 hclock]

/-! ## What the handshake path drops -/

/-- **Dropped handshakes.** A `ClientHello` of a version other than 1, 2 and
3 (`break`), a `ClientResume` whose token does not open under `token_key`, and
any other first frame (`continue`) change nothing but the recent filter: no
reply, no session, no binding. -/
theorem handshake_dropped (P : Params) (c : Coins) (s : St) (buf : Bytes) (addr : Addr) (k : Key)
    (i : Nat) (hs : List HandshakeFrame) (h : OpensAt P c s buf addr k i hs)
    (hdrop : (∃ lp ep v rest, hs = .clientHello lp ep v :: rest ∧ ¬VersionOk v) ∨
      (∃ tok sh rest, hs = .clientResume tok sh :: rest ∧ TokenInfo.decrypt P.crypt P.tokenKey tok = none) ∨
      (∃ lp ep tok rest, hs = .serverHello lp ep tok :: rest) ∨ (∃ n rest, hs = .other n :: rest)) :
    handleItem P c s buf addr = .ok { s with recent := buf :: s.recent } := by
  rcases hdrop with ⟨lp, ep, v, rest, rfl, hv⟩ | ⟨tok, sh, rest, rfl, hdec⟩ | ⟨lp, ep, tok, rest, rfl⟩ |
    ⟨n, rest, rfl⟩
  · refine handleItem_opensAt (r := (false, _)) h ?_
    have hv' : (v != 1 && v != 2 && v != 3) = true := by
      simpa [VersionOk, not_or, and_assoc] using hv
    simp only [dispatch, onHello, hv', List.head?_cons, if_true]
  · exact handleItem_opensAt (r := (true, _)) h (by simp only [dispatch, onResume, hdec, List.head?_cons]; rfl)
  · exact handleItem_opensAt (r := (true, _)) h rfl
  · exact handleItem_opensAt (r := (true, _)) h rfl

theorem hello_version_dropped_plain :
    handleItem Params.plain ⟨false, 0, fun _ => ⟨[], 0, 0⟩⟩ (St.init []) [2, 9] 7 = .ok (St.init [[2, 9]]) :=
  handshake_dropped Params.plain _ _ _ 7 [] 0 [.clientHello [] [] 9]
    ⟨rfl, ⟨[], rfl⟩, ⟨[], [], [], rfl, rfl, by simp, rfl⟩, List.not_mem_nil _⟩
    (.inl ⟨[], [], 9, [], rfl, by unfold VersionOk; decide⟩)

/-! ## What a client gets -/

/-- **A fresh `ClientResume` opens a session.** From an address with no
session, a datagram that the first c2s key to open it opens to a
`ClientResume` whose token opens under `token_key` and has no table entry
builds the session, and the address now reaches its input channel. -/
theorem resume_opens_session (P : Params) (c : Coins) (s : St) (buf : Bytes) (addr : Addr) (k : Key)
    (i : Nat) (tok : Token) (sh : UInt8) (rest : List HandshakeFrame) (info : TokenInfo)
    (h : OpensAt P c s buf addr k i (.clientResume tok sh :: rest))
    (hdec : TokenInfo.decrypt P.crypt P.tokenKey tok = some info) (hnew : tok ∉ s.table.byToken)
    (hopen : s.acceptedClosed = false) :
    handleItem P c s buf addr = .ok ({ s with recent := buf :: s.recent }.newSession P addr tok sh info) ∧
      ({ s with recent := buf :: s.recent }.newSession P addr tok sh info).table.lookup addr =
        some s.inputs.length :=
  ⟨handleItem_resume_new h hdec hnew hopen, lookup_newSession _ P addr tok sh info⟩

theorem resume_opens_plain :
    OpensAt Params.plain ⟨false, 0, fun _ => ⟨[], 0, 0⟩⟩ (St.init []) (1 :: 0 :: List.replicate 24 0) 7 [] 0
      [.clientResume (List.replicate 24 0) 0] ∧
    ((St.init [] : St).newSession Params.plain 7 (List.replicate 24 0) 0 ⟨[], 0, 0, by decide⟩).table.lookup 7 =
      some 0 :=
  have h : OpensAt Params.plain ⟨false, 0, fun _ => ⟨[], 0, 0⟩⟩ (St.init []) (1 :: 0 :: List.replicate 24 0) 7
      [] 0 [.clientResume (List.replicate 24 0) 0] :=
    ⟨rfl, ⟨[], rfl⟩, ⟨[], [], [], rfl, rfl, by simp, rfl⟩, List.not_mem_nil _⟩
  ⟨h, (resume_opens_session Params.plain _ _ _ 7 [] 0 _ 0 [] ⟨[], 0, 0, by decide⟩ h rfl
    (by simp [St.init]) rfl).2⟩

/-- **A `ClientResume` for a known token moves the client.** The address now
reaches the input channel of the token's session; nothing but the table and
the recent filter changes. -/
theorem resume_rebinds_address (P : Params) (c : Coins) (s : St) (buf : Bytes) (addr : Addr) (k : Key)
    (i : Nat) (tok : Token) (sh : UInt8) (rest : List HandshakeFrame) (e : SessEntry)
    (h : OpensAt P c s buf addr k i (.clientResume tok sh :: rest))
    (hdec : (TokenInfo.decrypt P.crypt P.tokenKey tok).isSome) (he : s.table.byToken.lookup tok = some e) :
    handleItem P c s buf addr = .ok { s with recent := buf :: s.recent, table := (s.table.rebind addr sh tok).2 } ∧
      (s.table.rebind addr sh tok).2.lookup addr = some e.sessionSend := by
  refine ⟨handleItem_opensAt (r := (true, _)) h ?_, SessionTable.lookup_rebind_self he⟩
  obtain ⟨info, hinfo⟩ := Option.isSome_iff_exists.1 hdec
  have hm : tok ∈ s.table.byToken := AList.lookup_isSome.1 (by simp [he])
  simp only [dispatch, onResume, hinfo, SessionTable.rebind_fst, hm, decide_True, if_true, List.head?_cons]
  rfl

theorem resume_rebinds_plain :
    ({ St.init [] with table := (∅ : SessionTable).newSess (List.replicate 24 0) 5 (ShardedAddrs.new 0 3) } :
      St).table.rebind 7 0 (List.replicate 24 0) |>.2.lookup 7 = some 5 :=
  (resume_rebinds_address Params.plain ⟨false, 0, fun _ => ⟨[], 0, 0⟩⟩
    { St.init [] with table := (∅ : SessionTable).newSess (List.replicate 24 0) 5 (ShardedAddrs.new 0 3) }
    (1 :: 0 :: List.replicate 24 0) 7 [] 0 _ 0 [] ⟨5, ShardedAddrs.new 0 3⟩
    ⟨rfl, ⟨[], rfl⟩, ⟨[], [], [], rfl, rfl, by simp, rfl⟩, List.not_mem_nil _⟩ rfl rfl).2

/-- **The handshake completes.** A `ClientHello` of version 1, 2 or 3 is
answered at its source with a `ServerHello` carrying a token. In any later
state, a `ClientResume` echoing that token, from an address with no session,
while the token has no entry and `accepted` is open, builds the session from
the `TokenInfo` the hello sealed (its triple-ECDH key and version), and that
address reaches the session's input channel. -/
theorem handshake_completes (P : Params) (hC : P.crypt.Sound) (c₁ c₂ : Coins) (s : St)
    (buf₁ buf₂ : Bytes) (addr₁ addr₂ : Addr) (k₁ k₂ : Key) (i₁ i₂ : Nat) (lp ep : PubKey) (v : UInt64)
    (sh : UInt8) (rest₁ rest₂ : List HandshakeFrame)
    (hello : OpensAt P c₁ s buf₁ addr₁ k₁ i₁ (.clientHello lp ep v :: rest₁)) (hv : VersionOk v)
    (hclock : 0 ≤ (c₁.draw i₁).nowMs) :
    ∃ s₁, handleItem P c₁ s buf₁ addr₁ = .ok s₁ ∧
      (helloReply P k₁ (mintOf P (c₁.draw i₁) addr₁ lp ep v), addr₁) ∈ s₁.sent ∧
      ∀ s', OpensAt P c₂ s' buf₂ addr₂ k₂ i₂ (.clientResume (mintOf P (c₁.draw i₁) addr₁ lp ep v).token sh :: rest₂) →
        (mintOf P (c₁.draw i₁) addr₁ lp ep v).token ∉ s'.table.byToken → s'.acceptedClosed = false →
        handleItem P c₂ s' buf₂ addr₂ = .ok ({ s' with recent := buf₂ :: s'.recent }.newSession P addr₂
          (mintOf P (c₁.draw i₁) addr₁ lp ep v).token sh (helloInfo P (c₁.draw i₁) lp ep v)) ∧
        ({ s' with recent := buf₂ :: s'.recent }.newSession P addr₂ (mintOf P (c₁.draw i₁) addr₁ lp ep v).token
          sh (helloInfo P (c₁.draw i₁) lp ep v)).table.lookup addr₂ = some s'.inputs.length := by
  have hdec : TokenInfo.decrypt P.crypt P.tokenKey (mintOf P (c₁.draw i₁) addr₁ lp ep v).token =
      some (helloInfo P (c₁.draw i₁) lp ep v) := TokenInfo.decrypt_encrypt hC _ _ _
  exact ⟨_, handleItem_hello hello hv hclock, List.mem_append_right _ (List.mem_singleton_self _),
    fun s' resume hnew hopen => ⟨handleItem_resume_new resume hdec hnew hopen, lookup_newSession _ P _ _ _ _⟩⟩

/-- A version-1 hello from address 7; address 1 then opens another session;
the echo of the hello's token from address 8 opens a second one. -/
theorem handshake_completes_plain :
    ∃ s₁ s' s₂, handleItem Params.plain ⟨false, 0, fun _ => ⟨[], 0, 0⟩⟩ (St.init []) [2, 1] 7 = .ok s₁ ∧
      handleItem Params.plain ⟨false, 0, fun _ => ⟨[], 0, 0⟩⟩ s₁ (1 :: 0 :: List.replicate 24 0) 1 = .ok s' ∧
      handleItem Params.plain ⟨false, 0, fun _ => ⟨[], 0, 0⟩⟩ s'
        (1 :: 0 :: (mintOf Params.plain ⟨[], 0, 0⟩ 7 [] [] 1).token) 8 = .ok s₂ ∧
      s₂.table.lookup 8 = some 1 := by
  let m := mintOf Params.plain ⟨[], 0, 0⟩ 7 [] [] 1
  let s₁ : St := { St.init [[2, 1]] with sent := [(helloReply Params.plain [] m, 7)], origin := [none],
                                          minted := [m] }
  let s' : St := { s₁ with recent := (1 :: 0 :: List.replicate 24 0) :: s₁.recent }.newSession Params.plain 1
    (List.replicate 24 0) 0 ⟨[], 0, 0, by decide⟩
  have hello : OpensAt Params.plain ⟨false, 0, fun _ => ⟨[], 0, 0⟩⟩ (St.init []) [2, 1] 7 [] 0
      [.clientHello [] [] 1] :=
    ⟨rfl, ⟨[], rfl⟩, ⟨[], [], [], rfl, rfl, by simp, rfl⟩, List.not_mem_nil _⟩
  obtain ⟨-, -, -, hres⟩ := handshake_completes Params.plain plain_sound _ ⟨false, 0, fun _ => ⟨[], 0, 0⟩⟩ _ _
    (1 :: 0 :: m.token) 7 8 [] [] 0 0 [] [] 1 0 [] [] hello (.inl rfl) le_rfl
  obtain ⟨h₂, hl⟩ := hres s' ⟨rfl, ⟨[], rfl⟩, ⟨[], [], [], rfl, rfl, by simp, rfl⟩, by decide⟩ (by decide) rfl
  exact ⟨s₁, s', _, rfl, rfl, h₂, hl⟩

end Geph4
