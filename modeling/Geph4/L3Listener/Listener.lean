import Geph4.L1Encoding.TokenInfo
import Geph4.L2Table.SessionTable

/-!
# The listener actor's datagram handler (`listener.rs:135-356`)

`ListenerActor::run` loops over two events: `DeadSess(token)` from the reap
channel, which deletes the token's table entry, and `NewRecv(items)` from the
backhaul, whose datagrams it handles one after another (`handleItem`):

1. `session_table.lookup(addr)`: on a hit, `try_send` the buffer into that
   session's input channel, and stop there when the fallthrough limiter refuses
   the address;
2. otherwise take the first s2c cookie key (`unwrap`) and try every c2s cookie
   key in turn (`keyLoop`, one pass is `tryKey`): decrypt the buffer into a
   `Vec<HandshakeFrame>`, skip it when `RECENT_FILTER` has seen it, and dispatch
   on `handshake[0]`:
   * `ClientHello` of version 1, 2 or 3: mint a resume token and reply with a
     `ServerHello` (`onHello`); any other version: `break`;
   * `ClientResume`: open the token under `token_key`, then either rebind the
     address (known token) or build a session, register it and emit it on
     `accepted` (`onResume`, `St.newSession`);
   * anything else: next key.

What the code reads from its environment is an argument: `Coins` holds the
limiter's verdict, the clock the cookie keys are derived at, and, per
candidate key, the draws of `thread_rng` and the clock read of the
`ClientHello` branch. `RECENT_FILTER` (`recfilter.rs`, not among the
repository's files) follows the spec: `check` is true exactly for a buffer not
seen before, and records it.

The state `St` holds the actor's own data (table, filter), the channels it
shares with its sessions and with the reap hooks, the datagrams sent on the
socket, and three ghosts that no branch reads: the sessions emitted, the
tokens minted, and the output channel each send came from.

Results here are one spec lemma per piece (`onHello_ok`, `onResume_ok`,
`tryKey_ok`) and the induction over the key loop, packaged once
(`keyLoop_rel`, `handleItem_rel`), which every run invariant uses.
-/
namespace Geph4

/-- What ends `run`: a panic, or `accepted.try_send(session).ok()?` on a closed
accepted channel. -/
inductive Stop where
  | panic
  | closed
  deriving DecidableEq, Repr

/-- `SessionConfig` as `listener.rs:302-322` fills it. -/
structure SessionConfig where
  sendPacket : ChanId
  recvPacket : ChanId
  recvTimeoutSecs : Nat
  statistics : Nat
  sendCryptLegacy : Key
  recvCryptLegacy : Key
  sendCryptNg : Key
  recvCryptNg : Key
  version : UInt64
  deriving DecidableEq, Repr

/-- A session the listener emits, and the resume token its `on_drop` hook
sends to the reap channel (`listener.rs:323-328`). -/
structure Session where
  cfg : SessionConfig
  token : Token
  deriving DecidableEq, Repr

/-- A `bounded(1000)` channel: everything ever sent on it, how much of that the
receiver has taken, and whether the receiver is gone. -/
structure Chan where
  hist : List Bytes
  taken : Nat
  closed : Bool
  deriving DecidableEq, Repr

namespace Chan

def empty : Chan := ⟨[], 0, false⟩

def canSend (c : Chan) : Bool := !c.closed && decide (c.hist.length - c.taken < 1000)

/-- `try_send(b)`; a full or closed channel drops `b`. -/
def trySend (c : Chan) (b : Bytes) : Chan := if c.canSend then { c with hist := c.hist ++ [b] } else c

end Chan

/-- Ghost record of a token the `ClientHello` branch minted: the hello it
answered, the ephemeral secret it drew, and the `TokenInfo` it sealed. -/
structure Minted where
  token : Token
  info : TokenInfo
  addr : Addr
  longPk : PubKey
  ephPk : PubKey
  mySk : Secret
  deriving DecidableEq, Repr

/-- The listener and what it shares: `session_table`, `RECENT_FILTER`, the
sessions' `session_input` and `session_output` channels by `ChanId`, the
sessions emitted and not yet dropped, whether `accepted`'s receiver is gone,
the `send_dead` queue (oldest first), and every `send_to(bytes, addr)` on the
socket. The ghosts: every session emitted, every token minted, and for each
send the output channel its packet came from (`none` for a `ServerHello`). -/
structure St where
  table : SessionTable
  recent : List Bytes
  inputs : List Chan
  outputs : List Chan
  live : List Session
  acceptedClosed : Bool
  reap : List Token
  sent : List (Bytes × Addr)
  emitted : List Session
  minted : List Minted
  origin : List (Option ChanId)

/-- The `ListenerActor` fields the loop reads (`cookie`, `long_sk`), the
`crypt.rs` functions, and the `token_key` that `run` draws when it starts. -/
structure Params where
  crypt : Crypt
  cookie : Cookie
  longSk : Secret
  tokenKey : Key

def Params.plain : Params := ⟨Crypt.plain, ⟨fun _ => [[]], fun _ => [[]]⟩, [], []⟩

/-- What one `ClientHello` branch draws and reads: the ephemeral secret
(`StaticSecret::new`), the nonce of `TokenInfo::encrypt`, and `SystemTime::now()`
in ms after the Unix epoch (negative: before it). -/
structure Draw where
  ephSk : Secret
  nonce : Nonce
  nowMs : Int

/-- What the environment decides while one datagram is handled: whether
`fallthrough_limiter.check_key(&addr)` refuses, the wall clock the cookie keys
are derived at, and the draws by the candidate key's place in the c2s
sequence. -/
structure Coins where
  throttled : Bool
  clock : Int
  draw : Nat → Draw

/-- Modelled from the spec (`recfilter.rs` is absent): `RECENT_FILTER.lock().check(buf)`
is true exactly when `buf` is not in the filter, and records it. -/
def recentCheck (r : List Bytes) (buf : Bytes) : Bool × List Bytes :=
  if buf ∈ r then (false, r) else (true, buf :: r)

namespace St

def init (recent : List Bytes) : St := ⟨∅, recent, [], [], [], false, [], [], [], [], []⟩

/-- `handle.try_send(buffer.clone())` into input channel `ch`. -/
def deliver (s : St) (ch : ChanId) (buf : Bytes) : St :=
  { s with inputs := s.inputs.modify (·.trySend buf) ch }

/-- `listener.rs:257-337`: derive the directional keys, make the channels, the
session and its `ShardedAddrs`, register it (`new_sess`, then `rebind`) and
emit it on `accepted`. -/
def newSession (s : St) (P : Params) (addr : Addr) (tok : Token) (shardId : UInt8)
    (info : TokenInfo) : St :=
  let upKey := P.crypt.keyedHash P.crypt.upKey info.sessKey
  let dnKey := P.crypt.keyedHash P.crypt.dnKey info.sessKey
  let sess : Session :=
    ⟨{ sendPacket := s.outputs.length, recvPacket := s.inputs.length, recvTimeoutSecs := 3600,
       statistics := 128, sendCryptLegacy := dnKey, recvCryptLegacy := upKey,
       sendCryptNg := dnKey, recvCryptNg := upKey, version := info.version }, tok⟩
  { s with
    table := ((s.table.newSess tok s.inputs.length (ShardedAddrs.new shardId addr)).rebind
      addr shardId tok).2
    inputs := s.inputs ++ [Chan.empty]
    outputs := s.outputs ++ [Chan.empty]
    live := s.live ++ [sess]
    emitted := s.emitted ++ [sess] }

theorem newSession_sender (s : St) (P : Params) (addr : Addr) (tok : Token) (sh : UInt8) (info : TokenInfo)
    (t : Token) : ((s.newSession P addr tok sh info).table.byToken.lookup t).map SessEntry.sessionSend =
      if t = tok then some s.inputs.length else (s.table.byToken.lookup t).map SessEntry.sessionSend := by
  simp only [newSession]
  rw [SessionTable.lookup_rebind_sender, SessionTable.lookup_newSess]
  split_ifs <;> rfl

end St

/-- The `TokenInfo` the `ClientHello` branch seals (`listener.rs:197-213`):
the triple-ECDH key, the clock in ms (`as u64`), the client's version. -/
def helloInfo (P : Params) (d : Draw) (longPk ephPk : PubKey) (version : UInt64) : TokenInfo :=
  ⟨P.crypt.tripleEcdh P.longSk d.ephSk longPk ephPk, UInt64.ofNat d.nowMs.toNat, version,
    by rw [P.crypt.tripleEcdh_length]; decide⟩

def mintOf (P : Params) (d : Draw) (addr : Addr) (longPk ephPk : PubKey) (version : UInt64) : Minted :=
  ⟨TokenInfo.encrypt P.crypt (helloInfo P d longPk ephPk version) P.tokenKey d.nonce,
    helloInfo P d longPk ephPk version, addr, longPk, ephPk, d.ephSk⟩

/-- The `ServerHello` reply carrying `m`'s token, sealed under the s2c key and
padded to 1000 bytes (`listener.rs:215-221`). -/
def helloReply (P : Params) (s2cKey : Key) (m : Minted) : Bytes :=
  P.crypt.padEncryptV1 s2cKey [.serverHello (P.crypt.pubOf P.longSk) (P.crypt.pubOf m.mySk) m.token] 1000

/-- The `ClientHello` arm, `listener.rs:181-233`: `(false, s)` is the `break`
on a version other than 1, 2, 3. -/
def onHello (P : Params) (s2cKey : Key) (d : Draw) (addr : Addr) (longPk ephPk : PubKey)
    (version : UInt64) (s : St) : Except Stop (Bool × St) :=
  if version != 1 && version != 2 && version != 3 then .ok (false, s)
  else if d.nowMs < 0 then .error .panic
  else
    let m := mintOf P d addr longPk ephPk version
    .ok (true, { s with sent := s.sent ++ [(helloReply P s2cKey m, addr)], origin := s.origin ++ [none],
                        minted := s.minted ++ [m] })

/-- The `ClientResume` arm, `listener.rs:234-346`. -/
def onResume (P : Params) (addr : Addr) (tok : Token) (shardId : UInt8) (s : St) : Except Stop St :=
  match TokenInfo.decrypt P.crypt P.tokenKey tok with
  | none => .ok s
  | some info =>
    if (s.table.rebind addr shardId tok).1 then .ok { s with table := (s.table.rebind addr shardId tok).2 }
    else if s.acceptedClosed then .error .closed
    else .ok (s.newSession P addr tok shardId info)

/-- `match handshake[0].clone()`, `listener.rs:180-348`: indexing an empty
vector panics. -/
def dispatch (P : Params) (s2cKey : Key) (d : Draw) (addr : Addr) (head : Option HandshakeFrame)
    (s : St) : Except Stop (Bool × St) :=
  match head with
  | none => .error .panic
  | some (.clientHello longPk ephPk version) => onHello P s2cKey d addr longPk ephPk version s
  | some (.clientResume tok shardId) => (onResume P addr tok shardId s).map (true, ·)
  | some _ => .ok (true, s)

/-- One pass of the candidate-key loop, `listener.rs:163-349`: `(true, s)` goes
on to the next key, `(false, s)` is `break`. -/
def tryKey (P : Params) (s2cKey : Key) (d : Draw) (buf : Bytes) (addr : Addr) (key : Key)
    (s : St) : Except Stop (Bool × St) :=
  match P.crypt.padDecryptV1 key buf with
  | none => .ok (true, s)
  | some handshake =>
    match recentCheck s.recent buf with
    | (false, _) => .ok (true, s)
    | (true, recent) => dispatch P s2cKey d addr handshake.head? { s with recent }

/-- `for possible_key in self.cookie.generate_c2s()`; `i` is the key's place. -/
def keyLoop (P : Params) (s2cKey : Key) (c : Coins) (buf : Bytes) (addr : Addr) :
    Nat → List Key → St → Except Stop St
  | _, [], s => .ok s
  | i, k :: ks, s =>
    match tryKey P s2cKey (c.draw i) buf addr k s with
    | .error e => .error e
    | .ok (false, s') => .ok s'
    | .ok (true, s') => keyLoop P s2cKey c buf addr (i + 1) ks s'

/-- The handshake path of a datagram, `listener.rs:160-350`: the first s2c
key (`unwrap`), then the loop over the c2s keys. -/
def handshakePath (P : Params) (c : Coins) (buf : Bytes) (addr : Addr) (s : St) : Except Stop St :=
  match P.cookie.generateS2c c.clock with
  | [] => .error .panic
  | s2cKey :: _ => keyLoop P s2cKey c buf addr 0 (P.cookie.generateC2s c.clock) s

/-- One datagram of a `NewRecv` batch, `listener.rs:151-350`. -/
def handleItem (P : Params) (c : Coins) (s : St) (buf : Bytes) (addr : Addr) : Except Stop St :=
  match s.table.lookup addr with
  | some ch => if c.throttled then .ok (s.deliver ch buf) else handshakePath P c buf addr (s.deliver ch buf)
  | none => handshakePath P c buf addr s

/-- A `DeadSess(resume_token)` event, `listener.rs:145-148`. -/
def handleDead (tok : Token) (s : St) : St := { s with table := s.table.delete tok }

/-! ## One spec lemma per piece -/

def VersionOk (v : UInt64) : Prop := v = 1 ∨ v = 2 ∨ v = 3

theorem versionOk_of_guard {v : UInt64} (h : ¬(v != 1 && v != 2 && v != 3) = true) : VersionOk v := by
  simp only [Bool.and_eq_true, bne_iff_ne, ne_eq, not_and, not_not] at h
  unfold VersionOk; tauto

theorem onHello_ok {P : Params} {k : Key} {d : Draw} {addr : Addr} {lp ep : PubKey} {v : UInt64}
    {s : St} {r : Bool × St} (h : onHello P k d addr lp ep v s = .ok r) :
    r = (false, s) ∨ VersionOk v ∧ r.1 = true ∧
      r.2 = { s with sent := s.sent ++ [(helloReply P k (mintOf P d addr lp ep v), addr)],
                     origin := s.origin ++ [none], minted := s.minted ++ [mintOf P d addr lp ep v] } := by
  unfold onHello at h
  split at h
  · exact .inl (Except.ok.inj h).symm
  · rename_i hv
    split at h
    · cases h
    · cases h
      exact .inr ⟨versionOk_of_guard hv, rfl, rfl⟩

theorem onResume_ok {P : Params} {addr : Addr} {tok : Token} {sh : UInt8} {s s' : St}
    (h : onResume P addr tok sh s = .ok s') :
    s' = s ∨ ∃ info, TokenInfo.decrypt P.crypt P.tokenKey tok = some info ∧
      ((tok ∈ s.table.byToken ∧ s' = { s with table := (s.table.rebind addr sh tok).2 }) ∨
       (tok ∉ s.table.byToken ∧ s.acceptedClosed = false ∧ s' = s.newSession P addr tok sh info)) := by
  unfold onResume at h
  split at h
  · exact .inl (Except.ok.inj h).symm
  · rename_i info hd
    refine .inr ⟨info, hd, ?_⟩
    rw [SessionTable.rebind_fst] at h
    split at h
    · rename_i hm
      exact .inl ⟨of_decide_eq_true hm, (Except.ok.inj h).symm⟩
    · rename_i hm
      split at h
      · cases h
      · rename_i hc
        exact .inr ⟨of_decide_eq_false (by simpa using hm), by simpa using hc, (Except.ok.inj h).symm⟩

theorem dispatch_ok {P : Params} {k : Key} {d : Draw} {addr : Addr} {head : Option HandshakeFrame}
    {s : St} {r : Bool × St} (h : dispatch P k d addr head s = .ok r) :
    r = (true, s) ∨ (∃ lp ep v, head = some (.clientHello lp ep v) ∧ onHello P k d addr lp ep v s = .ok r) ∨
      ∃ tok sh, head = some (.clientResume tok sh) ∧ r.1 = true ∧ onResume P addr tok sh s = .ok r.2 := by
  unfold dispatch at h
  split at h
  · cases h
  · exact .inr (.inl ⟨_, _, _, rfl, h⟩)
  · rename_i tok sh
    cases hr : onResume P addr tok sh s <;> rw [hr] at h <;> cases h
    exact .inr (.inr ⟨tok, sh, rfl, rfl, hr⟩)
  · exact .inl (Except.ok.inj h).symm

theorem tryKey_ok {P : Params} {k : Key} {d : Draw} {buf : Bytes} {addr : Addr} {key : Key}
    {s : St} {r : Bool × St} (h : tryKey P k d buf addr key s = .ok r) :
    r = (true, s) ∨ ∃ hs, P.crypt.padDecryptV1 key buf = some hs ∧ buf ∉ s.recent ∧
      dispatch P k d addr hs.head? { s with recent := buf :: s.recent } = .ok r := by
  unfold tryKey recentCheck at h
  split at h
  · exact .inl (Except.ok.inj h).symm
  · rename_i hs hd
    by_cases hm : buf ∈ s.recent
    · simp only [hm, if_true] at h
      exact .inl (Except.ok.inj h).symm
    · simp only [hm, if_false] at h
      exact .inr ⟨hs, hd, hm, h⟩

/-! ## The key loop and the datagram handler, packaged once -/

section Loop

variable {P : Params} {s2cKey : Key} {c : Coins} {buf : Bytes} {addr : Addr}

theorem keyLoop_rel (R : St → St → Prop) (hrefl : ∀ s, R s s)
    (htrans : ∀ a b c, R a b → R b c → R a c) {ks : List Key}
    (hstep : ∀ i k s r, k ∈ ks → tryKey P s2cKey (c.draw i) buf addr k s = .ok r → R s r.2) :
    ∀ {i s s'}, keyLoop P s2cKey c buf addr i ks s = .ok s' → R s s' := by
  induction ks with
  | nil => intro i s s' h; cases h; exact hrefl s
  | cons k ks ih =>
    intro i s s' h
    have hk := fun r => hstep i k s r (List.mem_cons_self k ks)
    simp only [keyLoop] at h
    split at h
    · cases h
    · next s₁ ht => cases h; exact hk _ ht
    · next s₁ ht =>
      exact htrans _ _ _ (hk _ ht)
        (ih (fun i k s r hm => hstep i k s r (List.mem_cons_of_mem _ hm)) h)

theorem handleItem_rel (R : St → St → Prop) (hrefl : ∀ s, R s s)
    (htrans : ∀ a b c, R a b → R b c → R a c) (hdel : ∀ s ch, R s (s.deliver ch buf))
    (hstep : ∀ k i key s r, key ∈ P.cookie.generateC2s c.clock →
      tryKey P k (c.draw i) buf addr key s = .ok r → R s r.2)
    {s s' : St} (h : handleItem P c s buf addr = .ok s') : R s s' := by
  have hpath : ∀ {s₁}, R s s₁ → handshakePath P c buf addr s₁ = .ok s' → R s s' := by
    intro s₁ h₁ h
    unfold handshakePath at h
    split at h
    · cases h
    · exact htrans _ _ _ h₁ (keyLoop_rel R hrefl htrans (hstep _) h)
  unfold handleItem at h
  split at h
  · next ch _ =>
    split at h
    · cases h; exact hdel s ch
    · exact hpath (hdel s ch) h
  · exact hpath (hrefl s) h

/-- A c2s key of the cookie at `clock` opens `buf` to frames headed by
`ClientResume(tok, sh)`. -/
def ResumeIn (P : Params) (clock : Int) (buf : Bytes) (tok : Token) (sh : UInt8) : Prop :=
  ∃ key ∈ P.cookie.generateC2s clock, ∃ hs, P.crypt.padDecryptV1 key buf = some hs ∧
    hs.head? = some (.clientResume tok sh)

/-- A property of states that the `try_send`, the recent filter and both
handshake arms keep is kept by `handleItem`. -/
theorem handleItem_keeps (I : St → Prop) (hdel : ∀ s ch, I s → I (s.deliver ch buf))
    (hseen : ∀ s, I s → I { s with recent := buf :: s.recent })
    (hhello : ∀ s k d lp ep v r, I s → onHello P k d addr lp ep v s = .ok r → I r.2)
    (hres : ∀ s tok sh s', I s → ResumeIn P c.clock buf tok sh → onResume P addr tok sh s = .ok s' → I s')
    {s s' : St} (h : handleItem P c s buf addr = .ok s') : I s → I s' := by
  refine handleItem_rel (fun a b => I a → I b) (fun _ => id) (fun _ _ _ f g x => g (f x))
    hdel (fun k i key s r hk ht hi => ?_) h
  rcases tryKey_ok ht with rfl | ⟨hs, hd, -, hdis⟩
  · exact hi
  · rcases dispatch_ok hdis with rfl | ⟨lp, ep, v, -, hh⟩ | ⟨tok, sh, hhd, -, hr⟩
    · exact hseen s hi
    · exact hhello _ _ _ _ _ _ _ (hseen s hi) hh
    · exact hres _ _ _ _ (hseen s hi) ⟨key, hk, hs, hd, hhd⟩ hr

/-- An invariant that does not read the recent filter, the sends or the
tokens minted is kept by `handleItem` when the `try_send` and the
`ClientResume` arm keep it: the filter and the `ClientHello` arm change only
those. -/
theorem handleItem_keeps_frame (I : St → Prop) (hdel : ∀ s ch, I s → I (s.deliver ch buf))
    (hframe : ∀ s recent sent origin minted, I s → I { s with recent, sent, origin, minted })
    (hres : ∀ s tok sh s', I s → ResumeIn P c.clock buf tok sh → onResume P addr tok sh s = .ok s' → I s')
    {s s' : St} (h : handleItem P c s buf addr = .ok s') : I s → I s' := by
  refine handleItem_keeps I hdel (fun s => hframe s _ s.sent s.origin s.minted)
    (fun s k d lp ep v r hi hh => ?_) hres h
  rcases onHello_ok hh with rfl | ⟨-, -, hr⟩
  · exact hi
  · rw [hr]; exact hframe s s.recent _ _ _ hi

theorem keyLoop_skip (pre : List Key) (hpre : ∀ k ∈ pre, P.crypt.padDecryptV1 k buf = none)
    (i : Nat) (ks : List Key) (s : St) :
    keyLoop P s2cKey c buf addr i (pre ++ ks) s = keyLoop P s2cKey c buf addr (i + pre.length) ks s := by
  induction pre generalizing i with
  | nil => rfl
  | cons k pre ih =>
    have hk : P.crypt.padDecryptV1 k buf = none := hpre k (List.mem_cons_self k pre)
    simp only [List.cons_append, keyLoop, tryKey, hk, List.append_eq]
    rw [ih (fun k hk => hpre k (List.mem_cons_of_mem _ hk)), List.length_cons, Nat.add_assoc,
      Nat.add_comm 1]

/-! ## Where the handler stops the loop -/

/-- **An authenticated empty handshake panics the listener.** A datagram that
reaches the handshake path (its source has no session, or the limiter lets it
through), not seen before, and whose first c2s key to open it yields an empty
frame list makes `handshake[0]` index an empty vector (`listener.rs:180`). -/
theorem handleItem_empty_handshake_panics (P : Params) (c : Coins) (s : St) (buf : Bytes) (addr : Addr)
    (hpass : s.table.lookup addr = none ∨ c.throttled = false)
    (hs2c : P.cookie.generateS2c c.clock ≠ []) (pre post : List Key) (key : Key)
    (hc2s : P.cookie.generateC2s c.clock = pre ++ key :: post)
    (hpre : ∀ k ∈ pre, P.crypt.padDecryptV1 k buf = none)
    (hkey : P.crypt.padDecryptV1 key buf = some []) (hfresh : buf ∉ s.recent) :
    handleItem P c s buf addr = .error .panic := by
  have hpath : ∀ s₁ : St, s₁.recent = s.recent → handshakePath P c buf addr s₁ = .error .panic := by
    intro s₁ hr
    obtain ⟨k0, ks, hk0⟩ := List.exists_cons_of_ne_nil hs2c
    simp only [handshakePath, hk0, hc2s, keyLoop_skip pre hpre, keyLoop, tryKey, hkey, recentCheck,
      hr, hfresh, if_false, List.head?_nil, dispatch]
  unfold handleItem
  split
  · next ch hl =>
    have ht : c.throttled = false := hpass.resolve_left (by simp [hl])
    simp only [ht, Bool.false_eq_true, if_false]
    exact hpath _ rfl
  · exact hpath s rfl

theorem empty_handshake_plain :
    (St.init []).table.lookup 7 = none ∧ Params.plain.crypt.padDecryptV1 [] [0] = some [] ∧
      handleItem Params.plain ⟨false, 0, fun _ => ⟨[], 0, 0⟩⟩ (St.init []) [0] 7 = .error .panic :=
  ⟨rfl, rfl, handleItem_empty_handshake_panics Params.plain ⟨false, 0, fun _ => ⟨[], 0, 0⟩⟩
    (St.init []) [0] 7 (.inl rfl) (by decide) [] [] [] rfl (by simp) rfl (by simp [St.init])⟩

theorem onHello_error {P : Params} {k : Key} {d : Draw} {addr : Addr} {lp ep : PubKey} {v : UInt64}
    {s : St} {e : Stop} (h : onHello P k d addr lp ep v s = .error e) :
    e = .panic ∧ VersionOk v ∧ d.nowMs < 0 := by
  unfold onHello at h
  split at h
  · cases h
  · rename_i hv
    split at h
    · cases h; exact ⟨rfl, versionOk_of_guard hv, ‹_›⟩
    · cases h

theorem onResume_error {P : Params} {addr : Addr} {tok : Token} {sh : UInt8} {s : St} {e : Stop}
    (h : onResume P addr tok sh s = .error e) :
    e = .closed ∧ s.acceptedClosed = true ∧ (TokenInfo.decrypt P.crypt P.tokenKey tok).isSome := by
  unfold onResume at h
  split at h
  · cases h
  · rename_i hd
    split at h
    · cases h
    · split at h
      · cases h; exact ⟨rfl, ‹_›, by simp [hd]⟩
      · cases h

theorem dispatch_error {P : Params} {k : Key} {d : Draw} {addr : Addr} {head : Option HandshakeFrame}
    {s : St} {e : Stop} (h : dispatch P k d addr head s = .error e) :
    (e = .panic ∧ head = none) ∨
      (e = .panic ∧ ∃ lp ep v, head = some (.clientHello lp ep v) ∧ VersionOk v ∧ d.nowMs < 0) ∨
      (e = .closed ∧ s.acceptedClosed = true ∧ ∃ tok sh, head = some (.clientResume tok sh) ∧
        (TokenInfo.decrypt P.crypt P.tokenKey tok).isSome) := by
  unfold dispatch at h
  split at h
  · cases h; exact .inl ⟨rfl, rfl⟩
  · obtain ⟨he, hv, hlt⟩ := onHello_error h
    exact .inr (.inl ⟨he, _, _, _, rfl, hv, hlt⟩)
  · rename_i tok sh
    cases hr : onResume P addr tok sh s <;> rw [hr] at h <;> cases h
    obtain ⟨he, hc, hd⟩ := onResume_error hr
    exact .inr (.inr ⟨he, hc, tok, sh, rfl, hd⟩)
  · cases h

theorem tryKey_error {P : Params} {k : Key} {d : Draw} {buf : Bytes} {addr : Addr} {key : Key}
    {s : St} {e : Stop} (h : tryKey P k d buf addr key s = .error e) :
    ∃ hs, P.crypt.padDecryptV1 key buf = some hs ∧
      dispatch P k d addr hs.head? { s with recent := buf :: s.recent } = .error e := by
  unfold tryKey recentCheck at h
  split at h
  · cases h
  · rename_i hs hd
    by_cases hm : buf ∈ s.recent
    · simp only [hm, if_true] at h; cases h
    · simp only [hm, if_false] at h; exact ⟨hs, hd, h⟩

theorem tryKey_acceptedClosed {P : Params} {k : Key} {d : Draw} {buf : Bytes} {addr : Addr} {key : Key}
    {s : St} {r : Bool × St} (h : tryKey P k d buf addr key s = .ok r) :
    r.2.acceptedClosed = s.acceptedClosed := by
  rcases tryKey_ok h with rfl | ⟨hs, -, -, hd⟩
  · rfl
  rcases dispatch_ok hd with rfl | ⟨lp, ep, v, _, hh⟩ | ⟨tok, sh, _, _, hr⟩
  · rfl
  · rcases onHello_ok hh with rfl | ⟨_, _, hr⟩ <;> simp [*]
  · rcases onResume_ok hr with hr | ⟨info, _, ⟨_, hr⟩ | ⟨_, _, hr⟩⟩ <;> simp [hr, St.newSession]

theorem keyLoop_error {e : Stop} : ∀ {ks : List Key} {i : Nat} {s : St},
    keyLoop P s2cKey c buf addr i ks s = .error e →
    ∃ j key s', ks[j]? = some key ∧ s'.acceptedClosed = s.acceptedClosed ∧
      tryKey P s2cKey (c.draw (i + j)) buf addr key s' = .error e
  | [], _, _, h => by cases h
  | k :: ks, i, s, h => by
    simp only [keyLoop] at h
    split at h
    · next e' ht => cases h; exact ⟨0, k, s, List.getElem?_cons_zero, rfl, ht⟩
    · cases h
    · next s₁ ht =>
      obtain ⟨j, key, s', hk, hc, ht'⟩ := keyLoop_error h
      refine ⟨j + 1, key, s', by rwa [List.getElem?_cons_succ], hc.trans (tryKey_acceptedClosed ht), ?_⟩
      rwa [Nat.add_comm j 1, ← Nat.add_assoc]

theorem handleItem_error {s : St} {e : Stop} (h : handleItem P c s buf addr = .error e) :
    ∃ s₁ : St, s₁.acceptedClosed = s.acceptedClosed ∧ handshakePath P c buf addr s₁ = .error e := by
  unfold handleItem at h
  split at h
  · split at h
    · cases h
    · exact ⟨s.deliver _ buf, rfl, h⟩
  · exact ⟨s, rfl, h⟩

/-- **What stops the loop.** Handling a datagram ends `run` only by a panic
when the cookie has no s2c key, or when some c2s key opens the datagram to an
empty frame list, or when the `i`-th c2s key opens it to a `ClientHello` of an
accepted version while the `i`-th clock read is before the Unix epoch; or by
`accepted.try_send(..).ok()?` on a closed accepted channel, when some c2s key
opens it to a `ClientResume` whose token opens under `token_key`. -/
theorem handleItem_stops {P : Params} {c : Coins} {s : St} {buf : Bytes} {addr : Addr} {e : Stop}
    (h : handleItem P c s buf addr = .error e) :
    (e = .panic ∧ P.cookie.generateS2c c.clock = []) ∨
      (e = .panic ∧ ∃ key ∈ P.cookie.generateC2s c.clock, P.crypt.padDecryptV1 key buf = some []) ∨
      (e = .panic ∧ ∃ i key hs lp ep v, (P.cookie.generateC2s c.clock)[i]? = some key ∧
        P.crypt.padDecryptV1 key buf = some hs ∧ hs.head? = some (.clientHello lp ep v) ∧
        VersionOk v ∧ (c.draw i).nowMs < 0) ∨
      (e = .closed ∧ s.acceptedClosed = true ∧ ∃ key ∈ P.cookie.generateC2s c.clock, ∃ hs tok sh,
        P.crypt.padDecryptV1 key buf = some hs ∧ hs.head? = some (.clientResume tok sh) ∧
        (TokenInfo.decrypt P.crypt P.tokenKey tok).isSome) := by
  obtain ⟨s₁, hc, h⟩ := handleItem_error h
  unfold handshakePath at h
  split at h
  · cases h; exact .inl ⟨rfl, ‹_›⟩
  · obtain ⟨j, key, s', hk, hc', ht⟩ := keyLoop_error h
    obtain ⟨hs, hd, hdis⟩ := tryKey_error ht
    have hmem := List.getElem?_mem hk
    rw [Nat.zero_add] at hdis
    rcases dispatch_error hdis with ⟨he, hn⟩ | ⟨he, lp, ep, v, hh, hv, hlt⟩ | ⟨he, hcl, tok, sh, hr, hdec⟩
    · exact .inr (.inl ⟨he, key, hmem, by rwa [List.head?_eq_none_iff.1 hn] at hd⟩)
    · exact .inr (.inr (.inl ⟨he, j, key, hs, lp, ep, v, hk, hd, hh, hv, hlt⟩))
    · exact .inr (.inr (.inr ⟨he, hc ▸ hc' ▸ hcl, key, hmem, hs, tok, sh, hd, hr, hdec⟩))

end Loop

theorem empty_handshake_stops :
    handleItem Params.plain ⟨false, 0, fun _ => ⟨[], 0, 0⟩⟩ (St.init []) [0] 7 = .error .panic ∧
    ((Stop.panic = .panic ∧ Params.plain.cookie.generateS2c 0 = []) ∨
      (Stop.panic = .panic ∧ ∃ key ∈ Params.plain.cookie.generateC2s 0,
        Params.plain.crypt.padDecryptV1 key [0] = some []) ∨
      (Stop.panic = .panic ∧ ∃ i : Nat, ∃ key hs lp ep v, (Params.plain.cookie.generateC2s 0)[i]? = some key ∧
        Params.plain.crypt.padDecryptV1 key [0] = some hs ∧ hs.head? = some (.clientHello lp ep v) ∧
        VersionOk v ∧ (⟨[], 0, 0⟩ : Draw).nowMs < 0) ∨
      (Stop.panic = .closed ∧ (St.init []).acceptedClosed = true ∧
        ∃ key ∈ Params.plain.cookie.generateC2s 0, ∃ hs tok sh,
          Params.plain.crypt.padDecryptV1 key [0] = some hs ∧ hs.head? = some (.clientResume tok sh) ∧
          (TokenInfo.decrypt Params.plain.crypt Params.plain.tokenKey tok).isSome)) :=
  have h : handleItem Params.plain ⟨false, 0, fun _ => ⟨[], 0, 0⟩⟩ (St.init []) [0] 7 = .error .panic := rfl
  ⟨h, handleItem_stops h⟩

end Geph4
