import Geph4.Core

/-!
# The session table (`listener/table.rs`, modelled from the spec)

`listener.rs` keeps its sessions in `table::SessionTable` and each session's
remote addresses in `table::ShardedAddrs`. `table.rs` is not among the
repository's files, so both follow the spec (§3 "ShardedAddrs", "SessionTable",
§4.5):

* `lookup(addr)`: `by_addr`, then `by_token`;
* `new_sess(token, sender, addrs)`: insert into `by_token`;
* `rebind(addr, shard_id, token)`: if `token ∈ by_token`, set its
  `ShardedAddrs[shard_id] = addr` and `by_addr[addr] = token` (overwriting any
  prior mapping) and return `true`; otherwise `false`;
* `delete(token)`: remove it from `by_token` and purge every address of its
  `ShardedAddrs` from `by_addr`.

Both indices are `AList`s (maps with unique keys). `ShardedAddrs` is never
empty: it is created with one shard and only ever gains or replaces shards, and
the structure carries that fact, so `get_addr` is total.

The lemmas are one per operation and index: which tokens are present after it
(`mem_newSess`, `mem_rebind`, `mem_delete`), what `rebind` returns
(`rebind_fst`), and what each index answers after it (`lookup_newSess`,
`lookup_rebind`, `byAddr_rebind`, `byAddr_delete`), with `lookup` of the
address just rebound (`lookup_rebind_self`).
-/
namespace Geph4

/-- A session's input channel, by its place in the listener's channel list. -/
abbrev ChanId := Nat

/-- Modelled from the spec: `ShardedAddrs`, the remote address of each shard,
and the cursor that `get_addr` turns. -/
structure ShardedAddrs where
  map : AList (fun _ : UInt8 => Addr)
  cursor : Nat
  nonempty : map.entries ≠ []
  deriving DecidableEq

namespace ShardedAddrs

/-- Modelled from the spec: `ShardedAddrs::new(shard_id, addr)`. -/
def new (shardId : UInt8) (addr : Addr) : ShardedAddrs :=
  ⟨AList.singleton shardId addr, 0, List.cons_ne_nil _ _⟩

/-- Modelled from the spec: `insert_addr(shard_id, addr)`, the shard's address
is now `addr`. -/
def insertAddr (sa : ShardedAddrs) (shardId : UInt8) (addr : Addr) : ShardedAddrs :=
  ⟨sa.map.insert shardId addr, sa.cursor, by simp [AList.insert_entries]⟩

/-- Modelled from the spec: `get_addrs()`, every shard's address. -/
def getAddrs (sa : ShardedAddrs) : List Addr := sa.map.entries.map Sigma.snd

theorem getAddrs_length_pos (sa : ShardedAddrs) : 0 < sa.getAddrs.length := by
  simpa [getAddrs, List.length_pos] using sa.nonempty

/-- Modelled from the spec: `get_addr()`, the address for the next outbound
packet, round robin over the shards. -/
def getAddr (sa : ShardedAddrs) : Addr × ShardedAddrs :=
  (sa.getAddrs.get ⟨sa.cursor % sa.getAddrs.length, Nat.mod_lt _ sa.getAddrs_length_pos⟩,
    { sa with cursor := sa.cursor + 1 })

theorem getAddr_mem (sa : ShardedAddrs) : sa.getAddr.1 ∈ sa.getAddrs := List.get_mem _ _ _

@[simp] theorem mem_getAddrs_new {shardId : UInt8} {addr a : Addr} :
    a ∈ (new shardId addr).getAddrs ↔ a = addr :=
  List.mem_singleton

theorem mem_getAddrs_insertAddr {sa : ShardedAddrs} {shardId : UInt8} {addr a : Addr}
    (h : a ∈ (sa.insertAddr shardId addr).getAddrs) : a ∈ sa.getAddrs ∨ a = addr := by
  simp only [insertAddr, getAddrs, AList.insert_entries, List.map_cons, List.mem_cons] at h
  rcases h with rfl | h
  · exact .inr rfl
  · exact .inl (((List.kerase_sublist _ _).map _).subset h)

@[simp] theorem getAddrs_getAddr (sa : ShardedAddrs) : sa.getAddr.2.getAddrs = sa.getAddrs := rfl

end ShardedAddrs

/-- Modelled from the spec: a `by_token` entry, the session's input sender and
its `ShardedAddrs`. -/
structure SessEntry where
  sessionSend : ChanId
  addrs : ShardedAddrs
  deriving DecidableEq

/-- Modelled from the spec: `SessionTable`, its `by_token` and `by_addr`. -/
structure SessionTable where
  byToken : AList (fun _ : Token => SessEntry)
  byAddr : AList (fun _ : Addr => Token)
  deriving DecidableEq

namespace SessionTable

instance : EmptyCollection SessionTable := ⟨⟨∅, ∅⟩⟩

@[simp] theorem byToken_empty : (∅ : SessionTable).byToken = ∅ := rfl
@[simp] theorem byAddr_empty : (∅ : SessionTable).byAddr = ∅ := rfl

/-- Modelled from the spec: `lookup(addr)`. -/
def lookup (t : SessionTable) (addr : Addr) : Option ChanId :=
  match t.byAddr.lookup addr with
  | none => none
  | some tok => (t.byToken.lookup tok).map SessEntry.sessionSend

/-- Modelled from the spec: `new_sess(token, session_send, locked_addrs)`. -/
def newSess (t : SessionTable) (token : Token) (sessionSend : ChanId) (addrs : ShardedAddrs) :
    SessionTable :=
  { t with byToken := t.byToken.insert token ⟨sessionSend, addrs⟩ }

/-- Modelled from the spec: `rebind(addr, shard_id, token)`, whether the token
was known, and the table. -/
def rebind (t : SessionTable) (addr : Addr) (shardId : UInt8) (token : Token) : Bool × SessionTable :=
  match t.byToken.lookup token with
  | none => (false, t)
  | some e =>
    (true, ⟨t.byToken.insert token { e with addrs := e.addrs.insertAddr shardId addr },
      t.byAddr.insert addr token⟩)

/-- Modelled from the spec: remove every address of `addrs` from `by_addr`. -/
def purge (m : AList (fun _ : Addr => Token)) (addrs : List Addr) : AList (fun _ : Addr => Token) :=
  addrs.foldl (fun m a => m.erase a) m

/-- Modelled from the spec: `delete(token)`. -/
def delete (t : SessionTable) (token : Token) : SessionTable :=
  match t.byToken.lookup token with
  | none => t
  | some e => ⟨t.byToken.erase token, purge t.byAddr e.addrs.getAddrs⟩

/-! ## Tokens present after each operation -/

theorem mem_newSess {t : SessionTable} {tok tok' : Token} {c : ChanId} {sa : ShardedAddrs} :
    tok' ∈ (t.newSess tok c sa).byToken ↔ tok' = tok ∨ tok' ∈ t.byToken :=
  AList.mem_insert _

theorem rebind_fst (t : SessionTable) (a : Addr) (sh : UInt8) (tok : Token) :
    (t.rebind a sh tok).1 = decide (tok ∈ t.byToken) := by
  unfold rebind
  cases h : t.byToken.lookup tok
  · simpa [AList.lookup_eq_none] using h
  · simpa using AList.lookup_isSome.1 (by simp [h])

theorem mem_rebind {t : SessionTable} {a : Addr} {sh : UInt8} {tok tok' : Token} :
    tok' ∈ (t.rebind a sh tok).2.byToken ↔ tok' ∈ t.byToken := by
  unfold rebind
  cases h : t.byToken.lookup tok
  · rfl
  · simp only [AList.mem_insert, or_iff_right_iff_imp]
    rintro rfl; exact AList.lookup_isSome.1 (by simp [h])

theorem mem_delete {t : SessionTable} {tok tok' : Token} :
    tok' ∈ (t.delete tok).byToken ↔ tok' ≠ tok ∧ tok' ∈ t.byToken := by
  unfold delete
  cases h : t.byToken.lookup tok
  · simp only [iff_and_self]
    rintro hm rfl; exact AList.lookup_eq_none.1 h hm
  · exact AList.mem_erase

theorem lookup_newSess (t : SessionTable) (tok : Token) (c : ChanId) (sa : ShardedAddrs) (t' : Token) :
    (t.newSess tok c sa).byToken.lookup t' = if t' = tok then some ⟨c, sa⟩ else t.byToken.lookup t' := by
  unfold newSess
  split_ifs with h
  · subst h; exact AList.lookup_insert _
  · exact AList.lookup_insert_ne h

/-- `rebind` gives the token's entry the new address, and touches no other entry. -/
theorem lookup_rebind (t : SessionTable) (a : Addr) (sh : UInt8) (tok t' : Token) :
    (t.rebind a sh tok).2.byToken.lookup t' =
      if t' = tok then (t.byToken.lookup tok).map fun e => { e with addrs := e.addrs.insertAddr sh a }
      else t.byToken.lookup t' := by
  unfold rebind
  cases h : t.byToken.lookup tok with
  | none =>
    dsimp only
    split_ifs with e
    · rw [e, h]; rfl
    · rfl
  | some e =>
    split_ifs with et
    · subst et; simp [AList.lookup_insert]
    · simp [AList.lookup_insert_ne et]

theorem lookup_delete_some {t : SessionTable} {tok t' : Token} {e : SessEntry}
    (h : (t.delete tok).byToken.lookup t' = some e) : t.byToken.lookup t' = some e := by
  unfold delete at h
  split at h
  · exact h
  · by_cases et : t' = tok
    · subst et; simp [AList.lookup_erase] at h
    · rwa [AList.lookup_erase_ne et] at h

theorem lookup_rebind_sender (t : SessionTable) (a : Addr) (sh : UInt8) (tok tok' : Token) :
    ((t.rebind a sh tok).2.byToken.lookup tok').map SessEntry.sessionSend =
      (t.byToken.lookup tok').map SessEntry.sessionSend := by
  rw [lookup_rebind]
  split_ifs with e
  · subst e; cases t.byToken.lookup tok' <;> rfl
  · rfl

theorem senders_kept {T T' : SessionTable}
    (h : ∀ t, (T'.byToken.lookup t).map SessEntry.sessionSend = (T.byToken.lookup t).map SessEntry.sessionSend)
    (t : Token) (e : SessEntry) (he : T.byToken.lookup t = some e) :
    ∃ e', T'.byToken.lookup t = some e' ∧ e'.sessionSend = e.sessionSend := by
  have := h t
  rw [he] at this
  exact Option.map_eq_some'.1 this

/-! ## `lookup` after each operation -/

theorem lookup_purge (m : AList (fun _ : Addr => Token)) (as : List Addr) (a : Addr) :
    (purge m as).lookup a = if a ∈ as then none else m.lookup a := by
  induction as generalizing m with
  | nil => simp [purge]
  | cons b as ih =>
    simp only [purge, List.foldl_cons] at ih ⊢
    rw [ih]
    by_cases e : a = b
    · subst e; simp [AList.lookup_erase]
    · simp [AList.lookup_erase_ne e, e]

theorem lookup_rebind_self {t : SessionTable} {a : Addr} {sh : UInt8} {tok : Token}
    {e : SessEntry} (h : t.byToken.lookup tok = some e) :
    (t.rebind a sh tok).2.lookup a = some e.sessionSend := by
  simp [rebind, lookup, h, AList.lookup_insert]

theorem byAddr_rebind (t : SessionTable) (a : Addr) (sh : UInt8) (tok : Token) (a' : Addr) :
    (t.rebind a sh tok).2.byAddr.lookup a' =
      if a' = a ∧ tok ∈ t.byToken then some tok else t.byAddr.lookup a' := by
  unfold rebind
  cases h : t.byToken.lookup tok with
  | none => simp [AList.lookup_eq_none.1 h]
  | some e =>
    have hm : tok ∈ t.byToken := AList.lookup_isSome.1 (by simp [h])
    by_cases e : a' = a
    · subst e; simp [AList.lookup_insert, hm]
    · simp [AList.lookup_insert_ne e, e]

theorem byAddr_delete {t : SessionTable} {tok : Token} {e : SessEntry}
    (h : t.byToken.lookup tok = some e) (a : Addr) :
    (t.delete tok).byAddr.lookup a = if a ∈ e.addrs.getAddrs then none else t.byAddr.lookup a := by
  simp [delete, h, lookup_purge]

end SessionTable

end Geph4
