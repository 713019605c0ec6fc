import Geph4.L3Listener.Listener

/-!
# Runs of the listener among its sessions

`ListenerActor::run` shares its channels with tasks it does not control: the
consumer of `accepted`, each session (which reads its input channel, writes its
output channel and, when dropped, runs its `on_drop` hook), and each session's
output poller. A run is any interleaving of their steps (`Step`):

* `recv`: `race` picks `NewRecv(items)`; `recv_from_many` never returns an empty
  batch (spec §4.1), and the loop only races once the previous batch is done;
* `item`: the actor handles the next datagram of the batch (`handleItem`);
  datagrams are handled one at a time because the loop yields between them, so
  other tasks' steps interleave with the batch;
* `dead`: `race` picks `DeadSess(token)`, the oldest message of the reap channel;
* `drop`: a live session is dropped; its hook cancels the output poller and puts
  its token on the reap channel, and its input channel loses its receiver;
* `take`: a session reads the oldest buffer of its input channel;
* `send`: a live session `try_send`s a packet into its output channel;
* `poll`: the output poller of a live session sends the oldest packet of its
  output channel to `locked_addrs.write().get_addr()` (`listener.rs:275-301`);
* `close`: the receiver of `accepted` is dropped;
* `rotate`: `RECENT_FILTER` is process-wide, probabilistic and periodically
  rotated (spec §3): between two datagrams its contents may become anything,
  which covers rotation, other users of the filter and false positives.

`item` steps carry an admissibility predicate `adm` on the datagram and the
clock its cookie keys are derived at: runs
against an arbitrary sender use `fun _ _ _ => True` (`Reachable`); the
provenance results restrict the sender's power there.

A step of the actor that ends `run` (`handleItem` returning `.error`) has no
successor: reachable worlds are those of a run still going. The ghost log `rx`
records each handled datagram with the input channel `lookup` gave for its
source at that moment and whether that channel could take it.
-/
namespace Geph4

/-- Ghost record of one handled datagram: its bytes and source, the clock the
cookie keys were derived at, what `session_table.lookup(addr)` gave when it
was handled, and whether that channel was open and not full. -/
structure Rx where
  buf : Bytes
  addr : Addr
  clock : Int
  target : Option ChanId
  delivered : Bool
  deriving DecidableEq, Repr

/-- The listener's state, the rest of its current batch, and the ghost log. -/
structure World where
  st : St
  batch : List (Bytes × Addr)
  rx : List Rx

namespace St

def rxOf (s : St) (clock : Int) (buf : Bytes) (addr : Addr) : Rx :=
  match s.table.lookup addr with
  | none => ⟨buf, addr, clock, none, false⟩
  | some ch => ⟨buf, addr, clock, some ch, (s.inputs[ch]?.map Chan.canSend).getD false⟩

@[simp] theorem rxOf_buf (s : St) (clock : Int) (buf : Bytes) (addr : Addr) : (s.rxOf clock buf addr).buf = buf := by
  unfold rxOf; split <;> rfl

@[simp] theorem rxOf_addr (s : St) (clock : Int) (buf : Bytes) (addr : Addr) :
    (s.rxOf clock buf addr).addr = addr := by
  unfold rxOf; split <;> rfl

@[simp] theorem rxOf_clock (s : St) (clock : Int) (buf : Bytes) (addr : Addr) :
    (s.rxOf clock buf addr).clock = clock := by
  unfold rxOf; split <;> rfl

/-- The session's `on_drop` hooks (`listener.rs:325-328`): the output poller is
cancelled, the token goes on the reap channel, and the session's receiver of
its input channel is gone. -/
def dropSession (s : St) (sess : Session) : St :=
  { s with live := s.live.erase sess, reap := s.reap ++ [sess.token],
           inputs := s.inputs.modify (fun c => { c with closed := true }) sess.cfg.recvPacket }

/-- The session reads the oldest buffer of input channel `ch`, if any. -/
def take (s : St) (ch : ChanId) : St :=
  let read (c : Chan) : Chan := if c.taken < c.hist.length then { c with taken := c.taken + 1 } else c
  { s with inputs := s.inputs.modify read ch }

/-- A session `try_send`s `data` into its output channel. -/
def sendOut (s : St) (sess : Session) (data : Bytes) : St :=
  { s with outputs := s.outputs.modify (·.trySend data) sess.cfg.sendPacket }

/-- The output poller of `sess`, whose `locked_addrs` is the table entry `e`:
take the oldest packet, send it to `get_addr()`, which turns the cursor. -/
def pollOut (s : St) (sess : Session) (e : SessEntry) (data : Bytes) : St :=
  let entry : SessEntry := { e with addrs := e.addrs.getAddr.2 }
  { s with outputs := s.outputs.modify (fun c => { c with taken := c.taken + 1 }) sess.cfg.sendPacket,
           table := { s.table with byToken := s.table.byToken.insert sess.token entry },
           sent := s.sent ++ [(data, e.addrs.getAddr.1)],
           origin := s.origin ++ [some sess.cfg.sendPacket] }

theorem lookup_pollOut {s : St} {sess : Session} {e : SessEntry} {data : Bytes}
    (he : s.table.byToken.lookup sess.token = some e) (t : Token) :
    (s.pollOut sess e data).table.byToken.lookup t =
      (s.table.byToken.lookup t).map fun x =>
        if t = sess.token then { x with addrs := x.addrs.getAddr.2 } else x := by
  simp only [pollOut]
  by_cases et : t = sess.token
  · subst et; rw [AList.lookup_insert, he]; simp
  · rw [AList.lookup_insert_ne et]; simp [et]

theorem sender_pollOut {s : St} {sess : Session} {e : SessEntry} {data : Bytes}
    (he : s.table.byToken.lookup sess.token = some e) (t : Token) :
    ((s.pollOut sess e data).table.byToken.lookup t).map SessEntry.sessionSend =
      (s.table.byToken.lookup t).map SessEntry.sessionSend := by
  rw [lookup_pollOut he, Option.map_map]
  congr 1; funext x; dsimp only [Function.comp]; split <;> rfl

end St

def St.outHead (s : St) (ch : ChanId) : Option Bytes :=
  (s.outputs[ch]?).bind fun c => c.hist[c.taken]?

def World.init (recent : List Bytes) : World := ⟨St.init recent, [], []⟩

/-- One step of the listener or of a task it shares a channel with. -/
inductive Step (P : Params) (adm : World → Int → Bytes → Prop) : World → World → Prop
  | recv {w : World} (items : List (Bytes × Addr)) :
      w.batch = [] → items ≠ [] → Step P adm w { w with batch := items }
  | item {w : World} (c : Coins) {buf : Bytes} {addr : Addr} {rest : List (Bytes × Addr)} {st' : St} :
      w.batch = (buf, addr) :: rest → adm w c.clock buf → handleItem P c w.st buf addr = .ok st' →
      Step P adm w ⟨st', rest, w.rx ++ [w.st.rxOf c.clock buf addr]⟩
  | dead {w : World} {tok : Token} {rest : List Token} :
      w.batch = [] → w.st.reap = tok :: rest →
      Step P adm w { w with st := { handleDead tok w.st with reap := rest } }
  | drop {w : World} {sess : Session} :
      sess ∈ w.st.live → Step P adm w { w with st := w.st.dropSession sess }
  | take {w : World} (ch : ChanId) : Step P adm w { w with st := w.st.take ch }
  | send {w : World} {sess : Session} (data : Bytes) :
      sess ∈ w.st.live → Step P adm w { w with st := w.st.sendOut sess data }
  | poll {w : World} {sess : Session} {e : SessEntry} {data : Bytes} :
      sess ∈ w.st.live → w.st.table.byToken.lookup sess.token = some e →
      e.sessionSend = sess.cfg.recvPacket → w.st.outHead sess.cfg.sendPacket = some data →
      Step P adm w { w with st := w.st.pollOut sess e data }
  | close {w : World} : Step P adm w { w with st := { w.st with acceptedClosed := true } }
  | rotate {w : World} (r : List Bytes) : Step P adm w { w with st := { w.st with recent := r } }

inductive Reach (P : Params) (adm : World → Int → Bytes → Prop) : World → Prop
  | init (recent : List Bytes) : Reach P adm (World.init recent)
  | step {w w' : World} : Reach P adm w → Step P adm w w' → Reach P adm w'

/-- Reachable against a sender of arbitrary datagrams. -/
def Reachable (P : Params) (w : World) : Prop := Reach P (fun _ _ _ => True) w

theorem Reach.inv {P : Params} {adm : World → Int → Bytes → Prop} (I : World → Prop)
    (h0 : ∀ r, I (World.init r)) (hs : ∀ {w w'}, Step P adm w w' → I w → I w') {w : World}
    (h : Reach P adm w) : I w := by
  induction h with
  | init r => exact h0 r
  | step _ s ih => exact hs s ih

/-- An idle actor receives the one-datagram batch `[(buf, addr)]` and handles
it; a datagram that would stop the actor leaves the world as it was. -/
def World.feed (P : Params) (c : Coins) (buf : Bytes) (addr : Addr) (w : World) : World :=
  match handleItem P c w.st buf addr with
  | .ok st' => ⟨st', [], w.rx ++ [w.st.rxOf c.clock buf addr]⟩
  | .error _ => w

theorem Reach.feed {P : Params} {adm : World → Int → Bytes → Prop} {w : World} {c : Coins} {buf : Bytes}
    {addr : Addr} {st' : St} (h : Reach P adm w) (hb : w.batch = [])
    (ha : adm { w with batch := [(buf, addr)] } c.clock buf) (hh : handleItem P c w.st buf addr = .ok st') :
    Reach P adm (w.feed P c buf addr) := by
  simp only [World.feed, hh]
  exact (h.step (.recv _ hb (List.cons_ne_nil _ _))).step (.item c rfl ha hh)

/-! ## A run over the transparent crypto -/

def Coins.calm : Coins := ⟨false, 0, fun _ => ⟨[], 0, 0⟩⟩

/-- Two different resume tokens that open to the same `TokenInfo` under the
transparent crypto (bincode ignores trailing bytes). -/
def movedFrom : Token := List.replicate 24 0
def movedTo : Token := movedFrom ++ [5]

/-- A hello from address 7 is answered; address 1 resumes `movedFrom`, then
`movedTo`: two live sessions, on channels 0 and 1, and address 1 bound to the
second, while `movedFrom`'s addresses still list it. -/
def World.moved : World :=
  (((World.init []).feed Params.plain Coins.calm [2, 1] 7).feed Params.plain Coins.calm (1 :: 0 :: movedFrom) 1).feed
    Params.plain Coins.calm (1 :: 0 :: movedTo) 1

theorem moved_reachable : Reachable Params.plain World.moved :=
  (((Reach.init []).feed rfl trivial (by exact rfl)).feed (by rfl) trivial (by exact rfl)).feed (by rfl) trivial
    (by exact rfl)

def movedFromSession : Session := ⟨⟨0, 0, 3600, 128, [2], [1], [2], [1], 0⟩, movedFrom⟩

/-- Then `movedFrom`'s session is dropped: its `DeadSess` is pending. -/
def World.movedDropped : World := { World.moved with st := World.moved.st.dropSession movedFromSession }

theorem movedDropped_reachable : Reachable Params.plain World.movedDropped :=
  moved_reachable.step (Step.drop (by decide))

end Geph4
