import Mathlib.Data.List.AList
import Mathlib.Logic.Relation

/-!
# `bridge_loop` and its exit managers (`geph4-bridge/src/main.rs:55-113`)

`bridge_loop` polls the binder for the exits every 30 s and spawns a
`manage_exit` task for each hostname it has no task for. It keeps every task
it spawned in `current_exits` and never looks at it again.

A `manage_exit` task starts by resolving `"{hostname}:28080"`. It ends there on
an error (`?`) and panics on an empty answer (`[0]`). Otherwise it races
`manage_fut`, which never returns, with `route_fut`, whose channel never
closes. It can still end later by a panic: `manage_exit_once` reads `MY_IP`,
whose initialiser `unwrap`s the `checkip` request.

The run (`BStep`) interleaves polls with what the tasks do: a starting task's
resolve returns, and a running task panics.

* `entry_persists`: along any run, every entry of `current_exits` keeps its
  task, and a finished task stays finished;
* `poll_registers`: after a successful `GetExits`, each hostname of the answer
  has a task;
* `finished_manager_kept`: a task whose resolve fails is finished, and the next
  successful poll naming its hostname spawns no new task. The hostname is left
  with a finished manager, and by `entry_persists` it stays so for the rest of
  the run.
-/
namespace Geph4.Bridge

/-- Modelled from the source's use: the one field of `ExitDescriptor` that
`bridge_loop` and `manage_exit` read. -/
structure ExitDescriptor where
  hostname : String
  deriving DecidableEq, Repr

/-- Where a `manage_exit` task stands: spawned with its `resolve` not yet
returned, racing `manage_fut` and `route_fut`, or returned or panicked. -/
inductive TaskState
  | starting
  | running
  | finished
  deriving DecidableEq, Repr

/-- mirrors geph4-bridge/src/main.rs:92, 140: the task after
`smol::net::resolve(..).await?[0]` returns `resolved`. -/
def afterResolve (resolved : Except Unit (List Nat)) : TaskState :=
  match resolved with
  | .error _ => .finished
  | .ok [] => .finished
  | .ok (_ :: _) => .running

/-- `bridge_loop`'s locals: `current_exits`, with each task as its spawn
index, and the tasks by index. -/
structure BridgeLoop where
  currentExits : AList (fun _ : String => Nat)
  tasks : List TaskState

def BridgeLoop.init : BridgeLoop := ⟨∅, []⟩

/-- mirrors geph4-bridge/src/main.rs:67-77: `for exit in exits`, spawning a
manager for each hostname without one. -/
def BridgeLoop.spawnNew (b : BridgeLoop) : List ExitDescriptor → BridgeLoop
  | [] => b
  | exit :: exits =>
    if b.currentExits.lookup exit.hostname = none then
      BridgeLoop.spawnNew ⟨b.currentExits.insert exit.hostname b.tasks.length, b.tasks ++ [.starting]⟩ exits
    else BridgeLoop.spawnNew b exits

/-- mirrors geph4-bridge/src/main.rs:62-80: one iteration; `resp` is
`some exits` for `Ok(GetExitsResp(exits))`, and `none` for anything else. -/
def BridgeLoop.poll (b : BridgeLoop) (resp : Option (List ExitDescriptor)) : BridgeLoop :=
  match resp with
  | some exits => b.spawnNew exits
  | none => b

/-- One step of the bridge: a loop iteration, or a task's own progress. -/
inductive BStep : BridgeLoop → BridgeLoop → Prop
  | poll {b : BridgeLoop} (resp : Option (List ExitDescriptor)) : BStep b (b.poll resp)
  | resolve {b : BridgeLoop} {i : Nat} (resolved : Except Unit (List Nat)) :
      b.tasks[i]? = some .starting → BStep b { b with tasks := b.tasks.set i (afterResolve resolved) }
  | panic {b : BridgeLoop} {i : Nat} :
      b.tasks[i]? = some .running → BStep b { b with tasks := b.tasks.set i .finished }

def BReach (b : BridgeLoop) : Prop := Relation.ReflTransGen BStep BridgeLoop.init b

/-! ## Entries are never replaced -/

theorem spawnNew_tasks (exits : List ExitDescriptor) :
    ∀ (b : BridgeLoop) (i : Nat) (st : TaskState), b.tasks[i]? = some st →
      (b.spawnNew exits).tasks[i]? = some st := by
  induction exits with
  | nil => exact fun _ _ _ hs => hs
  | cons exit exits ih =>
    intro b i st hs
    unfold BridgeLoop.spawnNew
    split
    · refine ih _ i st ?_
      rw [List.getElem?_append_left (List.getElem?_eq_some_iff.1 hs).1]
      exact hs
    · exact ih b i st hs

theorem spawnNew_lookup (exits : List ExitDescriptor) :
    ∀ (b : BridgeLoop) (h : String) (i : Nat), b.currentExits.lookup h = some i →
      (b.spawnNew exits).currentExits.lookup h = some i := by
  induction exits with
  | nil => exact fun _ _ _ hl => hl
  | cons exit exits ih =>
    intro b h i hl
    unfold BridgeLoop.spawnNew
    split
    · next hn =>
      have hne : h ≠ exit.hostname := fun e => by rw [e, hn] at hl; cases hl
      exact ih _ h i (by rwa [AList.lookup_insert_ne hne])
    · exact ih b h i hl

theorem spawnNew_registers (exits : List ExitDescriptor) :
    ∀ (b : BridgeLoop), ∀ exit ∈ exits, ((b.spawnNew exits).currentExits.lookup exit.hostname).isSome := by
  induction exits with
  | nil => intro _ _ h; cases h
  | cons e exits ih =>
    intro b exit hm
    unfold BridgeLoop.spawnNew
    rcases List.mem_cons.1 hm with rfl | hm
    · split
      · rw [spawnNew_lookup exits _ _ _ (AList.lookup_insert _)]; rfl
      · next hn =>
        obtain ⟨i, hi⟩ := Option.ne_none_iff_exists'.1 hn
        rw [spawnNew_lookup exits _ _ _ hi]; rfl
    · split <;> exact ih _ exit hm

/-- **Registered exits.** After a successful `GetExits`, every hostname of the
answer has a task in `current_exits`. -/
theorem poll_registers (b : BridgeLoop) (exits : List ExitDescriptor) :
    ∀ exit ∈ exits, ((b.poll (some exits)).currentExits.lookup exit.hostname).isSome :=
  spawnNew_registers exits b

theorem lookup_step {b b' : BridgeLoop} (hs : BStep b b') {h : String} {i : Nat}
    (hl : b.currentExits.lookup h = some i) : b'.currentExits.lookup h = some i := by
  cases hs with
  | poll resp =>
    cases resp with
    | none => exact hl
    | some exits => exact spawnNew_lookup exits b h i hl
  | _ => exact hl

theorem finished_step {b b' : BridgeLoop} (hs : BStep b b') {i : Nat}
    (hf : b.tasks[i]? = some .finished) : b'.tasks[i]? = some .finished := by
  cases hs with
  | poll resp =>
    cases resp with
    | none => exact hf
    | some exits => exact spawnNew_tasks exits b i _ hf
  | @resolve j _ hj =>
    have hij : j ≠ i := fun e => by rw [← e, hj] at hf; cases hf
    rw [List.getElem?_set_ne hij]; exact hf
  | @panic j hj =>
    have hij : j ≠ i := fun e => by rw [← e, hj] at hf; cases hf
    rw [List.getElem?_set_ne hij]; exact hf

/-- **Entries persist.** Along any run, every entry of `current_exits` keeps
its task, and a finished task stays finished: a hostname whose manager has
finished is never given a new one. -/
theorem entry_persists {b b' : BridgeLoop} (hr : Relation.ReflTransGen BStep b b') :
    (∀ h i, b.currentExits.lookup h = some i → b'.currentExits.lookup h = some i) ∧
    (∀ i : Nat, b.tasks[i]? = some TaskState.finished → b'.tasks[i]? = some TaskState.finished) := by
  induction hr with
  | refl => exact ⟨fun _ _ => id, fun _ => id⟩
  | tail _ hs ih => exact ⟨fun h i hl => lookup_step hs (ih.1 h i hl), fun i hf => finished_step hs (ih.2 i hf)⟩

def deadExit : ExitDescriptor := ⟨"exit.example"⟩

theorem poll_registers_deadExit :
    ((BridgeLoop.init.poll (some [deadExit])).currentExits.lookup deadExit.hostname).isSome :=
  poll_registers _ _ _ (List.mem_singleton_self _)

/-- The manager of `deadExit` has failed its resolve; a later poll names a
second exit, whose manager starts running. The first entry and its finished
task stay. -/
theorem entry_persists_poll :
    ∃ b b', BReach b ∧ Relation.ReflTransGen BStep b b' ∧ b.currentExits.lookup deadExit.hostname = some 0 ∧
      b.tasks[0]? = some .finished ∧ b'.tasks[1]? = some .running ∧
      (∀ h i, b.currentExits.lookup h = some i → b'.currentExits.lookup h = some i) ∧
      (∀ i : Nat, b.tasks[i]? = some TaskState.finished → b'.tasks[i]? = some TaskState.finished) := by
  let b₁ := BridgeLoop.init.poll (some [deadExit])
  let b : BridgeLoop := { b₁ with tasks := b₁.tasks.set 0 (afterResolve (.error ())) }
  have r : BReach b := (Relation.ReflTransGen.single (.poll _)).tail (BStep.resolve (.error ()) (by decide))
  have seg := (Relation.ReflTransGen.single (@BStep.poll b (some [deadExit, ⟨"exit.example.org"⟩]))).tail
    (BStep.resolve (i := 1) (.ok [1]) (by decide))
  exact ⟨b, _, r, seg, by decide, by decide, by decide, entry_persists seg⟩

theorem finished_manager_kept :
    ∃ b, BReach b ∧
      (b.poll (some [deadExit])).currentExits.lookup deadExit.hostname = some 0 ∧
      (b.poll (some [deadExit])).tasks[0]? = some .finished := by
  have r1 : BReach (BridgeLoop.init.poll (some [deadExit])) := .single (.poll _)
  have r2 := r1.tail (BStep.resolve (i := 0) (.error ()) (by decide))
  exact ⟨_, r2, by decide, by decide⟩

end Geph4.Bridge
