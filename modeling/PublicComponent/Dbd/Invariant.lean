import PublicComponent.Dbd.System

/-!
The invariant of the `DoublyBufferedData` system, and why it holds initially.

Each fact ties what a thread's program counter says to the shared state: who holds each
lock, which `Wrapper`s are registered, live, and whose they are, where a destructor loop is,
and which `ScopedPtr`s may still point at the slot a writer is about to reuse.
-/

namespace PublicComponent.Dbd

open Function

variable {T : Type}

/-! ### What a program counter says -/

def Pc.holdsModify : Pc T → Cid → Prop
  | .modLoad c _, c' | .modFn1 c _ _, c' | .modStore c _ _ _, c' | .modDrainLock c _ _ _, c'
  | .modWait c _ _ _ _, c' | .modWaitDone c _ _ _ _, c' | .modFn2 c _ _ _, c'
  | .modReturn c _ _, c' => c = c'
  | _, _ => False

def Pc.holdsWrappers : Pc T → Cid → Prop
  | .pushBack c _, c' | .modWait c _ _ _ _, c' | .modWaitDone c _ _ _ _, c'
  | .dtorLoop c _, c' => c = c'
  | .wrapperDtor _ (.dtor c _), c' | .removeLock _ _ (.dtor c _), c' => c = c'
  | .removeScan c _ (.dtor c'' _), c' => c = c' ∨ c'' = c'
  | .removeScan c _ _, c' => c = c'
  | _, _ => False

/-- The thread holds the `_mutex` of `w` by where it is: between `BeginRead` and the load of
`_index`, or inside `WaitReadDone` of `_wrappers[i]`. -/
def Pc.locks : Pc T → (Cid → List Nat) → Nat → Prop
  | .loadIndex _ w, _, w' => w = w'
  | .modWaitDone c _ _ _ i, ws, w' => (ws c)[i]? = some w'
  | _, _, _ => False

def Pc.reading : Pc T → Cid → Prop
  | .read c, c' | .addWrapper c, c' | .pushLock c _, c' | .pushBack c _, c'
  | .setSpecific c _, c' | .beginRead c _, c' | .loadIndex c _, c' => c = c'
  | .wrapperDtor _ (.readFail c), c' | .removeLock _ _ (.readFail c), c'
  | .removeScan _ _ (.readFail c), c' => c = c'
  | _, _ => False

def Pc.atExit : Pc T → Prop
  | .exiting | .exited => True
  | .wrapperDtor _ (.exit _) | .removeLock _ _ (.exit _) | .removeScan _ _ (.exit _) => True
  | _ => False

def Pc.dtorOf : Pc T → Cid → Prop
  | .dtorLock c, c' | .dtorLoop c _, c' => c = c'
  | .wrapperDtor _ (.dtor c _), c' | .removeLock _ _ (.dtor c _), c'
  | .removeScan _ _ (.dtor c _), c' => c = c'
  | _, _ => False

/-- The `Wrapper` the thread holds as its own local pointer: one it is registering, or one
its `~Wrapper` deletes outside a destructor loop. -/
def Pc.owned : Pc T → Option Nat
  | .pushLock _ w | .pushBack _ w | .setSpecific _ w => some w
  | .wrapperDtor _ (.dtor _ _) | .removeLock _ _ (.dtor _ _) | .removeScan _ _ (.dtor _ _) => none
  | .wrapperDtor w _ | .removeLock _ w _ | .removeScan _ w _ => some w
  | _ => none

/-- A writer that has published `c`'s new `_index` and has not yet waited for the reader of
`w`: `w` is still ahead of its drain loop. -/
def Pc.draining : Pc T → (Cid → List Nat) → Cid → Nat → Prop
  | .modDrainLock c _ _ _, _, c', _ => c = c'
  | .modWait c _ _ _ i, ws, c', w => c = c' ∧ w ∈ (ws c).drop i
  | .modWaitDone c _ _ _ i, ws, c', w => c = c' ∧ w ∈ (ws c).drop (i + 1)
  | _, _, _, _ => False

/-! ### Facts about the shared state at a program counter -/

/-- Thread `u` holds the `_mutex` of `w`, by where it is or through a `ScopedPtr`. -/
def HoldsMutex (s : Sys T) (u : Tid) (w : Nat) : Prop :=
  (s.pc u).locks s.wrappers w ∨ ∃ c i, s.guards u c = some (w, i)

def Unpushed (s : Sys T) (c : Cid) (w : Nat) : Prop :=
  (∀ c', w ∉ s.wrappers c') ∧ s.control w = some c

def Pushed (s : Sys T) (c : Cid) (w : Nat) : Prop := w ∈ s.wrappers c ∧ s.control w = some c

/-- Where a thread's own `Wrapper` is while it registers or deletes it. -/
def OwnedAt (s : Sys T) : Pc T → Prop
  | .pushLock c w | .pushBack c w | .wrapperDtor w (.readFail c) => Unpushed s c w
  | .removeLock c' w (.readFail c) | .removeScan c' w (.readFail c) => c' = c ∧ Unpushed s c w
  | .setSpecific c w | .wrapperDtor w (.exit c) => Pushed s c w
  | .removeLock c' w (.exit c) | .removeScan c' w (.exit c) => c' = c ∧ Pushed s c w
  | _ => True

/-- `~DoublyBufferedData` of `c` has deleted `_wrappers[0..i)`; the others are live and still
point to `c`. -/
def Swept (s : Sys T) (c : Cid) (i : Nat) : Prop :=
  ∀ j w, (s.wrappers c)[j]? = some w →
    (j < i → s.live w = false) ∧ (i ≤ j → s.live w ∧ s.control w = some c)

/-- Where a destructor loop is. Its `~Wrapper` never calls `RemoveWrapper`. -/
def DtorAt (s : Sys T) : Pc T → Prop
  | .dtorLock c => Swept s c 0
  | .dtorLoop c i => Swept s c i
  | .wrapperDtor w (.dtor c i) =>
    (s.wrappers c)[i]? = some w ∧ s.live w ∧ s.control w = none ∧ Swept (s.free w) c (i + 1)
  | .removeLock _ _ (.dtor _ _) | .removeScan _ _ (.dtor _ _) => False
  | _ => True

/-- A writer's `bg_index` names the background slot. -/
def BgAt (s : Sys T) : Pc T → Prop
  | .modFn1 c _ bg | .modStore c _ bg _ | .modDrainLock c _ bg _ | .modWait c _ bg _ _
  | .modWaitDone c _ bg _ _ | .modFn2 c _ bg _ => bg = !s.index c
  | _ => True

/-! ### The invariant -/

structure Inv (s : Sys T) : Prop where
  lockModify : ∀ c u, s.modifyMutex c = some u ↔ (s.pc u).holdsModify c
  lockWrappers : ∀ c u, s.wrappersMutex c = some u ↔ (s.pc u).holdsWrappers c
  lockMutex : ∀ w u, s.mutex w = some u ↔ HoldsMutex s u w
  /-- A draining writer holds no `ScopedPtr` on the `Wrapper` it waits for. -/
  drainGuard : ∀ u c fn bg r i w, s.pc u = .modWaitDone c fn bg r i →
    (s.wrappers c)[i]? = some w → ∀ c' j, s.guards u c' ≠ some (w, j)
  guardTls : ∀ u c w i, s.guards u c = some (w, i) → s.tls u c = w ∧ w ∈ s.wrappers c
  readerTls : ∀ u c w, (s.pc u = .beginRead c w ∨ s.pc u = .loadIndex c w) →
    s.tls u c = w ∧ w ∈ s.wrappers c
  readingGuard : ∀ u c, (s.pc u).reading c → s.guards u c = none
  exitGuard : ∀ u c, (s.pc u).atExit → s.guards u c = none
  /-- Nothing but its destructor touches a destroyed container. -/
  dead : ∀ c u, s.alive c = false →
    s.guards u c = none ∧ ((s.pc u).cid = some c → (s.pc u).dtorOf c)
  dtorDead : ∀ u c, (s.pc u).dtorOf c → s.alive c = false
  dtorAlone : ∀ c u v, (s.pc u).dtorOf c → (s.pc v).cid = some c → v = u
  regNodup : ∀ c, (s.wrappers c).Nodup
  regBound : ∀ c w, w ∈ s.wrappers c → 0 < w ∧ w < s.next
  regLive : ∀ c w, s.alive c → w ∈ s.wrappers c → s.live w ∧ s.control w = some c
  regDisjoint : ∀ c c' w, w ∈ s.wrappers c → w ∈ s.wrappers c' → c = c'
  tlsUnique : ∀ u v c c', s.tls u c ≠ 0 → s.tls u c = s.tls v c' → u = v ∧ c = c'
  tlsBound : ∀ u c, s.tls u c < s.next
  tlsReg : ∀ u c, s.alive c → s.tls u c ≠ 0 → s.tls u c ∈ s.wrappers c
  fresh : ∀ w, s.next ≤ w → s.live w = false
  nextPos : 0 < s.next
  /-- Every address `new` returned and that is no longer live was deleted once. -/
  frees : ∀ w, s.frees w = if 0 < w ∧ w < s.next ∧ s.live w = false then 1 else 0
  /-- Every live `Wrapper` is registered, or some thread holds it. -/
  liveOwned : ∀ w, s.live w → (∃ c, w ∈ s.wrappers c) ∨ ∃ u, (s.pc u).owned = some w
  ownedUnique : ∀ u v w, (s.pc u).owned = some w → (s.pc v).owned = some w → u = v
  ownedNotTls : ∀ u w, (s.pc u).owned = some w → ∀ v c, s.tls v c ≠ w
  ownedLive : ∀ u w, (s.pc u).owned = some w → s.live w ∧ 0 < w ∧ w < s.next
  ownedAt : ∀ u, OwnedAt s (s.pc u)
  dtorAt : ∀ u, DtorAt s (s.pc u)
  bgAt : ∀ u, BgAt s (s.pc u)
  /-- A `ScopedPtr` points at the foreground, unless a writer has published past it and has
  not yet waited for its reader. -/
  stale : ∀ u c w i, s.guards u c = some (w, i) →
    i = s.index c ∨ ∃ v, (s.pc v).draining s.wrappers c w

theorem Inv.init (x : Cid → T) (created : Cid → Bool) : Inv (Sys.init x created) := by
  constructor <;> intros <;> simp_all [Sys.init, HoldsMutex, Pc.holdsModify, Pc.holdsWrappers,
    Pc.locks, Pc.reading, Pc.atExit, Pc.dtorOf, Pc.cid, Pc.owned, OwnedAt, DtorAt, BgAt]
  case frees => split_ifs <;> omega

end PublicComponent.Dbd
