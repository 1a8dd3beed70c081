import PublicComponent.Dbd.Wrappers
import PublicComponent.Dbd.Modify

/-!
`DoublyBufferedData` as a system of threads sharing any number of containers.

Every thread runs `Read`, `~ScopedPtr`, `Modify`, `~DoublyBufferedData` and its own exit, one
atomic step at a time, and the steps of all threads interleave in any order. A step is one
lock operation, one load or store of shared data, or one call of `fn`; code that touches only
the thread's own locals is merged into the step before it. The state holds each container's
members (each field of `Sys` is named after the member it stands for), the heap of
`Wrapper`s, and each thread's program counter, its thread-local slots under each container's
`_wrapper_key`, and the `ScopedPtr`s it holds: its `_w` and the slot its `_data` points to.

A program counter is named after the statement the thread stands before: `read` before
`if (!_created_key)`, `addWrapper` before `new (std::nothrow)`, `pushLock` and `pushBack`
before the scoped lock and the `push_back` of `AddWrapper`, then `setSpecific`, `beginRead`
and `loadIndex` for `pthread_setspecific`, `w->BeginRead()` and `UnsafeRead()`. `modLock` to
`modReturn` are the statements of `Modify` in order; `modWait` stands at `_wrappers[i]` of the
drain loop and `modWaitDone` inside its `WaitReadDone`. `wrapperDtor`, `removeLock` and
`removeScan` run `~Wrapper` and `RemoveWrapper`, and `After` says where `~Wrapper` returns:
to a failed `Read`, to the thread's exit, or to the loop of `~DoublyBufferedData`. A step is
named after the statement it runs and, where the code branches, after the outcome.

A mutex is the thread holding it; a step that locks one is enabled only while it is free, so
a thread blocked on a lock is one with no step. The platform calls that may fail
(`new (std::nothrow)`, `push_back`, `pthread_setspecific`) have one step for each outcome:
after a throwing `push_back` the `unique_ptr` deletes the new `Wrapper`, and after a failing
`pthread_setspecific` it stays in `_wrappers`. At exit, each key of a live container that has
a value is set to `NULL` and its destructor deletes the `Wrapper`. A `Wrapper*` is its address
in a heap where addresses are never reused: `next` is the next one `new` returns, and `0` is
`NULL`. `A` is the set of callables writers pass to `Modify`.
-/

namespace PublicComponent.Dbd

open Function

abbrev Tid := Nat

abbrev Cid := Nat

variable {T : Type}

/-- Where `~Wrapper` returns to. -/
inductive After
  | readFail (c : Cid)
  | exit (c : Cid)
  | dtor (c : Cid) (i : Nat)
  deriving DecidableEq, Repr

def After.cid : After → Cid
  | .readFail c | .exit c | .dtor c _ => c

/-- Where a thread is. `c` is the container, `w` a `Wrapper*`, `fn` the callable of a `Modify`,
`bg` its `bg_index`, `ret` and `ret2` the results of its two calls, `i` a loop index. -/
inductive Pc (T : Type)
  | idle
  | exited
  | read (c : Cid)
  | addWrapper (c : Cid)
  | pushLock (c : Cid) (w : Nat)
  | pushBack (c : Cid) (w : Nat)
  | setSpecific (c : Cid) (w : Nat)
  | beginRead (c : Cid) (w : Nat)
  | loadIndex (c : Cid) (w : Nat)
  | wrapperDtor (w : Nat) (k : After)
  | removeLock (c : Cid) (w : Nat) (k : After)
  | removeScan (c : Cid) (w : Nat) (k : After)
  | modLock (c : Cid) (fn : Fn T)
  | modLoad (c : Cid) (fn : Fn T)
  | modFn1 (c : Cid) (fn : Fn T) (bg : Bool)
  | modStore (c : Cid) (fn : Fn T) (bg : Bool) (ret : Nat)
  | modDrainLock (c : Cid) (fn : Fn T) (bg : Bool) (ret : Nat)
  | modWait (c : Cid) (fn : Fn T) (bg : Bool) (ret : Nat) (i : Nat)
  | modWaitDone (c : Cid) (fn : Fn T) (bg : Bool) (ret : Nat) (i : Nat)
  | modFn2 (c : Cid) (fn : Fn T) (bg : Bool) (ret : Nat)
  | modReturn (c : Cid) (ret ret2 : Nat)
  | exiting
  | dtorLock (c : Cid)
  | dtorLoop (c : Cid) (i : Nat)

def After.resume : After → Pc T
  | .readFail _ => .idle
  | .exit _ => .exiting
  | .dtor c i => .dtorLoop c (i + 1)

def Pc.cid : Pc T → Option Cid
  | .idle | .exited | .exiting => none
  | .read c | .addWrapper c | .pushLock c _ | .pushBack c _ | .setSpecific c _
  | .beginRead c _ | .loadIndex c _ => some c
  | .wrapperDtor _ k => some k.cid
  | .removeLock c _ _ | .removeScan c _ _ => some c
  | .modLock c _ | .modLoad c _ | .modFn1 c _ _ | .modStore c _ _ _ | .modDrainLock c _ _ _
  | .modWait c _ _ _ _ | .modWaitDone c _ _ _ _ | .modFn2 c _ _ _ | .modReturn c _ _ => some c
  | .dtorLock c | .dtorLoop c _ => some c

/-- The whole system: the members of every container, the heap of `Wrapper`s, and every
thread. `alive c` says that `c`'s `_wrapper_key` is not yet deleted, `live w` that the
`Wrapper` at `w` is allocated, and `frees w` how many times it was deleted. -/
structure Sys (T : Type) where
  data : Cid → Bool → T
  index : Cid → Bool
  createdKey : Cid → Bool
  alive : Cid → Bool
  wrappers : Cid → List Nat
  wrappersMutex : Cid → Option Tid
  modifyMutex : Cid → Option Tid
  live : Nat → Bool
  control : Nat → Option Cid
  mutex : Nat → Option Tid
  next : Nat
  frees : Nat → Nat
  tls : Tid → Cid → Nat
  guards : Tid → Cid → Option (Nat × Bool)
  pc : Tid → Pc T

def Sys.init (x : Cid → T) (created : Cid → Bool) : Sys T where
  data c _ := x c
  index _ := false
  createdKey := created
  alive _ := true
  wrappers _ := []
  wrappersMutex _ := none
  modifyMutex _ := none
  live _ := false
  control _ := none
  mutex _ := none
  next := 1
  frees _ := 0
  tls _ _ := 0
  guards _ _ := none
  pc _ := .idle

namespace Sys

variable (s : Sys T)

def setPc (t : Tid) (p : Pc T) : Sys T := { s with pc := update s.pc t p }

/-- `new Wrapper(this)` on container `c`: a fresh address, `_control` set, `_mutex` free. -/
def alloc (c : Cid) : Sys T :=
  { s with live := update s.live s.next true, control := update s.control s.next (some c),
           mutex := update s.mutex s.next none, next := s.next + 1 }

def free (w : Nat) : Sys T :=
  { s with live := update s.live w false, frees := update s.frees w (s.frees w + 1) }

/-- No thread is inside a call on `c` or holds a `ScopedPtr` of it: the synchronisation the
comment of `~DoublyBufferedData` leaves to the user. -/
def Quiet (c : Cid) : Prop := ∀ u, (s.pc u).cid ≠ some c ∧ s.guards u c = none

end Sys

/-- One atomic step of thread `t`. -/
inductive Step (A : Fn T → Prop) : Sys T → Tid → Sys T → Prop
  | callRead {s t c} (h : s.pc t = .idle) (ha : s.alive c) (hg : s.guards t c = none) :
      Step A s t (s.setPc t (.read c))
  | readNoKey {s t c} (h : s.pc t = .read c) (hk : s.createdKey c = false) :
      Step A s t (s.setPc t .idle)
  | readHit {s t c} (h : s.pc t = .read c) (hk : s.createdKey c) (hw : s.tls t c ≠ 0) :
      Step A s t (s.setPc t (.beginRead c (s.tls t c)))
  | readMiss {s t c} (h : s.pc t = .read c) (hk : s.createdKey c) (hw : s.tls t c = 0) :
      Step A s t (s.setPc t (.addWrapper c))
  | newFail {s t c} (h : s.pc t = .addWrapper c) : Step A s t (s.setPc t .idle)
  | newOk {s t c} (h : s.pc t = .addWrapper c) :
      Step A s t ((s.alloc c).setPc t (.pushLock c s.next))
  | pushLock {s t c w} (h : s.pc t = .pushLock c w) (hm : s.wrappersMutex c = none) :
      Step A s t ({ s with wrappersMutex := update s.wrappersMutex c (some t) }.setPc t
        (.pushBack c w))
  | pushOk {s t c w} (h : s.pc t = .pushBack c w) :
      Step A s t ({ s with wrappers := update s.wrappers c (s.wrappers c ++ [w]),
                           wrappersMutex := update s.wrappersMutex c none }.setPc t
        (.setSpecific c w))
  | pushThrow {s t c w} (h : s.pc t = .pushBack c w) :
      Step A s t ({ s with wrappersMutex := update s.wrappersMutex c none }.setPc t
        (.wrapperDtor w (.readFail c)))
  | setOk {s t c w} (h : s.pc t = .setSpecific c w) :
      Step A s t ({ s with tls := update s.tls t (update (s.tls t) c w) }.setPc t
        (.beginRead c w))
  | setFail {s t c w} (h : s.pc t = .setSpecific c w) : Step A s t (s.setPc t .idle)
  | beginRead {s t c w} (h : s.pc t = .beginRead c w) (hm : s.mutex w = none) :
      Step A s t ({ s with mutex := update s.mutex w (some t) }.setPc t (.loadIndex c w))
  | loadIndex {s t c w} (h : s.pc t = .loadIndex c w) :
      Step A s t ({ s with guards := update s.guards t (update (s.guards t) c
        (some (w, s.index c))) }.setPc t .idle)
  | release {s t c w i} (h : s.pc t = .idle) (hg : s.guards t c = some (w, i)) :
      Step A s t { s with mutex := update s.mutex w none,
                          guards := update s.guards t (update (s.guards t) c none) }
  | dtorSkip {s t w k} (h : s.pc t = .wrapperDtor w k) (hc : s.control w = none) :
      Step A s t ((s.free w).setPc t k.resume)
  | dtorRemove {s t w k c} (h : s.pc t = .wrapperDtor w k) (hc : s.control w = some c) :
      Step A s t (s.setPc t (.removeLock c w k))
  | removeLock {s t c w k} (h : s.pc t = .removeLock c w k) (hm : s.wrappersMutex c = none) :
      Step A s t ({ s with wrappersMutex := update s.wrappersMutex c (some t) }.setPc t
        (.removeScan c w k))
  | removeScan {s t c w k} (h : s.pc t = .removeScan c w k) :
      Step A s t (({ s with wrappers := update s.wrappers c (removeWrapper (s.wrappers c) w),
                            wrappersMutex := update s.wrappersMutex c none }.free w).setPc t
        k.resume)
  | callModify {s t c} {fn : Fn T} (h : s.pc t = .idle) (ha : s.alive c) (hf : A fn) :
      Step A s t (s.setPc t (.modLock c fn))
  | modLock {s t c fn} (h : s.pc t = .modLock c fn) (hm : s.modifyMutex c = none) :
      Step A s t ({ s with modifyMutex := update s.modifyMutex c (some t) }.setPc t
        (.modLoad c fn))
  | modLoad {s t c fn} (h : s.pc t = .modLoad c fn) :
      Step A s t (s.setPc t (.modFn1 c fn (!s.index c)))
  | modFn1Zero {s t c fn bg} (h : s.pc t = .modFn1 c fn bg) (hr : (fn bg (s.data c)).2 = 0) :
      Step A s t ({ s with
        data := update s.data c (update (s.data c) bg (fn bg (s.data c)).1) }.setPc t
        (.modReturn c 0 0))
  | modFn1 {s t c fn bg} (h : s.pc t = .modFn1 c fn bg) (hr : (fn bg (s.data c)).2 ≠ 0) :
      Step A s t ({ s with
        data := update s.data c (update (s.data c) bg (fn bg (s.data c)).1) }.setPc t
        (.modStore c fn bg (fn bg (s.data c)).2))
  | modStore {s t c fn bg ret} (h : s.pc t = .modStore c fn bg ret) :
      Step A s t ({ s with index := update s.index c bg }.setPc t (.modDrainLock c fn (!bg) ret))
  | modDrainLock {s t c fn bg ret} (h : s.pc t = .modDrainLock c fn bg ret)
      (hm : s.wrappersMutex c = none) :
      Step A s t ({ s with wrappersMutex := update s.wrappersMutex c (some t) }.setPc t
        (.modWait c fn bg ret 0))
  | modWaitLock {s t c fn bg ret i w} (h : s.pc t = .modWait c fn bg ret i)
      (hw : (s.wrappers c)[i]? = some w) (hm : s.mutex w = none) :
      Step A s t ({ s with mutex := update s.mutex w (some t) }.setPc t
        (.modWaitDone c fn bg ret i))
  | modWaitDone {s t c fn bg ret i w} (h : s.pc t = .modWaitDone c fn bg ret i)
      (hw : (s.wrappers c)[i]? = some w) :
      Step A s t ({ s with mutex := update s.mutex w none }.setPc t
        (.modWait c fn bg ret (i + 1)))
  | modWaitEnd {s t c fn bg ret i} (h : s.pc t = .modWait c fn bg ret i)
      (hi : (s.wrappers c).length ≤ i) :
      Step A s t ({ s with wrappersMutex := update s.wrappersMutex c none }.setPc t
        (.modFn2 c fn bg ret))
  | modFn2 {s t c fn bg ret} (h : s.pc t = .modFn2 c fn bg ret) :
      Step A s t ({ s with
        data := update s.data c (update (s.data c) bg (fn bg (s.data c)).1) }.setPc t
        (.modReturn c ret (fn bg (s.data c)).2))
  | modReturn {s t c ret ret2} (h : s.pc t = .modReturn c ret ret2) :
      Step A s t ({ s with modifyMutex := update s.modifyMutex c none }.setPc t .idle)
  | exitStart {s t} (h : s.pc t = .idle) (hg : ∀ c, s.guards t c = none) :
      Step A s t (s.setPc t .exiting)
  | exitKey {s t c} (h : s.pc t = .exiting) (ha : s.alive c) (hw : s.tls t c ≠ 0) :
      Step A s t ({ s with tls := update s.tls t (update (s.tls t) c 0) }.setPc t
        (.wrapperDtor (s.tls t c) (.exit c)))
  | exitDone {s t} (h : s.pc t = .exiting) (hw : ∀ c, s.alive c → s.tls t c = 0) :
      Step A s t (s.setPc t .exited)
  | callDtor {s t c} (h : s.pc t = .idle) (ha : s.alive c) (hq : s.Quiet c) :
      Step A s t ({ s with alive := update s.alive c false }.setPc t (.dtorLock c))
  | dtorLock {s t c} (h : s.pc t = .dtorLock c) (hm : s.wrappersMutex c = none) :
      Step A s t ({ s with wrappersMutex := update s.wrappersMutex c (some t) }.setPc t
        (.dtorLoop c 0))
  | dtorNext {s t c i w} (h : s.pc t = .dtorLoop c i) (hw : (s.wrappers c)[i]? = some w) :
      Step A s t ({ s with control := update s.control w none }.setPc t
        (.wrapperDtor w (.dtor c i)))
  | dtorEnd {s t c i} (h : s.pc t = .dtorLoop c i) (hi : (s.wrappers c).length ≤ i) :
      Step A s t ({ s with wrappers := update s.wrappers c [],
                           wrappersMutex := update s.wrappersMutex c none }.setPc t .idle)

/-- The states some interleaving reaches from some initial state. -/
inductive Reach (A : Fn T → Prop) : Sys T → Prop
  | init (x : Cid → T) (created : Cid → Bool) : Reach A (Sys.init x created)
  | step {s s' t} : Reach A s → Step A s t s' → Reach A s'

end PublicComponent.Dbd
