import Mathlib.Logic.Function.Basic

/-!
`scoped_lock.h`: `std::lock_guard` and `std::unique_lock` for `pthread_mutex_t` and
`pthread_spinlock_t`, in a process whose threads share locks.

A lock is free or held by one thread. A lock call (`pthread_mutex_lock`, `pthread_spin_lock`)
by `t` returns `0` once it has taken the lock, which it can only do while the lock is free: it
waits while another thread holds it. On a lock `t` holds it waits forever or, for an
error-checking mutex, returns `EDEADLK`; on `NULL` it returns an error (POSIX's `EINVAL`). A
trylock takes a free lock and fails on any other. An unlock call frees a lock its thread holds;
an unlock call on a lock the thread does not hold, or on `NULL`, is undefined, and the model
records it. The code of a thread may also lock and unlock a lock by hand. `debug` is a build
without `NDEBUG`.

The specialisations for `pthread_mutex_t` and for `pthread_spinlock_t` differ only in the
calls they make, which behave alike here, and in the text they print when a lock call fails:
each is the shared definition applied to its own text (`lockGuardPthreadMutex`,
`lockPthreadSpinlock`, ...). `uniqueLockDefault`, `uniqueLockLock`, `uniqueLockDefer`,
`uniqueLockTry` and `uniqueLockAdopt` are the constructors of `unique_lock` taking nothing, a
mutex, and a mutex with `defer_lock`, `try_to_lock` or `adopt_lock`; the member functions keep
their names (`tryLock`, `unlockMember` for `unlock`, `swap`, `release`).
-/

namespace PublicComponent.Lock

open Function

abbrev Tid := Nat

abbrev Lid := Nat

/-- A lock object, in the scope of the thread `thread`: a `lock_guard` and its `_pmutex`
(`_pspin`), or a `unique_lock` and its `_mutex` and `_owns_lock`; `none` is `NULL`. -/
inductive Obj
  | guard (thread : Tid) (pmutex : Option Lid)
  | unique (thread : Tid) (mutex : Option Lid) (ownsLock : Bool)
  deriving DecidableEq, Repr

namespace Obj

def thread : Obj → Tid
  | guard t _ | unique t _ _ => t

/-- The lock the object will unlock when it goes. -/
def owns : Obj → Option Lid
  | guard _ pmutex => pmutex
  | unique _ mutex ownsLock => if ownsLock then mutex else none

/-- A `unique_lock` that owns a lock has one: its destructor does not unlock `NULL`. -/
def Sound : Obj → Prop
  | unique _ mutex true => mutex.isSome
  | _ => True

end Obj

/-- The process: the thread holding each lock, the locks the code of a thread took by hand, the
lock objects alive by address, what went to `std::cerr`, and the unlock calls on a lock the
calling thread did not hold or on `NULL`. -/
structure St where
  holder : Lid → Option Tid
  raw : Lid → Option Tid
  objs : Nat → Option Obj
  cerr : List String
  bad : List (Tid × Option Lid)

namespace St

/-- What a lock call by `t` on `m` returns, if it returns now: `true` for `0`. `errorcheck`
tells the error-checking mutexes. -/
def lockRc (s : St) (errorcheck : Lid → Bool) (t : Tid) : Option Lid → Option Bool
  | none => some false
  | some l => match s.holder l with
    | none => some true
    | some u => if u = t ∧ errorcheck l then some false else none

def tryRc (s : St) : Option Lid → Bool
  | none => false
  | some l => (s.holder l).isNone

def lockCall (s : St) (t : Tid) (m : Option Lid) (ok : Bool) : St :=
  match m, ok with
  | some l, true => { s with holder := update s.holder l (some t) }
  | _, _ => s

def unlockCall (s : St) (t : Tid) : Option Lid → St
  | some l =>
    if s.holder l = some t then { s with holder := update s.holder l none }
    else { s with bad := s.bad ++ [(t, some l)] }
  | none => { s with bad := s.bad ++ [(t, none)] }

def setObj (s : St) (i : Nat) (o : Option Obj) : St := { s with objs := update s.objs i o }

def setRaw (s : St) (l : Lid) (t : Option Tid) : St := { s with raw := update s.raw l t }

def say (s : St) (msg : String) : St := { s with cerr := s.cerr ++ [msg] }

variable {s : St} {t : Tid} {m : Option Lid} {ok : Bool} {i : Nat} {o : Option Obj} {l : Lid}
  {r : Option Tid} {msg : String}

@[simp] lemma lockCall_false : s.lockCall t m false = s := by cases m <;> rfl

@[simp] lemma lockCall_objs : (s.lockCall t m ok).objs = s.objs := by
  unfold lockCall; split <;> rfl

@[simp] lemma lockCall_raw : (s.lockCall t m ok).raw = s.raw := by unfold lockCall; split <;> rfl

@[simp] lemma lockCall_bad : (s.lockCall t m ok).bad = s.bad := by unfold lockCall; split <;> rfl


@[simp] lemma lockCall_holder : (s.lockCall t (some l) true).holder = update s.holder l (some t) :=
  rfl

@[simp] lemma unlockCall_objs : (s.unlockCall t m).objs = s.objs := by
  unfold unlockCall; split <;> (try split) <;> rfl

@[simp] lemma unlockCall_raw : (s.unlockCall t m).raw = s.raw := by
  unfold unlockCall; split <;> (try split) <;> rfl


lemma unlockCall_held (h : s.holder l = some t) :
    (s.unlockCall t (some l)).holder = update s.holder l none ∧ (s.unlockCall t (some l)).bad = s.bad := by
  simp [unlockCall, h]

lemma unlockCall_free (h : s.holder l = none) :
    (s.unlockCall t (some l)).bad = s.bad ++ [(t, some l)] := by
  simp [unlockCall, h]

@[simp] lemma setObj_objs : (s.setObj i o).objs = update s.objs i o := rfl
@[simp] lemma setObj_holder : (s.setObj i o).holder = s.holder := rfl
@[simp] lemma setObj_raw : (s.setObj i o).raw = s.raw := rfl
@[simp] lemma setObj_bad : (s.setObj i o).bad = s.bad := rfl

@[simp] lemma setRaw_objs : (s.setRaw l r).objs = s.objs := rfl
@[simp] lemma setRaw_holder : (s.setRaw l r).holder = s.holder := rfl
@[simp] lemma setRaw_raw : (s.setRaw l r).raw = update s.raw l r := rfl
@[simp] lemma setRaw_bad : (s.setRaw l r).bad = s.bad := rfl

@[simp] lemma say_objs : (s.say msg).objs = s.objs := rfl
@[simp] lemma say_holder : (s.say msg).holder = s.holder := rfl
@[simp] lemma say_raw : (s.say msg).raw = s.raw := rfl
@[simp] lemma say_bad : (s.say msg).bad = s.bad := rfl

lemma lockRc_some {ec : Lid → Bool} (hn : ec l = false) (h : s.lockRc ec t (some l) = some ok) :
    ok = true ∧ s.holder l = none := by
  simp only [lockRc] at h
  cases hh : s.holder l with
  | none => simp_all
  | some u => simp [hh, hn] at h

lemma lockRc_fail {ec : Lid → Bool} (h : s.lockRc ec t m = some false) :
    m = none ∨ ∃ l, m = some l ∧ s.holder l = some t ∧ ec l = true := by
  cases m with
  | none => exact .inl rfl
  | some l =>
    simp only [lockRc] at h
    cases hh : s.holder l with
    | none => simp [hh] at h
    | some u =>
      simp only [hh, Option.ite_none_right_eq_some, Option.some.injEq] at h
      exact .inr ⟨l, rfl, h.1.1 ▸ hh, h.1.2⟩

end St

open St

/-! ### `lock_guard` -/

/-- `lock_guard(mutex)`, for the object at `i` in the scope of `t`, the lock call returning `0`
when `ok`. Without `NDEBUG` a failed lock call is printed and leaves `_pmutex` `NULL`; with it,
the result is not read. -/
def lockGuard (msg : String) (debug : Bool) (t : Tid) (i : Nat) (l : Lid) (ok : Bool) (s : St) :
    St :=
  let s := s.lockCall t (some l) ok
  if debug && !ok then (s.say msg).setObj i (some (.guard t none))
  else s.setObj i (some (.guard t (some l)))

def lockGuardPthreadMutex : Bool → Tid → Nat → Lid → Bool → St → St :=
  lockGuard "Fail to lock pthread_mutex_t="

def lockGuardPthreadSpinlock : Bool → Tid → Nat → Lid → Bool → St → St :=
  lockGuard "Fail to lock pthread_spinlock_t="

/-- `~lock_guard()`: without `NDEBUG` it unlocks `_pmutex` unless `NULL`; with it, always. -/
def guardDtor (debug : Bool) (i : Nat) (s : St) : St :=
  match s.objs i with
  | some (.guard t pmutex) =>
    (if debug && pmutex.isNone then s else s.unlockCall t pmutex).setObj i none
  | _ => s

/-! ### `unique_lock` -/

def uniqueLockDefault (t : Tid) (i : Nat) (s : St) : St := s.setObj i (some (.unique t none false))

/-- `unique_lock(mutex)`: `_owns_lock(true)`, then the lock call, whose result is not read. -/
def uniqueLockLock (t : Tid) (i : Nat) (l : Lid) (ok : Bool) (s : St) : St :=
  (s.setObj i (some (.unique t (some l) true))).lockCall t (some l) ok

def uniqueLockDefer (t : Tid) (i : Nat) (l : Lid) (s : St) : St :=
  s.setObj i (some (.unique t (some l) false))

def uniqueLockTry (t : Tid) (i : Nat) (l : Lid) (s : St) : St :=
  (s.lockCall t (some l) (s.tryRc (some l))).setObj i (some (.unique t (some l) (s.tryRc (some l))))

def uniqueLockAdopt (t : Tid) (i : Nat) (l : Lid) (s : St) : St :=
  s.setObj i (some (.unique t (some l) true))

def uniqueDtor (i : Nat) (s : St) : St :=
  match s.objs i with
  | some (.unique t mutex ownsLock) =>
    (if ownsLock then s.unlockCall t mutex else s).setObj i none
  | _ => s

/-- `unique_lock::lock()`, the lock call returning `0` when `ok`. Without `NDEBUG` a failed lock
call is printed and `_owns_lock` stays `false`; with it, `_owns_lock` is set first and the
result is not read. -/
def lockMember (msg : String) (debug : Bool) (i : Nat) (ok : Bool) (s : St) : St :=
  match s.objs i with
  | some (.unique t mutex ownsLock) =>
    if ownsLock then s.say "Detected deadlock issue"
    else if debug then
      if ok then (s.lockCall t mutex ok).setObj i (some (.unique t mutex true))
      else (s.lockCall t mutex ok).say msg
    else (s.setObj i (some (.unique t mutex true))).lockCall t mutex ok
  | _ => s

def lockPthreadMutex : Bool → Nat → Bool → St → St := lockMember "Fail to lock pthread_mutex="

def lockPthreadSpinlock : Bool → Nat → Bool → St → St := lockMember "Fail to lock pthread_spinlock="

def tryLock (i : Nat) (s : St) : Bool × St :=
  match s.objs i with
  | some (.unique t mutex ownsLock) =>
    if ownsLock then (false, s.say "Detected deadlock issue")
    else (s.tryRc mutex,
      (s.lockCall t mutex (s.tryRc mutex)).setObj i (some (.unique t mutex (s.tryRc mutex))))
  | _ => (false, s)

def unlockMember (i : Nat) (s : St) : St :=
  match s.objs i with
  | some (.unique t mutex ownsLock) =>
    if !ownsLock then s.say "Invalid operation"
    else (s.unlockCall t mutex).setObj i (some (.unique t mutex false))
  | _ => s

def swap (i j : Nat) (s : St) : St :=
  match s.objs i, s.objs j with
  | some (.unique t mutex ownsLock), some (.unique t' mutex' ownsLock') =>
    (s.setObj i (some (.unique t mutex' ownsLock'))).setObj j (some (.unique t' mutex ownsLock))
  | _, _ => s

/-- `unique_lock::release()`: returns `_mutex`, and the object lets go of it. -/
def release (i : Nat) (s : St) : Option Lid × St :=
  match s.objs i with
  | some (.unique t mutex _) => (mutex, s.setObj i (some (.unique t none false)))
  | _ => (none, s)

/-- The destructor of the object at `i`, whichever kind it is. -/
def destroy (debug : Bool) (i : Nat) (s : St) : St :=
  match s.objs i with
  | some (.guard ..) => guardDtor debug i s
  | some (.unique ..) => uniqueDtor i s
  | none => s

end PublicComponent.Lock
