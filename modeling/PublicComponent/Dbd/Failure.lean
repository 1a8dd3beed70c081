import PublicComponent.Dbd.Registry

/-!
The calls of `Read` that return `-1`.

`Read` returns `-1` when the container has no key, when `new (std::nothrow)` returns `NULL`,
when `push_back` throws, and when `pthread_setspecific` fails. Such a call changes neither
`_index` nor a slot nor any thread's value under a key, and takes no `Wrapper::_mutex`. The
first three leave `_wrappers` as it was: after a throwing `push_back` the `unique_ptr` of
`AddWrapper` deletes the new `Wrapper`, and its `RemoveWrapper` finds nothing to remove. The
last returns after `push_back` succeeded: the new `Wrapper` stays in `_wrappers`, live and
pointing at the container, while the thread still has no `Wrapper` under the key. So each such
`Read` makes `_wrappers` one longer, and the thread's next `Read` allocates again.
-/

namespace PublicComponent.Dbd

open Function

variable {T : Type} {A : Fn T → Prop} {s s₀ s' : Sys T} {t : Tid} {c : Cid}

/-- The rest of a call of `t`, with no other thread stepping: steps of `t` that bring it back
to idle only at the last. -/
inductive Call (A : Fn T → Prop) (t : Tid) : Sys T → Sys T → Prop
  | last {s s'} : Step A s t s' → s'.pc t = .idle → Call A t s s'
  | more {s s₁ s'} : Step A s t s₁ → s₁.pc t ≠ .idle → Call A t s₁ s' → Call A t s s'

/-- `t`, idle and holding no `ScopedPtr` of the live container `c`, calls `Read` on it, and the
call, run with no other thread stepping, returns `-1`: it ends holding no `ScopedPtr` of `c`. -/
def FailedRead (A : Fn T → Prop) (t : Tid) (c : Cid) (s s' : Sys T) : Prop :=
  s.pc t = .idle ∧ s.alive c ∧ s.guards t c = none ∧ Call A t (s.setPc t (.read c)) s' ∧
    s'.guards t c = none

/-- What no step of a failing `Read` by `t` changes: the slots, `_index`, every thread's value
under every key, and the `Wrapper::_mutex`es `t` holds. -/
def Kept (s₀ s : Sys T) (t : Tid) : Prop :=
  s.data = s₀.data ∧ s.index = s₀.index ∧ s.tls = s₀.tls ∧
    ∀ w, s.mutex w = some t → s₀.mutex w = some t

/-- `w` is the new `Wrapper` of a `Read` of `c` begun in `s₀`: in no `_wrappers` then, live now
and pointing at `c`. -/
def Fresh (s₀ s : Sys T) (c : Cid) (w : Nat) : Prop :=
  (∀ c', w ∉ s₀.wrappers c') ∧ s.live w ∧ s.control w = some c

/-- What a `Read` of `c` by `t`, begun in `s₀`, has done when it returns `-1` in `s`: it kept the
container, or it pushed onto `_wrappers` a new `Wrapper` that `t` does not hold under the key. -/
def ReadFailed (s₀ s : Sys T) (t : Tid) (c : Cid) : Prop :=
  Kept s₀ s t ∧ (s.wrappers = s₀.wrappers ∨ ∃ w, s₀.tls t c = 0 ∧ Fresh s₀ s c w ∧
    s.wrappers = update s₀.wrappers c (s₀.wrappers c ++ [w]))

/-- Where a `Read` of `c` by `t`, begun in `s₀`, is, and what it has done so far. Past
`BeginRead` it can only succeed. -/
def ReadAt (s₀ s : Sys T) (t : Tid) (c : Cid) : Pc T → Prop
  | .idle => s.guards t c = none → ReadFailed s₀ s t c
  | .read c' => c' = c ∧ Kept s₀ s t ∧ s.wrappers = s₀.wrappers
  | .addWrapper c' => c' = c ∧ Kept s₀ s t ∧ s.wrappers = s₀.wrappers ∧ s₀.tls t c = 0
  | .pushLock c' w | .pushBack c' w =>
    c' = c ∧ Kept s₀ s t ∧ s.wrappers = s₀.wrappers ∧ s₀.tls t c = 0 ∧ Fresh s₀ s c w
  | .setSpecific c' w => c' = c ∧ Kept s₀ s t ∧
    s.wrappers = update s₀.wrappers c (s₀.wrappers c ++ [w]) ∧ s₀.tls t c = 0 ∧ Fresh s₀ s c w
  | .wrapperDtor w k | .removeLock _ w k | .removeScan _ w k =>
    k = .readFail c ∧ Kept s₀ s t ∧ s.wrappers = s₀.wrappers ∧ ∀ c', w ∉ s₀.wrappers c'
  | .beginRead c' _ | .loadIndex c' _ => c' = c
  | _ => False

lemma Kept.alloc (hk : Kept s₀ s t) (c' : Cid) : Kept s₀ (s.alloc c') t :=
  ⟨hk.1, hk.2.1, hk.2.2.1, fun w hw => hk.2.2.2 w <| by
    by_cases hn : w = s.next
    · subst hn; simp [Sys.alloc] at hw
    · simpa [Sys.alloc, update_noteq hn] using hw⟩

lemma ReadAt.step (hI : Inv s) (hs : ReadAt s₀ s t c (s.pc t)) (h : Step A s t s')
    (hne : s.pc t ≠ .idle) : ReadAt s₀ s' t c (s'.pc t) := by
  cases h
  case release h₀ _ => exact absurd h₀ hne
  all_goals rw [Sys.setPc_pc_self]; rw [‹s.pc t = _›] at hs
  case readNoKey => exact fun _ => ⟨hs.2.1, .inl hs.2.2⟩
  case readHit => exact hs.1
  case readMiss hw =>
    obtain ⟨rfl, hk, hw'⟩ := hs
    exact ⟨rfl, hk, hw', hk.2.2.1 ▸ hw⟩
  case newFail => exact fun _ => ⟨hs.2.1, .inl hs.2.2.1⟩
  case newOk c₀ _ =>
    obtain ⟨rfl, hk, hw, h0⟩ := hs
    refine ⟨rfl, hk.alloc c₀, hw, h0, fun c' hm => ?_, by simp [Sys.alloc, Sys.setPc],
      by simp [Sys.alloc, Sys.setPc]⟩
    exact absurd (hI.regBound c' _ (hw ▸ hm)).2 (lt_irrefl _)
  case pushLock => exact hs
  case pushOk =>
    obtain ⟨rfl, hk, hw, h0, hf⟩ := hs
    exact ⟨rfl, hk, by rw [← hw]; rfl, h0, hf⟩
  case pushThrow => exact ⟨hs.1 ▸ rfl, hs.2.1, hs.2.2.1, hs.2.2.2.2.1⟩
  case setOk => exact hs.1
  case setFail => exact fun _ => ⟨hs.2.1, .inr ⟨_, hs.2.2.2.1, hs.2.2.2.2, hs.2.2.1⟩⟩
  case beginRead => exact hs
  case loadIndex => rintro hg; rw [hs] at hg; simp [Sys.setPc] at hg
  case dtorSkip =>
    obtain ⟨rfl, hk, hw, -⟩ := hs
    exact fun _ => ⟨hk, .inl hw⟩
  case dtorRemove => exact hs
  case removeLock => exact hs
  case removeScan c' _ _ _ =>
    obtain ⟨rfl, hk, hw, hn⟩ := hs
    refine fun _ => ⟨hk, .inl ?_⟩
    simp only [Sys.free, Sys.setPc, hw, removeWrapper_of_not_mem (hn c'), update_eq_self]
  all_goals first | exact absurd ‹s.pc t = _› hne | exact hs.elim

lemma FailedRead.exists_setFail (hp : s.pc t = .idle) (ha : s.alive c)
    (hg : s.guards t c = none) (hk : s.createdKey c) (hw : s.tls t c = 0)
    (hm : s.wrappersMutex c = none) :
    ∃ s', FailedRead A t c s s' ∧ s'.pc t = .idle ∧ s'.alive = s.alive ∧
      s'.guards = s.guards ∧ s'.createdKey = s.createdKey ∧ s'.tls = s.tls ∧
      s'.wrappersMutex = s.wrappersMutex ∧ s'.wrappers c = s.wrappers c ++ [s.next] := by
  refine ⟨_, ⟨hp, ha, hg, .more (.readMiss (c := c) (by simp) hk hw) (by simp) <|
    .more (.newOk (c := c) (by simp)) (by simp) <|
    .more (.pushLock (c := c) (w := s.next) (by simp [Sys.setPc]) (by simpa [Sys.alloc, Sys.setPc]))
      (by simp) <|
    .more (.pushOk (c := c) (w := s.next) (by simp)) (by simp) <|
    .last (.setFail (c := c) (w := s.next) (by simp)) (by simp), by simpa [Sys.alloc, Sys.setPc]⟩,
    by simp, ?_, ?_, ?_, ?_, ?_, by simp [Sys.alloc, Sys.setPc]⟩
  all_goals try (simp only [Sys.alloc, Sys.setPc]; done)
  funext c'
  by_cases hc : c' = c
  · subst hc; simp [Sys.alloc, Sys.setPc, hm]
  · simp [Sys.alloc, Sys.setPc, update_noteq hc]

lemma failedReads_from (hp : s.pc t = .idle) (ha : s.alive c) (hg : s.guards t c = none)
    (hk : s.createdKey c) (hw : s.tls t c = 0) (hm : s.wrappersMutex c = none) (n : Nat) :
    ∃ s', Relation.ReflTransGen (FailedRead A t c) s s' ∧
      (s'.wrappers c).length = (s.wrappers c).length + n := by
  induction n generalizing s with
  | zero => exact ⟨s, .refl, rfl⟩
  | succ n ih =>
    obtain ⟨s₁, hf, hp₁, ha₁, hg₁, hk₁, hw₁, hm₁, hws⟩ :=
      FailedRead.exists_setFail (A := A) hp ha hg hk hw hm
    obtain ⟨s', hrun, hlen⟩ := ih hp₁ (ha₁ ▸ ha) (hg₁ ▸ hg) (hk₁ ▸ hk) (hw₁ ▸ hw) (hm₁ ▸ hm)
    refine ⟨s', .head hf hrun, ?_⟩
    rw [hlen, hws, List.length_append, List.length_singleton]
    omega

/-- **Failing `Read`s pile up in `_wrappers`.** On a container with its key, every number `n`
of `Read`s by one thread whose `pthread_setspecific` fails returns `-1` each time and leaves
`_wrappers` with `n` elements where it had none. -/
theorem failedReads_grow_wrappers (n : Nat) :
    ∃ s, Relation.ReflTransGen (FailedRead (fun _ => True) 0 0)
      (Sys.init (T := Nat) (fun _ => 0) fun _ => true) s ∧ (s.wrappers 0).length = n := by
  obtain ⟨s, hrun, hlen⟩ := failedReads_from (A := fun _ => True)
    (s := Sys.init (fun _ => 0) fun _ => true) (t := 0) (c := 0) rfl rfl rfl rfl rfl rfl n
  exact ⟨s, hrun, hlen.trans (Nat.zero_add n)⟩

end PublicComponent.Dbd
