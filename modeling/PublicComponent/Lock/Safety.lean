import PublicComponent.Lock.Scoped
import Mathlib.Logic.Equiv.Basic

/-!
What the lock objects are for: a held lock is given back once, by the party that holds it.

Each held lock has one party that will unlock it: a lock object of the holding thread that owns
it, or the code of that thread that took it by hand (`unique_lock::release()` hands a lock to
that code, `adopt_lock` takes it from it). In a build without `NDEBUG`, with ordinary mutexes
and spinlocks, every run keeps this, whatever the threads do with their lock objects, and no
unlock call is ever made on a lock its thread does not hold. A lock call that fails is where
the builds part: without `NDEBUG`, `lock()` and `lock_guard` see the failure; with it, and in
the constructor `unique_lock(mutex)` in both builds, the object claims a lock it did not get,
and as the scopes end a lock its thread does not hold is unlocked.
-/

namespace PublicComponent.Lock

open Function St

/-! ### Exclusive claims -/

/-- Every claim (`C l t k`: party `k` of thread `t` will unlock `l`) is of a lock its thread
holds, a lock has one claim at most, and a held lock has one. -/
structure Exclusive (H : Lid → Option Tid) (C : Lid → Tid → Option Nat → Prop) : Prop where
  holds : ∀ l t k, C l t k → H l = some t
  one : ∀ l t k k', C l t k → C l t k' → k = k'
  claimed : ∀ l t, H l = some t → ∃ k, C l t k

section Exclusive

variable {H : Lid → Option Tid} {C C' : Lid → Tid → Option Nat → Prop} {l : Lid} {t : Tid}
  {k k₁ : Option Nat}

lemma Exclusive.perm (h : Exclusive H C) (σ : Option Nat → Option Nat) (hσ : Involutive σ)
    (hC : ∀ l t k, C' l t k ↔ C l t (σ k)) : Exclusive H C' where
  holds l t k hc := h.holds l t _ ((hC l t k).1 hc)
  one l t k k' hc hc' := hσ.injective (h.one l t _ _ ((hC l t k).1 hc) ((hC l t k').1 hc'))
  claimed l t hh := let ⟨k, hk⟩ := h.claimed l t hh; ⟨σ k, (hC l t _).2 (by rwa [hσ])⟩

lemma Exclusive.congr (h : Exclusive H C) (hC : ∀ l t k, C' l t k ↔ C l t k) : Exclusive H C' :=
  h.perm id (fun _ => rfl) hC

lemma Exclusive.acquire (h : Exclusive H C) (hl : H l = none)
    (hC : ∀ l' t' k', C' l' t' k' ↔ C l' t' k' ∨ (l' = l ∧ t' = t ∧ k' = k)) :
    Exclusive (update H l (some t)) C' := by
  have hfree : ∀ t' k', ¬ C l t' k' := fun t' k' hc => by simp [h.holds _ _ _ hc] at hl
  refine ⟨fun l' t' k' hc => ?_, fun l' t' k₂ k₃ h₂ h₃ => ?_, fun l' t' hh => ?_⟩
  · rcases (hC _ _ _).1 hc with hc | ⟨rfl, rfl, rfl⟩
    · rw [update_noteq (by rintro rfl; exact hfree _ _ hc)]
      exact h.holds _ _ _ hc
    · simp
  · rcases (hC _ _ _).1 h₂ with h₂ | ⟨e₂, -, rfl⟩ <;>
      rcases (hC _ _ _).1 h₃ with h₃ | ⟨e₃, -, rfl⟩
    · exact h.one _ _ _ _ h₂ h₃
    · exact absurd (e₃ ▸ h₂) (hfree _ _)
    · exact absurd (e₂ ▸ h₃) (hfree _ _)
    · rfl
  · by_cases hl' : l' = l
    · subst hl'
      obtain rfl : t = t' := by simpa using hh
      exact ⟨k, (hC _ _ _).2 (.inr ⟨rfl, rfl, rfl⟩)⟩
    · rw [update_noteq hl'] at hh
      obtain ⟨k', hk'⟩ := h.claimed _ _ hh
      exact ⟨k', (hC _ _ _).2 (.inl hk')⟩

lemma Exclusive.giveBack (h : Exclusive H C) (hk : C l t k)
    (hC : ∀ l' t' k', C' l' t' k' ↔ C l' t' k' ∧ ¬(l' = l ∧ k' = k)) :
    Exclusive (update H l none) C' := by
  refine ⟨fun l' t' k' hc => ?_, fun l' t' k₁ k₂ h₁ h₂ =>
    h.one _ _ _ _ ((hC _ _ _).1 h₁).1 ((hC _ _ _).1 h₂).1, fun l' t' hh => ?_⟩
  · obtain ⟨hc, hne⟩ := (hC _ _ _).1 hc
    by_cases hl' : l' = l
    · subst hl'
      obtain rfl : t' = t := by simpa [h.holds _ _ _ hk] using (h.holds _ _ _ hc).symm
      exact absurd ⟨rfl, h.one _ _ _ _ hc hk⟩ hne
    · rw [update_noteq hl']
      exact h.holds _ _ _ hc
  · have hl' : l' ≠ l := by rintro rfl; simp at hh
    rw [update_noteq hl'] at hh
    obtain ⟨k', hk'⟩ := h.claimed _ _ hh
    exact ⟨k', (hC _ _ _).2 ⟨hk', fun h => hl' h.1⟩⟩

lemma Exclusive.transfer (h : Exclusive H C) (hk : C l t k) (k₁ : Option Nat)
    (hC : ∀ l' t' k', C' l' t' k' ↔ (C l' t' k' ∧ ¬(l' = l ∧ k' = k)) ∨ (l' = l ∧ t' = t ∧ k' = k₁)) :
    Exclusive H C' := by
  have hone : ∀ t' k', C l t' k' → t' = t ∧ k' = k := fun t' k' hc => by
    obtain rfl : t' = t := by simpa [h.holds _ _ _ hk] using (h.holds _ _ _ hc).symm
    exact ⟨rfl, h.one _ _ _ _ hc hk⟩
  refine ⟨fun l' t' k' hc => ?_, fun l' t' k₂ k₃ h₂ h₃ => ?_, fun l' t' hh => ?_⟩
  · rcases (hC _ _ _).1 hc with ⟨hc, -⟩ | ⟨rfl, rfl, rfl⟩
    · exact h.holds _ _ _ hc
    · exact h.holds _ _ _ hk
  · rcases (hC _ _ _).1 h₂ with ⟨h₂, n₂⟩ | ⟨e₂, -, rfl⟩ <;>
      rcases (hC _ _ _).1 h₃ with ⟨h₃, n₃⟩ | ⟨e₃, -, rfl⟩
    · exact h.one _ _ _ _ h₂ h₃
    · exact absurd ⟨e₃, (hone _ _ (e₃ ▸ h₂)).2⟩ n₂
    · exact absurd ⟨e₂, (hone _ _ (e₂ ▸ h₃)).2⟩ n₃
    · rfl
  · obtain ⟨k', hk'⟩ := h.claimed _ _ hh
    by_cases hx : l' = l ∧ k' = k
    · obtain ⟨rfl, rfl⟩ := hx
      obtain ⟨rfl, -⟩ := hone _ _ hk'
      exact ⟨k₁, (hC _ _ _).2 (.inr ⟨rfl, rfl, rfl⟩)⟩
    · exact ⟨k', (hC _ _ _).2 (.inl ⟨hk', hx⟩)⟩

end Exclusive

/-! ### Claims on the locks -/

/-- Party `k` of thread `t` will unlock `l`: the lock object at `i` owns it (`k = some i`), or
the code of `t` took it by hand (`k = none`). -/
def St.Claims (s : St) (l : Lid) (t : Tid) : Option Nat → Prop
  | some i => ∃ o, s.objs i = some o ∧ o.thread = t ∧ o.owns = some l
  | none => s.raw l = some t

/-- The code of a thread now holds by hand the lock `release()` returned, if the object owned
it. -/
def St.handOver (s : St) (t : Tid) (own : Bool) : Option Lid → St
  | some l => if own then s.setRaw l (some t) else s
  | none => s

/-- The lock objects are sound and the claims exclusive. -/
structure Inv (s : St) : Prop where
  sound : ∀ i o, s.objs i = some o → o.Sound
  excl : Exclusive s.holder s.Claims

section Claims

variable {s : St} {i : Nat} {o : Obj} {l l₀ : Lid} {t t₀ : Tid} {k : Option Nat}
  {oo : Option Obj} {msg : String}

lemma claims_congr {s' : St} (ho : s'.objs = s.objs) (hr : s'.raw = s.raw) :
    s'.Claims = s.Claims := by
  funext l t k; cases k <;> simp [St.Claims, ho, hr]

@[simp] lemma claims_lockCall {m : Option Lid} {ok : Bool} : (s.lockCall t₀ m ok).Claims = s.Claims :=
  claims_congr lockCall_objs lockCall_raw

@[simp] lemma claims_unlockCall {m : Option Lid} : (s.unlockCall t₀ m).Claims = s.Claims :=
  claims_congr unlockCall_objs unlockCall_raw

@[simp] lemma claims_say : (s.say msg).Claims = s.Claims := claims_congr rfl rfl

lemma claims_setObj : (s.setObj i oo).Claims l t k ↔
    (k = some i ∧ ∃ o, oo = some o ∧ o.thread = t ∧ o.owns = some l) ∨
      (k ≠ some i ∧ s.Claims l t k) := by
  cases k with
  | none => simp [St.Claims]
  | some j => by_cases h : j = i <;> simp [St.Claims, update_apply, h]

lemma claims_setRaw {r : Option Tid} : (s.setRaw l₀ r).Claims l t k ↔
    (k = none ∧ l = l₀ ∧ r = some t) ∨ (¬(k = none ∧ l = l₀) ∧ s.Claims l t k) := by
  cases k with
  | none => by_cases h : l = l₀ <;> simp [St.Claims, update_apply, h]
  | some j => simp [St.Claims]

lemma not_claims_of_none (hi : s.objs i = none) : ¬ s.Claims l t (some i) := by
  simp [St.Claims, hi]

lemma not_claims_of_owns (hi : s.objs i = some o) (ho : o.owns = none) :
    ¬ s.Claims l t (some i) := by
  simp [St.Claims, hi, ho]

lemma claims_of_owns (hi : s.objs i = some o) (hl : o.owns = some l) :
    s.Claims l o.thread (some i) :=
  ⟨o, hi, rfl, hl⟩

end Claims

/-! ### What each kind of step does to the claims -/

section Transitions

variable {s : St} {i : Nat} {o : Obj} {l : Lid} {t : Tid} {oo : Option Obj} {msg : String}

lemma sound_setObj (h : ∀ i o, s.objs i = some o → o.Sound) (ho : ∀ o, oo = some o → o.Sound) :
    ∀ j o, (s.setObj i oo).objs j = some o → o.Sound := by
  intro j o hj
  simp only [setObj_objs, update_apply] at hj
  split_ifs at hj
  · exact ho o hj
  · exact h j o hj

lemma Inv.say (hI : Inv s) : Inv (s.say msg) := ⟨hI.sound, by simpa using hI.excl⟩

lemma Inv.quiet (hI : Inv s) (hi : ∀ l t, ¬ s.Claims l t (some i))
    (ho : ∀ o, oo = some o → o.owns = none ∧ o.Sound) : Inv (s.setObj i oo) where
  sound := sound_setObj hI.sound fun o h => (ho o h).2
  excl := hI.excl.congr fun l t k => by
    rw [claims_setObj]
    constructor
    · rintro (⟨rfl, o, rfl, -, hl⟩ | ⟨-, hc⟩)
      · simp [(ho o rfl).1] at hl
      · exact hc
    · exact fun hc => .inr ⟨by rintro rfl; exact hi l t hc, hc⟩

/-- A free lock is taken by `t` for a new object of `t`, at an address that claimed nothing. -/
lemma Inv.acquire (hI : Inv s) (hi : ∀ l t, ¬ s.Claims l t (some i)) (hfree : s.holder l = none)
    (ho : o.thread = t) (hl : o.owns = some l) (hs : o.Sound) :
    Inv ((s.lockCall t (some l) true).setObj i (some o)) where
  sound := sound_setObj (by simpa using hI.sound) fun o' h => Option.some.inj h ▸ hs
  excl := hI.excl.acquire (k := some i) hfree fun l' t' k' => by
    rw [claims_setObj, claims_lockCall]
    constructor
    · rintro (⟨rfl, o', ho', rfl, hl'⟩ | ⟨-, hc⟩)
      · cases ho'
        exact .inr ⟨by simpa [hl] using hl'.symm, ho, rfl⟩
      · exact .inl hc
    · rintro (hc | ⟨rfl, rfl, rfl⟩)
      · exact .inr ⟨by rintro rfl; exact hi _ _ hc, hc⟩
      · exact .inl ⟨rfl, o, rfl, ho, hl⟩

lemma Inv.acquireRaw (hI : Inv s) (hfree : s.holder l = none) :
    Inv ((s.lockCall t (some l) true).setRaw l (some t)) where
  sound := by simpa using hI.sound
  excl := hI.excl.acquire (k := none) hfree fun l' t' k' => by
    have hno : ∀ t', ¬ s.Claims l t' none := fun t' hc => by
      simp [hI.excl.holds _ _ _ hc] at hfree
    rw [claims_setRaw, claims_lockCall]
    constructor
    · rintro (⟨rfl, rfl, h⟩ | ⟨-, hc⟩)
      · exact .inr ⟨rfl, (Option.some.inj h).symm, rfl⟩
      · exact .inl hc
    · rintro (hc | ⟨rfl, rfl, rfl⟩)
      · exact .inr ⟨fun ⟨hk, hl'⟩ => hno t' (hk ▸ hl' ▸ hc), hc⟩
      · exact .inl ⟨rfl, rfl, rfl⟩

/-- The object at `i`, which owns `l`, unlocks it and is replaced by one that owns nothing. -/
lemma Inv.giveBack (hI : Inv s) (hi : s.objs i = some o) (hl : o.owns = some l)
    (ho : ∀ o, oo = some o → o.owns = none ∧ o.Sound) :
    Inv ((s.unlockCall o.thread (some l)).setObj i oo) ∧
      ((s.unlockCall o.thread (some l)).setObj i oo).bad = s.bad := by
  have hc := claims_of_owns hi hl
  obtain ⟨hh, hb⟩ := unlockCall_held (hI.excl.holds _ _ _ hc)
  refine ⟨⟨sound_setObj (by simpa using hI.sound) fun o h => (ho o h).2, ?_⟩, by simpa using hb⟩
  rw [setObj_holder, hh]
  refine hI.excl.giveBack hc fun l' t' k' => ?_
  rw [claims_setObj, claims_unlockCall]
  constructor
  · rintro (⟨rfl, o', rfl, -, hl'⟩ | ⟨hk, hc'⟩)
    · simp [(ho o' rfl).1] at hl'
    · exact ⟨hc', fun h => hk h.2⟩
  · rintro ⟨hc', hn⟩
    refine .inr ⟨fun hk => ?_, hc'⟩
    subst hk
    obtain ⟨o', hi', -, hl'⟩ := hc'
    rw [hi] at hi'
    cases hi'
    exact hn ⟨by simpa [hl] using hl'.symm, rfl⟩

lemma Inv.giveBackRaw (hI : Inv s) (hr : s.raw l = some t) :
    Inv ((s.unlockCall t (some l)).setRaw l none) ∧
      ((s.unlockCall t (some l)).setRaw l none).bad = s.bad := by
  have hc : s.Claims l t none := hr
  obtain ⟨hh, hb⟩ := unlockCall_held (hI.excl.holds _ _ _ hc)
  refine ⟨⟨by simpa using hI.sound, ?_⟩, by simpa using hb⟩
  rw [setRaw_holder, hh]
  refine hI.excl.giveBack hc fun l' t' k' => ?_
  rw [claims_setRaw, claims_unlockCall]
  constructor
  · rintro (⟨-, -, h⟩ | ⟨hn, hc'⟩)
    · cases h
    · exact ⟨hc', fun ⟨a, b⟩ => hn ⟨b, a⟩⟩
  · exact fun ⟨hc', hn⟩ => .inr ⟨fun ⟨a, b⟩ => hn ⟨b, a⟩, hc'⟩

/-- `adopt_lock`: a lock the code of `t` took by hand passes to a new object of `t`. -/
lemma Inv.adopt (hI : Inv s) (hi : s.objs i = none) (hr : s.raw l = some t) :
    Inv ((s.setObj i (some (.unique t (some l) true))).setRaw l none) where
  sound := by simpa using sound_setObj hI.sound fun o h => by cases h; simp [Obj.Sound]
  excl := hI.excl.transfer (k := none) hr (some i) fun l' t' k' => by
    rw [claims_setRaw, claims_setObj]
    simp only [Option.some.injEq, exists_eq_left', Obj.thread, Obj.owns, if_true, reduceCtorEq,
      and_false, false_or]
    constructor
    · rintro ⟨hn, ⟨rfl, rfl, rfl⟩ | ⟨-, hc⟩⟩
      · exact .inr ⟨rfl, rfl, rfl⟩
      · exact .inl ⟨hc, fun ⟨a, b⟩ => hn ⟨b, a⟩⟩
    · rintro (⟨hc, hn⟩ | ⟨rfl, rfl, rfl⟩)
      · exact ⟨fun ⟨a, b⟩ => hn ⟨b, a⟩, .inr ⟨by rintro rfl; exact not_claims_of_none hi hc, hc⟩⟩
      · exact ⟨by simp, .inl ⟨rfl, rfl, rfl⟩⟩

/-- `release()`: the object at `i` lets go of its lock, which the code of its thread then holds
by hand if the object owned it. -/
lemma Inv.release {m : Option Lid} {own : Bool} (hI : Inv s) (hi : s.objs i = some (.unique t m own)) :
    Inv ((s.setObj i (some (.unique t none false))).handOver t own m) := by
  have hq : ∀ o, some (Obj.unique t none false) = some o → o.owns = none ∧ o.Sound := by
    rintro o ⟨⟩; exact ⟨rfl, trivial⟩
  cases m with
  | none => exact hI.quiet (fun _ _ => not_claims_of_owns hi (by cases own <;> rfl)) hq
  | some l =>
    cases own with
    | false => exact hI.quiet (fun _ _ => not_claims_of_owns hi rfl) hq
    | true =>
      have hc := claims_of_owns hi rfl
      refine ⟨by simpa [St.handOver] using sound_setObj hI.sound fun o h => (hq o h).2, ?_⟩
      refine hI.excl.transfer hc none fun l' t' k' => ?_
      simp only [St.handOver, if_true, claims_setRaw, claims_setObj, Option.some.injEq,
        exists_eq_left', Obj.owns, Bool.false_eq_true, if_false, reduceCtorEq, and_false, false_or]
      constructor
      · rintro (⟨rfl, rfl, rfl⟩ | ⟨-, hk, hc'⟩)
        · exact .inr ⟨rfl, rfl, rfl⟩
        · exact .inl ⟨hc', fun h => hk h.2⟩
      · rintro (⟨hc', hn⟩ | ⟨rfl, rfl, rfl⟩)
        · refine .inr ⟨fun ⟨hk, hl'⟩ => ?_, fun hk => ?_, hc'⟩
          · subst hk hl'
            have h1 := hI.excl.holds _ _ _ hc
            have h2 := hI.excl.holds _ _ _ hc'
            simp only [Obj.thread] at h1
            rw [h1, Option.some.injEq] at h2
            subst h2
            exact absurd (hI.excl.one _ _ _ _ hc' hc) (by simp)
          · subst hk
            obtain ⟨o, ho, -, hl⟩ := hc'
            rw [hi] at ho
            cases ho
            exact hn ⟨(Option.some.inj hl).symm, rfl⟩
        · exact .inl ⟨rfl, rfl, rfl⟩

lemma swap_eq {j : Nat} {m m' : Option Lid} {own own' : Bool}
    (hi : s.objs i = some (.unique t m own)) (hj : s.objs j = some (.unique t m' own')) :
    swap i j s = { s with objs := s.objs ∘ Equiv.swap i j } := by
  simp only [swap, hi, hj, St.setObj, St.mk.injEq, and_true, true_and]
  funext k
  simp only [update_apply, Function.comp_apply, Equiv.swap_apply_def]
  split_ifs <;> subst_vars <;> simp_all

lemma Inv.comp_swap (hI : Inv s) (j : Nat) : Inv { s with objs := s.objs ∘ Equiv.swap i j } where
  sound k o h := hI.sound _ o h
  excl := hI.excl.perm (Option.map (Equiv.swap i j)) (fun k => by cases k <;> simp)
    fun l t k => by cases k <;> exact Iff.rfl

lemma lockCall_setObj {m : Option Lid} {ok : Bool} :
    (s.setObj i oo).lockCall t m ok = (s.lockCall t m ok).setObj i oo := by
  cases m <;> cases ok <;> rfl

@[simp] lemma handOver_bad {m : Option Lid} {own : Bool} : (s.handOver t own m).bad = s.bad := by
  cases m <;> cases own <;> rfl

end Transitions

/-! ### Runs -/

/-- A step that gives a lock back: the destructor of a lock object, or the code of a thread
unlocking a lock it took by hand. -/
inductive Unwind (debug : Bool) : St → St → Prop
  | destroy (s : St) (i : Nat) (o : Obj) (hi : s.objs i = some o) :
      Unwind debug s (destroy debug i s)
  | rawUnlock (s : St) (t : Tid) (l : Lid) (hr : s.raw l = some t) :
      Unwind debug s ((s.unlockCall t (some l)).setRaw l none)

/-- One step of a thread, in a build (`debug`: without `NDEBUG`) whose error-checking mutexes
are `errorcheck`: the construction of a lock object at a free address, a member call on one of
its `unique_lock`s, a destructor, or a lock or unlock by hand. A lock call returns only as
`lockRc` says. `adopt_lock` takes a lock the thread's code took by hand, and `release()` hands
the lock back to that code. -/
inductive Step (debug : Bool) (errorcheck : Lid → Bool) : St → St → Prop
  | lockGuard (msg : String) (s : St) (t : Tid) (i : Nat) (l : Lid) (ok : Bool)
      (hi : s.objs i = none) (hrc : s.lockRc errorcheck t (some l) = some ok) :
      Step debug errorcheck s (lockGuard msg debug t i l ok s)
  | uniqueLockDefault (s : St) (t : Tid) (i : Nat) (hi : s.objs i = none) :
      Step debug errorcheck s (uniqueLockDefault t i s)
  | uniqueLockLock (s : St) (t : Tid) (i : Nat) (l : Lid) (ok : Bool) (hi : s.objs i = none)
      (hrc : s.lockRc errorcheck t (some l) = some ok) :
      Step debug errorcheck s (uniqueLockLock t i l ok s)
  | uniqueLockDefer (s : St) (t : Tid) (i : Nat) (l : Lid) (hi : s.objs i = none) :
      Step debug errorcheck s (uniqueLockDefer t i l s)
  | uniqueLockTry (s : St) (t : Tid) (i : Nat) (l : Lid) (hi : s.objs i = none) :
      Step debug errorcheck s (uniqueLockTry t i l s)
  | uniqueLockAdopt (s : St) (t : Tid) (i : Nat) (l : Lid) (hi : s.objs i = none)
      (hr : s.raw l = some t) :
      Step debug errorcheck s ((uniqueLockAdopt t i l s).setRaw l none)
  | lock (msg : String) (s : St) (i : Nat) (t : Tid) (m : Option Lid) (own ok : Bool)
      (hi : s.objs i = some (.unique t m own)) (hrc : own = false → s.lockRc errorcheck t m = some ok) :
      Step debug errorcheck s (lockMember msg debug i ok s)
  | tryLock (s : St) (i : Nat) (t : Tid) (m : Option Lid) (own : Bool)
      (hi : s.objs i = some (.unique t m own)) : Step debug errorcheck s (tryLock i s).2
  | unlock (s : St) (i : Nat) (t : Tid) (m : Option Lid) (own : Bool)
      (hi : s.objs i = some (.unique t m own)) : Step debug errorcheck s (unlockMember i s)
  | swap (s : St) (i j : Nat) (t : Tid) (m m' : Option Lid) (own own' : Bool)
      (hi : s.objs i = some (.unique t m own)) (hj : s.objs j = some (.unique t m' own')) :
      Step debug errorcheck s (swap i j s)
  | release (s : St) (i : Nat) (t : Tid) (m : Option Lid) (own : Bool)
      (hi : s.objs i = some (.unique t m own)) :
      Step debug errorcheck s ((release i s).2.handOver t own m)
  | rawLock (s : St) (t : Tid) (l : Lid) (ok : Bool)
      (hrc : s.lockRc errorcheck t (some l) = some ok) :
      Step debug errorcheck s (if ok then (s.lockCall t (some l) ok).setRaw l (some t) else s)
  | unwind {s s' : St} (h : Unwind debug s s') : Step debug errorcheck s s'

section Debug

variable {s s' : St}

lemma quiet_unique {t : Tid} {m : Option Lid} :
    ∀ o, some (Obj.unique t m false) = some o → o.owns = none ∧ o.Sound := by
  rintro o ⟨⟩; exact ⟨rfl, trivial⟩

/-- Destructors and unlocking by hand give back what their party claims, and nothing else. -/
lemma Unwind.inv (h : Unwind true s s') (hI : Inv s) : Inv s' ∧ s'.bad = s.bad := by
  cases h with
  | destroy i o hi =>
    cases o with
    | guard t pm =>
      cases pm with
      | none =>
        rw [show Lock.destroy true i s = s.setObj i none by simp [Lock.destroy, hi, guardDtor]]
        exact ⟨hI.quiet (fun _ _ => not_claims_of_owns hi rfl) nofun, rfl⟩
      | some l =>
        rw [show Lock.destroy true i s = (s.unlockCall t (some l)).setObj i none by
          simp [Lock.destroy, hi, guardDtor]]
        exact hI.giveBack hi rfl nofun
    | unique t m own =>
      cases own with
      | false =>
        rw [show Lock.destroy true i s = s.setObj i none by simp [Lock.destroy, hi, uniqueDtor]]
        exact ⟨hI.quiet (fun _ _ => not_claims_of_owns hi rfl) nofun, rfl⟩
      | true =>
        obtain ⟨l, rfl⟩ := Option.isSome_iff_exists.1 (hI.sound i _ hi)
        rw [show Lock.destroy true i s = (s.unlockCall t (some l)).setObj i none by
          simp [Lock.destroy, hi, uniqueDtor]]
        exact hI.giveBack hi rfl nofun
  | rawUnlock t l hr => exact hI.giveBackRaw hr

/-- Every step of a build without `NDEBUG` whose locks are ordinary mutexes and spinlocks keeps
the claims exclusive and makes no unlock call on a lock not held. -/
lemma Step.inv (h : Step true (fun _ => false) s s') (hI : Inv s) : Inv s' ∧ s'.bad = s.bad := by
  have hq := fun {i} (hi : s.objs i = none) l t => not_claims_of_none (l := l) (t := t) hi
  cases h with
  | lockGuard msg _ t i l ok hi hrc =>
    obtain ⟨rfl, hfree⟩ := lockRc_some rfl hrc
    exact ⟨hI.acquire (hq hi) hfree rfl rfl trivial, rfl⟩
  | uniqueLockDefault _ t i hi => exact ⟨hI.quiet (hq hi) quiet_unique, rfl⟩
  | uniqueLockLock _ t i l ok hi hrc =>
    obtain ⟨rfl, hfree⟩ := lockRc_some rfl hrc
    rw [Lock.uniqueLockLock, lockCall_setObj]
    exact ⟨hI.acquire (hq hi) hfree rfl rfl rfl, rfl⟩
  | uniqueLockDefer _ t i l hi => exact ⟨hI.quiet (hq hi) quiet_unique, rfl⟩
  | uniqueLockTry _ t i l hi =>
    unfold Lock.uniqueLockTry
    cases hfree : s.holder l with
    | none =>
      simp only [tryRc, hfree, Option.isNone_none]
      exact ⟨hI.acquire (hq hi) hfree rfl rfl rfl, rfl⟩
    | some u =>
      simp only [tryRc, hfree, Option.isNone_some, lockCall_false]
      exact ⟨hI.quiet (hq hi) quiet_unique, rfl⟩
  | uniqueLockAdopt _ t i l hi hr => exact ⟨hI.adopt hi hr, rfl⟩
  | lock msg _ i t m own ok hi hrc =>
    cases own with
    | true =>
      rw [show lockMember msg true i ok s = s.say "Detected deadlock issue" by simp [lockMember, hi]]
      exact ⟨hI.say, rfl⟩
    | false =>
      cases ok with
      | false =>
        rw [show lockMember msg true i false s = s.say msg by simp [lockMember, hi]]
        exact ⟨hI.say, rfl⟩
      | true =>
        obtain ⟨l, rfl⟩ : ∃ l, m = some l := by
          cases m with
          | none => cases hrc rfl
          | some l => exact ⟨l, rfl⟩
        obtain ⟨-, hfree⟩ := lockRc_some rfl (hrc rfl)
        rw [show lockMember msg true i true s =
            (s.lockCall t (some l) true).setObj i (some (.unique t (some l) true)) by
          simp [lockMember, hi]]
        exact ⟨hI.acquire (fun _ _ => not_claims_of_owns hi rfl) hfree rfl rfl rfl, rfl⟩
  | tryLock _ i t m own hi =>
    cases own with
    | true =>
      rw [show (Lock.tryLock i s).2 = s.say "Detected deadlock issue" by simp [Lock.tryLock, hi]]
      exact ⟨hI.say, rfl⟩
    | false =>
      have hq' := fun l t => not_claims_of_owns (l := l) (t := t) hi rfl
      cases hm : s.tryRc m with
      | false =>
        rw [show (Lock.tryLock i s).2 = s.setObj i (some (.unique t m false)) by simp [Lock.tryLock, hi, hm]]
        exact ⟨hI.quiet hq' quiet_unique, rfl⟩
      | true =>
        obtain ⟨l, rfl, hfree⟩ : ∃ l, m = some l ∧ s.holder l = none := by
          cases m with
          | none => cases hm
          | some l => exact ⟨l, rfl, Option.isNone_iff_eq_none.1 hm⟩
        rw [show (Lock.tryLock i s).2 =
            (s.lockCall t (some l) true).setObj i (some (.unique t (some l) true)) by
          simp [Lock.tryLock, hi, hm]]
        exact ⟨hI.acquire hq' hfree rfl rfl rfl, rfl⟩
  | unlock _ i t m own hi =>
    cases own with
    | false =>
      rw [show unlockMember i s = s.say "Invalid operation" by simp [unlockMember, hi]]
      exact ⟨hI.say, rfl⟩
    | true =>
      obtain ⟨l, rfl⟩ := Option.isSome_iff_exists.1 (hI.sound i _ hi)
      rw [show unlockMember i s =
          (s.unlockCall t (some l)).setObj i (some (.unique t (some l) false)) by
        simp [unlockMember, hi]]
      exact hI.giveBack hi rfl quiet_unique
  | swap _ i j t m m' own own' hi hj =>
    rw [swap_eq hi hj]
    exact ⟨hI.comp_swap j, rfl⟩
  | release _ i t m own hi =>
    rw [show (Lock.release i s).2 = s.setObj i (some (.unique t none false)) by simp [Lock.release, hi]]
    exact ⟨hI.release hi, handOver_bad⟩
  | rawLock _ t l ok hrc =>
    obtain ⟨rfl, hfree⟩ := lockRc_some rfl hrc
    exact ⟨hI.acquireRaw hfree, rfl⟩
  | unwind h => exact h.inv hI

end Debug

def St.empty : St := ⟨fun _ => none, fun _ => none, fun _ => none, [], []⟩

lemma Inv.empty : Inv St.empty where
  sound _ _ h := nomatch h
  excl := ⟨fun l t k hc => by cases k <;> simp [St.Claims, St.empty] at hc,
    fun l t k _ hc => by cases k <;> simp [St.Claims, St.empty] at hc, fun _ _ h => nomatch h⟩

/-- **The lock objects are safe in a build without `NDEBUG`.** In a process whose locks are
ordinary mutexes and spinlocks, from any state where each held lock has one party to unlock it,
every run keeps that, whatever constructors, members and destructors of `lock_guard` and
`unique_lock` the threads call and whatever they lock and unlock by hand: a lock object that
will unlock a lock holds it through its thread, no two parties claim one lock, no held lock is
left unclaimed, no `unique_lock` owns `NULL`, and no unlock call is ever made on a lock its
thread does not hold. -/
theorem debug_build_safe {s₀ s : St} (h0 : Inv s₀)
    (hrun : Relation.ReflTransGen (Step true fun _ => false) s₀ s) : Inv s ∧ s.bad = s₀.bad := by
  induction hrun with
  | refl => exact ⟨h0, rfl⟩
  | tail _ h ih =>
    obtain ⟨hI, hb⟩ := h.inv ih.1
    exact ⟨hI, hb.trans ih.2⟩

/-- A `lock_guard` on lock `5`, a `unique_lock` that defers lock `6`, `lock()`, `release()`, and
the unlock by hand. -/
theorem debug_build_safe_release : ∃ s, Relation.ReflTransGen (Step true fun _ => false) St.empty s ∧
    Inv s ∧ s.bad = St.empty.bad :=
  have hrun := Relation.ReflTransGen.single
      (@Step.lockGuard true _ "Fail to lock pthread_mutex_t=" St.empty 0 1 5 true rfl rfl)
    |>.tail (@Step.uniqueLockDefer true (fun _ => false) _ 0 2 6 rfl)
    |>.tail (@Step.lock true (fun _ => false) "Fail to lock pthread_mutex=" _ 2 0 (some 6) false
      true rfl fun _ => rfl)
    |>.tail (@Step.release true (fun _ => false) _ 2 0 (some 6) true rfl)
    |>.tail (@Step.unwind true (fun _ => false) _ _ (.rawUnlock _ 0 6 rfl))
  ⟨_, hrun, debug_build_safe Inv.empty hrun⟩

/-! ### Failed lock calls -/

section Failure

variable {s : St} {i : Nat} {o : Obj} {l : Lid} {t : Tid}

lemma destroy_of_owns (debug : Bool) (hi : s.objs i = some o) (hl : o.owns = some l) :
    destroy debug i s = (s.unlockCall o.thread (some l)).setObj i none := by
  cases o with
  | guard t pm =>
    obtain rfl : pm = some l := hl
    simp [destroy, guardDtor, hi, Obj.thread]
  | unique t m own =>
    cases own
    · cases hl
    · obtain rfl : m = some l := hl
      simp [destroy, uniqueDtor, hi, Obj.thread]

/-- A second claim on a held lock: a lock object of the holding thread that owns the lock
while another party claims it. As the two give it back, the second unlock call is on a lock
the thread no longer holds. -/
lemma Inv.double_claim (hI : Inv s) (hq : ∀ l t, ¬ s.Claims l t (some i))
    (hh : s.holder l = some t) (ho : o.thread = t) (hl : o.owns = some l) (debug : Bool) :
    ∃ s', Relation.ReflTransGen (Unwind debug) (s.setObj i (some o)) s' ∧
      s'.bad = s.bad ++ [(t, some l)] := by
  obtain ⟨k, hk⟩ := hI.excl.claimed l t hh
  have hi : (s.setObj i (some o)).objs i = some o := by simp
  have h₁ := @Unwind.destroy debug _ i o hi
  rw [destroy_of_owns debug hi hl, ho] at h₁
  obtain ⟨hh₂, hb₂⟩ := unlockCall_held (s := s.setObj i (some o)) hh
  have hfree : (((s.setObj i (some o)).unlockCall t (some l)).setObj i none).holder l = none := by
    simp [hh₂]
  cases k with
  | none =>
    refine ⟨_, .tail (.single h₁) (.rawUnlock _ t l (by simpa using hk)), ?_⟩
    simp [unlockCall_free hfree, hb₂]
  | some j =>
    obtain ⟨o', hj, rfl, hl'⟩ := hk
    have hji : j ≠ i := by rintro rfl; exact hq l _ ⟨o', hj, rfl, hl'⟩
    have hj₂ : (((s.setObj i (some o)).unlockCall o'.thread (some l)).setObj i none).objs j =
        some o' := by simp [update_noteq hji, hj]
    have h₂ := @Unwind.destroy debug _ j o' hj₂
    rw [destroy_of_owns debug hj₂ hl'] at h₂
    refine ⟨_, .tail (.single h₁) h₂, ?_⟩
    simp [unlockCall_free hfree, hb₂]

/-- **A failed lock call in a constructor.** Let a thread make a lock object on an
error-checking mutex it already holds, so that the lock call fails. Without `NDEBUG`,
`lock_guard` sees the failure, owns nothing, and each held lock keeps one party to unlock it.
With `NDEBUG` `lock_guard` does not look, nor does `unique_lock(mutex)` in either build: the
object claims the lock all the same, and as the scopes end an unlock call is made on a lock the
thread does not hold. -/
theorem ctor_failure {errorcheck : Lid → Bool} (msg : String) (hI : Inv s) (hi : s.objs i = none)
    (hrc : s.lockRc errorcheck t (some l) = some false) :
    Inv (lockGuard msg true t i l false s) ∧
      (∃ s', Relation.ReflTransGen (Unwind false) (lockGuard msg false t i l false s) s' ∧
        s'.bad = s.bad ++ [(t, some l)]) ∧
      ∀ debug, ∃ s', Relation.ReflTransGen (Unwind debug) (uniqueLockLock t i l false s) s' ∧
        s'.bad = s.bad ++ [(t, some l)] := by
  obtain ⟨_, ⟨⟩, hh, -⟩ := (lockRc_fail hrc).resolve_left nofun
  have hq := fun l t => not_claims_of_none (l := l) (t := t) hi
  refine ⟨?_, ?_, fun debug => ?_⟩
  · rw [show lockGuard msg true t i l false s = (s.say msg).setObj i (some (.guard t none)) by
      simp [lockGuard]]
    exact hI.say.quiet (fun _ _ => not_claims_of_none (by simpa using hi)) fun o h => by
      cases h; exact ⟨rfl, trivial⟩
  · rw [show lockGuard msg false t i l false s = s.setObj i (some (.guard t (some l))) by
      simp [lockGuard]]
    exact hI.double_claim (o := .guard t (some l)) hq hh rfl rfl false
  · rw [show uniqueLockLock t i l false s = s.setObj i (some (.unique t (some l) true)) by
      simp [uniqueLockLock]]
    exact hI.double_claim (o := .unique t (some l) true) hq hh rfl rfl debug

theorem ctor_failure_relock : ∃ s : St, Inv s ∧ s.objs 1 = none ∧
    s.lockRc (fun _ => true) 0 (some 5) = some false ∧
    (Inv (lockGuard "Fail to lock pthread_mutex_t=" true 0 1 5 false s) ∧
      (∃ s', Relation.ReflTransGen (Unwind false)
        (lockGuard "Fail to lock pthread_mutex_t=" false 0 1 5 false s) s' ∧
        s'.bad = s.bad ++ [(0, some 5)]) ∧
      ∀ debug, ∃ s', Relation.ReflTransGen (Unwind debug) (uniqueLockLock 0 1 5 false s) s' ∧
        s'.bad = s.bad ++ [(0, some 5)]) :=
  have hI := Inv.empty.acquireRaw (l := 5) (t := 0) rfl
  ⟨_, hI, rfl, rfl, ctor_failure _ hI rfl (rfl : St.lockRc _ (fun _ => true) 0 (some 5) = _)⟩

end Failure

end PublicComponent.Lock
