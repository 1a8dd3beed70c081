import PublicComponent.Dbd.Invariant

/-!
What one step can change: the frame lemmas every preservation proof starts from.

A step of `t` changes only `t`'s program counter, `ScopedPtr`s and thread-local slots among
the per-thread state. A lock changes only by an acquisition while it is free or a release
by its holder, and `holder_step` turns that into the fact that the lock names exactly the
thread whose program counter says it holds it.
-/

namespace PublicComponent.Dbd

open Function

variable {T : Type} {A : Fn T → Prop} {s s' : Sys T} {t u : Tid}

namespace Sys

@[simp] lemma setPc_pc_self (s : Sys T) (t : Tid) (p : Pc T) : (s.setPc t p).pc t = p := by
  simp [setPc]

lemma setPc_pc_ne (s : Sys T) {t u : Tid} (p : Pc T) (hu : u ≠ t) :
    (s.setPc t p).pc u = s.pc u := by
  simp [setPc, update_noteq hu]

end Sys

namespace Step

lemma pc_ne (h : Step A s t s') (hu : u ≠ t) : s'.pc u = s.pc u := by
  cases h <;> simp [Sys.setPc, Sys.alloc, Sys.free, update_noteq hu]

lemma guards_ne (h : Step A s t s') (hu : u ≠ t) : s'.guards u = s.guards u := by
  cases h <;> simp [Sys.setPc, Sys.alloc, Sys.free, update_noteq hu]

lemma tls_ne (h : Step A s t s') (hu : u ≠ t) : s'.tls u = s.tls u := by
  cases h <;> simp [Sys.setPc, Sys.alloc, Sys.free, update_noteq hu]

end Step

/-! ### Locks -/

/-- How a step of `t` may change a lock `l` and whether `t` holds it (`v`): not at all, by
taking it while it is free, or by letting it go. -/
def LockMove (t : Tid) (l l' : Option Tid) (v v' : Prop) : Prop :=
  (l' = l ∧ (v' ↔ v)) ∨ (l = none ∧ l' = some t ∧ v') ∨ (v ∧ l' = none ∧ ¬ v')

/-- A lock that names the thread whose view says it holds it keeps doing so across a step
that moves it as `LockMove` allows and leaves the other threads' views alone. -/
lemma holder_step {l l' : Option Tid} {V V' : Tid → Prop}
    (hI : ∀ u, l = some u ↔ V u) (hne : ∀ u, u ≠ t → (V' u ↔ V u))
    (hm : LockMove t l l' (V t) (V' t)) : ∀ u, l' = some u ↔ V' u := by
  intro u
  by_cases hu : u = t
  · subst hu
    rcases hm with ⟨rfl, hv⟩ | ⟨rfl, rfl, hv⟩ | ⟨-, rfl, hv'⟩
    · rw [hv]; exact hI u
    · simp [hv]
    · simp [hv']
  · rw [hne u hu]
    rcases hm with ⟨rfl, -⟩ | ⟨rfl, rfl, -⟩ | ⟨hv, rfl, -⟩
    · exact hI u
    · simp [← hI u, Ne.symm hu]
    · simp [← hI u, (hI t).mpr hv, Ne.symm hu]

lemma Step.modifyMove (h : Step A s t s') (c : Cid) :
    LockMove t (s.modifyMutex c) (s'.modifyMutex c) ((s.pc t).holdsModify c)
      ((s'.pc t).holdsModify c) := by
  cases h
  case modLock c' fn h hm =>
    rw [h]
    by_cases hc : c = c'
    · subst hc; simp [LockMove, Sys.setPc, Pc.holdsModify, hm]
    · simp [LockMove, Sys.setPc, Pc.holdsModify, update_noteq hc, Ne.symm hc]
  case modReturn c' r r' h =>
    rw [h]
    by_cases hc : c = c'
    · subst hc; simp [LockMove, Sys.setPc, Pc.holdsModify]
    · simp [LockMove, Sys.setPc, Pc.holdsModify, update_noteq hc, Ne.symm hc]
  case release => exact .inl ⟨rfl, Iff.rfl⟩
  case dtorSkip w k h _ =>
    refine .inl ⟨rfl, ?_⟩
    rw [Sys.setPc_pc_self, h]
    cases k <;> exact Iff.rfl
  case removeScan c w k h =>
    refine .inl ⟨rfl, ?_⟩
    rw [Sys.setPc_pc_self, h]
    cases k <;> exact Iff.rfl
  all_goals exact .inl ⟨rfl, by rw [Sys.setPc_pc_self, ‹s.pc t = _›]; exact Iff.rfl⟩

end PublicComponent.Dbd
