import PublicComponent.Dbd.Deadlock

/-!
Every chain of waits ends at a thread that can move.

A thread that has not exited either has a step or is blocked on a lock: everywhere else the
code goes on, `WaitReadDone` included, since the drain loop holds `_wrappers_mutex` and the
element it waits on stays in place. The holder of a lock has not exited. Under the discipline
of the ranks, the threads a thread waits for, directly or through others, so end at one that
has a step.
-/

namespace PublicComponent.Dbd

open Function

variable {T : Type} {A : Fn T → Prop} {s s' : Sys T} {t u v : Tid}

/-- Inside `WaitReadDone`, `_wrappers[i]` is still there. -/
def WaitDoneSome (s : Sys T) : Prop :=
  ∀ u c fn bg r i, s.pc u = .modWaitDone c fn bg r i → ∃ w, (s.wrappers c)[i]? = some w

lemma WaitDoneSome.step (hI : Inv s) (hs : WaitDoneSome s) (h : Step A s t s') :
    WaitDoneSome s' := by
  intro u c fn bg r i hp
  rcases eq_or_ne u t with rfl | hu
  · cases h
    case modWaitLock _ _ _ _ _ w _ hw _ =>
      simp only [Sys.setPc_pc_self, Pc.modWaitDone.injEq] at hp
      obtain ⟨rfl, -, -, -, rfl⟩ := hp
      exact ⟨w, hw⟩
    case release h₀ _ => rw [show s.pc u = _ from hp] at h₀; cases h₀
    all_goals rw [Sys.setPc_pc_self] at hp; first | cases hp | (cases ‹After› <;> cases hp)
  · rw [h.pc_ne hu] at hp
    rw [h.wrappers_of_holder hI hu (by simp [hp, Pc.holdsWrappers])]
    exact hs u c fn bg r i hp

lemma Reach.waitDoneSome (hr : Reach A s) : WaitDoneSome s := by
  induction hr with
  | init => intro _ _ _ _ _ _ hp; cases hp
  | step hr h ih => exact ih.step hr.inv h

/-- A thread that has not exited has a step, or waits for the holder of a lock. -/
lemma WaitDoneSome.progress (hd : WaitDoneSome s) (hu : s.pc u ≠ .exited) :
    (∃ s', Step A s u s') ∨ ∃ v, s.WaitsFor u v := by
  unfold Sys.WaitsFor
  cases hp : s.pc u
  case idle =>
    by_cases hg : ∀ c, s.guards u c = none
    · exact .inl ⟨_, .exitStart hp hg⟩
    · push_neg at hg
      obtain ⟨c, hc⟩ := hg
      obtain ⟨⟨w, i⟩, hwi⟩ := Option.ne_none_iff_exists'.1 hc
      exact .inl ⟨_, .release hp hwi⟩
  case exited => exact absurd hp hu
  case read c =>
    cases hk : s.createdKey c
    · exact .inl ⟨_, .readNoKey hp hk⟩
    · by_cases hw : s.tls u c = 0
      · exact .inl ⟨_, .readMiss hp hk hw⟩
      · exact .inl ⟨_, .readHit hp hk hw⟩
  case wrapperDtor w k =>
    rcases Option.eq_none_or_eq_some (s.control w) with hc | ⟨c, hc⟩
    · exact .inl ⟨_, .dtorSkip hp hc⟩
    · exact .inl ⟨_, .dtorRemove hp hc⟩
  case modFn1 c fn bg =>
    by_cases hr : (fn bg (s.data c)).2 = 0
    · exact .inl ⟨_, .modFn1Zero hp hr⟩
    · exact .inl ⟨_, .modFn1 hp hr⟩
  case modWaitDone c fn bg r i =>
    obtain ⟨w, hw⟩ := hd u c fn bg r i hp
    exact .inl ⟨_, .modWaitDone hp hw⟩
  case exiting =>
    by_cases hw : ∃ c, s.alive c ∧ s.tls u c ≠ 0
    · obtain ⟨c, ha, hw⟩ := hw
      exact .inl ⟨_, .exitKey hp ha hw⟩
    · push_neg at hw
      exact .inl ⟨_, .exitDone hp hw⟩
  case dtorLoop c i =>
    rcases Option.eq_none_or_eq_some (s.wrappers c)[i]? with hw | ⟨w, hw⟩
    · exact .inl ⟨_, .dtorEnd hp (List.getElem?_eq_none_iff.1 hw)⟩
    · exact .inl ⟨_, .dtorNext hp hw⟩
  case modWait c fn bg r i =>
    rcases Option.eq_none_or_eq_some (s.wrappers c)[i]? with hw | ⟨w, hw⟩
    · exact .inl ⟨_, .modWaitEnd hp (List.getElem?_eq_none_iff.1 hw)⟩
    rcases Option.eq_none_or_eq_some (s.mutex w) with hm | ⟨v, hm⟩
    · exact .inl ⟨_, .modWaitLock hp hw hm⟩
    · exact .inr ⟨v, w, hw, hm⟩
  case modLock c fn =>
    rcases Option.eq_none_or_eq_some (s.modifyMutex c) with hm | ⟨v, hm⟩
    exacts [.inl ⟨_, .modLock hp hm⟩, .inr ⟨v, hm⟩]
  case beginRead c w =>
    rcases Option.eq_none_or_eq_some (s.mutex w) with hm | ⟨v, hm⟩
    exacts [.inl ⟨_, .beginRead hp hm⟩, .inr ⟨v, hm⟩]
  case pushLock c w =>
    rcases Option.eq_none_or_eq_some (s.wrappersMutex c) with hm | ⟨v, hm⟩
    exacts [.inl ⟨_, .pushLock hp hm⟩, .inr ⟨v, hm⟩]
  case removeLock c w k =>
    rcases Option.eq_none_or_eq_some (s.wrappersMutex c) with hm | ⟨v, hm⟩
    exacts [.inl ⟨_, .removeLock hp hm⟩, .inr ⟨v, hm⟩]
  case modDrainLock c fn bg r =>
    rcases Option.eq_none_or_eq_some (s.wrappersMutex c) with hm | ⟨v, hm⟩
    exacts [.inl ⟨_, .modDrainLock hp hm⟩, .inr ⟨v, hm⟩]
  case dtorLock c =>
    rcases Option.eq_none_or_eq_some (s.wrappersMutex c) with hm | ⟨v, hm⟩
    exacts [.inl ⟨_, .dtorLock hp hm⟩, .inr ⟨v, hm⟩]
  case addWrapper => exact .inl ⟨_, .newOk hp⟩
  case pushBack => exact .inl ⟨_, .pushOk hp⟩
  case setSpecific => exact .inl ⟨_, .setOk hp⟩
  case loadIndex => exact .inl ⟨_, .loadIndex hp⟩
  case removeScan => exact .inl ⟨_, .removeScan hp⟩
  case modLoad => exact .inl ⟨_, .modLoad hp⟩
  case modStore => exact .inl ⟨_, .modStore hp⟩
  case modFn2 => exact .inl ⟨_, .modFn2 hp⟩
  case modReturn => exact .inl ⟨_, .modReturn hp⟩

/-- The thread a blocked thread waits for has not exited: it holds a lock. -/
lemma Inv.holder_not_exited (hI : Inv s) (huv : s.WaitsFor u v) : s.pc v ≠ .exited := by
  intro hv
  have hm : ∀ w, s.mutex w ≠ some v := fun w hm => by
    rcases (hI.lockMutex w v).1 hm with hl | ⟨c, i, hg⟩
    · rw [hv] at hl; exact hl
    · rw [hI.exitGuard v c (by rw [hv]; trivial)] at hg; exact Option.noConfusion hg
  have hw : ∀ c, s.wrappersMutex c ≠ some v := fun c h => by
    have := (hI.lockWrappers c v).1 h; rw [hv] at this; exact this
  unfold Sys.WaitsFor at huv
  cases hp : s.pc u <;> rw [hp] at huv
  case modLock c _ => have := (hI.lockModify c v).1 huv; rw [hv] at this; exact this
  case pushLock c _ | removeLock c _ _ | modDrainLock c _ _ _ | dtorLock c => exact hw c huv
  case beginRead w => exact hm w huv
  case modWait => obtain ⟨w, -, h⟩ := huv; exact hm w h
  all_goals exact huv.elim

/-- **Every chain of waits ends at a thread that can move.** In every reachable state in which
writers in `Modify` and readers registering in a first `Read` hold no `ScopedPtr`, every thread
that has not exited waits, directly or through others, for a thread that has a step. -/
theorem waits_end_runnable (hr : Reach A s) (hD : Disciplined s) (hu : s.pc u ≠ .exited) :
    ∃ v, Relation.ReflTransGen s.WaitsFor u v ∧ ∃ s', Step A s v s' := by
  have hI := hr.inv
  have hd := hr.waitDoneSome
  obtain ⟨n, h⟩ : ∃ n, (s.pc u).rank = n := ⟨_, rfl⟩
  induction n using Nat.strong_induction_on generalizing u with
  | _ n ih =>
  rcases hd.progress (A := A) hu with hs | ⟨v, huv⟩
  · exact ⟨u, .refl, hs⟩
  have hv := hI.holder_not_exited huv
  rcases hd.progress (A := A) hv with hs | ⟨x, hvx⟩
  · exact ⟨v, .single huv, hs⟩
  · obtain ⟨y, hy, hs⟩ := ih _ (h ▸ hI.rank_lt hD huv hvx) hv rfl
    exact ⟨y, .head huv hy, hs⟩

/-- The writer draining container `0` waits for the reader, which can release its
`ScopedPtr`. -/
theorem waits_end_runnable_draining : ∃ s : Sys Nat, Reach (fun _ => True) s ∧ Disciplined s ∧
    s.WaitsFor 2 0 ∧ ∃ v, Relation.ReflTransGen s.WaitsFor 2 v ∧
      ∃ s', Step (fun _ => True) s v s' := by
  obtain ⟨s, hr, hD, hp, hw⟩ := draining_run
  exact ⟨s, hr, hD, hw, waits_end_runnable hr hD (by rw [hp]; exact Pc.noConfusion)⟩

end PublicComponent.Dbd
