import PublicComponent.Dbd.Frame

/-!
Why the locks and the `ScopedPtr`s keep their part of the invariant across a step.

The three kinds of lock (`_modify_mutex`, `_wrappers_mutex`, `Wrapper::_mutex`) each name the
thread that holds them by its program counter or its `ScopedPtr`s: `holder_step` reduces each
to the one way the step may move it. A `ScopedPtr` is made only by the load of `_index` in
`Read` and dropped only by `~ScopedPtr`, and it keeps naming a registered `Wrapper` of the
thread's own.
-/

namespace PublicComponent.Dbd

open Function

variable {T : Type} {A : Fn T → Prop} {s s' : Sys T} {t u v : Tid}

/-! ### What the invariant gives at once -/

namespace Inv

lemma modify_unique (hI : Inv s) {c : Cid} (hu : (s.pc u).holdsModify c)
    (hv : (s.pc v).holdsModify c) : u = v :=
  Option.some.inj (((hI.lockModify c u).2 hu).symm.trans ((hI.lockModify c v).2 hv))

lemma wrappers_unique (hI : Inv s) {c : Cid} (hu : (s.pc u).holdsWrappers c)
    (hv : (s.pc v).holdsWrappers c) : u = v :=
  Option.some.inj (((hI.lockWrappers c u).2 hu).symm.trans ((hI.lockWrappers c v).2 hv))

lemma mutex_unique (hI : Inv s) {w : Nat} (hu : HoldsMutex s u w) (hv : HoldsMutex s v w) :
    u = v :=
  Option.some.inj (((hI.lockMutex w u).2 hu).symm.trans ((hI.lockMutex w v).2 hv))

/-- A thread working on `c` outside its destructor works on a live container. -/
lemma alive_of_cid (hI : Inv s) {c : Cid} (hc : (s.pc u).cid = some c)
    (hd : ¬ (s.pc u).dtorOf c) : s.alive c := by
  cases ha : s.alive c
  · exact absurd ((hI.dead c u ha).2 hc) hd
  · rfl

/-- A `Wrapper` whose mutex a thread holds is registered. -/
lemma holdsMutex_reg (hI : Inv s) {w : Nat} (h : HoldsMutex s u w) : ∃ c, w ∈ s.wrappers c := by
  rcases h with hl | ⟨c, i, hg⟩
  · cases hp : s.pc u <;> simp only [hp, Pc.locks] at hl
    case loadIndex c w' => exact ⟨c, hl ▸ (hI.readerTls u c w' (.inr hp)).2⟩
    case modWaitDone c _ _ _ i => exact ⟨c, List.getElem?_mem hl⟩
  · exact ⟨c, (hI.guardTls u c w i hg).2⟩

lemma mutex_next (hI : Inv s) : s.mutex s.next = none := by
  cases hm : s.mutex s.next with
  | none => rfl
  | some u =>
    obtain ⟨c, hc⟩ := hI.holdsMutex_reg ((hI.lockMutex _ u).1 hm)
    exact absurd (hI.regBound c _ hc).2 (lt_irrefl _)

end Inv

/-! ### Locks -/

/-- A step leaves alone the `_wrappers` of a container whose lock another thread holds. -/
lemma Step.wrappers_of_holder (hI : Inv s) (h : Step A s t s') (hu : u ≠ t) {c : Cid}
    (hl : (s.pc u).holdsWrappers c) : s'.wrappers c = s.wrappers c := by
  cases h
  case pushOk c' w h =>
    have hc : c ≠ c' := by
      rintro rfl; exact hu (hI.wrappers_unique hl (by simp [h, Pc.holdsWrappers]))
    simp [Sys.setPc, update_noteq hc]
  case removeScan c' w k h =>
    have hc : c ≠ c' := by
      rintro rfl; exact hu (hI.wrappers_unique hl (by cases k <;> simp [h, Pc.holdsWrappers]))
    simp [Sys.setPc, Sys.free, update_noteq hc]
  case dtorEnd c' i h _ =>
    have hc : c ≠ c' := by
      rintro rfl; exact hu (hI.wrappers_unique hl (by simp [h, Pc.holdsWrappers]))
    simp [Sys.setPc, update_noteq hc]
  all_goals rfl

lemma Step.wrappersMove (hI : Inv s) (h : Step A s t s') (c : Cid) :
    LockMove t (s.wrappersMutex c) (s'.wrappersMutex c) ((s.pc t).holdsWrappers c)
      ((s'.pc t).holdsWrappers c) := by
  cases h
  case pushLock c' w h hm | modDrainLock c' _ _ _ h hm | dtorLock c' h hm =>
    rw [h]
    by_cases hc : c = c'
    · subst hc; simp [LockMove, Sys.setPc, Pc.holdsWrappers, hm]
    · simp [LockMove, Sys.setPc, Pc.holdsWrappers, update_noteq hc, Ne.symm hc]
  case removeLock c' w k h hm =>
    rw [h]
    by_cases hc : c = c'
    · subst hc; cases k <;> simp [LockMove, Sys.setPc, Pc.holdsWrappers, hm]
    · cases k <;> simp [LockMove, Sys.setPc, Pc.holdsWrappers, update_noteq hc, Ne.symm hc]
  case pushOk c' w h | pushThrow c' w h | modWaitEnd c' _ _ _ _ h _ | dtorEnd c' _ h _ =>
    rw [h]
    by_cases hc : c = c'
    · subst hc; simp [LockMove, Sys.setPc, Pc.holdsWrappers]
    · simp [LockMove, Sys.setPc, Pc.holdsWrappers, update_noteq hc, Ne.symm hc]
  case removeScan c' w k h =>
    rw [h]
    cases k with
    | dtor => exact absurd (hI.dtorAt t) (by simp [h, DtorAt])
    | readFail | exit =>
      by_cases hc : c = c'
      · subst hc; simp [LockMove, Sys.setPc, Sys.free, Pc.holdsWrappers, After.resume]
      · simp [LockMove, Sys.setPc, Sys.free, Pc.holdsWrappers, After.resume, update_noteq hc,
          Ne.symm hc]
  case release => exact .inl ⟨rfl, Iff.rfl⟩
  case dtorSkip w k h _ | dtorRemove w k _ h _ =>
    refine .inl ⟨rfl, ?_⟩
    rw [Sys.setPc_pc_self, h]
    cases k <;> exact Iff.rfl
  all_goals exact .inl ⟨rfl, by rw [Sys.setPc_pc_self, ‹s.pc t = _›]; exact Iff.rfl⟩

theorem Inv.lockModify_step (hI : Inv s) (h : Step A s t s') :
    ∀ c u, s'.modifyMutex c = some u ↔ (s'.pc u).holdsModify c := fun c =>
  holder_step (hI.lockModify c) (fun _ hu => by rw [h.pc_ne hu]) (h.modifyMove c)

theorem Inv.lockWrappers_step (hI : Inv s) (h : Step A s t s') :
    ∀ c u, s'.wrappersMutex c = some u ↔ (s'.pc u).holdsWrappers c := fun c =>
  holder_step (hI.lockWrappers c) (fun _ hu => by rw [h.pc_ne hu]) (h.wrappersMove hI c)

lemma exists_update_some {g : Cid → Option (Nat × Bool)} {c : Cid} {w w' : Nat} {b : Bool}
    (hc : g c = none) :
    (∃ c' i, update g c (some (w', b)) c' = some (w, i)) ↔ w' = w ∨ ∃ c' i, g c' = some (w, i) := by
  constructor
  · rintro ⟨c', i, h⟩
    by_cases hc' : c' = c
    · subst hc'; simp at h; exact .inl h.1
    · rw [update_noteq hc'] at h; exact .inr ⟨c', i, h⟩
  · rintro (rfl | ⟨c', i, h⟩)
    · exact ⟨c, b, by simp⟩
    · have hc' : c' ≠ c := by rintro rfl; simp [hc] at h
      exact ⟨c', i, by rw [update_noteq hc', h]⟩

lemma exists_update_none {g : Cid → Option (Nat × Bool)} {c : Cid} {w : Nat} :
    (∃ c' i, update g c none c' = some (w, i)) ↔ ∃ c' i, c' ≠ c ∧ g c' = some (w, i) := by
  constructor
  · rintro ⟨c', i, h⟩
    by_cases hc' : c' = c
    · subst hc'; simp at h
    · rw [update_noteq hc'] at h; exact ⟨c', i, hc', h⟩
  · rintro ⟨c', i, hc', h⟩
    exact ⟨c', i, by rw [update_noteq hc', h]⟩

/-- Another thread holds the same wrapper mutexes after a step: its program counter and
`ScopedPtr`s are untouched, and a drain it is in reads a vector under a lock it holds. -/
lemma Step.holdsMutex_ne (hI : Inv s) (h : Step A s t s') (hu : u ≠ t) (w : Nat) :
    HoldsMutex s' u w ↔ HoldsMutex s u w := by
  unfold HoldsMutex
  rw [h.pc_ne hu, h.guards_ne hu]
  suffices (s.pc u).locks s'.wrappers w ↔ (s.pc u).locks s.wrappers w by rw [this]
  cases hp : s.pc u <;> simp only [Pc.locks]
  case modWaitDone c _ _ _ i =>
    rw [h.wrappers_of_holder hI hu (by simp [hp, Pc.holdsWrappers])]

lemma Step.mutexMove (hI : Inv s) (h : Step A s t s') (w : Nat) :
    LockMove t (s.mutex w) (s'.mutex w) (HoldsMutex s t w) (HoldsMutex s' t w) := by
  cases h
  case newOk c h =>
    refine .inl ⟨?_, by unfold HoldsMutex; rw [Sys.setPc_pc_self, h]; exact Iff.rfl⟩
    by_cases hw : w = s.next
    · subst hw; simp [Sys.setPc, Sys.alloc, hI.mutex_next]
    · simp [Sys.setPc, Sys.alloc, update_noteq hw]
  case beginRead c w' h hm =>
    by_cases hw : w = w'
    · subst hw; exact .inr (.inl ⟨hm, by simp [Sys.setPc], .inl (by simp [Pc.locks])⟩)
    · refine .inl ⟨by simp [Sys.setPc, update_noteq hw], ?_⟩
      simp [HoldsMutex, Sys.setPc, h, Pc.locks, Ne.symm hw]
  case modWaitLock c _ _ _ i w' h hw' hm =>
    by_cases hw : w = w'
    · subst hw; exact .inr (.inl ⟨hm, by simp [Sys.setPc], .inl (by simpa [Pc.locks])⟩)
    · refine .inl ⟨by simp [Sys.setPc, update_noteq hw], ?_⟩
      simp [HoldsMutex, Sys.setPc, h, Pc.locks, hw', Ne.symm hw]
  case modWaitDone c _ _ _ i w' h hw' =>
    by_cases hw : w = w'
    · subst hw
      refine .inr (.inr ⟨.inl (by simpa [h, Pc.locks]), by simp [Sys.setPc], ?_⟩)
      simp [HoldsMutex, Sys.setPc, Pc.locks, hI.drainGuard t c _ _ _ i w h hw']
    · refine .inl ⟨by simp [Sys.setPc, update_noteq hw], ?_⟩
      simp [HoldsMutex, Sys.setPc, h, Pc.locks, hw', Ne.symm hw]
  case loadIndex c w' h =>
    refine .inl ⟨rfl, ?_⟩
    have hg := hI.readingGuard t c (by simp [h, Pc.reading])
    simp only [HoldsMutex, Sys.setPc, update_same, h, Pc.locks, false_or]
    exact exists_update_some hg
  case release c w' i h hg =>
    by_cases hw : w = w'
    · subst hw
      refine .inr (.inr ⟨.inr ⟨c, i, hg⟩, by simp, ?_⟩)
      simp only [HoldsMutex, h, Pc.locks, update_same, false_or, exists_update_none, not_exists,
        not_and]
      intro c' j hc' hg'
      have hw0 := (hI.regBound c w (hI.guardTls t c w i hg).2).1
      have h1 := (hI.guardTls t c w i hg).1
      have h2 := (hI.guardTls t c' w j hg').1
      exact hc' (hI.tlsUnique t t c' c (by omega) (h2.trans h1.symm)).2
    · refine .inl ⟨by simp [update_noteq hw], ?_⟩
      simp only [HoldsMutex, update_same, exists_update_none]
      refine or_congr_right ⟨fun ⟨c', j, _, hg'⟩ => ⟨c', j, hg'⟩,
        fun ⟨c', j, hg'⟩ => ⟨c', j, ?_, hg'⟩⟩
      rintro rfl
      rw [hg] at hg'
      exact hw (Prod.mk.inj (Option.some.inj hg')).1.symm
  case dtorSkip w' k h _ | removeScan _ w' k h =>
    refine .inl ⟨rfl, ?_⟩
    unfold HoldsMutex
    rw [Sys.setPc_pc_self, h]
    cases k <;> exact Iff.rfl
  all_goals
    exact .inl ⟨rfl, by unfold HoldsMutex; rw [Sys.setPc_pc_self, ‹s.pc t = _›]; exact Iff.rfl⟩

theorem Inv.lockMutex_step (hI : Inv s) (h : Step A s t s') :
    ∀ w u, s'.mutex w = some u ↔ HoldsMutex s' u w := fun w =>
  holder_step (hI.lockMutex w) (fun _ hu => h.holdsMutex_ne hI hu w) (h.mutexMove hI w)

/-! ### `ScopedPtr`s and readers -/

lemma Inv.removeScan_owned (hI : Inv s) {c : Cid} {w : Nat} {k : After}
    (h : s.pc t = .removeScan c w k) : (s.pc t).owned = some w := by
  have := hI.dtorAt t
  rw [h] at this ⊢
  cases k <;> simp_all [DtorAt, Pc.owned]

/-- A registered `Wrapper` of a live container stays registered, unless the stepping thread
is deleting it. -/
lemma Step.mem_wrappers (hI : Inv s) (h : Step A s t s') {c : Cid} {w : Nat}
    (ha : s.alive c) (hw : w ∈ s.wrappers c) (hown : (s.pc t).owned ≠ some w) :
    w ∈ s'.wrappers c := by
  cases h
  case pushOk c₀ w₀ h₀ =>
    by_cases hc : c = c₀
    · subst hc; simp [Sys.setPc, hw]
    · simp [Sys.setPc, update_noteq hc, hw]
  case removeScan c₀ w₀ k h₀ =>
    have ho := hI.removeScan_owned h₀
    by_cases hc : c = c₀
    · subst hc
      simp only [Sys.setPc, Sys.free, update_same]
      rw [mem_removeWrapper (hI.ownedLive t w₀ ho).2.1.ne' (hI.regNodup c)]
      exact ⟨hw, by rintro rfl; exact hown ho⟩
    · simp [Sys.setPc, Sys.free, update_noteq hc, hw]
  case dtorEnd c₀ i h₀ _ =>
    have hc : c ≠ c₀ := by
      rintro rfl; simp [hI.dtorDead t c (by simp [h₀, Pc.dtorOf])] at ha
    simp [Sys.setPc, update_noteq hc, hw]
  all_goals exact hw

/-- The stepping thread's program counter says nothing about a `Wrapper` another thread
stores in its thread-local slot. -/
lemma Inv.owned_ne_tls (hI : Inv s) (c : Cid) : (s.pc t).owned ≠ some (s.tls u c) :=
  fun ho => hI.ownedNotTls t _ ho u c rfl

theorem Inv.drainGuard_step (hI : Inv s) (h : Step A s t s') :
    ∀ u c fn bg r i w, s'.pc u = .modWaitDone c fn bg r i → (s'.wrappers c)[i]? = some w →
      ∀ c' j, s'.guards u c' ≠ some (w, j) := by
  intro u c fn bg r i w hp hw c' j
  obtain rfl | hu := eq_or_ne u t
  · cases h
    case modWaitLock c₀ fn₀ bg₀ r₀ i₀ w₀ h₀ hw₀ hm =>
      simp only [Sys.setPc_pc_self, Pc.modWaitDone.injEq] at hp
      obtain ⟨rfl, rfl, rfl, rfl, rfl⟩ := hp
      simp only [Sys.setPc, hw₀, Option.some.injEq] at hw
      subst hw
      intro hg
      have := (hI.lockMutex w₀ u).2 (.inr ⟨c', j, hg⟩)
      rw [hm] at this
      cases this
    case dtorSkip _ k _ _ | removeScan _ _ k _ =>
      cases k <;> simp [Sys.setPc, After.resume] at hp
    all_goals simp [Sys.setPc, *] at hp
  · rw [h.pc_ne hu] at hp
    rw [h.wrappers_of_holder hI hu (by simp [hp, Pc.holdsWrappers])] at hw
    rw [h.guards_ne hu]
    exact hI.drainGuard u c fn bg r i w hp hw c' j

/-- A `ScopedPtr` after a step was there before, or is the one the stepping thread's load
has just made. -/
lemma Step.guard_cases (h : Step A s t s') {c : Cid} {g : Nat × Bool}
    (hg : s'.guards u c = some g) :
    s.guards u c = some g ∨ (u = t ∧ s.pc t = .loadIndex c g.1 ∧ g.2 = s.index c ∧
      s'.tls = s.tls ∧ s'.wrappers = s.wrappers) := by
  cases h
  case loadIndex c₀ w₀ h₀ =>
    simp only [Sys.setPc] at hg
    obtain rfl | hu := eq_or_ne u t
    · by_cases hc : c = c₀
      · subst hc; simp at hg; subst hg; exact .inr ⟨rfl, h₀, rfl, rfl, rfl⟩
      · simp [update_noteq hc] at hg; exact .inl hg
    · simp [update_noteq hu] at hg; exact .inl hg
  case release c₀ w₀ i₀ h₀ hg₀ =>
    left
    obtain rfl | hu := eq_or_ne u t
    · by_cases hc : c = c₀
      · subst hc; simp at hg
      · simpa [update_noteq hc] using hg
    · simpa [update_noteq hu] using hg
  all_goals exact .inl hg

/-- A thread-local slot changes only by the thread's own `pthread_setspecific`, or by its
exit setting it to `NULL`. -/
lemma Step.tls_cases (h : Step A s t s') (u : Tid) (c : Cid) :
    s'.tls u c = s.tls u c ∨ (u = t ∧ ((∃ w, s.pc t = .setSpecific c w ∧
      s'.pc t = .beginRead c w ∧ s'.tls t c = w ∧ s'.wrappers = s.wrappers ∧ s'.next = s.next) ∨
      (s.pc t = .exiting ∧ s'.tls t c = 0))) := by
  cases h
  case setOk c₀ w₀ h₀ =>
    obtain rfl | hu := eq_or_ne u t
    · by_cases hc : c = c₀
      · subst hc; exact .inr ⟨rfl, .inl ⟨w₀, h₀, by simp, by simp [Sys.setPc], rfl, rfl⟩⟩
      · exact .inl (by simp [Sys.setPc, update_noteq hc])
    · exact .inl (by simp [Sys.setPc, update_noteq hu])
  case exitKey c₀ h₀ _ _ =>
    obtain rfl | hu := eq_or_ne u t
    · by_cases hc : c = c₀
      · subst hc; exact .inr ⟨rfl, .inr ⟨h₀, by simp [Sys.setPc]⟩⟩
      · exact .inl (by simp [Sys.setPc, update_noteq hc])
    · exact .inl (by simp [Sys.setPc, update_noteq hu])
  all_goals exact .inl rfl

/-- A thread holding a `ScopedPtr` of `c` keeps its thread-local slot of `c`. -/
lemma Step.tls_of_guard (hI : Inv s) (h : Step A s t s') {c : Cid} {g : Nat × Bool}
    (hg : s.guards u c = some g) : s'.tls u c = s.tls u c := by
  rcases h.tls_cases u c with h' | ⟨rfl, ⟨w, hp, -⟩ | ⟨hp, -⟩⟩
  · exact h'
  · rw [hI.readingGuard u c (by simp [hp, Pc.reading])] at hg; cases hg
  · rw [hI.exitGuard u c (by simp [hp, Pc.atExit])] at hg; cases hg

lemma Inv.alive_of_guard (hI : Inv s) {c : Cid} {g : Nat × Bool} (hg : s.guards u c = some g) :
    s.alive c := by
  cases ha : s.alive c
  · rw [(hI.dead c u ha).1] at hg; cases hg
  · rfl

theorem Inv.guardTls_step (hI : Inv s) (h : Step A s t s') :
    ∀ u c w i, s'.guards u c = some (w, i) → s'.tls u c = w ∧ w ∈ s'.wrappers c := by
  intro u c w i hg
  rcases h.guard_cases hg with hg | ⟨rfl, hp, -, htls, hws⟩
  · obtain ⟨h1, h2⟩ := hI.guardTls u c w i hg
    refine ⟨(h.tls_of_guard hI hg).trans h1, h.mem_wrappers hI (hI.alive_of_guard hg) h2 ?_⟩
    rw [← h1]; exact hI.owned_ne_tls c
  · rw [htls, hws]; exact hI.readerTls u c w (.inr hp)

theorem Inv.readerTls_step (hI : Inv s) (h : Step A s t s') :
    ∀ u c w, (s'.pc u = .beginRead c w ∨ s'.pc u = .loadIndex c w) →
      s'.tls u c = w ∧ w ∈ s'.wrappers c := by
  intro u c w hp
  obtain rfl | hu := eq_or_ne u t
  · cases h
    case readHit c₀ h₀ _ hw =>
      simp only [Sys.setPc_pc_self, Pc.beginRead.injEq, reduceCtorEq, or_false] at hp
      obtain ⟨rfl, rfl⟩ := hp
      exact ⟨rfl, hI.tlsReg u _ (hI.alive_of_cid (u := u) (by simp [h₀, Pc.cid])
        (by simp [h₀, Pc.dtorOf])) hw⟩
    case setOk c₀ w₀ h₀ =>
      simp only [Sys.setPc_pc_self, Pc.beginRead.injEq, reduceCtorEq, or_false] at hp
      obtain ⟨rfl, rfl⟩ := hp
      have : Pushed s c₀ w₀ := by simpa [h₀, OwnedAt] using hI.ownedAt u
      exact ⟨by simp [Sys.setPc], this.1⟩
    case beginRead c₀ w₀ h₀ _ =>
      simp only [Sys.setPc_pc_self, Pc.loadIndex.injEq, reduceCtorEq, false_or] at hp
      obtain ⟨rfl, rfl⟩ := hp
      exact hI.readerTls u c₀ w₀ (.inl h₀)
    case dtorSkip _ k _ _ | removeScan _ _ k _ =>
      cases k <;> simp [After.resume] at hp
    all_goals simp [Sys.setPc, *] at hp
  · rw [h.pc_ne hu] at hp
    obtain ⟨h1, h2⟩ := hI.readerTls u c w hp
    have ha : s.alive c :=
      hI.alive_of_cid (u := u) (by rcases hp with hp | hp <;> simp [hp, Pc.cid])
      (by rcases hp with hp | hp <;> simp [hp, Pc.dtorOf])
    exact ⟨by rw [h.tls_ne hu, h1], h.mem_wrappers hI ha h2 (h1 ▸ hI.owned_ne_tls c)⟩

theorem Inv.readingGuard_step (hI : Inv s) (h : Step A s t s') :
    ∀ u c, (s'.pc u).reading c → s'.guards u c = none := by
  intro u c hr
  obtain rfl | hu := eq_or_ne u t
  · cases h
    case callRead c₀ _ _ hg =>
      simp only [Sys.setPc_pc_self, Pc.reading] at hr
      subst hr; exact hg
    case dtorSkip _ k _ _ | removeScan _ _ k _ =>
      cases k <;> simp [After.resume, Pc.reading] at hr
    case loadIndex | release => simp [Sys.setPc, *, Pc.reading] at hr
    all_goals
      rw [Sys.setPc_pc_self] at hr
      first
        | exact False.elim hr
        | (apply hI.readingGuard u c; rw [‹s.pc u = _›]; exact hr)
        | (apply hI.readingGuard u c; rw [‹s.pc u = _›]; cases ‹After› <;> exact hr)
  · rw [h.pc_ne hu] at hr
    rw [h.guards_ne hu]
    exact hI.readingGuard u c hr

theorem Inv.exitGuard_step (hI : Inv s) (h : Step A s t s') :
    ∀ u c, (s'.pc u).atExit → s'.guards u c = none := by
  intro u c hr
  obtain rfl | hu := eq_or_ne u t
  · cases h
    case exitStart _ hg => exact hg c
    case dtorSkip _ k h₀ _ | removeScan _ _ k h₀ =>
      cases k <;> simp only [After.resume, Sys.setPc_pc_self, Pc.atExit] at hr
      exact hI.exitGuard u c (by simp [h₀, Pc.atExit])
    case loadIndex | release => simp [Sys.setPc, *, Pc.atExit] at hr
    all_goals
      rw [Sys.setPc_pc_self] at hr
      first
        | exact False.elim hr
        | (apply hI.exitGuard u c; rw [‹s.pc u = _›]; exact hr)
        | (apply hI.exitGuard u c; rw [‹s.pc u = _›]; cases ‹After› <;> exact hr)
  · rw [h.pc_ne hu] at hr
    rw [h.guards_ne hu]
    exact hI.exitGuard u c hr

end PublicComponent.Dbd
