import PublicComponent.Dbd.Heap

/-!
Why the destructors, `_index` and stale `ScopedPtr`s keep their part of the invariant across
a step, and so why the invariant holds in every reachable state.

`~DoublyBufferedData` runs alone on a quiet container and sweeps `_wrappers` in order; other
threads touch neither its `_wrappers` nor their `Wrapper`s (`Step.untouched`). `_index` changes
only by the store of the one thread holding `_modify_mutex`, and a `ScopedPtr` that reads the
old foreground is covered by the drain loop of the writer that published past it.
-/

namespace PublicComponent.Dbd

open Function

variable {T : Type} {A : Fn T → Prop} {s s' : Sys T} {t u v : Tid}

/-- A thread in a destructor of `c` works on `c`: its `~Wrapper`s never call `RemoveWrapper`. -/
lemma Inv.cid_of_dtorOf (hI : Inv s) {c : Cid} (h : (s.pc u).dtorOf c) : (s.pc u).cid = some c := by
  have hd := hI.dtorAt u
  generalize s.pc u = p at h hd ⊢
  cases p <;> (try cases ‹After›) <;> simp_all [Pc.dtorOf, Pc.cid, After.cid, DtorAt]

lemma Step.alive_cases (h : Step A s t s') :
    s'.alive = s.alive ∨ ∃ c, s.pc t = .idle ∧ s.alive c ∧ s.Quiet c ∧
      s' = { s with alive := update s.alive c false }.setPc t (.dtorLock c) := by
  cases h
  case callDtor c h ha hq => exact .inr ⟨c, h, ha, hq, rfl⟩
  all_goals exact .inl rfl

lemma Step.dead (h : Step A s t s') {c : Cid} (ha : s.alive c = false) : s'.alive c = false := by
  cases hs : s'.alive c
  · rfl
  · rw [h.alive_of_alive hs] at ha; cases ha

/-- A thread is in a destructor of `c` after a step only if it was before, or has just called
it on a quiet container. -/
lemma Step.dtorOf_cases (h : Step A s t s') {c : Cid} (hd : (s'.pc t).dtorOf c) :
    (s.pc t).dtorOf c ∨ (s.pc t = .idle ∧ s.alive c ∧ s.Quiet c ∧
      s' = { s with alive := update s.alive c false }.setPc t (.dtorLock c)) := by
  cases h
  case callDtor c₀ h₀ ha hq =>
    simp only [Sys.setPc_pc_self, Pc.dtorOf] at hd
    subst hd; exact .inr ⟨h₀, ha, hq, rfl⟩
  case dtorSkip _ k h₀ _ | removeScan _ _ k h₀ =>
    rw [h₀]; cases k <;> simp_all [After.resume, Pc.dtorOf]
  case release => exact .inl hd
  all_goals
    left
    rw [Sys.setPc_pc_self] at hd
    rw [‹s.pc t = _›]
    first | exact hd | exact False.elim hd | (cases ‹After› <;> exact hd)

/-- After a step, a thread working on `c` outside its destructor was working on a live `c`. -/
lemma Step.alive_of_busy (hI : Inv s) (h : Step A s t s') {c : Cid}
    (hc : (s'.pc t).cid = some c) (hd : ¬ (s'.pc t).dtorOf c) : s.alive c := by
  cases h
  case callRead c₀ _ ha _ | callModify c₀ _ _ ha _ | exitKey c₀ _ ha _ =>
    simp only [Sys.setPc_pc_self, Pc.cid, After.cid, Option.some.injEq] at hc
    exact hc ▸ ha
  case callDtor c₀ _ _ _ =>
    simp only [Sys.setPc_pc_self, Pc.cid, Pc.dtorOf, Option.some.injEq] at hc hd
    exact absurd hc hd
  case dtorRemove w k c₀ h₀ hc₀ =>
    -- `~Wrapper` calls `RemoveWrapper` on its own container, which is alive
    have hat := hI.ownedAt t
    have hdt := hI.dtorAt t
    rw [h₀] at hat hdt
    simp only [Sys.setPc_pc_self, Pc.cid, Option.some.injEq] at hc
    subst hc
    cases k with
    | readFail c' =>
      rw [hat.2, Option.some.injEq] at hc₀; subst hc₀
      exact hI.alive_of_cid (u := t) (by simp [h₀, Pc.cid, After.cid]) (by simp [h₀, Pc.dtorOf])
    | exit c' =>
      rw [hat.2, Option.some.injEq] at hc₀; subst hc₀
      exact hI.alive_of_cid (u := t) (by simp [h₀, Pc.cid, After.cid]) (by simp [h₀, Pc.dtorOf])
    | dtor => rw [hdt.2.2.1] at hc₀; cases hc₀
  case dtorSkip _ k _ _ | removeScan _ _ k _ =>
    cases k <;> simp_all [After.resume, Pc.cid, Pc.dtorOf]
  case release _ _ _ h₀ _ => rw [h₀] at hc; cases hc
  all_goals
    rw [Sys.setPc_pc_self] at hc hd
    first
      | exact Option.noConfusion hc
      | exact hI.alive_of_cid (u := t) (by rw [‹s.pc t = _›]; exact hc)
          (by rw [‹s.pc t = _›]; exact hd)
      | exact hI.alive_of_cid (u := t) (by rw [‹s.pc t = _›]; exact hc)
          (by rw [‹s.pc t = _›]; cases ‹After› <;> exact hd)

theorem Inv.dtorDead_step (hI : Inv s) (h : Step A s t s') :
    ∀ u c, (s'.pc u).dtorOf c → s'.alive c = false := by
  intro u c hd
  obtain rfl | hu := eq_or_ne u t
  · rcases h.dtorOf_cases hd with hd | ⟨-, -, -, rfl⟩
    · exact h.dead (hI.dtorDead u c hd)
    · simp [Sys.setPc]
  · rw [h.pc_ne hu] at hd; exact h.dead (hI.dtorDead u c hd)

theorem Inv.dtorAlone_step (hI : Inv s) (h : Step A s t s') :
    ∀ c u v, (s'.pc u).dtorOf c → (s'.pc v).cid = some c → v = u := by
  intro c u v hd hc
  obtain rfl | hu := eq_or_ne u t
  · by_contra hvu
    rw [h.pc_ne hvu] at hc
    rcases h.dtorOf_cases hd with hd | ⟨-, -, hq, -⟩
    · exact hvu (hI.dtorAlone c u v hd hc)
    · exact (hq v).1 hc
  · rw [h.pc_ne hu] at hd
    obtain rfl | hvt := eq_or_ne v t
    · -- the stepping thread works on a container whose destructor `u` runs
      have hdead := hI.dtorDead u c hd
      by_cases hd' : (s'.pc v).dtorOf c
      · rcases h.dtorOf_cases hd' with hd' | ⟨-, ha, -⟩
        · exact (hI.dtorAlone c v u hd' (hI.cid_of_dtorOf hd)).symm
        · rw [hdead] at ha; cases ha
      · rw [h.alive_of_busy hI hc hd'] at hdead; cases hdead
    · rw [h.pc_ne hvt] at hc; exact hI.dtorAlone c u v hd hc

theorem Inv.dead_step (hI : Inv s) (h : Step A s t s') :
    ∀ c u, s'.alive c = false →
      s'.guards u c = none ∧ ((s'.pc u).cid = some c → (s'.pc u).dtorOf c) := by
  intro c u ha
  rcases h.alive_cases with hal | ⟨c₀, -, -, hq, rfl⟩
  · have ha₀ : s.alive c = false := hal ▸ ha
    refine ⟨?_, fun hc => ?_⟩
    · cases hg : s'.guards u c with
      | none => rfl
      | some g =>
        rcases h.guard_cases hg with hg' | ⟨rfl, hp, -⟩
        · rw [(hI.dead c u ha₀).1] at hg'; cases hg'
        · rw [hI.alive_of_cid (u := u) (by simp [hp, Pc.cid]) (by simp [hp, Pc.dtorOf])] at ha₀
          cases ha₀
    · obtain rfl | hu := eq_or_ne u t
      · by_contra hd
        rw [h.alive_of_busy hI hc hd] at ha₀; cases ha₀
      · rw [h.pc_ne hu] at hc ⊢; exact (hI.dead c u ha₀).2 hc
  · -- `~DoublyBufferedData` has just begun on the quiet container `c₀`
    by_cases hc : c = c₀
    · subst hc
      refine ⟨(hq u).2, fun hcid => ?_⟩
      obtain rfl | hu := eq_or_ne u t
      · simp [Pc.dtorOf]
      · rw [Sys.setPc_pc_ne _ _ hu] at hcid; exact absurd hcid (hq u).1
    · have ha' : s.alive c = false := by simpa [Sys.setPc, update_noteq hc] using ha
      refine ⟨(hI.dead c u ha').1, fun hcid => ?_⟩
      obtain rfl | hu := eq_or_ne u t
      · simp only [Sys.setPc_pc_self, Pc.cid, Option.some.injEq] at hcid
        exact absurd hcid.symm hc
      · rw [Sys.setPc_pc_ne _ _ hu] at hcid ⊢; exact (hI.dead c u ha').2 hcid

/-- A step leaves `c`'s registered `Wrapper`s as they were. -/
def Untouched (s s' : Sys T) (c : Cid) : Prop :=
  s'.wrappers c = s.wrappers c ∧
    ∀ w ∈ s.wrappers c, s'.live w = s.live w ∧ s'.control w = s.control w

lemma Untouched.swept {c : Cid} {i : Nat} (hU : Untouched s s' c) (hs : Swept s c i) :
    Swept s' c i := by
  intro j w hj
  rw [hU.1] at hj
  obtain ⟨hl, hc⟩ := hU.2 w (List.getElem?_mem hj)
  rw [hl, hc]; exact hs j w hj

lemma Untouched.free {c : Cid} (hU : Untouched s s' c) (w : Nat) :
    Untouched (s.free w) (s'.free w) c := by
  refine ⟨hU.1, fun w' hw' => ⟨?_, (hU.2 w' hw').2⟩⟩
  by_cases hw : w' = w
  · subst hw; simp [Sys.free]
  · simp [Sys.free, update_noteq hw, (hU.2 w' hw').1]

/-- What a destructor loop knows depends only on its own container's `Wrapper`s. -/
lemma DtorAt.untouched {p : Pc T} (hU : ∀ c, p.dtorOf c → Untouched s s' c)
    (hd : DtorAt s p) : DtorAt s' p := by
  cases p
  case dtorLock c | dtorLoop c _ => exact (hU c rfl).swept hd
  case wrapperDtor w k =>
    cases k with
    | dtor c i =>
      obtain ⟨hw, hl, hc, hs⟩ := hd
      have hU := hU c rfl
      obtain ⟨hl', hc'⟩ := hU.2 w (List.getElem?_mem hw)
      exact ⟨hU.1 ▸ hw, hl' ▸ hl, hc' ▸ hc, (hU.free w).swept hs⟩
    | readFail | exit => trivial
  case removeLock _ _ k | removeScan _ _ k =>
    cases k with
    | dtor => exact hd.elim
    | readFail | exit => trivial
  all_goals trivial

/-- A step of another thread leaves the `Wrapper`s of a container alone while its destructor
runs: the stepping thread works on another container, and registries are disjoint. -/
lemma Step.untouched (hI : Inv s) (h : Step A s t s') (hu : u ≠ t) {c : Cid}
    (hd : (s.pc u).dtorOf c) : Untouched s s' c := by
  have hdead := hI.dtorDead u c hd
  have hcid : ∀ c', (s.pc t).cid = some c' → c' ≠ c := by
    rintro c' hc' rfl; exact hu (hI.dtorAlone c' u t hd hc').symm
  have hreg : ∀ c' w, (s.pc t).cid = some c' → w ∈ s.wrappers c' → w ∉ s.wrappers c :=
    fun c' w h1 h2 h3 => hcid c' h1 (hI.regDisjoint c' c w h2 h3)
  refine ⟨?_, fun w hw => ?_⟩
  · rcases h.wrappers_cases with hs | ⟨c₀, _, hp, hs⟩ | ⟨c₀, _, _, hp, hs⟩ | ⟨c₀, _, hp, -, hs⟩ <;>
      rw [hs]
    all_goals exact update_noteq (hcid c₀ (by simp [hp, Pc.cid])).symm _ _
  · rcases h.heap_cases with ⟨hl, hc, -⟩ | ⟨_, -, hl, hc, -⟩ | ⟨w₀, hf, hl, hc, -⟩ |
      ⟨c₀, i, w₀, hp, hw₀, hl, hc, -⟩ <;> rw [hl, hc]
    · exact ⟨rfl, rfl⟩
    · have hne := (hI.regBound c w hw).2.ne
      exact ⟨update_noteq hne _ _, update_noteq hne _ _⟩
    · have hne : w ≠ w₀ := by
        rintro rfl
        rcases hf with ⟨k, hp, hc₀⟩ | ⟨c₀, k, hp⟩
        · obtain ⟨c₁, i, rfl, hw₁, -⟩ := hI.dtorSkip_at hp hc₀
          exact hreg c₁ w (by simp [hp, Pc.cid, After.cid]) (List.getElem?_mem hw₁) hw
        · rw [hI.alive_of_owned (hI.removeScan_owned hp) hw] at hdead; cases hdead
      exact ⟨update_noteq hne _ _, rfl⟩
    · have hne : w ≠ w₀ := by
        rintro rfl; exact hreg c₀ w (by simp [hp, Pc.cid]) (List.getElem?_mem hw₀) hw
      exact ⟨rfl, update_noteq hne _ _⟩

/-- `_wrappers[i]->_control = NULL; delete _wrappers[i];` moves the sweep one place on. -/
lemma Swept.next {c : Cid} {i w : Nat} (hn : (s.wrappers c).Nodup) (hs : Swept s c i)
    (hw : (s.wrappers c)[i]? = some w) :
    Swept ({ s with control := update s.control w none }.free w) c (i + 1) := by
  intro j w' hj
  change (s.wrappers c)[j]? = some w' at hj
  by_cases hw' : w' = w
  · subst hw'
    have : j = i := List.getElem?_inj (List.getElem?_eq_some_iff.1 hj).1 hn (hj.trans hw.symm)
    subst this; simp [Sys.free]
  · have hji : j ≠ i := by rintro rfl; rw [hw] at hj; exact hw' (Option.some.inj hj).symm
    have := hs j w' hj
    simp only [Sys.free, update_noteq hw']
    exact ⟨fun h => this.1 (by omega), fun h => this.2 (by omega)⟩

theorem Inv.dtorAt_step (hI : Inv s) (h : Step A s t s') : ∀ u, DtorAt s' (s'.pc u) := by
  intro u
  obtain rfl | hu := eq_or_ne u t
  · have hd := hI.dtorAt u
    cases h
    case release => exact hd
    all_goals rw [Sys.setPc_pc_self]
    case callDtor c _ ha _ =>
      -- every `Wrapper` of a live container is live and points back to it
      exact fun j w hj => ⟨fun h => absurd h (Nat.not_lt_zero j),
        fun _ => hI.regLive c w ha (List.getElem?_mem hj)⟩
    case dtorLock _ h₀ _ => rw [h₀] at hd; exact hd
    case dtorNext c i w h₀ hw =>
      rw [h₀] at hd
      exact ⟨hw, ((hd i w hw).2 le_rfl).1, update_same _ _ _, Swept.next (hI.regNodup c) hd hw⟩
    case dtorSkip w k h₀ hc =>
      obtain ⟨c, i, rfl, -, -, hs⟩ := hI.dtorSkip_at h₀ hc
      exact hs
    case dtorRemove w k c h₀ hc =>
      rw [h₀] at hd
      cases k with
      | dtor => rw [hd.2.2.1] at hc; cases hc
      | readFail | exit => trivial
    case removeLock _ _ k h₀ _ | removeScan _ _ k h₀ =>
      rw [h₀] at hd
      cases k with
      | dtor => exact hd.elim
      | readFail | exit => trivial
    all_goals trivial
  · rw [h.pc_ne hu]
    exact DtorAt.untouched (fun c hd => h.untouched hI hu hd) (hI.dtorAt u)

/-! ### The published index -/

lemma Step.index_cases (h : Step A s t s') :
    s'.index = s.index ∨ ∃ c fn bg ret, s.pc t = .modStore c fn bg ret ∧
      s'.index = update s.index c bg ∧ s'.pc t = .modDrainLock c fn (!bg) ret := by
  cases h
  case modStore c fn bg ret h => exact .inr ⟨c, fn, bg, ret, h, rfl, by simp⟩
  all_goals exact .inl rfl

lemma Step.index_of_holder (hI : Inv s) (h : Step A s t s') (hu : u ≠ t) {c : Cid}
    (hl : (s.pc u).holdsModify c) : s'.index c = s.index c := by
  rcases h.index_cases with hx | ⟨c₀, fn, bg, ret, hp, hx, -⟩ <;> rw [hx]
  refine update_noteq ?_ _ _
  rintro rfl
  exact hu (hI.modify_unique hl (by simp [hp, Pc.holdsModify]))

theorem Inv.bgAt_step (hI : Inv s) (h : Step A s t s') : ∀ u, BgAt s' (s'.pc u) := by
  intro u
  have hb := hI.bgAt u
  obtain rfl | hu := eq_or_ne u t
  · cases h
    case release => exact hb
    all_goals rw [Sys.setPc_pc_self]
    case modLoad => rfl
    case modStore => simp [BgAt, Sys.setPc]
    case modFn1 h₀ _ | modDrainLock h₀ _ | modWaitLock h₀ _ _ | modWaitDone h₀ _
      | modWaitEnd h₀ _ =>
      rw [h₀] at hb; exact hb
    case dtorSkip _ k _ _ | removeScan _ _ k _ => cases k <;> trivial
    all_goals trivial
  · rw [h.pc_ne hu]
    cases hp : s.pc u <;> rw [hp] at hb
    case modFn1 c _ _ | modStore c _ _ _ | modDrainLock c _ _ _ | modWait c _ _ _ _
      | modWaitDone c _ _ _ _ | modFn2 c _ _ _ =>
      show _ = _
      rw [h.index_of_holder hI hu (by simp [hp, Pc.holdsModify])]; exact hb
    all_goals trivial

/-- A drain in progress keeps covering `w`: a step moves a drain on only past `Wrapper`s whose
mutex is free, and a `ScopedPtr` on `w` holds its mutex. -/
lemma Pc.draining_of_wrappers {p : Pc T} {ws ws' : Cid → List Nat} {c : Cid} {w : Nat}
    (hd : p.draining ws c w) (hws : p.holdsWrappers c → ws' c = ws c) : p.draining ws' c w := by
  cases p <;> simp only [Pc.draining] at hd ⊢
  case modDrainLock => exact hd
  case modWait c' _ _ _ _ | modWaitDone c' _ _ _ _ =>
    obtain ⟨rfl, hd⟩ := hd
    exact ⟨rfl, by rw [hws rfl]; exact hd⟩

lemma Step.draining (hI : Inv s) (h : Step A s t s') {c : Cid} {w : Nat} {i : Bool}
    (hg : s.guards u c = some (w, i)) (hv : (s.pc v).draining s.wrappers c w) :
    ∃ v, (s'.pc v).draining s'.wrappers c w := by
  obtain rfl | hvt := eq_or_ne v t
  · refine ⟨v, ?_⟩
    cases h
    case release h₀ _ => rw [h₀] at hv; exact hv.elim
    all_goals rw [Sys.setPc_pc_self]
    case modDrainLock c₀ _ _ _ h₀ _ =>
      rw [h₀] at hv; subst hv
      simpa [Pc.draining] using (hI.guardTls u c₀ w i hg).2
    case modWaitLock c₀ _ _ _ j w₀ h₀ hw hm =>
      rw [h₀] at hv; obtain ⟨rfl, hv⟩ := hv
      refine ⟨rfl, ?_⟩
      have hne : w ≠ w₀ := by
        rintro rfl; rw [(hI.lockMutex w u).2 (.inr ⟨_, i, hg⟩)] at hm; cases hm
      rw [List.drop_eq_getElem_cons (List.getElem?_eq_some_iff.1 hw).1, List.mem_cons] at hv
      exact hv.resolve_left fun he => hne (he.trans (List.getElem?_eq_some_iff.1 hw).2)
    case modWaitDone h₀ _ => rw [h₀] at hv; exact hv
    case modWaitEnd c₀ _ _ _ j h₀ hj =>
      rw [h₀] at hv; obtain ⟨rfl, hv⟩ := hv
      rw [List.drop_eq_nil_of_le hj] at hv; cases hv
    all_goals rw [‹s.pc v = _›] at hv; exact hv.elim
  · refine ⟨v, ?_⟩
    rw [h.pc_ne hvt]
    exact Pc.draining_of_wrappers hv (h.wrappers_of_holder hI hvt)

theorem Inv.stale_step (hI : Inv s) (h : Step A s t s') :
    ∀ u c w i, s'.guards u c = some (w, i) →
      i = s'.index c ∨ ∃ v, (s'.pc v).draining s'.wrappers c w := by
  intro u c w i hg
  rcases h.guard_cases hg with hg | ⟨rfl, hp, hi, -⟩
  · rcases hI.stale u c w i hg with hi | ⟨v, hv⟩
    · rcases h.index_cases with hx | ⟨c₀, fn, bg, ret, -, hx, hp'⟩
      · exact .inl (hx ▸ hi)
      · by_cases hc : c = c₀
        · -- a writer has just published: it drains every reader
          subst hc; exact .inr ⟨t, by rw [hp']; rfl⟩
        · exact .inl (by rw [hx, update_noteq hc]; exact hi)
    · exact .inr (h.draining hI hg hv)
  · -- the `ScopedPtr` this step has made reads the current index
    left
    rcases h.index_cases with hx | ⟨_, _, _, _, hp', -⟩
    · rw [hx]; exact hi
    · rw [hp] at hp'; cases hp'

/-! ### Every reachable state -/

theorem Inv.step (hI : Inv s) (h : Step A s t s') : Inv s' where
  lockModify := hI.lockModify_step h
  lockWrappers := hI.lockWrappers_step h
  lockMutex := hI.lockMutex_step h
  drainGuard := hI.drainGuard_step h
  guardTls := hI.guardTls_step h
  readerTls := hI.readerTls_step h
  readingGuard := hI.readingGuard_step h
  exitGuard := hI.exitGuard_step h
  dead := hI.dead_step h
  dtorDead := hI.dtorDead_step h
  dtorAlone := hI.dtorAlone_step h
  regNodup := hI.regNodup_step h
  regBound := hI.regBound_step h
  regLive := hI.regLive_step h
  regDisjoint := hI.regDisjoint_step h
  tlsUnique := hI.tlsUnique_step h
  tlsBound := hI.tlsBound_step h
  tlsReg := hI.tlsReg_step h
  fresh := hI.fresh_step h
  nextPos := hI.nextPos_step h
  frees := hI.frees_step h
  liveOwned := hI.liveOwned_step h
  ownedUnique := hI.ownedUnique_step h
  ownedNotTls := hI.ownedNotTls_step h
  ownedLive := hI.ownedLive_step h
  ownedAt := hI.ownedAt_step h
  dtorAt := hI.dtorAt_step h
  bgAt := hI.bgAt_step h
  stale := hI.stale_step h

/-- **The invariant holds in every reachable state.** -/
theorem Reach.inv (hr : Reach A s) : Inv s := by
  induction hr with
  | init x created => exact Inv.init x created
  | step _ h ih => exact ih.step h

/-- **Mutual exclusion.** In every reachable state at most one thread is inside what each lock
guards: `Modify` after taking `_modify_mutex`; `push_back`, the drain loop, the loop of
`RemoveWrapper` and that of `~DoublyBufferedData` under a `_wrappers_mutex`; and a `Wrapper`
from `BeginRead` to `~ScopedPtr`, or inside `WaitReadDone`, under its `_mutex`. -/
theorem mutual_exclusion (hr : Reach A s) :
    (∀ c u v, (s.pc u).holdsModify c → (s.pc v).holdsModify c → u = v) ∧
    (∀ c u v, (s.pc u).holdsWrappers c → (s.pc v).holdsWrappers c → u = v) ∧
    (∀ w u v, HoldsMutex s u w → HoldsMutex s v w → u = v) :=
  ⟨fun _ _ _ => hr.inv.modify_unique, fun _ _ _ => hr.inv.wrappers_unique,
    fun _ _ _ => hr.inv.mutex_unique⟩

/-- After a first `Read`, the reader alone holds its `Wrapper::_mutex`. -/
theorem mutual_exclusion_reader : ∃ s : Sys Nat, Reach (fun _ => True) s ∧
    HoldsMutex s 0 1 ∧ ∀ v, HoldsMutex s v 1 → v = 0 := by
  have hr : Reach (T := Nat) (fun _ => True) _ :=
    .step (t := 0) (.step (t := 0) (.step (t := 0) (.step (t := 0) (.step (t := 0)
      (.step (t := 0) (.step (t := 0) (.step (t := 0) (.init (fun _ => 0) fun _ => true)
      (Step.callRead (c := 0) rfl rfl rfl)) (.readMiss rfl rfl rfl)) (.newOk rfl))
      (.pushLock rfl rfl)) (.pushOk rfl)) (.setOk rfl)) (.beginRead (c := 0) (w := 1) rfl rfl))
      (.loadIndex rfl)
  exact ⟨_, hr, .inr ⟨0, false, rfl⟩,
    fun v hv => (mutual_exclusion hr).2.2 1 v 0 hv (.inr ⟨0, false, rfl⟩)⟩

end PublicComponent.Dbd
