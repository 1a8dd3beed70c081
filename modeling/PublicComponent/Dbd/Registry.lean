import PublicComponent.Dbd.Reach

/-!
What `_wrappers` promises the drain loop, and what becomes of every `Wrapper`.

For every container not being destroyed, `_wrappers` holds each `Wrapper` once, each live and
pointing back at the container, and holds the `Wrapper` of every thread that has one, holds a
`ScopedPtr` or is taking one: so the drain loop waits for every reader and on no deleted
`Wrapper`. While `~DoublyBufferedData` runs this fails: it clears `_control` of an element, then
deletes it, and the element stays in `_wrappers` until `clear()`. A `Wrapper` is deleted only
by `~Wrapper` run by the key's destructor at thread exit, by the `unique_ptr` of a failed
`push_back`, or by a destructor loop, never twice; and once every thread is idle, every
`Wrapper` is deleted or still registered in a live container.
-/

namespace PublicComponent.Dbd

open Function

variable {T : Type} {A : Fn T → Prop} {s s' : Sys T} {t u : Tid}

/-! ### Destroyed containers -/

/-- A destroyed container has an empty `_wrappers`, unless its destructor is still running. -/
def Cleared (s : Sys T) : Prop :=
  ∀ c, s.alive c = false → s.wrappers c = [] ∨ ∃ u, (s.pc u).dtorOf c

lemma Cleared.init (x : Cid → T) (created : Cid → Bool) : Cleared (Sys.init x created) :=
  fun _ h => Bool.noConfusion h

/-- A destructor runs on to `_wrappers.clear()`. -/
lemma Step.dtorOf_keep (hI : Inv s) (h : Step A s t s') {c : Cid} (hd : (s.pc t).dtorOf c) :
    (s'.pc t).dtorOf c ∨ s'.wrappers c = [] := by
  cases h
  case dtorEnd h₀ _ =>
    rw [h₀] at hd; subst hd; exact .inr (by simp [Sys.setPc])
  case dtorSkip w k h₀ hc =>
    obtain ⟨c', i, rfl, -⟩ := hI.dtorSkip_at h₀ hc
    rw [h₀] at hd; rw [Sys.setPc_pc_self]; exact .inl hd
  case removeScan h₀ =>
    exact absurd (hI.dtorAt t) (by cases ‹After› <;> simp_all [DtorAt, Pc.dtorOf])
  case release => exact .inl hd
  all_goals
    left
    rw [Sys.setPc_pc_self]
    rw [‹s.pc t = _›] at hd
    first | exact hd | exact hd.elim | (cases ‹After› <;> exact hd)

lemma Cleared.step (hI : Inv s) (hC : Cleared s) (h : Step A s t s') : Cleared s' := by
  intro c ha
  rcases h.alive_cases with hal | ⟨c₀, hp, -, -, rfl⟩
  · have ha₀ : s.alive c = false := hal ▸ ha
    rcases hC c ha₀ with hw | ⟨u, hu⟩
    · -- nothing is pushed onto a destroyed container, and the rest only shrinks it
      left
      rcases h.wrappers_cases with hs | ⟨c₀, w, hp, hs⟩ | ⟨c₀, w, k, hp, hs⟩ | ⟨c₀, i, hp, -, hs⟩ <;>
        rw [hs]
      · exact hw
      all_goals rcases eq_or_ne c c₀ with rfl | hc
      all_goals try (rw [update_noteq hc]; exact hw)
      all_goals rw [update_same]
      · exact absurd ((hI.dead c t ha₀).2 (by simp [hp, Pc.cid])) (by simp [hp, Pc.dtorOf])
      · rw [hw]; exact removeWrapper_of_not_mem (List.not_mem_nil w)
    · obtain rfl | hut := eq_or_ne u t
      · exact (h.dtorOf_keep hI hu).symm.imp id fun hd => ⟨u, hd⟩
      · exact .inr ⟨u, by rw [h.pc_ne hut]; exact hu⟩
  · -- `~DoublyBufferedData` has just begun
    rcases eq_or_ne c c₀ with rfl | hc
    · exact .inr ⟨t, by simp [Pc.dtorOf]⟩
    · have ha₀ : s.alive c = false := by simpa [Sys.setPc, update_noteq hc] using ha
      refine (hC c ha₀).imp id fun ⟨u, hu⟩ => ⟨u, ?_⟩
      have hut : u ≠ t := by rintro rfl; rw [hp] at hu; exact hu
      rw [Sys.setPc_pc_ne _ _ hut]; exact hu

lemma Reach.cleared (hr : Reach A s) : Cleared s := by
  induction hr with
  | init x created => exact Cleared.init x created
  | step hr h ih => exact ih.step hr.inv h

/-! ### Deleting `Wrapper`s -/

/-- The only steps that delete a `Wrapper`, and only a live one: the end of a `~Wrapper` run
by a destructor loop, which cleared `_control` and so skipped `RemoveWrapper`, and the end of
the `RemoveWrapper` called by the `unique_ptr` of a failed `push_back` or by the key's
destructor at thread exit. -/
lemma Step.deletes (hI : Inv s) (h : Step A s t s') {w : Nat} (hf : s'.frees w ≠ s.frees w) :
    s.live w ∧ ((∃ c i, s.pc t = .wrapperDtor w (.dtor c i) ∧ s.control w = none) ∨
      (∃ c, s.pc t = .removeScan c w (.readFail c)) ∨
      ∃ c, s.pc t = .removeScan c w (.exit c)) := by
  rcases h.heap_cases with ⟨-, -, -, hf'⟩ | ⟨_, -, -, -, -, hf'⟩ | ⟨w₀, hw₀, -, -, -, hf'⟩ |
    ⟨_, _, _, -, -, -, -, -, hf'⟩
  · exact absurd (by rw [hf']) hf
  · exact absurd (by rw [hf']) hf
  · obtain rfl : w = w₀ := by
      by_contra hne; exact hf (by rw [hf', update_noteq hne])
    refine ⟨(hI.freeing_live hw₀).1, ?_⟩
    rcases hw₀ with ⟨k, hp, hc⟩ | ⟨c, k, hp⟩
    · obtain ⟨c, i, rfl, -⟩ := hI.dtorSkip_at hp hc
      exact .inl ⟨c, i, hp, hc⟩
    · have hat := hI.ownedAt t
      rw [hp] at hat
      cases k with
      | readFail c' => obtain ⟨rfl, -⟩ := hat; exact .inr (.inl ⟨c, hp⟩)
      | exit c' => obtain ⟨rfl, -⟩ := hat; exact .inr (.inr ⟨c, hp⟩)
      | dtor => exact absurd (hI.dtorAt t) (by simp [hp, DtorAt])
  · exact absurd (by rw [hf']) hf

/-- When every thread is idle or gone, no `Wrapper` is lost: each one `new` returned was
deleted exactly once, or is live in the `_wrappers` of a container not destroyed. -/
lemma Inv.no_leak (hI : Inv s) (hC : Cleared s) (hq : ∀ u, s.pc u = .idle ∨ s.pc u = .exited)
    {w : Nat} (h0 : 0 < w) (hlt : w < s.next) :
    s.frees w = 1 ∨ (s.live w ∧ ∃ c, s.alive c ∧ w ∈ s.wrappers c) := by
  cases hl : s.live w
  · left; rw [hI.frees w]; simp [h0, hlt, hl]
  · right
    refine ⟨rfl, ?_⟩
    rcases hI.liveOwned w hl with ⟨c, hc⟩ | ⟨u, hu⟩
    · refine ⟨c, ?_, hc⟩
      cases ha : s.alive c
      · rcases hC c ha with hw | ⟨u, hu⟩
        · rw [hw] at hc; cases hc
        · rcases hq u with hp | hp <;> rw [hp] at hu <;> exact hu.elim
      · rfl
    · rcases hq u with hp | hp <;> rw [hp] at hu <;> cases hu

/-! ### The registry -/

/-- **The registry.** In every reachable state: `_wrappers` holds no pointer twice; in a
container not being destroyed each element is a live `Wrapper` whose `_control` is the
container, and the `Wrapper` in any thread's slot under its key is an element; every `Wrapper`
a `ScopedPtr` holds or a `Read` is locking is an element, so the drain loop waits for it, and
the drain loop waits on no deleted `Wrapper`; a destructor loop's `~Wrapper` never enters
`RemoveWrapper`; a `Wrapper` is deleted at most once, only while live, and only at the end of
a `~Wrapper` run by a destructor loop, by the `unique_ptr` of a failed `push_back` or by the
key's destructor at thread exit; and once every thread is idle or gone, every `Wrapper` `new`
returned was deleted exactly once or is live in a container not destroyed. -/
theorem registry_invariants (hr : Reach A s) :
    (∀ c, (s.wrappers c).Nodup) ∧
    (∀ c w, s.alive c → w ∈ s.wrappers c → s.live w ∧ s.control w = some c) ∧
    (∀ u c, s.alive c → s.tls u c ≠ 0 → s.tls u c ∈ s.wrappers c) ∧
    (∀ u c w i, s.guards u c = some (w, i) → w ∈ s.wrappers c) ∧
    (∀ u c w, (s.pc u = .beginRead c w ∨ s.pc u = .loadIndex c w) → w ∈ s.wrappers c) ∧
    (∀ u c fn bg ret i w, s.pc u = .modWait c fn bg ret i → (s.wrappers c)[i]? = some w →
      s.live w) ∧
    (∀ u c w c' i, s.pc u ≠ .removeLock c w (.dtor c' i) ∧
      s.pc u ≠ .removeScan c w (.dtor c' i)) ∧
    (∀ w, s.frees w ≤ 1) ∧
    (∀ t s' w, Step A s t s' → s'.frees w ≠ s.frees w →
      s.live w ∧ ((∃ c i, s.pc t = .wrapperDtor w (.dtor c i) ∧ s.control w = none) ∨
        (∃ c, s.pc t = .removeScan c w (.readFail c)) ∨
        ∃ c, s.pc t = .removeScan c w (.exit c))) ∧
    ((∀ u, s.pc u = .idle ∨ s.pc u = .exited) → ∀ w, 0 < w → w < s.next →
      s.frees w = 1 ∨ (s.live w ∧ ∃ c, s.alive c ∧ w ∈ s.wrappers c)) := by
  have hI := hr.inv
  refine ⟨hI.regNodup, hI.regLive, hI.tlsReg, fun u c w i hg => (hI.guardTls u c w i hg).2,
    fun u c w hp => (hI.readerTls u c w hp).2, fun u c _ _ _ i w hp hw => ?_,
    fun u c w c' i => ⟨fun hp => ?_, fun hp => ?_⟩, fun w => ?_,
    fun t s' w h hf => h.deletes hI hf, fun hq w h0 hlt => hI.no_leak hr.cleared hq h0 hlt⟩
  · have ha := hI.alive_of_cid (u := u) (c := c) (by simp [hp, Pc.cid]) (by simp [hp, Pc.dtorOf])
    exact (hI.regLive c w ha (List.getElem?_mem hw)).1
  · simpa [hp, DtorAt] using hI.dtorAt u
  · simpa [hp, DtorAt] using hI.dtorAt u
  · rw [hI.frees w]; split_ifs <;> omega

/-- The registry after a thread's first `Read` of a container: the `Wrapper` it stored under
the key is a live element of `_wrappers` whose `_control` is the container. -/
theorem registry_invariants_first_read :
    ∃ s : Sys Nat, Reach (fun _ => True) s ∧ s.tls 0 0 = 1 ∧ 1 ∈ s.wrappers 0 ∧
      s.live 1 = true ∧ s.control 1 = some 0 := by
  have hr : Reach (T := Nat) (fun _ => True) _ :=
    .step (t := 0) (.step (t := 0) (.step (t := 0) (.step (t := 0) (.step (t := 0)
      (.step (t := 0) (.init (fun _ => 0) fun _ => true)
      (Step.callRead (c := 0) rfl rfl rfl)) (.readMiss rfl rfl rfl)) (.newOk rfl))
      (.pushLock rfl rfl)) (.pushOk rfl)) (.setOk rfl)
  have h := registry_invariants hr
  have hm : 1 ∈ _ := h.2.2.1 0 0 rfl (by decide)
  exact ⟨_, hr, rfl, hm, h.2.1 0 1 rfl hm⟩

/-- While `~DoublyBufferedData` runs, `_wrappers` holds a deleted `Wrapper` whose `_control`
is `NULL`: a `Read` whose `pthread_setspecific` failed left its `Wrapper` registered, and the
destructor's loop has run its first `delete`. -/
theorem registry_mid_destructor :
    ∃ s : Sys Nat, Reach (fun _ => True) s ∧ 1 ∈ s.wrappers 0 ∧ s.control 1 = none ∧
      s.live 1 = false := by
  have hr : Reach (T := Nat) (fun _ => True) _ :=
    .step (t := 0) (.step (t := 0) (.step (t := 0) (.step (t := 0) (.step (t := 0)
      (.step (t := 0) (.init (fun _ => 0) fun _ => true)
      (Step.callRead (c := 0) rfl rfl rfl)) (.readMiss rfl rfl rfl)) (.newOk rfl))
      (.pushLock rfl rfl)) (.pushOk rfl)) (.setFail rfl)
  have hd := hr.step (t := 0) (Step.callDtor (c := 0) rfl rfl fun u => by
    by_cases hu : u = 0 <;> simp [hu, Sys.setPc, Sys.alloc, Sys.init, Pc.cid])
  exact ⟨_, ((hd.step (t := 0) (.dtorLock rfl rfl)).step (t := 0)
    (.dtorNext (w := 1) rfl rfl)).step (t := 0) (.dtorSkip rfl rfl), by decide, rfl, rfl⟩

end PublicComponent.Dbd
