import PublicComponent.Dbd.Locks

/-!
Why the registries `_wrappers`, the heap of `Wrapper`s and the thread-local slots keep their
part of the invariant across a step.

Each is changed by few steps: `_wrappers` by `push_back`, `RemoveWrapper` and `clear`; the heap
by `new`, the end of `~Wrapper` and the `_control = NULL` of a destructor loop; a thread-local
slot by `pthread_setspecific` and by thread exit. `wrappers_cases`, `heap_cases` and
`tls_cases` say so once, and every fact below is a short case split on them.
-/

namespace PublicComponent.Dbd

open Function

variable {T : Type} {A : Fn T → Prop} {s s' : Sys T} {t u v : Tid}

/-- How a step changes the vectors `_wrappers`. -/
lemma Step.wrappers_cases (h : Step A s t s') :
    s'.wrappers = s.wrappers ∨
    (∃ c w, s.pc t = .pushBack c w ∧ s'.wrappers = update s.wrappers c (s.wrappers c ++ [w])) ∨
    (∃ c w k, s.pc t = .removeScan c w k ∧
      s'.wrappers = update s.wrappers c (removeWrapper (s.wrappers c) w)) ∨
    (∃ c i, s.pc t = .dtorLoop c i ∧ (s.wrappers c).length ≤ i ∧
      s'.wrappers = update s.wrappers c []) := by
  cases h
  case pushOk c w h => exact .inr (.inl ⟨c, w, h, rfl⟩)
  case removeScan c w k h => exact .inr (.inr (.inl ⟨c, w, k, h, rfl⟩))
  case dtorEnd c i h hi => exact .inr (.inr (.inr ⟨c, i, h, hi, rfl⟩))
  all_goals exact .inl rfl

/-- The stepping thread deletes `w`: the end of a `~Wrapper` that did not call
`RemoveWrapper`, or of one that did. -/
def Freeing (s : Sys T) (t : Tid) (w : Nat) : Prop :=
  (∃ k, s.pc t = .wrapperDtor w k ∧ s.control w = none) ∨ ∃ c k, s.pc t = .removeScan c w k

/-- How a step changes the heap of `Wrapper`s. -/
lemma Step.heap_cases (h : Step A s t s') :
    (s'.live = s.live ∧ s'.control = s.control ∧ s'.next = s.next ∧ s'.frees = s.frees) ∨
    (∃ c, s.pc t = .addWrapper c ∧ s'.live = update s.live s.next true ∧
      s'.control = update s.control s.next (some c) ∧ s'.next = s.next + 1 ∧
      s'.frees = s.frees) ∨
    (∃ w, Freeing s t w ∧ s'.live = update s.live w false ∧ s'.control = s.control ∧
      s'.next = s.next ∧ s'.frees = update s.frees w (s.frees w + 1)) ∨
    (∃ c i w, s.pc t = .dtorLoop c i ∧ (s.wrappers c)[i]? = some w ∧ s'.live = s.live ∧
      s'.control = update s.control w none ∧ s'.next = s.next ∧ s'.frees = s.frees) := by
  cases h
  case newOk c h => exact .inr (.inl ⟨c, h, rfl, rfl, rfl, rfl⟩)
  case dtorSkip w k h hc => exact .inr (.inr (.inl ⟨w, .inl ⟨k, h, hc⟩, rfl, rfl, rfl, rfl⟩))
  case removeScan c w k h =>
    exact .inr (.inr (.inl ⟨w, .inr ⟨c, k, h⟩, rfl, rfl, rfl, rfl⟩))
  case dtorNext c i w h hw => exact .inr (.inr (.inr ⟨c, i, w, h, hw, rfl, rfl, rfl, rfl⟩))
  all_goals exact .inl ⟨rfl, rfl, rfl, rfl⟩

lemma Inv.unpushed (hI : Inv s) {c : Cid} {w : Nat} (hp : s.pc t = .pushBack c w) :
    Unpushed s c w := by
  simpa [hp, OwnedAt] using hI.ownedAt t

/-- The `Wrapper` a step deletes is live and was returned by `new`. -/
lemma Inv.freeing_live (hI : Inv s) {w : Nat} (hf : Freeing s t w) :
    s.live w ∧ 0 < w ∧ w < s.next := by
  rcases hf with ⟨k, hp, hc⟩ | ⟨c, k, hp⟩
  · have ho := hI.ownedAt t
    have hd := hI.dtorAt t
    rw [hp] at ho hd
    cases k with
    | dtor c i =>
      simp only [DtorAt] at hd
      exact ⟨hd.2.1, hI.regBound c w (List.getElem?_mem hd.1)⟩
    | readFail c | exit c => simp [OwnedAt, Unpushed, Pushed, hc] at ho
  · exact hI.ownedLive t w (hI.removeScan_owned hp)

theorem Inv.regNodup_step (hI : Inv s) (h : Step A s t s') : ∀ c, (s'.wrappers c).Nodup := by
  rcases h.wrappers_cases with hw | ⟨c₀, w, hp, hw⟩ | ⟨c₀, w, k, hp, hw⟩ | ⟨c₀, i, hp, -, hw⟩ <;>
    rw [hw]
  · exact hI.regNodup
  all_goals refine (forall_update_iff _ fun _ l => List.Nodup l).2 ⟨?_, fun c _ => hI.regNodup c⟩
  · rw [← List.concat_eq_append]
    exact (hI.regNodup c₀).concat ((hI.unpushed hp).1 c₀)
  · exact removeWrapper_nodup (hI.ownedLive t w (hI.removeScan_owned hp)).2.1.ne' (hI.regNodup c₀)
  · exact List.nodup_nil

/-- After a step, a registered `Wrapper` was registered before, or has just been pushed. -/
lemma Step.mem_wrappers_cases (hI : Inv s) (h : Step A s t s') {c : Cid} {w : Nat}
    (hw : w ∈ s'.wrappers c) : w ∈ s.wrappers c ∨ s.pc t = .pushBack c w := by
  rcases h.wrappers_cases with hs | ⟨c₀, w₀, hp, hs⟩ | ⟨c₀, w₀, k, hp, hs⟩ | ⟨c₀, i, hp, -, hs⟩ <;>
    rw [hs] at hw
  · exact .inl hw
  all_goals rcases eq_or_ne c c₀ with rfl | hc
  all_goals try (rw [update_noteq hc] at hw; exact .inl hw)
  all_goals rw [update_same] at hw
  · rcases List.mem_append.1 hw with hw | hw
    · exact .inl hw
    · rw [List.mem_singleton.1 hw]; exact .inr hp
  · exact .inl (mem_removeWrapper (hI.ownedLive t w₀ (hI.removeScan_owned hp)).2.1.ne'
      (hI.regNodup c) |>.1 hw).1
  · cases hw

lemma Step.next_le (h : Step A s t s') : s.next ≤ s'.next := by
  rcases h.heap_cases with ⟨-, -, hn, -⟩ | ⟨-, -, -, -, hn, -⟩ | ⟨-, -, -, -, hn, -⟩ |
    ⟨-, -, -, -, -, -, -, hn, -⟩ <;> omega

theorem Inv.regBound_step (hI : Inv s) (h : Step A s t s') :
    ∀ c w, w ∈ s'.wrappers c → 0 < w ∧ w < s'.next := by
  intro c w hw
  have hn := h.next_le
  rcases h.mem_wrappers_cases hI hw with hw | hp
  · have := hI.regBound c w hw; omega
  · have := hI.ownedLive t w (by simp [hp, Pc.owned]); omega

theorem Inv.regDisjoint_step (hI : Inv s) (h : Step A s t s') :
    ∀ c c' w, w ∈ s'.wrappers c → w ∈ s'.wrappers c' → c = c' := by
  intro c c' w hw hw'
  rcases h.mem_wrappers_cases hI hw with hw | hp <;>
    rcases h.mem_wrappers_cases hI hw' with hw' | hp'
  · exact hI.regDisjoint c c' w hw hw'
  · exact absurd hw ((hI.unpushed hp').1 c)
  · exact absurd hw' ((hI.unpushed hp).1 c')
  · rw [hp] at hp'; cases hp'; rfl

lemma Step.next_pos (hI : Inv s) (h : Step A s t s') : 0 < s'.next :=
  lt_of_lt_of_le hI.nextPos h.next_le

/-- A `Wrapper` registered in a live container is not one registered in a destroyed one. -/
lemma Inv.ne_of_dead (hI : Inv s) {c c' : Cid} {w w' : Nat} (ha : s.alive c)
    (hw : w ∈ s.wrappers c) (hd : s.alive c' = false) (hw' : w' ∈ s.wrappers c') : w ≠ w' := by
  rintro rfl
  obtain rfl := hI.regDisjoint c c' w hw hw'
  simp [ha] at hd

/-- The `Wrapper` a `~Wrapper` with `_control == NULL` deletes sits in a destructor loop. -/
lemma Inv.dtorSkip_at (hI : Inv s) {w : Nat} {k : After} (hp : s.pc t = .wrapperDtor w k)
    (hc : s.control w = none) :
    ∃ c i, k = .dtor c i ∧ (s.wrappers c)[i]? = some w ∧ s.live w ∧
      Swept (s.free w) c (i + 1) := by
  have ho := hI.ownedAt t
  have hd := hI.dtorAt t
  rw [hp] at ho hd
  cases k with
  | dtor c i => simp only [DtorAt] at hd; exact ⟨c, i, rfl, hd.1, hd.2.1, hd.2.2.2⟩
  | readFail c | exit c => simp [OwnedAt, Unpushed, Pushed, hc] at ho

lemma Step.alive_of_alive (h : Step A s t s') {c : Cid} (ha : s'.alive c) : s.alive c := by
  cases h
  case callDtor c₀ _ _ _ =>
    by_cases hc : c = c₀
    · subst hc; simp [Sys.setPc] at ha
    · simpa [Sys.setPc, update_noteq hc] using ha
  all_goals exact ha

theorem Inv.regLive_step (hI : Inv s) (h : Step A s t s') :
    ∀ c w, s'.alive c → w ∈ s'.wrappers c → s'.live w ∧ s'.control w = some c := by
  intro c w ha hw
  have ha₀ := h.alive_of_alive ha
  cases h
  case newOk c₀ h₀ =>
    have hne : w ≠ s.next := (hI.regBound c w hw).2.ne
    simpa [Sys.setPc, Sys.alloc, update_noteq hne] using hI.regLive c w ha₀ hw
  case pushOk c₀ w₀ h₀ =>
    simp only [Sys.setPc] at hw ⊢
    by_cases hc : c = c₀
    · subst hc
      rw [update_same, List.mem_append, List.mem_singleton] at hw
      rcases hw with hw | rfl
      · exact hI.regLive c w ha₀ hw
      · exact ⟨(hI.ownedLive t w (by simp [h₀, Pc.owned])).1, (hI.unpushed h₀).2⟩
    · rw [update_noteq hc] at hw; exact hI.regLive c w ha₀ hw
  case removeScan c₀ w₀ k h₀ =>
    have ho := hI.removeScan_owned h₀
    have hw₀ := (hI.ownedLive t w₀ ho).2.1.ne'
    simp only [Sys.setPc, Sys.free] at hw ⊢
    have hmem : w ∈ s.wrappers c ∧ (c = c₀ → w ≠ w₀) := by
      by_cases hc : c = c₀
      · subst hc
        rw [update_same, mem_removeWrapper hw₀ (hI.regNodup c)] at hw
        exact ⟨hw.1, fun _ => hw.2⟩
      · rw [update_noteq hc] at hw; exact ⟨hw, fun h => absurd h hc⟩
    have hne : w ≠ w₀ := by
      rintro rfl
      have hat := hI.ownedAt t
      rw [h₀] at hat
      cases k <;> simp only [OwnedAt, Unpushed, Pushed] at hat
      · exact hat.2.1 c hmem.1
      · obtain ⟨hc₀, hm, -⟩ := hat
        subst hc₀
        exact hmem.2 (hI.regDisjoint c _ w hmem.1 hm) rfl
      · exact absurd (hI.dtorAt t) (by simp [h₀, DtorAt])
    simpa [update_noteq hne] using hI.regLive c w ha₀ hmem.1
  case dtorSkip w₀ k h₀ hc₀ =>
    obtain ⟨c₀, i, rfl, hw₀, -, -⟩ := hI.dtorSkip_at h₀ hc₀
    have hne := hI.ne_of_dead ha₀ hw (hI.dtorDead t c₀ (by simp [h₀, Pc.dtorOf]))
      (List.getElem?_mem hw₀)
    simpa [Sys.setPc, Sys.free, update_noteq hne] using hI.regLive c w ha₀ hw
  case dtorNext c₀ i w₀ h₀ hw₀ =>
    have hne := hI.ne_of_dead ha₀ hw (hI.dtorDead t c₀ (by simp [h₀, Pc.dtorOf]))
      (List.getElem?_mem hw₀)
    simpa [Sys.setPc, update_noteq hne] using hI.regLive c w ha₀ hw
  case dtorEnd c₀ i h₀ _ =>
    have hc : c ≠ c₀ := by
      rintro rfl; simp [hI.dtorDead t c (by simp [h₀, Pc.dtorOf])] at ha₀
    simp only [Sys.setPc, update_noteq hc] at hw
    exact hI.regLive c w ha₀ hw
  all_goals exact hI.regLive c w ha₀ hw

theorem Inv.tlsUnique_step (hI : Inv s) (h : Step A s t s') :
    ∀ u v c c', s'.tls u c ≠ 0 → s'.tls u c = s'.tls v c' → u = v ∧ c = c' := by
  intro u v c c' h0 he
  rcases h.tls_cases u c with hu | ⟨rfl, ⟨w, hp, -, hw, -⟩ | ⟨-, hw⟩⟩
  · rcases h.tls_cases v c' with hv | ⟨rfl, ⟨w', hp', -, hw', -⟩ | ⟨-, hw'⟩⟩
    · rw [hu, hv] at he; rw [hu] at h0; exact hI.tlsUnique u v c c' h0 he
    · rw [hu, hw'] at he
      exact absurd he (hI.ownedNotTls v w' (by simp [hp', Pc.owned]) u c)
    · rw [he, hw'] at h0; exact absurd rfl h0
  · rcases h.tls_cases v c' with hv | ⟨rfl, ⟨w', hp', -, hw', -⟩ | ⟨-, hw'⟩⟩
    · rw [hw, hv] at he
      exact absurd he.symm (hI.ownedNotTls u w (by simp [hp, Pc.owned]) v c')
    · rw [hp] at hp'; cases hp'; exact ⟨rfl, rfl⟩
    · rw [he, hw'] at h0; exact absurd rfl h0
  · exact absurd hw h0

theorem Inv.tlsBound_step (hI : Inv s) (h : Step A s t s') : ∀ u c, s'.tls u c < s'.next := by
  intro u c
  have hn := h.next_le
  rcases h.tls_cases u c with hu | ⟨rfl, ⟨w, hp, -, hw, -⟩ | ⟨-, hw⟩⟩
  · rw [hu]; exact lt_of_lt_of_le (hI.tlsBound u c) hn
  · rw [hw]; exact lt_of_lt_of_le (hI.ownedLive u w (by simp [hp, Pc.owned])).2.2 hn
  · rw [hw]; exact h.next_pos hI

theorem Inv.tlsReg_step (hI : Inv s) (h : Step A s t s') :
    ∀ u c, s'.alive c → s'.tls u c ≠ 0 → s'.tls u c ∈ s'.wrappers c := by
  intro u c ha h0
  have ha₀ := h.alive_of_alive ha
  rcases h.tls_cases u c with hu | ⟨rfl, ⟨w, hp, -, hw, hws, -⟩ | ⟨-, hw⟩⟩
  · rw [hu] at h0 ⊢
    exact h.mem_wrappers hI ha₀ (hI.tlsReg u c ha₀ h0) (hI.owned_ne_tls c)
  · have : Pushed s c w := by simpa [hp, OwnedAt] using hI.ownedAt u
    rw [hw, hws]; exact this.1
  · exact absurd hw h0

theorem Inv.fresh_step (hI : Inv s) (h : Step A s t s') : ∀ w, s'.next ≤ w → s'.live w = false := by
  intro w hw
  rcases h.heap_cases with ⟨hl, -, hn, -⟩ | ⟨c, -, hl, -, hn, -⟩ | ⟨w₀, -, hl, -, hn, -⟩ |
    ⟨c, i, w₀, -, -, hl, -, hn, -⟩ <;> rw [hl] <;> rw [hn] at hw
  · exact hI.fresh w hw
  · rw [update_noteq (by omega)]; exact hI.fresh w (by omega)
  · by_cases hw₀ : w = w₀
    · subst hw₀; simp
    · rw [update_noteq hw₀]; exact hI.fresh w hw
  · exact hI.fresh w hw

theorem Inv.frees_step (hI : Inv s) (h : Step A s t s') :
    ∀ w, s'.frees w = if 0 < w ∧ w < s'.next ∧ s'.live w = false then 1 else 0 := by
  intro w
  rcases h.heap_cases with ⟨hl, -, hn, hf⟩ | ⟨c, -, hl, -, hn, hf⟩ | ⟨w₀, hw₀, hl, -, hn, hf⟩ |
    ⟨c, i, w₀, -, -, hl, -, hn, hf⟩ <;> rw [hl, hn, hf]
  · exact hI.frees w
  · rw [hI.frees w]
    by_cases hw : w = s.next
    · subst hw; simp
    · rw [update_noteq hw]
      have : w < s.next + 1 ↔ w < s.next := by omega
      simp only [this]
  · obtain ⟨hl₀, h0, hlt⟩ := hI.freeing_live hw₀
    by_cases hw : w = w₀
    · subst hw; simp [hI.frees w, hl₀, h0, hlt]
    · rw [update_noteq hw, update_noteq hw]; exact hI.frees w
  · exact hI.frees w

theorem Inv.nextPos_step (hI : Inv s) (h : Step A s t s') : 0 < s'.next := h.next_pos hI

/-! ### The `Wrapper`s threads hold as their own -/

/-- Where the `Wrapper` the stepping thread holds after a step comes from: it held it
before, `new` has just returned it, or its exit has just taken it out of a key. -/
lemma Step.owned_cases (h : Step A s t s') {w : Nat} (ho : (s'.pc t).owned = some w) :
    ((s.pc t).owned = some w ∧ s'.live = s.live ∧ s'.next = s.next ∧ s'.tls = s.tls) ∨
    (∃ c, s.pc t = .addWrapper c ∧ w = s.next ∧ s' = (s.alloc c).setPc t (.pushLock c s.next)) ∨
    (∃ c, s.pc t = .exiting ∧ s.alive c ∧ s.tls t c ≠ 0 ∧ w = s.tls t c ∧
      s' = { s with tls := update s.tls t (update (s.tls t) c 0) }.setPc t
        (.wrapperDtor (s.tls t c) (.exit c))) := by
  cases h
  case newOk c h₀ =>
    simp only [Sys.setPc_pc_self, Pc.owned, Option.some.injEq] at ho
    exact .inr (.inl ⟨c, h₀, ho.symm, rfl⟩)
  case exitKey c h₀ ha hw =>
    simp only [Sys.setPc_pc_self, Pc.owned, Option.some.injEq] at ho
    exact .inr (.inr ⟨c, h₀, ha, hw, ho.symm, rfl⟩)
  case dtorSkip _ k _ _ | removeScan _ _ k _ =>
    rw [Sys.setPc_pc_self] at ho
    cases k <;> simp [After.resume, Pc.owned] at ho
  case release => exact .inl ⟨ho, rfl, rfl, rfl⟩
  case setOk | setFail => simp [Pc.owned] at ho
  all_goals
    refine .inl ⟨?_, rfl, rfl, rfl⟩
    rw [Sys.setPc_pc_self] at ho
    rw [‹s.pc t = _›]
    first
      | exact ho
      | (cases ‹After› <;> exact ho)

/-- A `Wrapper` a thread holds as its own and that is registered is registered in a live
container. -/
lemma Inv.alive_of_owned (hI : Inv s) {c : Cid} {w : Nat} (ho : (s.pc u).owned = some w)
    (hw : w ∈ s.wrappers c) : s.alive c := by
  have hat := hI.ownedAt u
  have hd := hI.dtorAt u
  have halive : ∀ c', (s.pc u).cid = some c' → ¬ (s.pc u).dtorOf c' → w ∈ s.wrappers c' →
      s.alive c := fun c' h1 h2 h3 => hI.regDisjoint c c' w hw h3 ▸ hI.alive_of_cid h1 h2
  cases hp : s.pc u with
  | pushLock c' w' | pushBack c' w' =>
    simp only [hp, Pc.owned, Option.some.injEq, OwnedAt, Unpushed] at ho hat
    exact absurd (ho ▸ hw) (hat.1 c)
  | setSpecific c' w' =>
    simp only [hp, Pc.owned, Option.some.injEq, OwnedAt, Pushed] at ho hat
    exact halive c' (by simp [hp, Pc.cid]) (by simp [hp, Pc.dtorOf]) (ho ▸ hat.1)
  | wrapperDtor w' k | removeLock c' w' k | removeScan c' w' k =>
    cases k with
    | dtor => simp [hp, Pc.owned, DtorAt] at ho hd
    | readFail c'' =>
      simp only [hp, Pc.owned, Option.some.injEq, OwnedAt, Unpushed] at ho hat
      first | exact absurd (ho ▸ hw) (hat.1 c) | exact absurd (ho ▸ hw) (hat.2.1 c)
    | exit c'' =>
      simp only [hp, Pc.owned, Option.some.injEq, OwnedAt, Pushed] at ho hat
      first
        | exact halive c'' (by simp [hp, Pc.cid, After.cid]) (by simp [hp, Pc.dtorOf])
            (ho ▸ hat.1)
        | exact halive c'' (by simp [hp, Pc.cid, hat.1]) (by simp [hp, Pc.dtorOf])
            (ho ▸ hat.2.1)
  | _ => simp [hp, Pc.owned] at ho

theorem Inv.ownedUnique_step (hI : Inv s) (h : Step A s t s') :
    ∀ u v w, (s'.pc u).owned = some w → (s'.pc v).owned = some w → u = v := by
  -- what `t` holds after the step it held before, or nobody else held
  have hnew : ∀ w v, (s'.pc t).owned = some w → v ≠ t → (s.pc v).owned = some w →
      (s.pc t).owned = some w := by
    intro w v ho _ hvo
    rcases h.owned_cases ho with ⟨ho, -⟩ | ⟨c, -, rfl, -⟩ | ⟨c, -, -, -, rfl, -⟩
    · exact ho
    · exact absurd (hI.ownedLive v _ hvo).2.2 (lt_irrefl _)
    · exact absurd rfl (hI.ownedNotTls v _ hvo t c)
  intro u v w hu hv
  by_cases hut : u = t <;> by_cases hvt : v = t
  · rw [hut, hvt]
  · subst hut; rw [h.pc_ne hvt] at hv; exact hI.ownedUnique _ _ w (hnew w v hu hvt hv) hv
  · subst hvt; rw [h.pc_ne hut] at hu; exact hI.ownedUnique _ _ w hu (hnew w u hv hut hu)
  · rw [h.pc_ne hut] at hu; rw [h.pc_ne hvt] at hv; exact hI.ownedUnique u v w hu hv

theorem Inv.ownedNotTls_step (hI : Inv s) (h : Step A s t s') :
    ∀ u w, (s'.pc u).owned = some w → ∀ v c, s'.tls v c ≠ w := by
  intro u w ho v c hvc
  -- a `Wrapper` `u` held before is in no thread-local slot after the step
  have hold : (s.pc u).owned = some w → (u = t → (s'.pc t).owned = some w) → False := by
    intro hu hut
    rcases h.tls_cases v c with hv | ⟨rfl, ⟨w', hp, hp', hw', -⟩ | ⟨-, hw'⟩⟩
    · rw [hv] at hvc; exact hI.ownedNotTls u w hu v c hvc
    · rw [hw'] at hvc; subst hvc
      obtain rfl := hI.ownedUnique u v w' hu (by simp [hp, Pc.owned])
      simpa [hp', Pc.owned] using hut rfl
    · rw [hw'] at hvc; exact (hI.ownedLive u w hu).2.1.ne hvc
  obtain rfl | hut := eq_or_ne u t
  · rcases h.owned_cases ho with ⟨ho', -⟩ | ⟨c₀, -, rfl, rfl⟩ | ⟨c₀, -, -, h0, rfl, rfl⟩
    · exact hold ho' fun _ => ho
    · exact (hI.tlsBound v c).ne hvc
    · simp only [Sys.setPc] at hvc
      by_cases hv : v = u
      · subst hv
        by_cases hc : c = c₀
        · subst hc; simp at hvc; exact h0 hvc.symm
        · rw [update_same, update_noteq hc] at hvc
          exact hc (hI.tlsUnique v v c₀ c h0 hvc.symm).2.symm
      · rw [update_noteq hv] at hvc
        exact hv (hI.tlsUnique u v c₀ c h0 hvc.symm).1.symm
  · rw [h.pc_ne hut] at ho; exact hold ho fun h => absurd h hut

theorem Inv.ownedLive_step (hI : Inv s) (h : Step A s t s') :
    ∀ u w, (s'.pc u).owned = some w → s'.live w ∧ 0 < w ∧ w < s'.next := by
  intro u w ho
  obtain rfl | hut := eq_or_ne u t
  · rcases h.owned_cases ho with ⟨ho', hl, hn, -⟩ | ⟨c, -, rfl, rfl⟩ | ⟨c, -, ha, h0, rfl, rfl⟩
    · rw [hl, hn]; exact hI.ownedLive u w ho'
    · simp [Sys.setPc, Sys.alloc, hI.nextPos]
    · have hm := hI.tlsReg u c ha h0
      exact ⟨(hI.regLive c _ ha hm).1, hI.regBound c _ hm⟩
  · rw [h.pc_ne hut] at ho
    obtain ⟨hl, h0, hlt⟩ := hI.ownedLive u w ho
    refine ⟨?_, h0, lt_of_lt_of_le hlt h.next_le⟩
    rcases h.heap_cases with ⟨hl', -⟩ | ⟨c, -, hl', -⟩ | ⟨w₀, hf, hl', -⟩ |
      ⟨c, i, w₀, -, -, hl', -⟩ <;> rw [hl']
    · exact hl
    · rw [update_noteq hlt.ne]; exact hl
    · have hne : w ≠ w₀ := by
        rintro rfl
        rcases hf with ⟨k, hp, hc⟩ | ⟨c, k, hp⟩
        · obtain ⟨c, i, rfl, hw, -⟩ := hI.dtorSkip_at hp hc
          have := hI.alive_of_owned ho (List.getElem?_mem hw)
          simp [hI.dtorDead t c (by simp [hp, Pc.dtorOf])] at this
        · exact hut (hI.ownedUnique u t w ho (hI.removeScan_owned hp))
      rw [update_noteq hne]; exact hl
    · exact hl

theorem Inv.liveOwned_step (hI : Inv s) (h : Step A s t s') :
    ∀ w, s'.live w → (∃ c, w ∈ s'.wrappers c) ∨ ∃ u, (s'.pc u).owned = some w := by
  intro w hl
  cases h
  case newOk c₀ h₀ =>
    by_cases hw : w = s.next
    · subst hw; exact .inr ⟨t, by simp [Pc.owned]⟩
    · have hl : s.live w := by simpa [Sys.setPc, Sys.alloc, update_noteq hw] using hl
      rcases hI.liveOwned w hl with hr | ⟨u, hu⟩
      · exact .inl hr
      · have hut : u ≠ t := by rintro rfl; simp [h₀, Pc.owned] at hu
        exact .inr ⟨u, by rw [Sys.setPc_pc_ne _ _ hut]; exact hu⟩
  case setOk c₀ w₀ h₀ | setFail c₀ w₀ h₀ =>
    rcases hI.liveOwned w hl with hr | ⟨u, hu⟩
    · exact .inl hr
    · by_cases hut : u = t
      · subst hut
        simp only [h₀, Pc.owned, Option.some.injEq] at hu
        subst hu
        have : Pushed s c₀ w₀ := by simpa [h₀, OwnedAt] using hI.ownedAt u
        exact .inl ⟨c₀, this.1⟩
      · exact .inr ⟨u, by rw [Sys.setPc_pc_ne _ _ hut]; exact hu⟩
  case removeScan c₀ w₀ k h₀ =>
    have ho := hI.removeScan_owned h₀
    have hne : w ≠ w₀ := by rintro rfl; simp [Sys.setPc, Sys.free] at hl
    have hl : s.live w := by simpa [Sys.setPc, Sys.free, update_noteq hne] using hl
    rcases hI.liveOwned w hl with ⟨c, hc⟩ | ⟨u, hu⟩
    · refine .inl ⟨c, ?_⟩
      simp only [Sys.setPc, Sys.free]
      by_cases hcc : c = c₀
      · subst hcc
        rw [update_same, mem_removeWrapper (hI.ownedLive t w₀ ho).2.1.ne' (hI.regNodup c)]
        exact ⟨hc, hne⟩
      · rw [update_noteq hcc]; exact hc
    · have hut : u ≠ t := by rintro rfl; rw [ho] at hu; exact hne (Option.some.inj hu).symm
      exact .inr ⟨u, by rw [Sys.setPc_pc_ne _ _ hut]; exact hu⟩
  case dtorSkip w₀ k h₀ hc₀ =>
    obtain ⟨c₀, i, rfl, -⟩ := hI.dtorSkip_at h₀ hc₀
    have hne : w ≠ w₀ := by rintro rfl; simp [Sys.setPc, Sys.free] at hl
    have hl : s.live w := by simpa [Sys.setPc, Sys.free, update_noteq hne] using hl
    rcases hI.liveOwned w hl with hr | ⟨u, hu⟩
    · exact .inl hr
    · have hut : u ≠ t := by rintro rfl; simp [h₀, Pc.owned] at hu
      exact .inr ⟨u, by rw [Sys.setPc_pc_ne _ _ hut]; exact hu⟩
  case dtorEnd c₀ i h₀ hi =>
    rcases hI.liveOwned w hl with ⟨c, hc⟩ | ⟨u, hu⟩
    · refine .inl ⟨c, ?_⟩
      have hcc : c ≠ c₀ := by
        rintro rfl
        obtain ⟨j, hj⟩ := List.mem_iff_getElem?.1 hc
        have hsw : Swept s c i := by simpa [h₀, DtorAt] using hI.dtorAt t
        have := (hsw j w hj).1 (lt_of_lt_of_le (List.getElem?_eq_some_iff.1 hj).1 hi)
        rw [show s.live w = true from hl] at this
        cases this
      simpa [Sys.setPc, update_noteq hcc] using hc
    · have hut : u ≠ t := by rintro rfl; simp [h₀, Pc.owned] at hu
      exact .inr ⟨u, by rw [Sys.setPc_pc_ne _ _ hut]; exact hu⟩
  case release => exact hI.liveOwned w hl
  case pushOk c₀ w₀ h₀ =>
    rcases hI.liveOwned w hl with ⟨c, hc⟩ | ⟨u, hu⟩
    · refine .inl ⟨c, ?_⟩
      simp only [Sys.setPc]
      by_cases hcc : c = c₀
      · subst hcc; simp [hc]
      · rw [update_noteq hcc]; exact hc
    · refine .inr ⟨u, ?_⟩
      by_cases hut : u = t
      · subst hut; simpa [h₀, Pc.owned] using hu
      · rw [Sys.setPc_pc_ne _ _ hut]; exact hu
  all_goals
    rcases hI.liveOwned w hl with hr | ⟨u, hu⟩
    · exact .inl hr
    · refine .inr ⟨u, ?_⟩
      by_cases hut : u = t
      · subst hut
        rw [Sys.setPc_pc_self]
        rw [‹s.pc _ = _›] at hu
        first
          | exact hu
          | (cases ‹After› <;> exact hu)
          | simp [Pc.owned] at hu
      · rw [Sys.setPc_pc_ne _ _ hut]; exact hu

lemma Step.unpushed (hI : Inv s) (h : Step A s t s') {c : Cid} {w : Nat} (hu : Unpushed s c w)
    (ho : (s.pc t).owned ≠ some w) (hlt : w < s.next) : Unpushed s' c w := by
  refine ⟨fun c' hw => ?_, ?_⟩
  · rcases h.mem_wrappers_cases hI hw with hw | hp
    · exact hu.1 c' hw
    · exact ho (by simp [hp, Pc.owned])
  · rcases h.heap_cases with ⟨-, hc, -⟩ | ⟨_, -, -, hc, -⟩ | ⟨_, -, -, hc, -⟩ |
      ⟨c₀, i, w₀, -, hw₀, -, hc, -⟩ <;> rw [hc]
    · exact hu.2
    · rw [update_noteq hlt.ne]; exact hu.2
    · exact hu.2
    · have hne : w ≠ w₀ := by rintro rfl; exact hu.1 c₀ (List.getElem?_mem hw₀)
      rw [update_noteq hne]; exact hu.2

lemma Step.pushed (hI : Inv s) (h : Step A s t s') {c : Cid} {w : Nat} (hp : Pushed s c w)
    (ha : s.alive c) (ho : (s.pc t).owned ≠ some w) : Pushed s' c w := by
  refine ⟨h.mem_wrappers hI ha hp.1 ho, ?_⟩
  rcases h.heap_cases with ⟨-, hc, -⟩ | ⟨_, -, -, hc, -⟩ | ⟨_, -, -, hc, -⟩ |
    ⟨c₀, i, w₀, hp₀, hw₀, -, hc, -⟩ <;> rw [hc]
  · exact hp.2
  · rw [update_noteq (hI.regBound c w hp.1).2.ne]; exact hp.2
  · exact hp.2
  · have hne := hI.ne_of_dead ha hp.1 (hI.dtorDead t c₀ (by simp [hp₀, Pc.dtorOf]))
      (List.getElem?_mem hw₀)
    rw [update_noteq hne]; exact hp.2

theorem Inv.ownedAt_step (hI : Inv s) (h : Step A s t s') : ∀ u, OwnedAt s' (s'.pc u) := by
  intro u
  obtain rfl | hu := eq_or_ne u t
  · have hat := hI.ownedAt u
    cases h
    case release => exact hat
    all_goals rw [Sys.setPc_pc_self]
    case newOk c _ =>
      exact ⟨fun c' hw => lt_irrefl _ (hI.regBound c' _ hw).2, by simp [Sys.setPc, Sys.alloc]⟩
    case pushOk c w h₀ => exact ⟨by simp [Sys.setPc], (hI.unpushed h₀).2⟩
    case pushLock _ _ h₀ _ | pushThrow _ _ h₀ => rw [h₀] at hat; exact hat
    case removeLock _ _ k h₀ _ => rw [h₀] at hat; cases k <;> exact hat
    case dtorRemove w k c h₀ hc =>
      have hd := hI.dtorAt u
      rw [h₀] at hat hd
      cases k with
      | readFail c' => rw [hat.2, Option.some.injEq] at hc; exact ⟨hc.symm, hat⟩
      | exit c' => rw [hat.2, Option.some.injEq] at hc; exact ⟨hc.symm, hat⟩
      | dtor => rw [hd.2.2.1] at hc; cases hc
    case exitKey c _ ha hw =>
      have hm := hI.tlsReg u c ha hw
      exact ⟨hm, (hI.regLive c _ ha hm).2⟩
    case dtorSkip _ k _ _ | removeScan _ _ k _ => cases k <;> trivial
    all_goals trivial
  · rw [h.pc_ne hu]
    have hat := hI.ownedAt u
    -- the other thread's own `Wrapper` is not the stepping thread's, and is live
    have hne : ∀ w, (s.pc u).owned = some w → (s.pc t).owned ≠ some w :=
      fun w hw ht => hu (hI.ownedUnique u t w hw ht)
    have hlt : ∀ w, (s.pc u).owned = some w → w < s.next := fun w hw => (hI.ownedLive u w hw).2.2
    have ha : ∀ c, (s.pc u).cid = some c → ¬ (s.pc u).dtorOf c → s.alive c :=
      fun c => hI.alive_of_cid
    cases hp : s.pc u <;> rw [hp] at hat hne hlt ha
    case pushLock | pushBack => exact h.unpushed hI hat (hne _ rfl) (hlt _ rfl)
    case setSpecific c w => exact h.pushed hI hat (ha c rfl id) (hne _ rfl)
    case wrapperDtor w k =>
      cases k with
      | readFail c => exact h.unpushed hI hat (hne _ rfl) (hlt _ rfl)
      | exit c => exact h.pushed hI hat (ha c rfl id) (hne _ rfl)
      | dtor => trivial
    case removeLock c' w k | removeScan c' w k =>
      cases k with
      | readFail c => exact ⟨hat.1, h.unpushed hI hat.2 (hne _ rfl) (hlt _ rfl)⟩
      | exit c => exact ⟨hat.1, h.pushed hI hat.2 (hat.1 ▸ ha c' rfl id) (hne _ rfl)⟩
      | dtor => trivial
    all_goals trivial

end PublicComponent.Dbd
