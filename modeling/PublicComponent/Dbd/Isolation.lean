import PublicComponent.Dbd.Reach

/-!
Readers and writers never share a slot, the isolation `DoublyBufferedData` is built for.

A writer calls `fn` only on the background slot `bg_index`. A `ScopedPtr` points at the
foreground, or at the old foreground while the writer that published past it has not yet
waited for its reader, and that writer's second call comes only after the wait. So no
`ScopedPtr` points at the slot a writer is about to hand to `fn`, and the slot a `ScopedPtr`
points at keeps its value for as long as the `ScopedPtr` lives.
-/

namespace PublicComponent.Dbd

open Function

variable {T : Type} {A : Fn T → Prop} {s s' : Sys T} {t u v : Tid}

/-- The thread is about to call `fn(_data[bg])` on `c`: the first or the second call of
`Modify`. -/
def Pc.callsFn : Pc T → Cid → Bool → Prop
  | .modFn1 c _ bg, c', bg' | .modFn2 c _ bg _, c', bg' => c = c' ∧ bg = bg'
  | _, _, _ => False

/-- A step of any thread, taken while `v` holds the `ScopedPtr` `g` of `c`. -/
def Held (A : Fn T → Prop) (v : Tid) (c : Cid) (g : Nat × Bool) (s s' : Sys T) : Prop :=
  s.guards v c = some g ∧ ∃ t, Step A s t s'

lemma Pc.holdsModify_of_draining {p : Pc T} {ws : Cid → List Nat} {c : Cid} {w : Nat}
    (h : p.draining ws c w) : p.holdsModify c := by
  cases p <;> simp only [Pc.draining, Pc.holdsModify] at h ⊢
  all_goals first | exact h | exact h.1

/-- How a step changes `_data`: only a call of `fn` writes, and only the slot it is handed. -/
lemma Step.data_cases (h : Step A s t s') :
    s'.data = s.data ∨
      ∃ c bg x, (s.pc t).callsFn c bg ∧ s'.data = update s.data c (update (s.data c) bg x) := by
  cases h
  case modFn1Zero c _ bg h _ | modFn1 c _ bg h _ | modFn2 c _ bg _ h =>
    exact .inr ⟨c, bg, _, by simp [h, Pc.callsFn], rfl⟩
  all_goals exact .inl rfl

lemma Inv.callsFn_bg (hI : Inv s) {c : Cid} {bg : Bool} (hf : (s.pc u).callsFn c bg) :
    (s.pc u).holdsModify c ∧ bg = !s.index c := by
  have hb := hI.bgAt u
  cases hp : s.pc u <;> simp only [hp, Pc.callsFn] at hf
  all_goals obtain ⟨rfl, rfl⟩ := hf; simpa [hp, BgAt, Pc.holdsModify] using hb

/-- A `ScopedPtr` never points at the slot a writer is about to call `fn` on: it reads the
foreground, and no writer drains while another holds `_modify_mutex`. -/
lemma Inv.guard_ne_bg (hI : Inv s) {c : Cid} {bg : Bool} {w : Nat} {i : Bool}
    (hf : (s.pc u).callsFn c bg) (hg : s.guards v c = some (w, i)) : i ≠ bg := by
  have hwr := hI.callsFn_bg hf
  rcases hI.stale v c w i hg with rfl | ⟨v', hv'⟩
  · rw [hwr.2]; exact Bool.self_ne_not _
  · -- a draining writer holds `_modify_mutex` too, so it is `u`, which does not drain
    obtain rfl := hI.modify_unique hwr.1 (Pc.holdsModify_of_draining hv')
    cases hp : s.pc u <;> simp only [hp, Pc.callsFn, Pc.draining] at hf hv'

lemma Step.data_of_guard (hI : Inv s) (h : Step A s t s') {c : Cid} {w : Nat} {i : Bool}
    (hg : s.guards v c = some (w, i)) : s'.data c i = s.data c i := by
  rcases h.data_cases with hd | ⟨c', bg, x, hf, hd⟩ <;> rw [hd]
  by_cases hc : c = c'
  · subst hc
    rw [update_same, update_noteq (hI.guard_ne_bg hf hg)]
  · rw [update_noteq hc]

/-- A run during which `v` holds its `ScopedPtr` stays reachable and leaves its slot alone. -/
lemma Held.run {c : Cid} {g : Nat × Bool} (hr : Reach A s)
    (hrun : Relation.ReflTransGen (Held A v c g) s s') :
    Reach A s' ∧ s'.data c g.2 = s.data c g.2 := by
  induction hrun with
  | refl => exact ⟨hr, rfl⟩
  | tail _ hs ih =>
    obtain ⟨hg, t, h⟩ := hs
    exact ⟨ih.1.step h, (h.data_of_guard ih.1.inv hg).trans ih.2⟩

/-- **Isolation.** In every reachable state no writer about to call `fn` on a slot shares it
with a live `ScopedPtr`; so across every run during which a reader holds its `ScopedPtr`, up
to and including the `~ScopedPtr` that ends it, the slot it points at keeps its value. -/
theorem reader_writer_isolation (hr : Reach A s) :
    (∀ u v c bg w i, (s.pc u).callsFn c bg → s.guards v c = some (w, i) → i ≠ bg) ∧
    (∀ v c g s', Relation.ReflTransGen (Held A v c g) s s' → s'.data c g.2 = s.data c g.2) :=
  ⟨fun _ _ _ _ _ _ hf hg => hr.inv.guard_ne_bg hf hg, fun _ _ _ _ hrun => (Held.run hr hrun).2⟩

/-- Thread `0` takes a `ScopedPtr` of container `0`; writer `2` publishes on it, calling `fn` on
the background slot, and drains; then the `ScopedPtr` ends. -/
lemma publishing_run : ∃ s s' : Sys Nat, Reach (fun _ => True) s ∧
    (s.pc 2).callsFn 0 true ∧ s.guards 0 0 = some (1, false) ∧
    Relation.ReflTransGen (Held (fun _ => True) 0 0 (1, false)) s s' ∧ s'.guards 0 0 = none ∧
    s'.data 0 true ≠ s.data 0 true := by
  have h1 : Reach (T := Nat) (fun _ => True) _ :=
    .step (t := 0) (.step (t := 0) (.step (t := 0) (.step (t := 0) (.step (t := 0)
      (.step (t := 0) (.step (t := 0) (.step (t := 0) (.init (fun _ => 0) fun _ => true)
      (Step.callRead (c := 0) rfl rfl rfl)) (.readMiss rfl rfl rfl)) (.newOk rfl))
      (.pushLock rfl rfl)) (.pushOk rfl)) (.setOk rfl)) (.beginRead (c := 0) (w := 1) rfl rfl))
      (.loadIndex rfl)
  have hr := ((h1.step
    (@Step.callModify Nat (fun _ => True) _ 2 0 (slotFn fun x => (x + 1, 1)) rfl rfl trivial)).step
    (t := 2) (.modLock rfl rfl)).step (t := 2) (.modLoad rfl)
  exact ⟨_, _, hr, show _ ∧ _ from ⟨rfl, rfl⟩, rfl,
    .tail (.tail (.tail (.single ⟨rfl, 2, .modFn1 rfl (by decide)⟩) ⟨rfl, 2, .modStore rfl⟩)
      ⟨rfl, 2, .modDrainLock rfl rfl⟩) ⟨rfl, 0, .release (c := 0) rfl rfl⟩, rfl, by decide⟩

/-- Isolation along `publishing_run`: the writer changes the other slot, and the reader's keeps
its value until its `~ScopedPtr`. -/
theorem reader_writer_isolation_publishing : ∃ s s' : Sys Nat, Reach (fun _ => True) s ∧
    (s.pc 2).callsFn 0 true ∧ s.guards 0 0 = some (1, false) ∧
    Relation.ReflTransGen (Held (fun _ => True) 0 0 (1, false)) s s' ∧ s'.guards 0 0 = none ∧
    s'.data 0 true ≠ s.data 0 true ∧ false ≠ true ∧ s'.data 0 false = s.data 0 false := by
  obtain ⟨s, s', hr, hf, hg, hrun, hn, hw⟩ := publishing_run
  exact ⟨s, s', hr, hf, hg, hrun, hn, hw, (reader_writer_isolation hr).1 2 0 0 true 1 false hf hg,
    (reader_writer_isolation hr).2 0 0 _ s' hrun⟩

end PublicComponent.Dbd
