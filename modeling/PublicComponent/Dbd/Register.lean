import PublicComponent.Dbd.Writer

/-!
`DoublyBufferedData` implements one atomic register per container.

Let every callable be admissible: a function of the slot alone that returns `0` only when it
leaves the slot as it was. The register `v` of a container starts as the value both slots
hold, and a `Modify` whose first call is nonzero sets it, at its store of `_index`, to what
`fn` makes of it. `RegReach` pairs each reachable state with the register its run has built.
The foreground always holds the register; the background does too, except while a writer is
between its first nonzero call and the return of its second; a `ScopedPtr` holds the value the
register had when its `Read` loaded `_index`; and a `Modify` is the register's atomic update.
-/

namespace PublicComponent.Dbd

open Function

variable {T : Type} {A : Fn T → Prop} {s s' : Sys T} {t u : Tid} {v : Cid → T}

/-- The register after a step of `t`: the store of `_index` is where a `Modify` takes effect,
setting it to what `fn` makes of it. -/
def Sys.register (s : Sys T) (t : Tid) (v : Cid → T) : Cid → T :=
  match s.pc t with
  | .modStore c fn bg _ => update v c (fn bg fun _ => v c).1
  | _ => v

/-- The reachable states, each with the register its run has built. -/
inductive RegReach (A : Fn T → Prop) : Sys T → (Cid → T) → Prop
  | init (x : Cid → T) (created : Cid → Bool) : RegReach A (Sys.init x created) x
  | step {s s' t v} : RegReach A s v → Step A s t s' → RegReach A s' (s.register t v)

/-- A writer is between its first nonzero call of `fn` on `c` and the return of its second. -/
def Pc.publishing : Pc T → Cid → Prop
  | .modStore c _ _ _, c' | .modDrainLock c _ _ _, c' | .modWait c _ _ _ _, c'
  | .modWaitDone c _ _ _ _, c' | .modFn2 c _ _ _, c' => c = c'
  | _, _ => False

/-- A writer is between its store of `_index` on `c` and the return of its second call. -/
def Pc.published : Pc T → Cid → Prop
  | .modDrainLock c _ _ _, c' | .modWait c _ _ _ _, c' | .modWaitDone c _ _ _ _, c'
  | .modFn2 c _ _ _, c' => c = c'
  | _, _ => False

/-- What a writer's place says of the register `v` and the slots `data`: its callable is one
writers may pass, the first call computed its result from the register, and the second call
will write the register's value and return the first result. -/
def RegAt (A : Fn T → Prop) (v : Cid → T) (data : Cid → Bool → T) : Pc T → Prop
  | .modLock _ fn | .modLoad _ fn | .modFn1 _ fn _ => A fn
  | .modStore c fn bg ret => A fn ∧ fn bg (fun _ => v c) = (data c bg, ret)
  | .modDrainLock c fn bg ret | .modWait c fn bg ret _ | .modWaitDone c fn bg ret _
  | .modFn2 c fn bg ret => A fn ∧ fn bg (data c) = (v c, ret)
  | .modReturn _ ret ret2 => ret2 = ret
  | _ => True

/-- How the slots relate to the register. -/
structure RegInv (A : Fn T → Prop) (s : Sys T) (v : Cid → T) : Prop where
  fg : ∀ c, s.data c (s.index c) = v c
  bg : ∀ c, (∀ u, ¬ (s.pc u).publishing c) → s.data c (!s.index c) = v c
  writer : ∀ u, RegAt A v s.data (s.pc u)

lemma RegReach.reach (hr : RegReach A s v) : Reach A s := by
  induction hr with
  | init x created => exact .init x created
  | step _ h ih => exact ih.step h

lemma Reach.regReach (hr : Reach A s) : ∃ v, RegReach A s v := by
  induction hr with
  | init x created => exact ⟨x, .init x created⟩
  | step _ h ih => obtain ⟨v, hv⟩ := ih; exact ⟨_, hv.step h⟩

lemma Sys.register_cases (s : Sys T) (t : Tid) (v : Cid → T) :
    s.register t v = v ∨ ∃ c fn bg ret, s.pc t = .modStore c fn bg ret ∧
      s.register t v = update v c (fn bg fun _ => v c).1 := by
  unfold Sys.register
  split
  · exact .inr ⟨_, _, _, _, ‹_›, rfl⟩
  · exact .inl rfl

lemma Pc.holdsModify_of_publishing {p : Pc T} {c : Cid} (h : p.publishing c) :
    p.holdsModify c := by
  cases p <;> simp only [Pc.publishing, Pc.holdsModify] at h ⊢
  all_goals exact h

/-- While a writer that has not made a nonzero first call holds `_modify_mutex`, nobody
publishes on its container. -/
lemma Inv.quiet_of_holder (hI : Inv s) {c : Cid} (hl : (s.pc u).holdsModify c)
    (hn : ¬ (s.pc u).publishing c) : ∀ u', ¬ (s.pc u').publishing c := fun _ hp =>
  hn (hI.modify_unique hl (Pc.holdsModify_of_publishing hp) ▸ hp)

lemma RegInv.slots (hR : RegInv A s v) {c : Cid} (hc : ∀ u, ¬ (s.pc u).publishing c) :
    s.data c = fun _ => v c := by
  funext b
  by_cases hb : b = s.index c
  · rw [hb, hR.fg c]
  · rw [Bool.eq_not.2 hb, hR.bg c hc]

theorem RegInv.init (x : Cid → T) (created : Cid → Bool) :
    RegInv A (Sys.init x created) x :=
  ⟨fun _ => rfl, fun _ _ => rfl, fun _ => trivial⟩

/-- A writer about to call `fn` on `c`, with nobody publishing, sees both slots hold the
register. -/
lemma RegInv.slots_of_callsFn (hI : Inv s) (hR : RegInv A s v) {c : Cid} {bg : Bool}
    (hf : (s.pc t).callsFn c bg) (hn : ¬ (s.pc t).publishing c) : s.data c = fun _ => v c :=
  hR.slots (hI.quiet_of_holder (hI.callsFn_bg hf).1 hn)

/-- A step of another thread leaves what a writer's place says as it was: the slots and the
register of the writer's container change only under its own `_modify_mutex`. -/
lemma RegAt.of_ne (hI : Inv s) (h : Step A s t s') (hu : u ≠ t)
    (hw : RegAt A v s.data (s.pc u)) : RegAt A (s.register t v) s'.data (s.pc u) := by
  have key : ∀ c, (s.pc u).holdsModify c → s.register t v c = v c ∧ s'.data c = s.data c := by
    intro c hl
    refine ⟨?_, h.data_of_holder hI hu hl⟩
    rcases s.register_cases t v with hv | ⟨c₀, fn, bg, ret, hp, hv⟩ <;> rw [hv]
    refine update_noteq ?_ _ _
    rintro rfl
    exact hu (hI.modify_unique hl (by simp [hp, Pc.holdsModify]))
  cases hp : s.pc u <;> rw [hp] at hw key <;> try exact hw
  case modStore c _ _ _ | modDrainLock c _ _ _ | modWait c _ _ _ _ | modWaitDone c _ _ _ _
    | modFn2 c _ _ _ =>
    obtain ⟨hv, hd⟩ := key c rfl
    simp only [RegAt, hv, hd]
    exact hw

/-- How a step changes `_index`, in full: it is the store of a writer, which changes nothing
else it reads, or `_index` stays and the register with it. -/
lemma Step.store_cases (h : Step A s t s') :
    (s'.index = s.index ∧ s.register t v = v) ∨
    ∃ c fn bg ret, s.pc t = .modStore c fn bg ret ∧ s'.index = update s.index c bg ∧
      s'.data = s.data ∧ s'.pc t = .modDrainLock c fn (!bg) ret ∧
      s.register t v = update v c (fn bg fun _ => v c).1 := by
  cases h
  case modStore c fn bg ret h₀ =>
    exact .inr ⟨c, fn, bg, ret, h₀, rfl, rfl, by simp, by simp [Sys.register, h₀]⟩
  all_goals exact .inl ⟨rfl, by simp [Sys.register, ‹s.pc t = _›]⟩

lemma Step.publishing_of (h : Step A s t s') {c : Cid} (hp : (s.pc t).publishing c)
    (hn : ¬ (s'.pc t).publishing c) : ∃ fn bg ret, s.pc t = .modFn2 c fn bg ret := by
  cases h
  case modFn2 c' fn bg ret h₀ =>
    rw [h₀] at hp; subst hp; exact ⟨fn, bg, ret, h₀⟩
  case release => exact absurd hp hn
  all_goals rw [‹s.pc t = _›] at hp; rw [Sys.setPc_pc_self] at hn
  all_goals first | exact hp.elim | exact absurd hp hn

lemma RegInv.fg_step (hR : RegInv A s v) (hI : Inv s) (h : Step A s t s') (c : Cid) :
    s'.data c (s'.index c) = s.register t v c := by
  rcases h.store_cases (v := v) with ⟨hx, hv⟩ | ⟨c₀, fn, bg, ret, hp, hx, hd, -, hv⟩ <;>
    rw [hv, hx]
  · -- no store: a call of `fn` writes the background
    rcases h.data_cases with hd | ⟨c₁, bg, x, hf, hd⟩ <;> rw [hd]
    · exact hR.fg c
    · by_cases hc : c = c₁
      · subst hc
        have hne : s.index c ≠ bg := by rw [(hI.callsFn_bg hf).2]; exact Bool.self_ne_not _
        rw [update_same, update_noteq hne]; exact hR.fg c
      · rw [update_noteq hc]; exact hR.fg c
  · -- the store publishes the slot the first call wrote, which holds the new register
    rw [hd]
    by_cases hc : c = c₀
    · subst hc
      have hw := hR.writer t
      rw [hp] at hw
      simp [hw.2]
    · rw [update_noteq hc, update_noteq hc]; exact hR.fg c

lemma RegInv.bg_step (hA : ∀ fn, A fn → Admissible fn) (hR : RegInv A s v) (hI : Inv s)
    (h : Step A s t s') (c : Cid) (hc : ∀ u, ¬ (s'.pc u).publishing c) :
    s'.data c (!s'.index c) = s.register t v c := by
  have hne : ∀ u, u ≠ t → ¬ (s.pc u).publishing c := fun u hu => by
    rw [← h.pc_ne hu]; exact hc u
  -- before the step nobody published on `c`, unless `t` was at its second call
  have hbefore : (∀ u, ¬ (s.pc u).publishing c) ∨ ∃ fn bg ret, s.pc t = .modFn2 c fn bg ret := by
    by_cases ht : (s.pc t).publishing c
    · exact .inr (h.publishing_of ht (hc t))
    · exact .inl fun u => by obtain rfl | hu := eq_or_ne u t; exacts [ht, hne u hu]
  rcases hbefore with hq | ⟨fn, bg, ret, hp⟩
  · -- on a quiet `c` only a first call that returns `0` writes, and it writes the register
    cases h
    case modFn1Zero c₀ fn bg h₀ hr =>
      have hv : s.register t v = v := by simp [Sys.register, h₀]
      rw [hv]
      rcases eq_or_ne c c₀ with rfl | hcc
      · have hbg : bg = !s.index c :=
          (hI.callsFn_bg (show (s.pc t).callsFn c bg by simp [h₀, Pc.callsFn])).2
        obtain ⟨f, rfl, hf0⟩ := hA fn (by simpa [h₀, RegAt] using hR.writer t)
        simp only [Sys.setPc, update_same, ← hbg, slotFn_apply, hR.slots hq] at hr ⊢
        exact hf0 _ hr
      · simpa [Sys.setPc, update_noteq hcc] using hR.bg c hq
    case modFn1 c₀ _ _ h₀ _ =>
      have hv : s.register t v = v := by simp [Sys.register, h₀]
      rw [hv]
      rcases eq_or_ne c c₀ with rfl | hcc
      · exact absurd (by simp [Pc.publishing]) (hc t)
      · simpa [Sys.setPc, update_noteq hcc] using hR.bg c hq
    case modStore c₀ _ _ _ h₀ | modFn2 c₀ _ _ _ h₀ =>
      rcases eq_or_ne c c₀ with rfl | hcc
      · exact absurd (by simp [h₀, Pc.publishing]) (hq t)
      · simpa [Sys.register, Sys.setPc, h₀, update_noteq hcc] using hR.bg c hq
    all_goals
      rw [show s.register t v = v by simp [Sys.register, ‹s.pc t = _›]]
      exact hR.bg c hq
  · -- the second call writes the register's value into the background
    have hw := hR.writer t
    rw [hp] at hw
    have hbg : bg = !s.index c :=
      (hI.callsFn_bg (show (s.pc t).callsFn c bg by simp [hp, Pc.callsFn])).2
    cases h
    all_goals rw [‹s.pc t = _›] at hp; cases hp
    simp [Sys.register, Sys.setPc, ‹s.pc t = _›, ← hbg, hw.2]

lemma RegInv.writer_step (hA : ∀ fn, A fn → Admissible fn) (hR : RegInv A s v) (hI : Inv s)
    (h : Step A s t s') (u : Tid) : RegAt A (s.register t v) s'.data (s'.pc u) := by
  obtain rfl | hu := eq_or_ne u t
  · have hw := hR.writer u
    cases h
    case release h₀ _ => rw [h₀]; trivial
    all_goals rw [Sys.setPc_pc_self]
    case callModify hf => exact hf
    case modLock h₀ _ | modLoad h₀ => rw [h₀] at hw; exact hw
    case modFn1Zero => rfl
    case modFn1 c fn bg h₀ _ =>
      -- the first call saw the register in both slots
      have hs := hR.slots_of_callsFn hI (show (s.pc u).callsFn c bg by simp [h₀, Pc.callsFn])
        (by simp [h₀, Pc.publishing])
      rw [h₀] at hw
      simp only [Sys.register, h₀]
      exact ⟨hw, by simp [Sys.setPc, hs]⟩
    case modStore c fn bg ret h₀ =>
      -- the second call reads the old foreground, which held the register the first call saw
      rw [h₀] at hw
      obtain ⟨hf, hfst⟩ := hw
      obtain ⟨f, rfl, -⟩ := hA fn hf
      have hbg : bg = !s.index c := by simpa [h₀, BgAt] using hI.bgAt u
      refine ⟨hf, ?_⟩
      simp only [Sys.register, h₀, update_same, Sys.setPc, slotFn_apply] at hfst ⊢
      rw [hbg, Bool.not_not, hR.fg c, hfst]
    case modDrainLock h₀ _ | modWaitLock h₀ _ _ | modWaitDone h₀ _ | modWaitEnd h₀ _ =>
      rw [show s.register u v = v by simp [Sys.register, h₀]]
      rw [h₀] at hw; exact hw
    case modFn2 h₀ => rw [h₀] at hw; exact (congrArg Prod.snd hw.2 :)
    case dtorSkip k _ _ | removeScan k _ => cases k <;> trivial
    all_goals trivial
  · rw [h.pc_ne hu]; exact RegAt.of_ne hI h hu (hR.writer u)

theorem RegInv.step (hA : ∀ fn, A fn → Admissible fn) (hI : Inv s) (hR : RegInv A s v)
    (h : Step A s t s') : RegInv A s' (s.register t v) :=
  ⟨hR.fg_step hI h, hR.bg_step hA hI h, hR.writer_step hA hI h⟩

/-- Every reachable state with its register satisfies `RegInv`. -/
lemma RegReach.regInv (hA : ∀ fn, A fn → Admissible fn) (hr : RegReach A s v) :
    RegInv A s v := by
  induction hr with
  | init x created => exact RegInv.init x created
  | step hr h ih => exact ih.step hA hr.reach.inv h

/-- A `ScopedPtr` made by a load of `_index` holds the register's value at the load for as
long as it lives. -/
lemma RegReach.load_value (hA : ∀ fn, A fn → Admissible fn) (hr : RegReach A s v) {c : Cid}
    {w : Nat} {s'' : Sys T} (hp : s.pc t = .loadIndex c w) (h : Step A s t s')
    (hrun : Relation.ReflTransGen (Held A t c (w, s.index c)) s' s'') :
    s''.data c (s.index c) = v c := by
  have hd : s'.data = s.data := by
    rcases h.data_cases with hd | ⟨_, _, _, hf, -⟩
    · exact hd
    · rw [hp] at hf; exact hf.elim
  rw [(Held.run (hr.reach.step h) hrun).2, hd, (hr.regInv hA).fg c]

/-- A `Modify` that holds the mutex: its callable is admissible, it found both slots holding
the register, and it returns as `modify` says, with the first result recorded in its place. -/
lemma RegReach.modify_result (hA : ∀ fn, A fn → Admissible fn) (hr : RegReach A s v)
    {c : Cid} {fn : Fn T} {ret ret2 : Nat} (hp : s.pc t = .modLoad c fn)
    (hrun : Relation.ReflTransGen (Writing A t c) s s') (hret : s'.pc t = .modReturn c ret ret2) :
    s.data c = (fun _ => v c) ∧ ∃ f, fn = slotFn f ∧ (∀ x, (f x).2 = 0 → (f x).1 = x) ∧
      ret2 = ret ∧ (s'.data c, s'.index c, ret2) = modify fn (fun _ => v c) (s.index c) := by
  have hR := hr.regInv hA
  obtain ⟨f, rfl, hf0⟩ := hA fn (by simpa [hp, RegAt] using hR.writer t)
  have hs : s.data c = fun _ => v c := hR.slots
    (hr.reach.inv.quiet_of_holder (u := t) (by simp [hp, Pc.holdsModify])
      (by simp [hp, Pc.publishing]))
  obtain ⟨hr', hw⟩ := Writing.run hr.reach (writerAt_modLoad hp) hrun
  obtain ⟨v', hv'⟩ := hr'.regReach
  have hrr : ret2 = ret := by simpa [hret, RegAt] using (hv'.regInv hA).writer t
  rw [hret, hs] at hw
  exact ⟨hs, f, rfl, hf0, hrr, hw.2⟩

/-- **`DoublyBufferedData` is an atomic register.** With admissible callables, in every state
reachable with register `v`: the foreground holds `v`; so does the background, unless a writer
is between its first nonzero call of `fn` and the return of its second; a `ScopedPtr` made by
a load of `_index` keeps, for as long as it lives, the value `v` had at the load; and a
`Modify` holding the mutex returns `0` and changes nothing exactly when its first call returns
`0`, and otherwise writes `fn`'s value of `v` to both slots, flips `_index`, and returns the
second call's result, which is the first's. -/
theorem register_refinement (hA : ∀ fn, A fn → Admissible fn) (hr : RegReach A s v) :
    (∀ c, s.data c (s.index c) = v c) ∧
    (∀ c, (∀ u, ¬ (s.pc u).publishing c) → ∀ b, s.data c b = v c) ∧
    (∀ t c w s' s'', s.pc t = .loadIndex c w → Step A s t s' →
      Relation.ReflTransGen (Held A t c (w, s.index c)) s' s'' →
      s''.data c (s.index c) = v c) ∧
    (∀ t c fn s' ret ret2, s.pc t = .modLoad c fn →
      Relation.ReflTransGen (Writing A t c) s s' → s'.pc t = .modReturn c ret ret2 →
      ∃ f, fn = slotFn f ∧ ret2 = ret ∧
        if (f (v c)).2 = 0 then s'.data c = s.data c ∧ s'.index c = s.index c ∧ ret2 = 0
        else s'.data c = (fun _ => (f (v c)).1) ∧ s'.index c = !s.index c ∧
          ret2 = (f (v c)).2) := by
  have hR := hr.regInv hA
  refine ⟨hR.fg, fun c hc b => congrFun (hR.slots hc) b,
    fun t c w s' s'' hp h hrun => hr.load_value hA hp h hrun, ?_⟩
  intro t c fn s' ret ret2 hp hrun hret
  obtain ⟨hs, f, rfl, hf0, hrr, hm⟩ := hr.modify_result hA hp hrun hret
  rw [modify_admissible f hf0] at hm
  refine ⟨f, rfl, hrr, ?_⟩
  split_ifs at hm ⊢ with h0
  · simp only [Prod.mk.injEq] at hm
    exact ⟨hm.1.trans hs.symm, hm.2.1, hm.2.2⟩
  · simp only [Prod.mk.injEq] at hm
    exact hm

/-- A writer that adds one to a container holding `0`: once its store has run, the register,
and with it the foreground, is `1`. -/
theorem register_refinement_addOne :
    ∃ (s : Sys Nat) (v : Cid → Nat), (∀ fn, fn = slotFn (fun x : Nat => (x + 1, 1)) →
      Admissible fn) ∧ RegReach (· = slotFn fun x : Nat => (x + 1, 1)) s v ∧ v 0 = 1 ∧
      s.data 0 (s.index 0) = 1 := by
  have hA : ∀ fn, fn = slotFn (fun x : Nat => (x + 1, 1)) → Admissible fn :=
    fun _ h => ⟨_, h, fun _ hx => absurd hx Nat.one_ne_zero⟩
  have hr := RegReach.step (t := 0) (RegReach.step (t := 0) (RegReach.step (t := 0)
    (RegReach.step (t := 0) (RegReach.step (t := 0) (.init (fun _ => 0) fun _ => true)
    (@Step.callModify Nat (· = slotFn fun x => (x + 1, 1)) _ 0 0 _ rfl rfl rfl))
    (.modLock rfl rfl)) (.modLoad rfl)) (.modFn1 rfl (by decide))) (.modStore rfl)
  exact ⟨_, _, hA, hr, rfl, ((register_refinement hA hr).1 0).trans rfl⟩

/-- The background may differ from the register while no writer is between a store and the
return of its second call: right after a first call that returned `1`, before its store. -/
theorem register_background_differs :
    ∃ (s : Sys Nat) (v : Cid → Nat), (∀ fn, fn = slotFn (fun x : Nat => (x + 1, 1)) →
      Admissible fn) ∧ RegReach (· = slotFn fun x : Nat => (x + 1, 1)) s v ∧
      (∀ u c, ¬ (s.pc u).published c) ∧ s.data 0 false ≠ s.data 0 true := by
  have hr := RegReach.step (t := 0) (RegReach.step (t := 0) (RegReach.step (t := 0)
    (RegReach.step (t := 0) (.init (fun _ => 0) fun _ => true)
    (@Step.callModify Nat (· = slotFn fun x => (x + 1, 1)) _ 0 0 _ rfl rfl rfl))
    (.modLock rfl rfl)) (.modLoad rfl)) (.modFn1 rfl (by decide))
  refine ⟨_, _, fun _ h => ⟨_, h, fun _ hx => absurd hx Nat.one_ne_zero⟩, hr, fun u c => ?_,
    by decide⟩
  by_cases hu : u = 0
  · subst hu; exact id
  · simp [Sys.setPc, Sys.init, update_noteq hu, Pc.published]

end PublicComponent.Dbd
