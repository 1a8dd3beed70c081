import PublicComponent.Dbd.Registry

/-!
Thread exit deletes the thread's `Wrapper`s.

`_wrapper_key` is created with `delete_object<Wrapper>` as its destructor: when a thread exits,
the key of each container it read from still has its `Wrapper`, and `~Wrapper` calls
`RemoveWrapper`, which takes the `Wrapper` out of `_wrappers` before its memory is released.

A thread's slot changes only by its own `pthread_setspecific`, which follows a
`pthread_getspecific` that returned `NULL`, and by its exit. So the `Wrapper` stays in the slot
until the exit takes it out, an exited thread has none left under a live key, and whatever the
other threads do meanwhile, the one it had is by then deleted, once, and in no `_wrappers`.
-/

namespace PublicComponent.Dbd

open Function

variable {T : Type} {A : Fn T → Prop} {s s' : Sys T} {t u : Tid} {c : Cid} {w : Nat}

/-! ### The thread-local slots -/

/-- The thread is in `AddWrapper` for `c`, or about to store its result under `c`'s key. -/
def Pc.adding : Pc T → Cid → Prop
  | .addWrapper c, c' | .pushLock c _, c' | .pushBack c _, c' | .setSpecific c _, c' => c = c'
  | _, _ => False

/-- The stepping thread has exited only by `exitDone`, whose guard is that no live key holds a
`Wrapper` of it. -/
lemma Step.tls_of_exited (h : Step A s t s') (hx : s'.pc t = .exited) :
    ∀ c, s.alive c → s.tls t c = 0 := by
  cases h
  case exitDone hw => exact hw
  case release h₀ _ => rw [show s.pc t = _ from hx] at h₀; cases h₀
  all_goals rw [Sys.setPc_pc_self] at hx; first | cases hx | (cases ‹After› <;> cases hx)

/-- A thread's slot is empty while it adds a `Wrapper` for it, and an exited thread has no
`Wrapper` under the key of a live container. -/
structure Slots (s : Sys T) : Prop where
  adding : ∀ u c, (s.pc u).adding c → s.tls u c = 0
  exited : ∀ u c, s.pc u = .exited → s.alive c → s.tls u c = 0

lemma Slots.step (hS : Slots s) (h : Step A s t s') : Slots s' := by
  constructor
  · intro u c hp
    rcases h.tls_cases u c with he | ⟨rfl, ⟨w, -, hp', -⟩ | ⟨-, h0⟩⟩
    · rw [he]
      rcases eq_or_ne u t with rfl | hu
      · cases h
        case release => exact hS.adding u c hp
        all_goals rw [Sys.setPc_pc_self] at hp
        case readMiss hw => rw [← show _ = c from hp]; exact hw
        case newOk h₀ | pushLock h₀ _ | pushOk h₀ =>
          exact hS.adding u c (by rw [h₀]; exact hp)
        all_goals first | exact hp.elim | (cases ‹After› <;> exact hp.elim)
      · exact hS.adding u c (h.pc_ne hu ▸ hp)
    · rw [hp'] at hp; exact hp.elim
    · exact h0
  · intro u c hx ha
    have ha₀ := h.alive_of_alive ha
    rcases h.tls_cases u c with he | ⟨rfl, ⟨w, -, hp', -⟩ | ⟨-, h0⟩⟩
    · rw [he]
      rcases eq_or_ne u t with rfl | hu
      · exact h.tls_of_exited hx c ha₀
      · exact hS.exited u c (h.pc_ne hu ▸ hx) ha₀
    · rw [hp'] at hx; cases hx
    · exact h0

lemma Reach.slots (hr : Reach A s) : Slots s := by
  induction hr with
  | init => exact ⟨fun _ _ _ => rfl, fun _ _ _ _ => rfl⟩
  | step _ h ih => exact ih.step h

/-! ### The exit of a thread -/

/-- `w` has been deleted, once, and is in no `_wrappers`. -/
def Gone (s : Sys T) (w : Nat) : Prop := s.frees w = 1 ∧ ∀ c, w ∉ s.wrappers c

/-- Nothing brings a deleted `Wrapper` back: addresses are not reused, and only a live
`Wrapper` is deleted or pushed. -/
lemma Gone.step (hI : Inv s) (hg : Gone s w) (h : Step A s t s') : Gone s' w := by
  have hl : s.live w = false := by
    have := hI.frees w
    rw [hg.1] at this
    split_ifs at this with hw
    exact hw.2.2
  refine ⟨?_, fun c hw => ?_⟩
  · by_contra hf
    have := (h.deletes hI (hg.1 ▸ hf)).1
    rw [hl] at this; cases this
  · rcases h.mem_wrappers_cases hI hw with hw | hp
    · exact hg.2 c hw
    · have := (hI.ownedLive t w (by simp [hp, Pc.owned])).1
      rw [hl] at this; cases this

lemma Step.atExit (h : Step A s t s') (hx : (s.pc u).atExit) : (s'.pc u).atExit := by
  rcases eq_or_ne u t with rfl | hu
  · cases h
    case release h₀ _ => rw [h₀] at hx; exact hx.elim
    all_goals rw [Sys.setPc_pc_self]; rw [‹s.pc u = _›] at hx
    all_goals first | trivial | exact hx.elim | (cases ‹After› <;> trivial)
  · rw [h.pc_ne hu]; exact hx

lemma Step.tls_zero (h : Step A s t s') (hx : (s.pc u).atExit) (h0 : s.tls u c = 0) :
    s'.tls u c = 0 := by
  rcases h.tls_cases u c with he | ⟨rfl, ⟨w, hp, -⟩ | ⟨-, h0'⟩⟩
  · rw [he, h0]
  · rw [hp] at hx; exact hx.elim
  · exact h0'

lemma Step.exitKey_at (h : Step A s t s') (hp : s.pc t = .exiting) (hw : s.tls t c ≠ 0)
    (h0 : s'.tls t c = 0) : s'.pc t = .wrapperDtor (s.tls t c) (.exit c) := by
  cases h
  case exitKey c₀ _ _ _ =>
    by_cases hc : c = c₀
    · subst hc; rw [Sys.setPc_pc_self]
    · simp only [Sys.setPc, update_same, update_noteq hc] at h0; exact absurd h0 hw
  case exitDone => exact absurd h0 hw
  case release h₀ _ => rw [hp] at h₀; cases h₀
  all_goals rw [hp] at *; contradiction

lemma Step.of_exitDtor (hI : Inv s) (h : Step A s t s') (hp : s.pc t = .wrapperDtor w (.exit c)) :
    s'.pc t = .removeLock c w (.exit c) := by
  have hc : s.control w = some c := by have := hI.ownedAt t; rw [hp] at this; exact this.2
  cases h
  case dtorSkip h₀ hc₀ => rw [hp] at h₀; cases h₀; rw [hc] at hc₀; cases hc₀
  case dtorRemove h₀ hc₀ => rw [hp] at h₀; cases h₀; rw [hc] at hc₀; cases hc₀; simp
  case release h₀ _ => rw [hp] at h₀; cases h₀
  all_goals rw [hp] at *; contradiction

lemma Step.of_removeLock (h : Step A s t s') {k : After} (hp : s.pc t = .removeLock c w k) :
    s'.pc t = .removeScan c w k := by
  cases h
  case removeLock h₀ _ => rw [hp] at h₀; cases h₀; simp
  case release h₀ _ => rw [hp] at h₀; cases h₀
  all_goals rw [hp] at *; contradiction

/-- The loop of `RemoveWrapper` takes the thread's own `Wrapper` out of `_wrappers`, and
`~Wrapper` ends by deleting it. -/
lemma Step.of_exitScan (hI : Inv s) (h : Step A s t s') (hp : s.pc t = .removeScan c w (.exit c)) :
    s'.pc t = .exiting ∧ Gone s' w := by
  have hP : Pushed s c w := by simpa [hp, OwnedAt] using hI.ownedAt t
  have hl := hI.ownedLive t w (hI.removeScan_owned hp)
  cases h
  case removeScan h₀ =>
    rw [hp] at h₀; cases h₀
    refine ⟨by simp [After.resume], ?_, fun c' hw => ?_⟩
    · simp only [Sys.setPc, Sys.free, update_same, hI.frees w, hl.1, hl.2.1, hl.2.2]; rfl
    · by_cases hc : c' = c
      · subst hc
        simp only [Sys.setPc, Sys.free, update_same] at hw
        exact ((mem_removeWrapper hl.2.1.ne' (hI.regNodup c')).1 hw).2 rfl
      · simp only [Sys.setPc, Sys.free, update_noteq hc] at hw
        exact hc (hI.regDisjoint c' c w hw hP.1)
  case release h₀ _ => rw [hp] at h₀; cases h₀
  all_goals rw [hp] at *; contradiction

/-- Where the exit of thread `t` is once it has taken `w` out of `c`'s key: in the `~Wrapper` of
`w`, or past it with `w` gone. -/
def ExitStage (s : Sys T) (c : Cid) (w : Nat) (p : Pc T) : Prop :=
  (p = .wrapperDtor w (.exit c) ∨ p = .removeLock c w (.exit c) ∨ p = .removeScan c w (.exit c)) ∨
    (p.atExit ∧ Gone s w)

lemma ExitStage.atExit {p : Pc T} (hs : ExitStage s c w p) : p.atExit := by
  rcases hs with (rfl | rfl | rfl) | ⟨hx, -⟩ <;> trivial

lemma ExitStage.step (hI : Inv s) (hs : ExitStage s c w (s.pc t)) (h : Step A s t s') :
    ExitStage s' c w (s'.pc t) := by
  rcases hs with (hp | hp | hp) | ⟨hx, hg⟩
  · exact .inl (.inr (.inl (h.of_exitDtor hI hp)))
  · exact .inl (.inr (.inr (h.of_removeLock hp)))
  · obtain ⟨hp', hg⟩ := h.of_exitScan hI hp
    exact .inr ⟨by rw [hp']; trivial, hg⟩
  · exact .inr ⟨h.atExit hx, hg.step hI h⟩

/-- Where thread `t`'s `Wrapper` `w` of container `c` is while `c` is alive: in the slot of a
thread that has not exited, or taken out of it by the thread's exit. -/
def Releases (t : Tid) (c : Cid) (w : Nat) (s : Sys T) : Prop :=
  s.alive c → (s.tls t c = w ∧ s.pc t ≠ .exited) ∨ (s.tls t c = 0 ∧ ExitStage s c w (s.pc t))

lemma Releases.step (hI : Inv s) (hS : Slots s) (hw : w ≠ 0) (hR : Releases t c w s)
    (h : Step A s u s') : Releases t c w s' := by
  intro ha'
  have ha := h.alive_of_alive ha'
  rcases hR ha with ⟨htls, hx⟩ | ⟨h0, hst⟩
  · subst htls
    rcases h.tls_cases t c with he | ⟨rfl, ⟨w', hp, -⟩ | ⟨hp, h0⟩⟩
    · refine .inl ⟨he, fun hx' => ?_⟩
      rcases eq_or_ne t u with rfl | hu
      · exact hw (h.tls_of_exited hx' c ha)
      · exact hx (h.pc_ne hu ▸ hx')
    · exact absurd (hS.adding t c (by rw [hp]; rfl)) hw
    · exact .inr ⟨h0, .inl (.inl (h.exitKey_at hp hw h0))⟩
  · refine .inr ⟨h.tls_zero hst.atExit h0, ?_⟩
    rcases eq_or_ne t u with rfl | hu
    · exact hst.step hI h
    · rw [h.pc_ne hu]
      exact hst.imp_right (And.imp_right fun hg => hg.step hI h)

/-- Along every interleaving from a reachable state, thread `t`'s `Wrapper` of `c` stays in its
slot until the thread's exit takes it out and deletes it. -/
lemma Reach.releases (hr : Reach A s) (hw : s.tls t c ≠ 0)
    (hrun : Relation.ReflTransGen (fun s s' => ∃ u, Step A s u s') s s') :
    Reach A s' ∧ Releases t c (s.tls t c) s' := by
  induction hrun with
  | refl => exact ⟨hr, fun ha => .inl ⟨rfl, fun hx => hw (hr.slots.exited t c hx ha)⟩⟩
  | tail _ hst ih =>
    obtain ⟨u, h⟩ := hst
    exact ⟨ih.1.step h, ih.2.step ih.1.inv ih.1.slots hw h⟩

/-- **Thread exit deletes the thread's `Wrapper`.** From every reachable state, along every
interleaving of all threads: once a thread has exited, if the container it had a `Wrapper`
for is still alive, the thread's slot under its key is `NULL`, and that `Wrapper` has been
deleted exactly once and is in no `_wrappers`. -/
theorem exit_releases (hr : Reach A s) (hw : s.tls t c ≠ 0)
    (hrun : Relation.ReflTransGen (fun s s' => ∃ u, Step A s u s') s s')
    (hx : s'.pc t = .exited) (ha : s'.alive c) :
    s'.tls t c = 0 ∧ s'.frees (s.tls t c) = 1 ∧ ∀ c', s.tls t c ∉ s'.wrappers c' := by
  rcases (hr.releases hw hrun).2 ha with ⟨-, hne⟩ | ⟨h0, (hp | hp | hp) | ⟨-, hg⟩⟩
  · exact absurd hx hne
  all_goals first | (rw [hx] at hp; cases hp) | exact ⟨h0, hg⟩

/-- Thread `0` reads container `0` once, then exits with no other thread running. -/
lemma exit_run : ∃ s s' : Sys Nat, Reach (fun _ => True) s ∧ s.tls 0 0 ≠ 0 ∧
    Relation.ReflTransGen (fun s s' => ∃ u, Step (fun _ => True) s u s') s s' ∧
    s'.pc 0 = .exited ∧ s'.alive 0 := by
  have hr : Reach (T := Nat) (fun _ => True) _ :=
    .step (t := 0) (.step (t := 0) (.step (t := 0) (.step (t := 0) (.step (t := 0)
      (.step (t := 0) (.init (fun _ => 0) fun _ => true)
      (Step.callRead (c := 0) rfl rfl rfl)) (.readMiss rfl rfl rfl)) (.newOk rfl))
      (.pushLock rfl rfl)) (.pushOk rfl)) (.setOk rfl)
  refine ⟨_, _, hr, by decide, .tail (.tail (.tail (.tail (.tail (.tail (.tail (.tail (.tail .refl
    ⟨0, .beginRead (c := 0) (w := 1) rfl rfl⟩) ⟨0, .loadIndex rfl⟩)
    ⟨0, .release (c := 0) (w := 1) (i := false) rfl rfl⟩) ⟨0, .exitStart rfl fun c => ?_⟩)
    ⟨0, .exitKey (c := 0) rfl rfl (by decide)⟩) ⟨0, .dtorRemove (c := 0) rfl rfl⟩)
    ⟨0, .removeLock rfl rfl⟩) ⟨0, .removeScan rfl⟩) ⟨0, .exitDone rfl fun c _ => ?_⟩, rfl, rfl⟩
  all_goals by_cases hc : c = 0
  all_goals first | (subst hc; rfl) | simp only [Sys.setPc, Sys.alloc, Sys.init, Sys.free,
    update_same, update_noteq hc]

/-- The reader's `Wrapper` is deleted once by its exit, and no container lists it. -/
theorem exit_releases_reader : ∃ s s' : Sys Nat, Reach (fun _ => True) s ∧ s.tls 0 0 ≠ 0 ∧
    Relation.ReflTransGen (fun s s' => ∃ u, Step (fun _ => True) s u s') s s' ∧
    s'.pc 0 = .exited ∧ s'.alive 0 ∧
    s'.tls 0 0 = 0 ∧ s'.frees (s.tls 0 0) = 1 ∧ ∀ c', s.tls 0 0 ∉ s'.wrappers c' := by
  obtain ⟨s, s', hr, hw, hrun, hx, ha⟩ := exit_run
  exact ⟨s, s', hr, hw, hrun, hx, ha, exit_releases hr hw hrun hx ha⟩

end PublicComponent.Dbd
