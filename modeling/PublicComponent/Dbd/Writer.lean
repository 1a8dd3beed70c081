import PublicComponent.Dbd.Isolation

/-!
A `Modify` run in the concurrent system computes `modify`.

Once a writer holds `_modify_mutex` of `c`, no other thread writes `c`'s slots or `_index`:
only a call of `fn` writes a slot and only a store publishes an index, and both happen under
the mutex. So whatever the other threads do meanwhile, the writer's own steps take `c` from the
slots and index it found to exactly what `modify` computes from them. `WriterAt` says how far a
writer has got; `Writing.run` carries it along every run during which the writer keeps the
mutex.
-/

namespace PublicComponent.Dbd

open Function

variable {T : Type} {A : Fn T → Prop} {s s' : Sys T} {t u : Tid}

/-- How far a `Modify(fn)` of `c` that found `_data = d` and `_index = i` has got, given what
`c`'s slots `dc` and index `ic` are now: `modify`, cut at the writer's place. -/
def WriterAt (fn : Fn T) (d : Bool → T) (i : Bool) (c : Cid) (dc : Bool → T) (ic : Bool) :
    Pc T → Prop
  | .modLoad c' fn' => c' = c ∧ fn' = fn ∧ dc = d ∧ ic = i
  | .modFn1 c' fn' bg => c' = c ∧ fn' = fn ∧ bg = !i ∧ dc = d ∧ ic = i
  | .modStore c' fn' bg ret => c' = c ∧ fn' = fn ∧ bg = !i ∧ ret = (fn (!i) d).2 ∧ ret ≠ 0 ∧
      dc = update d (!i) (fn (!i) d).1 ∧ ic = i
  | .modDrainLock c' fn' bg ret | .modWait c' fn' bg ret _ | .modWaitDone c' fn' bg ret _
  | .modFn2 c' fn' bg ret => c' = c ∧ fn' = fn ∧ bg = i ∧ ret = (fn (!i) d).2 ∧ ret ≠ 0 ∧
      dc = update d (!i) (fn (!i) d).1 ∧ ic = !i
  | .modReturn c' _ ret2 => c' = c ∧ (dc, ic, ret2) = modify fn d i
  | _ => False

/-- A step of any thread after which `t` still holds `c`'s `_modify_mutex`. -/
def Writing (A : Fn T → Prop) (t : Tid) (c : Cid) (s s' : Sys T) : Prop :=
  (∃ u, Step A s u s') ∧ (s'.pc t).holdsModify c

lemma Step.data_of_holder (hI : Inv s) (h : Step A s u s') (hu : t ≠ u) {c : Cid}
    (hl : (s.pc t).holdsModify c) : s'.data c = s.data c := by
  rcases h.data_cases with hd | ⟨c', bg, x, hf, hd⟩ <;> rw [hd]
  refine update_noteq ?_ _ _
  rintro rfl
  exact hu (hI.modify_unique hl (hI.callsFn_bg hf).1)

lemma Step.writerAt_self (h : Step A s t s') {fn : Fn T} {d : Bool → T} {i : Bool} {c : Cid}
    (hw : WriterAt fn d i c (s.data c) (s.index c) (s.pc t)) (hm : (s'.pc t).holdsModify c) :
    WriterAt fn d i c (s'.data c) (s'.index c) (s'.pc t) := by
  cases h
  case release h₀ _ => rw [h₀] at hw; exact hw.elim
  all_goals rw [Sys.setPc_pc_self] at hm ⊢; rw [‹s.pc t = _›] at hw
  case modLoad =>
    obtain ⟨rfl, rfl, hd, hi⟩ := hw
    exact ⟨rfl, rfl, by rw [hi], hd, hi⟩
  case modFn1Zero bg _ hr =>
    obtain ⟨rfl, rfl, rfl, hd, hi⟩ := hw
    rw [hd] at hr ⊢
    exact ⟨rfl, by simp [Sys.setPc, modify, hr, hi]⟩
  case modFn1 bg _ hr =>
    obtain ⟨rfl, rfl, rfl, hd, hi⟩ := hw
    rw [hd] at hr ⊢
    exact ⟨rfl, rfl, rfl, rfl, hr, by simp [Sys.setPc], hi⟩
  case modStore =>
    obtain ⟨rfl, rfl, rfl, hr, hr0, hd, -⟩ := hw
    exact ⟨rfl, rfl, Bool.not_not _, hr, hr0, hd, by simp [Sys.setPc]⟩
  case modDrainLock | modWaitLock | modWaitDone | modWaitEnd => exact hw
  case modFn2 =>
    obtain ⟨rfl, rfl, rfl, hr, hr0, hd, hi⟩ := hw
    rw [hr] at hr0
    exact ⟨rfl, by simp [Sys.setPc, modify, hr0, hd, hi]⟩
  all_goals first | exact hw.elim | exact hm.elim

lemma Step.writerAt (hI : Inv s) (h : Step A s u s') {fn : Fn T} {d : Bool → T} {i : Bool}
    {c : Cid} (hw : WriterAt fn d i c (s.data c) (s.index c) (s.pc t))
    (hm : (s'.pc t).holdsModify c) : WriterAt fn d i c (s'.data c) (s'.index c) (s'.pc t) := by
  rcases eq_or_ne t u with rfl | hu
  · exact h.writerAt_self hw hm
  · rw [h.pc_ne hu] at hm ⊢
    rw [h.data_of_holder hI hu hm, h.index_of_holder hI hu hm]
    exact hw

/-- Along a run during which `t` keeps `_modify_mutex`, the writer stays where `modify` says. -/
lemma Writing.run {fn : Fn T} {d : Bool → T} {i : Bool} {c : Cid} (hr : Reach A s)
    (hw : WriterAt fn d i c (s.data c) (s.index c) (s.pc t))
    (hrun : Relation.ReflTransGen (Writing A t c) s s') :
    Reach A s' ∧ WriterAt fn d i c (s'.data c) (s'.index c) (s'.pc t) := by
  induction hrun with
  | refl => exact ⟨hr, hw⟩
  | tail _ hs ih =>
    obtain ⟨⟨u, h⟩, hm⟩ := hs
    exact ⟨ih.1.step h, h.writerAt ih.1.inv ih.2 hm⟩

lemma writerAt_modLoad {fn : Fn T} {c : Cid} (hp : s.pc t = .modLoad c fn) :
    WriterAt fn (s.data c) (s.index c) c (s.data c) (s.index c) (s.pc t) := by
  rw [hp]; exact ⟨rfl, rfl, rfl, rfl⟩

/-- **`Modify` computes `modify`.** However the other threads interleave, a `Modify(fn)` of
`c` that took `_modify_mutex` in state `s` and returns `ret2` leaves `c`'s slots and index as
`modify fn` computes them from those it found in `s`, and returns what `modify` returns. -/
theorem modify_refines {fn : Fn T} {c : Cid} {ret ret2 : Nat} (hr : Reach A s)
    (hp : s.pc t = .modLoad c fn) (hrun : Relation.ReflTransGen (Writing A t c) s s')
    (hret : s'.pc t = .modReturn c ret ret2) :
    (s'.data c, s'.index c, ret2) = modify fn (s.data c) (s.index c) := by
  have := (Writing.run hr (writerAt_modLoad hp) hrun).2
  rw [hret] at this
  exact this.2

/-- A writer locks a container holding `5` and runs `ModifyWithForeground` with
`g(x, y) = (x + y, 1)` to its return, with no `Wrapper` to wait for. -/
lemma withFG0_run : ∃ s s' : Sys Nat, Reach (fun _ => True) s ∧
    Relation.ReflTransGen (Writing (fun _ => True) 0 0) s s' ∧
    s.pc 0 = .modLoad 0 (withFG0 fun x y => (x + y, 1)) ∧ s.data 0 = (fun _ => 5) ∧
    s'.pc 0 = .modReturn 0 1 1 :=
  ⟨_, _, .step (.step (.init (fun _ => 5) fun _ => true)
    (@Step.callModify Nat _ _ 0 0 (withFG0 fun x y => (x + y, 1)) rfl rfl trivial))
    (.modLock (t := 0) rfl rfl),
    .tail (.tail (.tail (.tail (.tail (.tail .refl
      ⟨⟨0, .modLoad rfl⟩, rfl⟩)
      ⟨⟨0, .modFn1 rfl (by decide)⟩, rfl⟩)
      ⟨⟨0, .modStore rfl⟩, rfl⟩)
      ⟨⟨0, .modDrainLock rfl rfl⟩, rfl⟩)
      ⟨⟨0, .modWaitEnd rfl (Nat.le_refl 0)⟩, rfl⟩)
      ⟨⟨0, .modFn2 rfl⟩, rfl⟩, rfl, rfl, rfl⟩

/-- `Modify` computes `modify` on that run. -/
theorem modify_refines_five : ∃ s s' : Sys Nat, Reach (fun _ => True) s ∧
    s.pc 0 = .modLoad 0 (withFG0 fun x y => (x + y, 1)) ∧
    Relation.ReflTransGen (Writing (fun _ => True) 0 0) s s' ∧ s'.pc 0 = .modReturn 0 1 1 ∧
    (s'.data 0, s'.index 0, 1) = modify (withFG0 fun x y => (x + y, 1)) (s.data 0) (s.index 0) := by
  obtain ⟨s, s', hr, hrun, hp, -, hret⟩ := withFG0_run
  exact ⟨s, s', hr, hp, hrun, hret, modify_refines hr hp hrun hret⟩

/-- **`ModifyWithForeground` in the system.** A writer that takes `_modify_mutex` of `c` while
both slots hold `x`, whichever `_index` selects, hands `g` the slot it does not write: `x` in
the first call, the newly published foreground in the second. When the first result is
nonzero, it ends with `g(x, x)` in the foreground and `g(x, g(x, x))` in the background,
returns the second result, and leaves the slots equal exactly when the two values agree. -/
theorem modifyWithForeground_spec {g : T → T → T × Nat} {x : T} {c : Cid} {ret ret2 : Nat}
    (hr : Reach A s) (hp : s.pc t = .modLoad c (withFG0 g)) (hd : s.data c = fun _ => x)
    (hg : (g x x).2 ≠ 0) (hrun : Relation.ReflTransGen (Writing A t c) s s')
    (hret : s'.pc t = .modReturn c ret ret2) :
    s'.data c (s'.index c) = (g x x).1 ∧ s'.data c (!s'.index c) = (g x (g x x).1).1 ∧
      ret2 = (g x (g x x).1).2 ∧
      (s'.data c true = s'.data c false ↔ (g x (g x x).1).1 = (g x x).1) := by
  have hw := (Writing.run hr (writerAt_modLoad hp) hrun).2
  rw [hret] at hw
  obtain ⟨-, hw⟩ := hw
  rw [hd, modify_withFG0 g x _ hg, Prod.mk.injEq, Prod.mk.injEq] at hw
  obtain ⟨hdc, hic, rfl⟩ := hw
  rw [hdc, hic]
  refine ⟨by simp, by simp, rfl, ?_⟩
  cases s.index c <;> simp [eq_comm]

/-- `ModifyWithForeground` with `g(x, y) = (x + y, 1)` on `5` ends with `10` in the
foreground and `15` in the background. -/
theorem modifyWithForeground_spec_five : ∃ s s' : Sys Nat, ∃ ret2, Reach (fun _ => True) s ∧
    s.pc 0 = .modLoad 0 (withFG0 fun x y => (x + y, 1)) ∧ s.data 0 = (fun _ => 5) ∧
    Relation.ReflTransGen (Writing (fun _ => True) 0 0) s s' ∧ s'.pc 0 = .modReturn 0 1 ret2 ∧
    s'.data 0 (s'.index 0) = 10 ∧ s'.data 0 (!s'.index 0) = 15 ∧ ret2 = 1 ∧
    (s'.data 0 true = s'.data 0 false ↔ 15 = 10) := by
  obtain ⟨s, s', hr, hrun, hp, hd, hret⟩ := withFG0_run
  exact ⟨s, s', 1, hr, hp, hd, hrun, hret,
    modifyWithForeground_spec hr hp hd (by decide) hrun hret⟩

end PublicComponent.Dbd
