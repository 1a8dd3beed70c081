import Mathlib.Data.List.Forall2
import PublicComponent.Defer.Denote

/-!
The machine does what `denote` says.

The run of a scope's code, on any stack below it, ends with the scope holding only the objects
it had: everything the code constructed has been destroyed, each `DeferHelper` calling its
lambda on the way. What is left of the code's doing is the lambdas it gave to the `DEFER_FIFO`
of the stack, and, after `return`, the scopes below up to the function body, which are left
with no code. A lambda given to a `DEFER_FIFO` sees, when the `DEFER_FIFO` goes, exactly the
locals alive where it was declared, so what it shows is known when it is given.
-/

namespace PublicComponent.Defer

open List

/-! ### The `DEFER_FIFO` of a stack -/

def fifoCtxObjs : List Obj → Option (List Obj)
  | [] => none
  | .fifo _ :: os => some os
  | _ :: os => fifoCtxObjs os

/-- The objects of the stack constructed before the `DEFER_FIFO` in scope. -/
def fifoCtx : List (List Obj) → Option (List (List Obj))
  | [] => none
  | os :: oss => match fifoCtxObjs os with
    | some os' => some (os' :: oss)
    | none => fifoCtx oss

def addFuncsObjs (gs : List Code) : List Obj → List Obj
  | [] => []
  | .fifo fs :: os => .fifo (fs ++ gs) :: os
  | o :: os => o :: addFuncsObjs gs os

/-- `add_func` of each of `gs`, in order, on the `DEFER_FIFO` in scope, if any. -/
def addFuncs (gs : List Code) : List Frame → List Frame
  | [] => []
  | F :: K => if (fifoCtxObjs F.objs).isSome then { F with objs := addFuncsObjs gs F.objs } :: K
    else F :: addFuncs gs K

/-- The locals alive where the `DEFER_FIFO` in scope was declared are `l`. -/
def FlOk (fl : Option (List Var)) (oss : List (List Obj)) : Prop :=
  ∀ l, fl = some l → ∃ ctx, fifoCtx oss = some ctx ∧ ∀ x, aliveIn ctx x ↔ x ∈ l

/-- Lambda `g`, called where the locals `l` are alive, shows `e` and returns. -/
def RunsIn (l : List Var) (g : Code) (e : List Event) : Prop :=
  ∀ K, (∀ x, aliveIn (K.map Frame.objs) x ↔ x ∈ l) → Steps (⟨g, [], true⟩ :: K) e K

/-- Where the run of a scope's code stops. -/
def fin (r : Bool) (gs : List Code) (os : List Obj) (b : Bool) (K : List Frame) : List Frame :=
  (if r then leave else id) (addFuncs gs (⟨.done, os, b⟩ :: K))

section Lemmas

variable {gs hs : List Code} {o : Obj} {os : List Obj} {oss : List (List Obj)} {c : Code}
  {b : Bool} {K : List Frame} {x : Var}

@[simp] lemma addFuncsObjs_nil : addFuncsObjs [] os = os := by
  induction os with
  | nil => rfl
  | cons o os ih => cases o <;> simp [addFuncsObjs, ih]

@[simp] lemma addFuncs_nil : addFuncs [] K = K := by
  induction K with
  | nil => rfl
  | cons F K ih => by_cases h : (fifoCtxObjs F.objs).isSome <;> simp [addFuncs, h, ih]

lemma fifoCtxObjs_addFuncsObjs : fifoCtxObjs (addFuncsObjs gs os) = fifoCtxObjs os := by
  induction os with
  | nil => rfl
  | cons o os ih => cases o <;> simp [addFuncsObjs, fifoCtxObjs, ih]

lemma addFuncsObjs_append : addFuncsObjs gs (addFuncsObjs hs os) = addFuncsObjs (hs ++ gs) os := by
  induction os with
  | nil => rfl
  | cons o os ih => cases o <;> simp [addFuncsObjs, ih]

lemma any_addFuncsObjs : (addFuncsObjs gs os).any (Obj.isVar x) = os.any (Obj.isVar x) := by
  induction os with
  | nil => rfl
  | cons o os ih => cases o <;> simp [addFuncsObjs, Obj.isVar, ih]

lemma addFuncs_cons : addFuncs gs (⟨c, os, b⟩ :: K) = if (fifoCtxObjs os).isSome then
    ⟨c, addFuncsObjs gs os, b⟩ :: K else ⟨c, os, b⟩ :: addFuncs gs K := rfl

lemma addFuncs_append : addFuncs gs (addFuncs hs K) = addFuncs (hs ++ gs) K := by
  induction K with
  | nil => rfl
  | cons F K ih =>
    by_cases h : (fifoCtxObjs F.objs).isSome <;>
      simp [addFuncs, h, ih, fifoCtxObjs_addFuncsObjs, addFuncsObjs_append]

lemma aliveIn_addFuncs : aliveIn ((addFuncs gs K).map Frame.objs) x = aliveIn (K.map Frame.objs) x := by
  induction K with
  | nil => rfl
  | cons F K ih =>
    by_cases h : (fifoCtxObjs F.objs).isSome <;>
      simp_all [addFuncs, aliveIn, any_addFuncsObjs]

lemma fifoCtx_addFuncs : fifoCtx ((addFuncs gs K).map Frame.objs) = fifoCtx (K.map Frame.objs) := by
  induction K with
  | nil => rfl
  | cons F K ih =>
    by_cases h : (fifoCtxObjs F.objs).isSome
    · simp only [addFuncs, h, if_true, map_cons, fifoCtx, fifoCtxObjs_addFuncsObjs]
    · simp only [addFuncs, h, if_false, map_cons, fifoCtx, ih]
      simp only [Option.not_isSome_iff_eq_none] at h
      rw [h]

@[simp] lemma map_objs_leave : (leave K).map Frame.objs = K.map Frame.objs := by
  induction K with
  | nil => rfl
  | cons F K ih => cases h : F.body <;> simp [leave, h, ih]

lemma leave_addFuncs : leave (addFuncs gs K) = addFuncs gs (leave K) := by
  induction K with
  | nil => rfl
  | cons F K ih =>
    by_cases h : (fifoCtxObjs F.objs).isSome <;> cases hb : F.body <;>
      simp [addFuncs, leave, h, hb, ih]

lemma aliveIn_cons_var {y : Var} : aliveIn ((.var x :: os) :: oss) y ↔ y = x ∨ aliveIn (os :: oss) y := by
  simp [aliveIn, Obj.isVar, Bool.or_assoc]

lemma aliveIn_cons (ho : ∀ y, o.isVar y = false) :
    aliveIn ((o :: os) :: oss) x = aliveIn (os :: oss) x := by
  simp [aliveIn, ho]

lemma fifoCtx_cons (ho : ∀ fs, o ≠ .fifo fs) : fifoCtx ((o :: os) :: oss) = fifoCtx (os :: oss) := by
  cases o <;> first | rfl | exact absurd rfl (ho _)

@[simp] lemma aliveIn_nil_cons : aliveIn ([] :: oss) x = aliveIn oss x := by simp [aliveIn]

@[simp] lemma fifoCtx_nil_cons : fifoCtx ([] :: oss) = fifoCtx oss := rfl

lemma FlOk.of_eq {fl : Option (List Var)} {oss' : List (List Obj)} (h : FlOk fl oss)
    (he : fifoCtx oss' = fifoCtx oss) : FlOk fl oss' := fun l hl => he ▸ h l hl

lemma readAll_eq {live xs : List Var} (h : ∀ x, aliveIn (K.map Frame.objs) x ↔ x ∈ live) :
    readAll K xs = dead live xs := by
  unfold readAll dead
  congr 1
  exact filter_congr fun x _ => by cases hx : aliveIn (K.map Frame.objs) x <;> simp [hx, ← h x]

lemma addFunc_eq {f : Code} (h : (fifoCtx (K.map Frame.objs)).isSome) :
    addFunc f K = some (addFuncs [f] K) := by
  have hobj : ∀ os : List Obj, addFuncObjs f os =
      if (fifoCtxObjs os).isSome then some (addFuncsObjs [f] os) else none := by
    intro os
    induction os with
    | nil => rfl
    | cons o os ih =>
      by_cases h : (fifoCtxObjs os).isSome <;> cases o <;>
        simp [addFuncObjs, addFuncsObjs, fifoCtxObjs, ih, h]
  induction K with
  | nil => simp [fifoCtx] at h
  | cons F K ih =>
    by_cases hF : (fifoCtxObjs F.objs).isSome
    · simp [addFunc, addFuncs, hobj, hF]
    · have hF' := Option.not_isSome_iff_eq_none.1 hF
      simp only [map_cons, fifoCtx, hF'] at h
      simp [addFunc, addFuncs, hobj, hF, ih h]

/-! ### Where a run stops -/

/-- A lambda's or a called function's scope is left with nothing below it touched but the
`DEFER_FIFO` in scope. -/
lemma fin_body (r : Bool) : fin r gs [] true K = ⟨.done, [], true⟩ :: addFuncs gs K := by
  cases r <;> simp [fin, addFuncs_cons, fifoCtxObjs, leave]

lemma fin_addFuncs (r : Bool) : addFuncs hs (fin r gs os b K) = fin r (gs ++ hs) os b K := by
  cases r <;> simp [fin, leave_addFuncs, addFuncs_append]

lemma fin_head (r : Bool) (gs : List Code) (os : List Obj) (b : Bool) (K : List Frame) :
    ∃ os' K', fin r gs os b K = ⟨.done, os', b⟩ :: K' := by
  by_cases h : (fifoCtxObjs os).isSome <;> cases r <;> cases b <;>
    simp [fin, addFuncs_cons, h, leave]

lemma fin_cons (r : Bool) (ho : ∀ fs, o ≠ .fifo fs) {os' : List Obj} {K' : List Frame}
    (h : fin r gs os b K = ⟨.done, os', b⟩ :: K') :
    fin r gs (o :: os) b K = ⟨.done, o :: os', b⟩ :: K' := by
  have hc : fifoCtxObjs (o :: os) = fifoCtxObjs os := by
    cases o <;> first | rfl | exact absurd rfl (ho _)
  have ha : addFuncsObjs gs (o :: os) = o :: addFuncsObjs gs os := by
    cases o <;> first | rfl | exact absurd rfl (ho _)
  revert h
  by_cases hf : (fifoCtxObjs os).isSome <;> cases r <;> cases b <;>
    simp [fin, addFuncs_cons, hc, ha, hf, leave]

lemma fin_fifo (r : Bool) (fs : List Code) :
    fin r gs (.fifo fs :: os) b K = ⟨.done, .fifo (fs ++ gs) :: os, b⟩ :: (fin r [] os b K).tail := by
  cases r <;> cases b <;> simp [fin, addFuncs_cons, fifoCtxObjs, addFuncsObjs, leave]

lemma fin_eq (r : Bool) : fin r [] os b K = ⟨.done, os, b⟩ :: (fin r [] os b K).tail := by
  cases r <;> cases b <;> simp [fin, leave]

lemma map_objs_fin (r : Bool) :
    (fin r gs os b K).map Frame.objs = (addFuncs gs (⟨c, os, b⟩ :: K)).map Frame.objs := by
  cases r <;> by_cases h : (fifoCtxObjs os).isSome <;> simp [fin, addFuncs_cons, h]

lemma aliveIn_fin (r : Bool) (gs : List Code) (os : List Obj) (b : Bool) (K : List Frame)
    (x : Var) : aliveIn ((fin r gs os b K).map Frame.objs) x = aliveIn (os :: K.map Frame.objs) x := by
  rw [map_objs_fin (c := .done), aliveIn_addFuncs]; rfl

lemma fifoCtx_fin (r : Bool) :
    fifoCtx ((fin r gs os b K).map Frame.objs) = fifoCtx (os :: K.map Frame.objs) := by
  rw [map_objs_fin (c := .done), fifoCtx_addFuncs]; rfl

/-- `~DeferHelperFifo` runs its lambdas in order, each where the locals alive at its
declaration are. -/
lemma drain (os : List Obj) {l : List Var} {es : List (List Event)} (hg : Forall₂ (RunsIn l) gs es)
    (ha : ∀ x, aliveIn (os :: K.map Frame.objs) x ↔ x ∈ l) :
    Steps (⟨.done, .fifo gs :: os, b⟩ :: K) es.flatten (⟨.done, os, b⟩ :: K) := by
  induction hg with
  | nil => exact .single rfl
  | @cons g e gs es hge _ ih =>
    refine .cons rfl (.trans (hge _ fun x => ?_) ih) rfl
    rw [← ha x]; rfl

/-- The objects of a scope's frame and the frames below it after `add_func`s. -/
lemma addFuncs_split (hs : List Code) (os : List Obj) (b : Bool) (K : List Frame) :
    ∃ os₁ K₁, ∀ c, addFuncs hs (⟨c, os, b⟩ :: K) = ⟨c, os₁, b⟩ :: K₁ := by
  by_cases h : (fifoCtxObjs os).isSome
  · exact ⟨_, _, fun c => by rw [addFuncs_cons, if_pos h]⟩
  · exact ⟨_, _, fun c => by rw [addFuncs_cons, if_neg h]⟩

lemma fin_split {os₁ : List Obj} {K₁ : List Frame}
    (h : ∀ c, addFuncs hs (⟨c, os, b⟩ :: K) = ⟨c, os₁, b⟩ :: K₁) (r : Bool) :
    fin r gs os₁ b K₁ = fin r (hs ++ gs) os b K := by
  rw [fin, fin, ← h, addFuncs_append]

lemma aliveIn_split {os₁ : List Obj} {K₁ : List Frame}
    (h : ∀ c, addFuncs hs (⟨c, os, b⟩ :: K) = ⟨c, os₁, b⟩ :: K₁) :
    aliveIn (os₁ :: K₁.map Frame.objs) x = aliveIn (os :: K.map Frame.objs) x := by
  have := @aliveIn_addFuncs hs (⟨.done, os, b⟩ :: K) x
  rwa [h] at this

lemma fifoCtx_split {os₁ : List Obj} {K₁ : List Frame}
    (h : ∀ c, addFuncs hs (⟨c, os, b⟩ :: K) = ⟨c, os₁, b⟩ :: K₁) :
    fifoCtx (os₁ :: K₁.map Frame.objs) = fifoCtx (os :: K.map Frame.objs) := by
  have := @fifoCtx_addFuncs hs (⟨.done, os, b⟩ :: K)
  rwa [h] at this

/-- A lambda or a called function returns to its caller once its scope is left. -/
lemma Steps.pop_body {K' : List Frame} {e : List Event} {r : Bool} (h : Steps K' e (fin r gs [] true K)) :
    Steps K' e (addFuncs gs K) := by
  rw [fin_body] at h
  simpa using h.trans (.single rfl)

end Lemmas

/-! ### The simulation -/

/-- **The run of a scope's code.** Run on any stack whose locals are `live` and whose
`DEFER_FIFO`, if one is in scope, was declared where the locals `fl` were alive, code that
compiles shows what `denote` says, and stops where `fin` says: the lambdas it gave to the
`DEFER_FIFO` are ones that, when it goes, show what `denote` recorded. -/
theorem exec (c : Code) (live : List Var) (fl : Option (List Var)) (os : List Obj) (b : Bool)
    (K : List Frame) (hw : c.wf fl.isSome) (ha : ∀ x, aliveIn (os :: K.map Frame.objs) x ↔ x ∈ live)
    (hf : FlOk fl (os :: K.map Frame.objs)) :
    ∃ gs, Forall₂ (RunsIn (fl.getD [])) gs (denote live fl c).regs ∧
      Steps (⟨c, os, b⟩ :: K) (denote live fl c).events
        (fin (denote live fl c).returned gs os b K) := by
  induction c generalizing live fl os b K with
  | done => exact ⟨[], .nil, by simpa [fin] using Steps.refl _⟩
  | act n xs k ih =>
    obtain ⟨gs, hg, hs⟩ := ih live fl os b K hw ha hf
    exact ⟨gs, hg, .cons (K := ⟨.act n xs k, os, b⟩ :: K) rfl hs
      (by rw [readAll_eq (K := ⟨k, os, b⟩ :: K) ha]; simp [denote])⟩
  | decl x k ih =>
    obtain ⟨gs, hg, hs⟩ := ih (x :: live) fl (.var x :: os) b K hw
      (fun y => by rw [aliveIn_cons_var, ha, mem_cons]) (hf.of_eq (fifoCtx_cons (o := .var x) nofun))
    obtain ⟨os', K', he⟩ := fin_head (denote (x :: live) fl k).returned gs os b K
    have hd : Defer.step (fin (denote (x :: live) fl k).returned gs (.var x :: os) b K) =
        some (fin (denote (x :: live) fl k).returned gs os b K, []) := by
      rw [fin_cons (o := .var x) _ nofun he, he]; rfl
    exact ⟨gs, hg, .cons (K := ⟨.decl x k, os, b⟩ :: K) rfl (hs.trans (.single hd))
      (by simp [denote])⟩
  | defer f k ihf ihk =>
    simp only [Code.wf, Bool.and_eq_true] at hw
    obtain ⟨gs, hg, hs⟩ := ihk live fl (.helper f :: os) b K hw.2
      (fun y => by rw [aliveIn_cons (o := .helper f) fun _ => rfl, ha])
      (hf.of_eq (fifoCtx_cons (o := .helper f) nofun))
    obtain ⟨hs', hg', hf'⟩ := ihf live fl [] true (fin (denote live fl k).returned gs os b K) hw.1
      (fun y => by rw [aliveIn_nil_cons, aliveIn_fin, ha]) (hf.of_eq (by simp [fifoCtx_fin]))
    obtain ⟨os', K', he⟩ := fin_head (denote live fl k).returned gs os b K
    have hd : Defer.step (fin (denote live fl k).returned gs (.helper f :: os) b K) =
        some (⟨f, [], true⟩ :: fin (denote live fl k).returned gs os b K, []) := by
      rw [fin_cons (o := .helper f) _ nofun he, he]; rfl
    have h := Steps.cons (K := ⟨.defer f k, os, b⟩ :: K) rfl
      (hs.trans (Steps.cons hd hf'.pop_body rfl)) rfl
    rw [fin_addFuncs] at h
    exact ⟨gs ++ hs', rel_append hg hg', by simpa [denote] using h⟩
  | useFifo k ih =>
    obtain ⟨gs, hg, hs⟩ := ih live (some live) (.fifo [] :: os) b K hw
      (fun y => by rw [aliveIn_cons (o := .fifo []) fun _ => rfl, ha])
      fun l hl => ⟨_, rfl, (Option.some.inj hl) ▸ ha⟩
    have hT := @fin_eq os b K (denote live (some live) k).returned
    have hd := drain os (b := b) (K := (fin (denote live (some live) k).returned [] os b K).tail) hg
      fun x => by
        have h := aliveIn_fin (denote live (some live) k).returned [] os b K x
        rw [hT, map_cons] at h
        exact (iff_of_eq (congrArg (· = true) h)).trans (ha x)
    rw [← hT, ← nil_append gs, ← fin_fifo] at hd
    exact ⟨[], .nil, .cons (K := ⟨.useFifo k, os, b⟩ :: K) rfl (hs.trans hd) (by simp [denote])⟩
  | deferFifo f k ihf ihk =>
    cases fl with
    | none => simp [Code.wf] at hw
    | some l =>
    simp only [Code.wf, Option.isSome_some, Bool.true_and, Bool.and_eq_true] at hw
    obtain ⟨ctx, hctx, -⟩ := hf l rfl
    obtain ⟨os₁, K₁, hsplit⟩ := addFuncs_split [f] os b K
    have hstep : Defer.step (⟨.deferFifo f k, os, b⟩ :: K) = some (⟨k, os₁, b⟩ :: K₁, []) := by
      simp only [Defer.step, addFunc_eq (K := ⟨k, os, b⟩ :: K) (by rw [map_cons, hctx]; rfl),
        hsplit, Option.map_some']
    obtain ⟨gs, hg, hs⟩ := ihk live (some l) os₁ b K₁ hw.2
      (fun y => by rw [aliveIn_split hsplit, ha])
      (hf.of_eq (fifoCtx_split hsplit))
    have hrun : RunsIn l f (denote l none f).events := fun K₀ hK₀ => by
      obtain ⟨gf, hgf, hsf⟩ := ihf l none [] true K₀ hw.1
        (fun y => by rw [aliveIn_nil_cons, hK₀]) (fun _ h => nomatch h)
      rw [denote_regs_none hw.1, forall₂_nil_right_iff] at hgf
      subst hgf
      simpa using hsf.pop_body
    rw [fin_split hsplit] at hs
    exact ⟨f :: gs, .cons hrun hg, .cons hstep hs (by simp [denote])⟩
  | block c k ihc ihk =>
    simp only [Code.wf, Bool.and_eq_true] at hw
    obtain ⟨gs, hg, hs⟩ := ihc live fl [] false (⟨k, os, b⟩ :: K) hw.1
      (fun y => by rw [aliveIn_nil_cons]; exact ha y) (hf.of_eq rfl)
    obtain ⟨os₁, K₁, hsplit⟩ := addFuncs_split gs os b K
    have hpop : Defer.step (⟨.done, [], false⟩ :: addFuncs gs (⟨k, os, b⟩ :: K)) =
        some (⟨k, os₁, b⟩ :: K₁, []) := by rw [hsplit]; rfl
    cases hr : (denote live fl c).returned
    · simp only [fin, addFuncs_cons, fifoCtxObjs, Option.isSome_none, Bool.false_eq_true,
        if_false, hr, id] at hs
      obtain ⟨gs', hg', hs'⟩ := ihk live fl os₁ b K₁ hw.2
        (fun y => by rw [aliveIn_split hsplit, ha]) (hf.of_eq (fifoCtx_split hsplit))
      rw [fin_split hsplit] at hs'
      have h := Steps.cons (K := ⟨.block c k, os, b⟩ :: K) rfl (hs.trans (.cons hpop hs' rfl)) rfl
      exact ⟨gs ++ gs', by simpa [denote, hr] using rel_append hg hg', by simpa [denote, hr] using h⟩
    · simp only [fin, addFuncs_cons, fifoCtxObjs, Option.isSome_none, Bool.false_eq_true,
        if_false, hr, if_true] at hs
      have hd : Defer.step (leave (⟨.done, [], false⟩ :: addFuncs gs (⟨k, os, b⟩ :: K))) =
          some (fin true gs os b K, []) := by
        rw [fin, hsplit, hsplit]; rfl
      have h := Steps.cons (K := ⟨.block c k, os, b⟩ :: K) rfl (hs.trans (.single hd)) rfl
      exact ⟨gs, by simpa [denote, hr] using hg, by simpa [denote, hr] using h⟩
  | call c k ihc ihk =>
    simp only [Code.wf, Bool.and_eq_true] at hw
    obtain ⟨gc, hgc, hsc⟩ := ihc live none [] true (⟨k, os, b⟩ :: K) hw.1
      (fun y => by rw [aliveIn_nil_cons]; exact ha y) (fun _ h => nomatch h)
    rw [denote_regs_none hw.1, forall₂_nil_right_iff] at hgc
    subst hgc
    obtain ⟨gs, hg, hs⟩ := ihk live fl os b K hw.2 ha hf
    have hc := hsc.pop_body
    rw [addFuncs_nil] at hc
    exact ⟨gs, hg, .cons (K := ⟨.call c k, os, b⟩ :: K) rfl (hc.trans hs) (by simp [denote])⟩
  | ret => exact ⟨[], .nil, .single (by rw [fin, addFuncs_nil]; rfl)⟩

/-- A function body that compiles runs to its end, showing what `denote` says. -/
lemma body_runs {c : Code} (hc : c.wf false) :
    ∃ n, run n [⟨c, [], true⟩] = some (denote [] none c).events := by
  obtain ⟨gs, hg, hs⟩ := exec c [] none [] true [] hc
    (fun _ => by simp [aliveIn]) (fun _ h => nomatch h)
  rw [denote_regs_none hc, forall₂_nil_right_iff] at hg
  subst hg
  exact hs.pop_body.run

/-- **`defer` does what its comments say.** Every function body that compiles runs to its end,
showing what `denote` says: the statements in order; when a scope is left, by its end or by
`return`, the lambdas deferred in it, the last first, each seeing the locals declared before
it; and when the scope of `use_defer_fifo()` is left, the lambdas given to `defer_fifo`, in the
order given, each seeing the locals declared before `use_defer_fifo()`. -/
theorem defer_refines (c : Code) (hc : c.wf false) :
    ∃ n, run n [⟨c, [], true⟩] = some (denote [] none c).events :=
  body_runs hc

/-- `main()` prints `defer_test 1` to `4`, the dashes, and `defer_test 1` to `4` again. -/
example : run 40 [⟨main, [], true⟩] =
    some [.out 1, .out 2, .out 3, .out 4, .out 0, .out 1, .out 2, .out 3, .out 4] := by decide

theorem defer_refines_main :
    main.wf false ∧ ∃ n, run n [⟨main, [], true⟩] = some (denote [] none main).events :=
  ⟨by decide, defer_refines main (by decide)⟩

/-- **Deferred lambdas read live locals.** A function body that compiles, reads only locals in
scope, and whose `defer_fifo` lambdas read only locals declared before their
`use_defer_fifo()`, runs to its end without reading a local after its lifetime ended: the
lambdas of `defer` need nothing more than C++ name lookup. -/
theorem defer_reads_alive (c : Code) (hc : c.wf false) (hs : c.safe [] []) :
    ∃ n tr, run n [⟨c, [], true⟩] = some tr ∧ Clean tr := by
  obtain ⟨n, hn⟩ := body_runs hc
  exact ⟨n, _, hn, (@denote_clean c [] [] [] none hs (fun _ h => h) fun _ h => nomatch h).1⟩

theorem defer_reads_alive_main : main.wf false ∧ main.safe [] [] ∧
    ∃ n tr, run n [⟨main, [], true⟩] = some tr ∧ Clean tr :=
  ⟨by decide, by decide, defer_reads_alive main (by decide) (by decide)⟩

/-- **`defer` needs nothing but name lookup.** Every function body that compiles, that is, whose
reads pass C++ name lookup, and that gives no lambda to `defer_fifo`, runs to its end without
reading a local whose lifetime has ended: the rule of the comment on `defer`, that what a
`defer` lambda uses be defined before it, is the compiler's. -/
theorem defer_scoped_clean (c : Code) (hc : c.wf false) (hn : c.noDeferFifo) (hs : c.scoped []) :
    ∃ n tr, run n [⟨c, [], true⟩] = some tr ∧ Clean tr := by
  obtain ⟨n, hn'⟩ := body_runs hc
  exact ⟨n, _, hn', (@denote_clean c [] [] [] none (Code.safe_of_scoped hn hs) (fun _ h => h)
    fun _ h => nomatch h).1⟩

/-- `int x; defer(use x); use x; return;` -/
theorem defer_scoped_clean_local :
    (Code.decl 7 (.defer (.act 5 [7] .done) (.act 1 [7] (.ret .done)))).wf false ∧
    (Code.decl 7 (.defer (.act 5 [7] .done) (.act 1 [7] (.ret .done)))).noDeferFifo ∧
    (Code.decl 7 (.defer (.act 5 [7] .done) (.act 1 [7] (.ret .done)))).scoped [] ∧
    ∃ n tr, run n [⟨.decl 7 (.defer (.act 5 [7] .done) (.act 1 [7] (.ret .done))), [], true⟩] =
      some tr ∧ Clean tr :=
  ⟨by decide, by decide, by decide, defer_scoped_clean _ (by decide) (by decide) (by decide)⟩

/-- **A `defer_fifo` lambda can read a dead local.** In every function body that begins with
`use_defer_fifo()`, then defines a local `x`, then gives `defer_fifo` a lambda reading `x`,
whatever follows, the lambda reads `x` after its lifetime ended: `DEFER_FIFO`, constructed
before `x`, is destroyed after it. Declaring `x` before the `defer_fifo` is not enough; it must
come before `use_defer_fifo()`. -/
theorem fifo_lambda_dangles (x n : Var) (k : Code) (hk : k.wf true) :
    ∃ m pre post, run m [⟨.useFifo (.decl x (.deferFifo (.act n [x] .done) k)), [], true⟩] =
      some (pre ++ .dangling x :: .out n :: post) := by
  obtain ⟨m, hm⟩ := body_runs (c := .useFifo (.decl x (.deferFifo (.act n [x] .done) k)))
    (by simpa [Code.wf] using hk)
  exact ⟨m, _, _, by simpa [denote, dead] using hm⟩

theorem fifo_lambda_dangles_done : Code.wf true .done ∧
    ∃ m pre post, run m [⟨.useFifo (.decl 0 (.deferFifo (.act 1 [0] .done) .done)), [], true⟩] =
      some (pre ++ .dangling 0 :: .out 1 :: post) :=
  ⟨rfl, fifo_lambda_dangles 0 1 .done rfl⟩

end PublicComponent.Defer
