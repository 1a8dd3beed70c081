import PublicComponent.Defer.Machine

/-!
What `defer` and `defer_fifo` are for, said without the machine.

Statements run in order. When a scope is left, by its end or by `return`, the lambdas deferred
in it run, the last deferred first ("后面的defer先于前面的defer被调用"), each as a function of its
own; the lambdas given to `defer_fifo` run in the order they were given, when their
`DEFER_FIFO` goes. A lambda sees the locals alive where its helper was declared: for `defer`
that is where the lambda is written, for `defer_fifo` where `use_defer_fifo()` stands.
-/

namespace PublicComponent.Defer

/-- What running code does. -/
structure Den where
  /-- The code ended with `return`. -/
  returned : Bool
  events : List Event
  /-- What the lambdas the code gave to the `DEFER_FIFO` outside it show when they run. -/
  regs : List (List Event)

def dead (live xs : List Var) : List Event := (xs.filter fun x => x ∉ live).map .dangling

/-- `denote live fl c`: what `c` does when the locals `live` are alive and, if a
`DEFER_FIFO` is in scope, the locals `fl` were alive where it was declared. -/
def denote (live : List Var) (fl : Option (List Var)) : Code → Den
  | .done => ⟨false, [], []⟩
  | .act n xs k =>
    let r := denote live fl k
    ⟨r.returned, dead live xs ++ .out n :: r.events, r.regs⟩
  | .decl x k => denote (x :: live) fl k
  | .defer f k =>
    let r := denote live fl k
    let g := denote live fl f
    ⟨r.returned, r.events ++ g.events, r.regs ++ g.regs⟩
  | .useFifo k =>
    let r := denote live (some live) k
    ⟨r.returned, r.events ++ r.regs.flatten, []⟩
  | .deferFifo f k =>
    let r := denote live fl k
    match fl with
    | some l => ⟨r.returned, r.events, (denote l none f).events :: r.regs⟩
    | none => r
  | .block c k =>
    let r := denote live fl c
    if r.returned then r
    else
      let r' := denote live fl k
      ⟨r'.returned, r.events ++ r'.events, r.regs ++ r'.regs⟩
  | .call c k =>
    let r := denote live fl k
    ⟨r.returned, (denote live none c).events ++ r.events, r.regs⟩
  | .ret _ => ⟨true, [], []⟩

/-- The code compiles as far as `DEFER_FIFO` goes: `defer_fifo` stands only where a
`DEFER_FIFO` is in scope (`fifo`), a called function has its own, and a lambda given to
`defer_fifo` uses only a `DEFER_FIFO` of its own. The last is this model's restriction: C++
lets such a lambda append to the list its destructor is running through. -/
def Code.wf (fifo : Bool) : Code → Bool
  | .done => true
  | .act _ _ k | .decl _ k => k.wf fifo
  | .defer f k | .block f k => f.wf fifo && k.wf fifo
  | .useFifo k => k.wf true
  | .deferFifo f k => fifo && f.wf false && k.wf fifo
  | .call c k => c.wf false && k.wf fifo
  | .ret _ => true

lemma denote_regs_none {c : Code} (hc : c.wf false) (live : List Var) :
    (denote live none c).regs = [] := by
  induction c generalizing live with
  | done | useFifo | ret => rfl
  | act _ _ k ih | decl _ k ih => exact ih hc _
  | call _ k _ ih =>
    simp only [Code.wf, Bool.and_eq_true] at hc
    exact ih hc.2 _
  | defer f k ihf ihk =>
    simp only [Code.wf, Bool.and_eq_true] at hc
    simp [denote, ihf hc.1, ihk hc.2]
  | deferFifo => simp [Code.wf] at hc
  | block c k ihc ihk =>
    simp only [Code.wf, Bool.and_eq_true] at hc
    simp only [denote]
    split_ifs <;> simp [ihc hc.1, ihk hc.2]

/-! ### Lifetimes -/

/-- Every local the code reads is in scope where it is read: declared before it, in its scope
or an enclosing one. A lambda sees the scope it is written in; a called function sees none of
its caller's locals. C++ name lookup rejects any other code. -/
def Code.scoped (vis : List Var) : Code → Bool
  | .done => true
  | .act _ xs k => xs.all (· ∈ vis) && k.scoped vis
  | .decl x k => k.scoped (x :: vis)
  | .defer f k | .block f k | .deferFifo f k => f.scoped vis && k.scoped vis
  | .useFifo k => k.scoped vis
  | .call c k => c.scoped [] && k.scoped vis
  | .ret _ => true

def Code.noDeferFifo : Code → Bool
  | .done | .ret _ => true
  | .act _ _ k | .decl _ k | .useFifo k => k.noDeferFifo
  | .defer f k | .block f k | .call f k => f.noDeferFifo && k.noDeferFifo
  | .deferFifo _ _ => false

/-- Scoped code whose `defer_fifo` lambdas read, besides their own locals, only locals in scope
where their `use_defer_fifo()` stands (`fvis`). -/
def Code.safe (vis fvis : List Var) : Code → Bool
  | .done => true
  | .act _ xs k => xs.all (· ∈ vis) && k.safe vis fvis
  | .decl x k => k.safe (x :: vis) fvis
  | .defer f k | .block f k => f.safe vis fvis && k.safe vis fvis
  | .useFifo k => k.safe vis vis
  | .deferFifo f k => f.safe fvis [] && k.safe vis fvis
  | .call c k => c.safe [] [] && k.safe vis fvis
  | .ret _ => true

/-- Without `defer_fifo`, name lookup is all it takes: a `defer` lambda is written where what
it reads is in scope, and it runs before that scope ends. -/
lemma Code.safe_of_scoped {c : Code} {vis fvis : List Var} (hn : c.noDeferFifo)
    (hs : c.scoped vis) : c.safe vis fvis := by
  induction c generalizing vis fvis with
  | done | ret => rfl
  | act _ _ k ih =>
    simp only [Code.scoped, Bool.and_eq_true] at hs
    simpa [Code.safe, hs.1] using ih hn hs.2
  | decl _ k ih | useFifo k ih => exact ih hn hs
  | defer f k ihf ihk | block f k ihf ihk =>
    simp only [Code.scoped, Code.noDeferFifo, Bool.and_eq_true] at hs hn
    simp [Code.safe, ihf hn.1 hs.1, ihk hn.2 hs.2]
  | call f k ihf ihk =>
    simp only [Code.scoped, Code.noDeferFifo, Bool.and_eq_true] at hs hn
    simp [Code.safe, ihf hn.1 hs.1, ihk hn.2 hs.2]
  | deferFifo => cases hn

def Clean (es : List Event) : Prop := ∀ x, Event.dangling x ∉ es

lemma Clean.append {es es' : List Event} (h : Clean es) (h' : Clean es') : Clean (es ++ es') :=
  fun x hx => (List.mem_append.1 hx).elim (h x) (h' x)

lemma dead_eq_nil {live xs : List Var} (h : ∀ x ∈ xs, x ∈ live) : dead live xs = [] := by
  simp only [dead, List.map_eq_nil_iff, List.filter_eq_nil_iff, decide_eq_true_eq, not_not]
  exact h

/-- **Safe code reads no dead local.** In code whose reads are in scope and whose `defer_fifo`
lambdas read only locals declared before their `use_defer_fifo()`, run where what is in scope
is alive, no read, in the code or in any lambda it defers, is of a local whose lifetime has
ended. -/
theorem denote_clean {c : Code} {vis fvis live : List Var} {fl : Option (List Var)}
    (hc : c.safe vis fvis) (hv : ∀ x ∈ vis, x ∈ live) (hf : ∀ l, fl = some l → ∀ x ∈ fvis, x ∈ l) :
    Clean (denote live fl c).events ∧ ∀ e ∈ (denote live fl c).regs, Clean e := by
  induction c generalizing vis fvis live fl with
  | done => exact ⟨fun _ => List.not_mem_nil _, fun _ h => (List.not_mem_nil _ h).elim⟩
  | act n xs k ih =>
    simp only [Code.safe, Bool.and_eq_true, List.all_eq_true, decide_eq_true_eq] at hc
    obtain ⟨hk, hr⟩ := ih hc.2 hv hf
    refine ⟨?_, hr⟩
    rw [denote, dead_eq_nil fun x hx => hv x (hc.1 x hx)]
    rintro x (_ | ⟨_, hx⟩)
    exact hk x hx
  | decl x k ih =>
    exact ih hc (fun y hy => (List.mem_cons.1 hy).elim (fun h => h ▸ List.mem_cons_self _ _)
      fun h => List.mem_cons_of_mem _ (hv y h)) hf
  | defer f k ihf ihk =>
    simp only [Code.safe, Bool.and_eq_true] at hc
    obtain ⟨hk, hkr⟩ := ihk hc.2 hv hf
    obtain ⟨hf', hfr⟩ := ihf hc.1 hv hf
    exact ⟨hk.append hf', fun e he => (List.mem_append.1 he).elim (hkr e) (hfr e)⟩
  | useFifo k ih =>
    obtain ⟨hk, hkr⟩ := @ih vis vis live (some live) hc hv fun l hl => (Option.some.inj hl) ▸ hv
    refine ⟨hk.append fun x hx => ?_, fun _ h => (List.not_mem_nil _ h).elim⟩
    obtain ⟨e, he, hx⟩ := List.mem_flatten.1 hx
    exact hkr e he x hx
  | deferFifo f k ihf ihk =>
    simp only [Code.safe, Bool.and_eq_true] at hc
    obtain ⟨hk, hkr⟩ := ihk hc.2 hv hf
    cases fl with
    | none => exact ⟨hk, hkr⟩
    | some l =>
      obtain ⟨hf', -⟩ := @ihf fvis [] l none hc.1 (hf l rfl) (fun _ h => nomatch h)
      exact ⟨hk, fun e he => (List.mem_cons.1 he).elim (· ▸ hf') (hkr e)⟩
  | block c k ihc ihk =>
    simp only [Code.safe, Bool.and_eq_true] at hc
    obtain ⟨hc', hcr⟩ := ihc hc.1 hv hf
    simp only [denote]
    split_ifs
    · exact ⟨hc', hcr⟩
    · obtain ⟨hk, hkr⟩ := ihk hc.2 hv hf
      exact ⟨hc'.append hk, fun e he => (List.mem_append.1 he).elim (hcr e) (hkr e)⟩
  | call c k ihc ihk =>
    simp only [Code.safe, Bool.and_eq_true] at hc
    obtain ⟨hk, hkr⟩ := ihk hc.2 hv hf
    obtain ⟨hc', -⟩ := @ihc [] [] live none hc.1 (fun _ h => (List.not_mem_nil _ h).elim)
      (fun _ h => nomatch h)
    exact ⟨hc'.append hk, hkr⟩
  | ret => exact ⟨fun _ => List.not_mem_nil _, fun _ h => (List.not_mem_nil _ h).elim⟩

end PublicComponent.Defer
