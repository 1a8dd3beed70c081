import Mathlib.Data.List.Basic

/-!
`defer.cpp`: what its macros expand into, run as C++ runs it.

`defer(func)` declares a `DeferHelper` holding the lambda `[&](){func;}`, which its destructor
calls. `use_defer_fifo()` declares a `DeferHelperFifo` named `DEFER_FIFO`, `defer_fifo(func)`
appends a lambda to its `m_funcs`, and its destructor calls them in order. The rest is C++'s
rule for automatic objects: when a scope is left, by its end or by `return`, the objects
constructed in it are destroyed in the reverse order of their construction.

The machine runs a stack of scopes, each with the code it still has to run and its objects,
the last constructed first. The lambdas capture by reference, so a local they read must still
be alive when they run; the machine shows each read of a local whose lifetime has ended.
-/

namespace PublicComponent.Defer

abbrev Var := Nat

/-- The statements of a scope, first to last, each followed by the rest: an expression
statement such as `fprintf(stdout, "defer_test 1\n")`, which reads the locals `reads` and
prints `out`; a local variable definition; `defer(func)`, that is
`DeferHelper L__LINE__ ([&](){func;});`; `use_defer_fifo()`, that is
`DeferHelperFifo DEFER_FIFO;`; `defer_fifo(func)`, that is `DEFER_FIFO.add_func([&](){func;});`;
a nested scope `{ body }`; a call of a function whose body is `body`; and `return;`. -/
inductive Code
  | done
  | act (out : Nat) (reads : List Var) (k : Code)
  | decl (x : Var) (k : Code)
  | defer (func : Code) (k : Code)
  | useFifo (k : Code)
  | deferFifo (func : Code) (k : Code)
  | block (body : Code) (k : Code)
  | call (body : Code) (k : Code)
  | ret (k : Code)
  deriving DecidableEq, Repr

/-- An automatic object: a local, a `DeferHelper` and its `m_func`, or a `DeferHelperFifo` and
its `m_funcs`. -/
inductive Obj
  | var (x : Var)
  | helper (func : Code)
  | fifo (funcs : List Code)
  deriving DecidableEq, Repr

/-- A scope being run or left: its objects, the last constructed first, and whether it is the
body of a function or of a lambda, the scope that `return` leaves. -/
structure Frame where
  code : Code
  objs : List Obj
  body : Bool
  deriving DecidableEq, Repr

/-- What a run shows: a line printed, or a read of a local after its lifetime ended. -/
inductive Event
  | out (n : Nat)
  | dangling (x : Var)
  deriving DecidableEq, Repr

def Obj.isVar (x : Var) : Obj → Bool
  | .var y => x == y
  | _ => false

def aliveIn (oss : List (List Obj)) (x : Var) : Bool := oss.any fun os => os.any (Obj.isVar x)

def readAll (K : List Frame) (xs : List Var) : List Event :=
  (xs.filter fun x => !aliveIn (K.map Frame.objs) x).map .dangling

def addFuncObjs (f : Code) : List Obj → Option (List Obj)
  | [] => none
  | .fifo fs :: os => some (.fifo (fs ++ [f]) :: os)
  | o :: os => (addFuncObjs f os).map (o :: ·)

/-- `DEFER_FIFO.add_func(func)`: the name is the `DeferHelperFifo` of the innermost scope that
has one. -/
def addFunc (f : Code) : List Frame → Option (List Frame)
  | [] => none
  | F :: K => match addFuncObjs f F.objs with
    | some os => some ({ F with objs := os } :: K)
    | none => (addFunc f K).map (F :: ·)

def leave : List Frame → List Frame
  | [] => []
  | F :: K => { F with code := .done } :: if F.body then K else leave K

/-- One step of the stack: `none` once it is empty, or when `defer_fifo` names no
`DEFER_FIFO` (the code would not compile). -/
def step : List Frame → Option (List Frame × List Event)
  | [] => none
  | ⟨.act n xs k, os, b⟩ :: K => some (⟨k, os, b⟩ :: K, readAll (⟨k, os, b⟩ :: K) xs ++ [.out n])
  | ⟨.decl x k, os, b⟩ :: K => some (⟨k, .var x :: os, b⟩ :: K, [])
  | ⟨.defer f k, os, b⟩ :: K => some (⟨k, .helper f :: os, b⟩ :: K, [])
  | ⟨.useFifo k, os, b⟩ :: K => some (⟨k, .fifo [] :: os, b⟩ :: K, [])
  | ⟨.deferFifo f k, os, b⟩ :: K => (addFunc f (⟨k, os, b⟩ :: K)).map (·, [])
  | ⟨.block c k, os, b⟩ :: K => some (⟨c, [], false⟩ :: ⟨k, os, b⟩ :: K, [])
  | ⟨.call c k, os, b⟩ :: K => some (⟨c, [], true⟩ :: ⟨k, os, b⟩ :: K, [])
  | ⟨.ret _, os, b⟩ :: K => some (leave (⟨.done, os, b⟩ :: K), [])
  -- the scope is left: `~DeferHelper` calls `m_func`, `~DeferHelperFifo` calls `m_funcs` in
  -- order, each call a lambda body of its own
  | ⟨.done, [], _⟩ :: K => some (K, [])
  | ⟨.done, .var _ :: os, b⟩ :: K => some (⟨.done, os, b⟩ :: K, [])
  | ⟨.done, .helper f :: os, b⟩ :: K => some (⟨f, [], true⟩ :: ⟨.done, os, b⟩ :: K, [])
  | ⟨.done, .fifo [] :: os, b⟩ :: K => some (⟨.done, os, b⟩ :: K, [])
  | ⟨.done, .fifo (f :: fs) :: os, b⟩ :: K =>
    some (⟨f, [], true⟩ :: ⟨.done, .fifo fs :: os, b⟩ :: K, [])

inductive Steps : List Frame → List Event → List Frame → Prop
  | refl (K : List Frame) : Steps K [] K
  | step {K K₁ K₂ : List Frame} {e tr : List Event} :
      step K = some (K₁, e) → Steps K₁ tr K₂ → Steps K (e ++ tr) K₂

/-- The run of `K` in at most `n` steps: `none` if they do not suffice or the run is stuck. -/
def run : Nat → List Frame → Option (List Event)
  | _, [] => some []
  | 0, _ :: _ => none
  | n + 1, F :: K => (step (F :: K)).bind fun r => (run n r.1).map (r.2 ++ ·)

def deferTest : Code :=
  .defer (.act 4 [] .done) <| .defer (.act 3 [] .done) <| .act 1 [] <|
    .defer (.act 2 [] .done) <| .ret .done

def deferTestFifo : Code :=
  .useFifo <| .deferFifo (.act 2 [] .done) <| .deferFifo (.act 3 [] .done) <| .act 1 [] <|
    .deferFifo (.act 4 [] .done) <| .ret .done

/-- `main()`; the line of dashes is `0`. -/
def main : Code := .call deferTest <| .act 0 [] <| .call deferTestFifo <| .ret .done

/-! ### Runs -/

lemma Steps.cons {K K₁ K₂ : List Frame} {e tr tr' : List Event} (h : Defer.step K = some (K₁, e))
    (hs : Steps K₁ tr K₂) (ht : tr' = e ++ tr) : Steps K tr' K₂ :=
  ht ▸ .step h hs

lemma Steps.single {K K₁ : List Frame} {e : List Event} (h : Defer.step K = some (K₁, e)) :
    Steps K e K₁ := by
  simpa using Steps.step h (.refl K₁)

lemma Steps.trans {K K₁ K₂ : List Frame} {tr tr' : List Event} (h : Steps K tr K₁)
    (h' : Steps K₁ tr' K₂) : Steps K (tr ++ tr') K₂ := by
  induction h with
  | refl => exact h'
  | step hs _ ih => rw [List.append_assoc]; exact .step hs (ih h')

/-- A run that ends with the stack empty is what `run` computes, given the fuel. -/
lemma Steps.run {K : List Frame} {tr : List Event} (h : Steps K tr []) :
    ∃ n, run n K = some tr := by
  generalize hE : ([] : List Frame) = E at h
  induction h with
  | refl => subst hE; exact ⟨0, rfl⟩
  | @step K K₁ _ e tr hs _ ih =>
    obtain ⟨n, hn⟩ := ih hE
    cases K with
    | nil => simp [Defer.step] at hs
    | cons F K => exact ⟨n + 1, by simp [Defer.run, hs, hn]⟩

end PublicComponent.Defer
