import Mathlib.Logic.Function.Basic

/-!
The callables `Modify` runs, and what one `Modify` does to `_data` and `_index` when no
other writer runs.

`fn(T& bg, ...)` mutates the instance it is handed and returns a `size_t`. A callable here
is a function of the slot it is handed, named by its index `bg` into `_data`, and of `_data`
itself, since `WithFG0` reads the other slot through the pointer it keeps; it returns the
slot's new value and the result. `_index` only ever holds `0` or `1`, so it is a `Bool`
(`true` is `1`), and `_data` is a function of it.
-/

namespace PublicComponent.Dbd

/-- A callable `Modify` calls as `fn(_data[bg])`. -/
abbrev Fn (T : Type) := Bool → (Bool → T) → T × Nat

variable {T α β : Type}

/-- A user function of the instance alone, as `Modify(fn)` calls it. -/
def slotFn (f : T → T × Nat) : Fn T := fun bg data => f (data bg)

def closure1 (fn : T → α → T × Nat) (arg1 : α) : Fn T := slotFn fun x => fn x arg1

def closure2 (fn : T → α → β → T × Nat) (arg1 : α) (arg2 : β) : Fn T :=
  slotFn fun x => fn x arg1 arg2

/-- `WithFG0(fn, _data)`: `_fn(bg, _data[&bg == _data])`. `&bg == _data` holds when `bg` is
`_data[0]`, so the second argument is the slot `bg` is not. -/
def withFG0 (fn : T → T → T × Nat) : Fn T := fun bg data => fn (data bg) (data (bg == false))

def withFG1 (fn : T → T → α → T × Nat) (arg1 : α) : Fn T := withFG0 fun x y => fn x y arg1

def withFG2 (fn : T → T → α → β → T × Nat) (arg1 : α) (arg2 : β) : Fn T :=
  withFG0 fun x y => fn x y arg1 arg2

@[simp] lemma slotFn_apply (f : T → T × Nat) (bg : Bool) (data : Bool → T) :
    slotFn f bg data = f (data bg) := rfl

@[simp] lemma withFG0_apply (fn : T → T → T × Nat) (bg : Bool) (data : Bool → T) :
    withFG0 fn bg data = fn (data bg) (data (!bg)) := by
  cases bg <;> rfl

@[simp] lemma update_not_apply (data : Bool → T) (b : Bool) (x : T) :
    Function.update data (!b) x b = data b :=
  Function.update_noteq (by cases b <;> decide) x data

/-- `Modify(fn)` run alone on `_data` and `_index`: the two instances, the index, and the
value returned. The first call writes the background `!_index`; a nonzero result publishes
it, and the second call writes the old foreground. -/
def modify (fn : Fn T) (data : Bool → T) (index : Bool) : (Bool → T) × Bool × Nat :=
  let r := fn (!index) data
  let data := Function.update data (!index) r.1
  if r.2 = 0 then (data, index, 0)
  else
    let r2 := fn index data
    (Function.update data index r2.1, !index, r2.2)

/-- A callable that is a deterministic function of the instance and returns `0` only when
it leaves the instance as it was. -/
def Admissible (fn : Fn T) : Prop :=
  ∃ f : T → T × Nat, fn = slotFn f ∧ ∀ x, (f x).2 = 0 → (f x).1 = x

/-- `Modify` with an admissible callable, from two equal instances `x`: a zero first result
changes nothing and returns `0`; otherwise both instances become `(f x).1`, the index flips,
and the result of the second call is that of the first. -/
theorem modify_admissible (f : T → T × Nat) (hf : ∀ x, (f x).2 = 0 → (f x).1 = x) (x : T)
    (index : Bool) :
    modify (slotFn f) (fun _ => x) index =
      if (f x).2 = 0 then ((fun _ => x), index, 0) else ((fun _ => (f x).1), !index, (f x).2) := by
  by_cases h : (f x).2 = 0
  · simp only [modify, slotFn_apply, h, if_true, hf x h]
    rw [Function.update_eq_self_iff.mpr rfl]
  · simp only [modify, slotFn_apply, h, if_false, update_not_apply, Prod.mk.injEq, and_true]
    funext b
    cases b <;> cases index <;> rfl

/-- **`ModifyWithForeground` from equal instances.** With both instances `x` and a nonzero
first result, the new foreground is `fn(x, x)` and the new background `fn(x, fn(x, x))`:
the second call sees the freshly published foreground as its other slot. -/
theorem modify_withFG0 (g : T → T → T × Nat) (x : T) (index : Bool) (h : (g x x).2 ≠ 0) :
    modify (withFG0 g) (fun _ => x) index =
      (fun b => if b = !index then (g x x).1 else (g x (g x x).1).1, !index,
        (g x (g x x).1).2) := by
  simp only [modify, withFG0_apply, Bool.not_not, h, if_false, Function.update_same,
    update_not_apply, Prod.mk.injEq, and_true, true_and]
  funext b
  cases b <;> cases index <;> rfl

end PublicComponent.Dbd
