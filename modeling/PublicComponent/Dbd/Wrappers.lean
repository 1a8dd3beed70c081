import Mathlib.Data.List.Perm.Basic
import Mathlib.Data.List.Nodup

/-!
`DoublyBufferedData::RemoveWrapper`, on the vector `_wrappers` of registered readers.

The loop looks for the first `_wrappers[i] == w`, overwrites it with `back()` and pops the
last element. On a vector holding `w` the result is a permutation of the vector with that
`w` erased, whatever its position; the last position, where `w` is overwritten with
itself, is the case the swap makes special and the proof handles with the others.

A `Wrapper*` is its address, a natural number; `0` is `NULL`.
-/

namespace PublicComponent.Dbd

/-- The `for` loop of `RemoveWrapper` over `_wrappers`, from index `i`, `rest` being the
elements `_wrappers[i..]` still to visit. -/
def removeLoop (ws : List Nat) (w : Nat) : List Nat → Nat → List Nat
  | [], _ => ws
  | x :: rest, i =>
    if x = w then (ws.set i (ws.getLastD w)).dropLast else removeLoop ws w rest (i + 1)

/-- `DoublyBufferedData::RemoveWrapper(w)` applied to `_wrappers`. -/
def removeWrapper (ws : List Nat) (w : Nat) : List Nat :=
  if w = 0 then ws else removeLoop ws w ws 0

/-- Overwriting `w` with the last element and popping is erasing `w`, up to order. -/
lemma swap_pop_perm (pre rest : List Nat) (w : Nat) :
    ((pre ++ w :: rest).set pre.length ((pre ++ w :: rest).getLastD w)).dropLast.Perm
      (pre ++ rest) := by
  rcases rest.eq_nil_or_concat with rfl | ⟨rest, z, rfl⟩
  · -- `w` is the last element: it is overwritten with itself, then popped
    simp [List.set_append, List.getLastD_eq_getLast?]
  · rw [List.concat_eq_append]
    have hz : (pre ++ w :: (rest ++ [z])).getLastD w = z := by
      rw [← List.cons_append, ← List.append_assoc, List.getLastD_concat]
    rw [hz, List.set_append]
    simp only [lt_self_iff_false, if_false, Nat.sub_self, List.set_cons_zero]
    rw [← List.cons_append, ← List.append_assoc, List.dropLast_concat]
    exact (List.perm_append_comm : ([z] ++ rest).Perm (rest ++ [z])).append_left pre

lemma removeLoop_of_not_mem (ws : List Nat) (w : Nat) :
    ∀ rest i, w ∉ rest → removeLoop ws w rest i = ws
  | [], _, _ => rfl
  | x :: rest, i, h => by
    rw [List.mem_cons, not_or] at h
    simp [removeLoop, Ne.symm h.1, removeLoop_of_not_mem ws w rest (i + 1) h.2]

lemma removeLoop_perm (ws : List Nat) (w : Nat) :
    ∀ rest pre, ws = pre ++ rest → w ∉ pre → (removeLoop ws w rest pre.length).Perm (ws.erase w)
  | [], pre, h, hw => by
    subst h
    simp [removeLoop, List.erase_of_not_mem hw]
  | x :: rest, pre, h, hw => by
    unfold removeLoop
    split_ifs with hx
    · subst h hx
      rw [List.erase_append_right _ hw, List.erase_cons_head]
      exact swap_pop_perm pre rest x
    · have := removeLoop_perm ws w rest (pre ++ [x]) (by simp [h]) (by simp [hw, Ne.symm hx])
      simpa using this

/-- `RemoveWrapper` of a non-null `w` leaves `_wrappers` with `w` erased, up to order. -/
lemma removeWrapper_perm {ws : List Nat} {w : Nat} (hw : w ≠ 0) :
    (removeWrapper ws w).Perm (ws.erase w) := by
  simpa [removeWrapper, hw] using removeLoop_perm ws w ws [] rfl (List.not_mem_nil w)

lemma removeWrapper_of_not_mem {ws : List Nat} {w : Nat} (h : w ∉ ws) :
    removeWrapper ws w = ws := by
  unfold removeWrapper
  split_ifs
  · rfl
  · exact removeLoop_of_not_mem ws w ws 0 h

lemma removeWrapper_nodup {ws : List Nat} {w : Nat} (hw : w ≠ 0) (hnd : ws.Nodup) :
    (removeWrapper ws w).Nodup :=
  (removeWrapper_perm hw).nodup_iff.mpr (hnd.erase w)

lemma mem_removeWrapper {ws : List Nat} {w x : Nat} (hw : w ≠ 0) (hnd : ws.Nodup) :
    x ∈ removeWrapper ws w ↔ x ∈ ws ∧ x ≠ w := by
  rw [(removeWrapper_perm hw).mem_iff, hnd.mem_erase_iff, and_comm]

/-- **`RemoveWrapper` removes exactly `w`.** On a vector with no pointer twice and a non-null
`w`, the result has no pointer twice and holds the old elements but `w`, wherever `w` was;
when `w` is absent the vector is unchanged. -/
theorem removeWrapper_spec (ws : List Nat) (w : Nat) (hnd : ws.Nodup) (hw : w ≠ 0) :
    (removeWrapper ws w).Nodup ∧ (∀ x, x ∈ removeWrapper ws w ↔ x ∈ ws ∧ x ≠ w) ∧
      (w ∉ ws → removeWrapper ws w = ws) :=
  ⟨removeWrapper_nodup hw hnd, fun _ => mem_removeWrapper hw hnd,
    removeWrapper_of_not_mem⟩

/-- Removing the last of three registrations: it is overwritten with itself, then popped. -/
theorem removeWrapper_spec_one :
    [3, 5, 7].Nodup ∧ 7 ≠ 0 ∧ removeWrapper [3, 5, 7] 7 = [3, 5] ∧
      ((removeWrapper [3, 5, 7] 7).Nodup ∧
        (∀ x, x ∈ removeWrapper [3, 5, 7] 7 ↔ x ∈ [3, 5, 7] ∧ x ≠ 7) ∧
        (7 ∉ [3, 5, 7] → removeWrapper [3, 5, 7] 7 = [3, 5, 7])) :=
  ⟨by decide, by decide, by decide, removeWrapper_spec [3, 5, 7] 7 (by decide) (by decide)⟩

end PublicComponent.Dbd
