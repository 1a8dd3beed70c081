import PublicComponent.Dbd.Reach

/-!
Which threads wait for which, and when the waits close a cycle.

A thread is blocked when its next step takes a lock another thread holds: `_modify_mutex` at
the start of `Modify`, `_wrappers_mutex` in `AddWrapper`, `RemoveWrapper`, the drain loop and
`~DoublyBufferedData`, and a `Wrapper::_mutex` in `BeginRead` and `WaitReadDone`. A blocked
thread has no step, and a step of any other thread keeps it waiting for the same holder, so a
cycle of waits, once closed, stays closed in every later state.

A cycle needs a thread that holds a `ScopedPtr`, whose `Wrapper::_mutex` a draining writer waits
for, while it waits for a `_wrappers_mutex` or a `_modify_mutex` itself. Where writers in
`Modify` and readers registering in a first `Read` hold no `ScopedPtr`, waits go down a rank of
program counters and never close. Writers holding none is not enough: two readers, each holding
a `ScopedPtr` of one container and registering in the other while a writer drains each, close a
cycle of four threads.
-/

namespace PublicComponent.Dbd

open Function

variable {T : Type} {A : Fn T → Prop} {s s' : Sys T} {t u v x : Tid}

/-! ### Who waits for whom -/

/-- A thread at `p` is blocked taking a lock that `v` holds: `_modify_mutex`, a
`_wrappers_mutex`, or a `Wrapper::_mutex`, its own in `BeginRead` or the next one in the drain
loop. -/
def Pc.blockedOn (s : Sys T) (v : Tid) : Pc T → Prop
  | .modLock c _ => s.modifyMutex c = some v
  | .pushLock c _ | .removeLock c _ _ | .modDrainLock c _ _ _ | .dtorLock c =>
    s.wrappersMutex c = some v
  | .beginRead _ w => s.mutex w = some v
  | .modWait c _ _ _ i => ∃ w, (s.wrappers c)[i]? = some w ∧ s.mutex w = some v
  | _ => False

def Sys.WaitsFor (s : Sys T) (u v : Tid) : Prop := (s.pc u).blockedOn s v

lemma Step.not_blocked (h : Step A s t s') : ¬ s.WaitsFor t v := by
  unfold Sys.WaitsFor
  cases h
  case modLock h hm | pushLock h hm | removeLock h hm | modDrainLock h hm | dtorLock h hm
    | beginRead h hm =>
    rw [h, Pc.blockedOn, hm]; exact Option.noConfusion
  case modWaitLock h hw hm =>
    rw [h]; rintro ⟨w, hw', hm'⟩
    rw [hw, Option.some.injEq] at hw'
    rw [← hw', hm] at hm'; exact Option.noConfusion hm'
  case modWaitEnd h hi =>
    rw [h]; rintro ⟨w, hw, -⟩
    rw [List.getElem?_eq_none hi] at hw; exact Option.noConfusion hw
  all_goals rw [‹s.pc t = _›]; exact id

/-- A wait of `u` for `v` survives a step of a third thread: `u` does not move, and only `v`
releases what it holds. The drain loop's `_wrappers` cannot change under it, since the writer
holds `_wrappers_mutex`. -/
lemma Step.waitsFor_keep (hI : Inv s) (hI' : Inv s') (h : Step A s t s') (hu : u ≠ t)
    (hv : v ≠ t) (hw : s.WaitsFor u v) : s'.WaitsFor u v := by
  have hmutex : ∀ w, s.mutex w = some v → s'.mutex w = some v := fun w hm =>
    (hI'.lockMutex w v).2 ((h.holdsMutex_ne hI hv w).2 ((hI.lockMutex w v).1 hm))
  have hwrappers : ∀ c, s.wrappersMutex c = some v → s'.wrappersMutex c = some v := fun c hm =>
    (hI'.lockWrappers c v).2 (by rw [h.pc_ne hv]; exact (hI.lockWrappers c v).1 hm)
  unfold Sys.WaitsFor at hw ⊢
  rw [h.pc_ne hu]
  cases hp : s.pc u <;> rw [hp] at hw
  case modLock c _ =>
    exact (hI'.lockModify c v).2 (by rw [h.pc_ne hv]; exact (hI.lockModify c v).1 hw)
  case pushLock c _ | removeLock c _ _ | modDrainLock c _ _ _ | dtorLock c => exact hwrappers c hw
  case beginRead w => exact hmutex w hw
  case modWait c _ _ _ i =>
    obtain ⟨w, hw, hm⟩ := hw
    rw [← h.wrappers_of_holder hI hu (by simp [hp, Pc.holdsWrappers])] at hw
    exact ⟨w, hw, hmutex w hm⟩
  all_goals exact hw.elim

lemma Sys.waitsFor_of_cycle (hc : Relation.TransGen s.WaitsFor u u) : ∃ x, s.WaitsFor u x :=
  have ⟨x, hx, _⟩ := Relation.TransGen.head'_iff.1 hc
  ⟨x, hx⟩

lemma Step.waits_keep (hr : Reach A s) (h : Step A s t s')
    (hw : Relation.TransGen s.WaitsFor u v) (hv : ∃ x, s.WaitsFor v x) :
    Relation.TransGen s'.WaitsFor u v := by
  have keep : ∀ a b, s.WaitsFor a b → (∃ x, s.WaitsFor b x) → s'.WaitsFor a b :=
    fun a b hab ⟨x, hbx⟩ => h.waitsFor_keep hr.inv (hr.step h).inv
      (fun he => h.not_blocked (he ▸ hab)) (fun he => h.not_blocked (he ▸ hbx)) hab
  induction hw with
  | single hab => exact .single (keep _ _ hab hv)
  | tail _ hbc ih => exact .tail (ih ⟨_, hbc⟩) (keep _ _ hbc hv)

/-- Threads that each wait for another of them stay so along any run: none of them steps, and
a step of any other thread keeps every wait among them. -/
lemma Reach.waitsFor_keep_run {S : Tid → Prop} (hr : Reach A s)
    (hS : ∀ u, S u → ∃ v, S v ∧ s.WaitsFor u v)
    (hrun : Relation.ReflTransGen (fun s s' => ∃ t, Step A s t s') s s') :
    Reach A s' ∧ ∀ u v, S u → S v → s.WaitsFor u v → s'.WaitsFor u v := by
  induction hrun with
  | refl => exact ⟨hr, fun _ _ _ _ h => h⟩
  | tail _ hs ih =>
    obtain ⟨t, h⟩ := hs
    have ht : ∀ u, S u → u ≠ t := fun u hu he => by
      obtain ⟨v, hv, hw⟩ := hS u hu
      exact h.not_blocked (he ▸ ih.2 u v hu hv hw)
    exact ⟨ih.1.step h, fun u v hu hv hw =>
      h.waitsFor_keep ih.1.inv (ih.1.step h).inv (ht u hu) (ht v hv) (ih.2 u v hu hv hw)⟩

/-- A run that closes a cycle: threads `0` and `1` take a `ScopedPtr` of containers `0` and `1`
(through `Wrapper`s `1` and `2`); writers `2` and `3` publish on `0` and `1` and wait in their
drain loops for those readers; then each reader makes its first `Read` of the other container
and waits for the `_wrappers_mutex` that the other writer holds. -/
lemma registering_reads_run : ∃ s : Sys Nat, Reach (fun _ => True) s ∧
    s.pc 0 = .pushLock 1 3 ∧ s.pc 1 = .pushLock 0 4 ∧
    s.pc 2 = .modWait 0 (slotFn fun x => (x + 1, 1)) false 1 0 ∧
    s.pc 3 = .modWait 1 (slotFn fun x => (x + 1, 1)) false 1 0 ∧
    s.guards 0 0 = some (1, false) ∧ s.guards 1 1 = some (2, false) ∧
    (∀ u c, s.guards u c ≠ none → u = 0 ∨ u = 1) ∧
    s.WaitsFor 0 3 ∧ s.WaitsFor 3 1 ∧ s.WaitsFor 1 2 ∧ s.WaitsFor 2 0 := by
  have h1 : Reach (T := Nat) (fun _ => True) _ :=
    .step (t := 0) (.step (t := 0) (.step (t := 0) (.step (t := 0) (.step (t := 0)
      (.step (t := 0) (.step (t := 0) (.step (t := 0) (.init (fun _ => 0) fun _ => true)
      (Step.callRead (c := 0) rfl rfl rfl)) (.readMiss rfl rfl rfl)) (.newOk rfl))
      (.pushLock rfl rfl)) (.pushOk rfl)) (.setOk rfl)) (.beginRead (c := 0) (w := 1) rfl rfl))
      (.loadIndex rfl)
  have h2 := (((((((h1.step (t := 1) (Step.callRead (c := 1) rfl rfl rfl)).step (t := 1)
    (.readMiss rfl rfl rfl)).step (t := 1) (.newOk rfl)).step (t := 1)
    (.pushLock rfl rfl)).step (t := 1) (.pushOk rfl)).step (t := 1) (.setOk rfl)).step (t := 1)
    (.beginRead rfl rfl)).step (t := 1) (.loadIndex rfl)
  have h3 := (((((h2.step
    (@Step.callModify Nat (fun _ => True) _ 2 0 (slotFn fun x => (x + 1, 1)) rfl rfl trivial)).step
    (t := 2) (.modLock rfl rfl)).step (t := 2) (.modLoad rfl)).step (t := 2)
    (.modFn1 rfl (by decide))).step (t := 2) (.modStore rfl)).step (t := 2) (.modDrainLock rfl rfl)
  have h4 := (((((h3.step
    (@Step.callModify Nat (fun _ => True) _ 3 1 (slotFn fun x => (x + 1, 1)) rfl rfl trivial)).step
    (t := 3) (.modLock rfl rfl)).step (t := 3) (.modLoad rfl)).step (t := 3)
    (.modFn1 rfl (by decide))).step (t := 3) (.modStore rfl)).step (t := 3) (.modDrainLock rfl rfl)
  have h5 := (((((h4.step (t := 0) (Step.callRead (c := 1) rfl rfl rfl)).step (t := 0)
    (.readMiss rfl rfl rfl)).step (t := 0) (.newOk rfl)).step (t := 1)
    (Step.callRead (c := 0) rfl rfl rfl)).step (t := 1) (.readMiss rfl rfl rfl)).step (t := 1)
    (.newOk rfl)
  refine ⟨_, h5, rfl, rfl, rfl, rfl, rfl, rfl, fun u c hg => ?_, rfl, ⟨2, rfl, rfl⟩, rfl,
    ⟨1, rfl, rfl⟩⟩
  by_contra hu
  rw [not_or] at hu
  exact hg (by simp only [Sys.setPc, Sys.alloc, Sys.init, update_noteq hu.1, update_noteq hu.2])

/-- **A wait cycle is a deadlock.** Once threads wait for each other in a cycle, they do so in
every state any run reaches from there, and none of them ever has a step again. -/
theorem wait_cycle_permanent (hr : Reach A s) (hc : Relation.TransGen s.WaitsFor u u)
    (hrun : Relation.ReflTransGen (fun s s' => ∃ t, Step A s t s') s s') :
    Relation.TransGen s'.WaitsFor u u ∧ ∀ s'', ¬ Step A s' u s'' := by
  have hkeep : Reach A s' ∧ Relation.TransGen s'.WaitsFor u u := by
    induction hrun with
    | refl => exact ⟨hr, hc⟩
    | tail _ hs ih =>
      obtain ⟨t, h⟩ := hs
      exact ⟨ih.1.step h, h.waits_keep ih.1 ih.2 (Sys.waitsFor_of_cycle ih.2)⟩
  obtain ⟨x, hx⟩ := Sys.waitsFor_of_cycle hkeep.2
  exact ⟨hkeep.2, fun _ h => h.not_blocked hx⟩

/-- The cycle of `registering_reads_run` is a deadlock. -/
theorem wait_cycle_permanent_registering : ∃ s : Sys Nat, Reach (fun _ => True) s ∧
    Relation.TransGen s.WaitsFor 0 0 ∧
    (Relation.TransGen s.WaitsFor 0 0 ∧ ∀ s'', ¬ Step (fun _ => True) s 0 s'') := by
  obtain ⟨s, hr, -, -, -, -, -, -, -, h03, h31, h12, h20⟩ := registering_reads_run
  have hc : Relation.TransGen s.WaitsFor 0 0 := .tail (.tail (.tail (.single h03) h31) h12) h20
  exact ⟨s, hr, hc, wait_cycle_permanent hr hc .refl⟩

/-! ### Ranks -/

def Pc.inModify : Pc T → Prop
  | .modLock _ _ | .modLoad _ _ | .modFn1 _ _ _ | .modStore _ _ _ _ | .modDrainLock _ _ _ _
  | .modWait _ _ _ _ _ | .modWaitDone _ _ _ _ _ | .modFn2 _ _ _ _ | .modReturn _ _ _ => True
  | _ => False

/-- The thread is registering in its first `Read` of a container: in `AddWrapper`, before
`pthread_setspecific`, or in the `~Wrapper` of a failed `push_back`. -/
def Pc.registering : Pc T → Prop
  | .addWrapper _ | .pushLock _ _ | .pushBack _ _ | .setSpecific _ _ => True
  | .wrapperDtor _ (.readFail _) | .removeLock _ _ (.readFail _)
  | .removeScan _ _ (.readFail _) => True
  | _ => False

def WritersUnguarded (s : Sys T) : Prop := ∀ u c, (s.pc u).inModify → s.guards u c = none

/-- Writers call `Modify`, and readers make a first `Read` of a container, holding no
`ScopedPtr`. -/
def Disciplined (s : Sys T) : Prop :=
  WritersUnguarded s ∧ ∀ u c, (s.pc u).registering → s.guards u c = none

lemma Disciplined.of_idle (h : ∀ u c, s.guards u c ≠ none → s.pc u = .idle) : Disciplined s := by
  refine ⟨fun u c hm => ?_, fun u c hm => ?_⟩ <;> by_contra hg <;> rw [h u c hg] at hm <;> exact hm

/-- How many waits a blocked thread may still be from the end of a chain: a `BeginRead` waits
only for a writer inside `WaitReadDone`, the drain loop for a reader, and the locks that a
drain loop holds for it. -/
def Pc.rank : Pc T → Nat
  | .beginRead _ _ | .modDrainLock _ _ _ _ | .dtorLock _ => 1
  | .modWait _ _ _ _ _ => 2
  | _ => 3

lemma Pc.rank_of_holdsModify {p : Pc T} {c : Cid} (hm : p.holdsModify c)
    (hb : p.blockedOn s x) : p.rank ≤ 2 := by
  cases p <;> first | exact hm.elim | exact hb.elim | exact Nat.le_of_ble_eq_true rfl

lemma Inv.modWait_of_wrappers (hI : Inv s) {c : Cid} (hw : (s.pc v).holdsWrappers c)
    (hb : (s.pc v).blockedOn s x) : ∃ fn bg r i, s.pc v = .modWait c fn bg r i := by
  have hd := hI.dtorAt v
  cases hp : s.pc v <;> rw [hp] at hw hb hd
  case modWait c' _ _ _ _ => exact ⟨_, _, _, _, by rw [show c' = c from hw]⟩
  case removeLock k => cases k <;> first | exact hw.elim | exact hd.elim
  all_goals first | exact hw.elim | exact hb.elim

lemma HoldsMutex.guard {w : Nat} (hm : HoldsMutex s v w) (hb : (s.pc v).blockedOn s x) :
    ∃ c j, s.guards v c = some (w, j) := by
  refine hm.resolve_left fun hl => ?_
  cases hp : s.pc v <;> rw [hp] at hl hb <;> first | exact hl.elim | exact hb.elim

lemma Inv.rank_of_guard (hI : Inv s) (hD : Disciplined s) {c : Cid} {g : Nat × Bool}
    (hg : s.guards v c = some g) (hb : (s.pc v).blockedOn s x) : (s.pc v).rank ≤ 1 := by
  have free : (s.pc v).inModify ∨ (s.pc v).registering → False := fun h => by
    rw [h.elim (hD.1 v c) (hD.2 v c)] at hg; exact Option.noConfusion hg
  have hd := hI.dtorAt v
  have hx := hI.exitGuard v c
  cases hp : s.pc v <;> rw [hp] at hb hd hx free
  case removeLock k =>
    cases k
    case readFail => exact (free (.inr trivial)).elim
    case exit => rw [hx trivial] at hg; exact Option.noConfusion hg
    case dtor => exact hd.elim
  case modLock | modWait | pushLock => exact (free (by simp [Pc.inModify, Pc.registering])).elim
  all_goals first | exact hb.elim | exact Nat.le_of_ble_eq_true rfl

lemma Inv.rank_lt (hI : Inv s) (hD : Disciplined s) (huv : s.WaitsFor u v)
    (hvx : s.WaitsFor v x) : (s.pc v).rank < (s.pc u).rank := by
  unfold Sys.WaitsFor at huv hvx
  cases hp : s.pc u <;> rw [hp] at huv
  case modLock c _ =>
    exact Nat.lt_succ_of_le (Pc.rank_of_holdsModify ((hI.lockModify c v).1 huv) hvx)
  case pushLock c _ | removeLock c _ _ =>
    obtain ⟨_, _, _, _, hv⟩ := hI.modWait_of_wrappers ((hI.lockWrappers c v).1 huv) hvx
    rw [hv]; exact Nat.le_of_ble_eq_true rfl
  case modDrainLock c _ _ _ =>
    -- the drain loop holding `_wrappers_mutex` holds `_modify_mutex` too: it is `u` itself
    obtain ⟨_, _, _, _, hv⟩ := hI.modWait_of_wrappers ((hI.lockWrappers c v).1 huv) hvx
    obtain rfl := hI.modify_unique (c := c) (u := u) (v := v) (by simp [hp, Pc.holdsModify])
      (by simp [hv, Pc.holdsModify])
    rw [hp] at hv; cases hv
  case dtorLock c =>
    -- no thread works on a container under destruction but its destructor
    obtain ⟨_, _, _, _, hv⟩ := hI.modWait_of_wrappers ((hI.lockWrappers c v).1 huv) hvx
    obtain rfl := hI.dtorAlone c u v (by simp [hp, Pc.dtorOf]) (by simp [hv, Pc.cid])
    rw [hp] at hv; cases hv
  case beginRead c w =>
    -- the `Wrapper` a reader locks is its own, and it holds no `ScopedPtr` of `c`
    obtain ⟨c', j, hg⟩ := HoldsMutex.guard ((hI.lockMutex w v).1 huv) hvx
    have hr := hI.readerTls u c w (.inl hp)
    have h0 : s.tls u c ≠ 0 := by rw [hr.1]; exact (hI.regBound c w hr.2).1.ne'
    obtain ⟨rfl, rfl⟩ := hI.tlsUnique u v c c' h0 (hr.1.trans (hI.guardTls v c' w j hg).1.symm)
    rw [hI.readingGuard u c (by simp [hp, Pc.reading])] at hg
    exact Option.noConfusion hg
  case modWait c _ _ _ i =>
    obtain ⟨w, -, hm⟩ := huv
    obtain ⟨c', j, hg⟩ := HoldsMutex.guard ((hI.lockMutex w v).1 hm) hvx
    exact Nat.lt_succ_of_le (hI.rank_of_guard hD hg hvx)
  all_goals exact huv.elim

lemma Inv.rank_lt_of_waits (hI : Inv s) (hD : Disciplined s)
    (h : Relation.TransGen s.WaitsFor u v) : ∀ x, s.WaitsFor v x → (s.pc v).rank < (s.pc u).rank := by
  induction h with
  | single huv => exact fun _ hvx => hI.rank_lt hD huv hvx
  | tail _ hbv ih => exact fun _ hvx => (hI.rank_lt hD hbv hvx).trans (ih _ hbv)

/-- **No wait cycle.** In every reachable state in which writers in `Modify` and readers
registering in a first `Read` hold no `ScopedPtr`, no thread waits for itself through a chain of
waits. -/
theorem no_wait_cycle (hr : Reach A s) (hD : Disciplined s) (u : Tid) :
    ¬ Relation.TransGen s.WaitsFor u u := fun h =>
  have ⟨x, hx⟩ := Sys.waitsFor_of_cycle h
  lt_irrefl _ (hr.inv.rank_lt_of_waits hD h x hx)

/-- A writer draining container `0` waits for a reader holding a `ScopedPtr` of it, while no
writer or registering reader holds one. -/
lemma draining_run : ∃ s : Sys Nat, Reach (fun _ => True) s ∧ Disciplined s ∧
    s.pc 2 = .modWait 0 (slotFn fun x => (x + 1, 1)) false 1 0 ∧ s.WaitsFor 2 0 := by
  have h1 : Reach (T := Nat) (fun _ => True) _ :=
    .step (t := 0) (.step (t := 0) (.step (t := 0) (.step (t := 0) (.step (t := 0)
      (.step (t := 0) (.step (t := 0) (.step (t := 0) (.init (fun _ => 0) fun _ => true)
      (Step.callRead (c := 0) rfl rfl rfl)) (.readMiss rfl rfl rfl)) (.newOk rfl))
      (.pushLock rfl rfl)) (.pushOk rfl)) (.setOk rfl)) (.beginRead (c := 0) (w := 1) rfl rfl))
      (.loadIndex rfl)
  have hr := (((((h1.step
    (@Step.callModify Nat (fun _ => True) _ 2 0 (slotFn fun x => (x + 1, 1)) rfl rfl trivial)).step
    (t := 2) (.modLock rfl rfl)).step (t := 2) (.modLoad rfl)).step (t := 2)
    (.modFn1 rfl (by decide))).step (t := 2) (.modStore rfl)).step (t := 2) (.modDrainLock rfl rfl)
  refine ⟨_, hr, Disciplined.of_idle fun u c hg => ?_, rfl, ⟨1, rfl, rfl⟩⟩
  -- only thread `0` holds a `ScopedPtr`, and it is idle
  by_cases hu : u = 0
  · rw [hu]; rfl
  · exact (hg (by simp only [Sys.setPc, Sys.alloc, Sys.init, update_noteq hu])).elim

/-- No cycle where a writer drains container `0` and waits for its reader. -/
theorem no_wait_cycle_draining : ∃ s : Sys Nat, Reach (fun _ => True) s ∧ Disciplined s ∧
    s.WaitsFor 2 0 ∧ ∀ u, ¬ Relation.TransGen s.WaitsFor u u := by
  obtain ⟨s, hr, hD, -, hw⟩ := draining_run
  exact ⟨s, hr, hD, hw, no_wait_cycle hr hD⟩

/-- Writers that hold no `ScopedPtr` do not rule out a deadlock: two readers, each holding a
`ScopedPtr` of one container while making its first `Read` of the other, and two writers
draining the two containers wait for each other in a cycle of four threads, and along every
run from there the cycle stays and none of the four takes a step. -/
theorem registering_reads_deadlock :
    ∃ s : Sys Nat, Reach (fun _ => True) s ∧ WritersUnguarded s ∧
      s.guards 0 0 = some (1, false) ∧ s.pc 0 = .pushLock 1 3 ∧
      s.guards 1 1 = some (2, false) ∧ s.pc 1 = .pushLock 0 4 ∧
      (s.pc 2).inModify ∧ (s.pc 3).inModify ∧
      ∀ s', Relation.ReflTransGen (fun s s' => ∃ t, Step (fun _ => True) s t s') s s' →
        Relation.TransGen s'.WaitsFor 0 0 ∧
        ∀ t ∈ [0, 1, 2, 3], ∀ s'', ¬ Step (fun _ => True) s' t s'' := by
  obtain ⟨s, hr, hp0, hp1, hp2, hp3, hg0, hg1, hg, h03, h31, h12, h20⟩ := registering_reads_run
  have hS : ∀ u ∈ [0, 1, 2, 3], ∃ v ∈ [0, 1, 2, 3], s.WaitsFor u v := by
    intro u hu
    simp only [List.mem_cons, List.mem_singleton, List.not_mem_nil, or_false] at hu
    rcases hu with rfl | rfl | rfl | rfl
    exacts [⟨3, by decide, h03⟩, ⟨2, by decide, h12⟩, ⟨0, by decide, h20⟩, ⟨1, by decide, h31⟩]
  refine ⟨s, hr, fun u c hm => ?_, hg0, hp0, hg1, hp1, by rw [hp2]; trivial, by rw [hp3]; trivial,
    fun s' hrun => ?_⟩
  · -- the writers hold none: only the readers do
    by_contra hne
    rcases hg u c hne with rfl | rfl
    · rw [hp0] at hm; exact hm
    · rw [hp1] at hm; exact hm
  · have hk := (hr.waitsFor_keep_run hS hrun).2
    refine ⟨.tail (.tail (.tail (.single (hk 0 3 (by decide) (by decide) h03))
      (hk 3 1 (by decide) (by decide) h31)) (hk 1 2 (by decide) (by decide) h12))
      (hk 2 0 (by decide) (by decide) h20), fun t ht s'' h => ?_⟩
    obtain ⟨v, hv, hw⟩ := hS t ht
    exact h.not_blocked (hk t v ht hv hw)

end PublicComponent.Dbd
