import DeviceSuite.Task.Pool

/-!
# Pools at a standstill

A pool that has run until it stands has no strand that could go on, now or later: every strand has
ended or waits for a call that the host does not admit. This takes two things, that no strand has
been forgotten in the order of the turns, and that the clock goes where it is set.
-/

namespace DeviceSuite

namespace Pool

variable {C : Type} {R : C → Type} {α L σ : Type} {h : Host R α L σ} {p : Pool R α L σ} {i : Nat}

/-- No strand has been forgotten in the order of the turns. -/
def Covers (p : Pool R α L σ) : Prop := ∀ i < p.strands.length, i ∈ p.order

/-- To line the strands up forgets and adds none. -/
@[simp] theorem mem_order_lineUp : i ∈ (p.lineUp h).order ↔ i ∈ p.order := by
  simp only [lineUp, List.mem_append, List.mem_filter]
  cases p.isAble h i <;> simp

/-- No strand is forgotten when they are lined up. -/
theorem Covers.lineUp (hp : p.Covers) : (p.lineUp h).Covers := fun i hi =>
  mem_order_lineUp.2 (hp i hi)

/-- No strand is forgotten when what they share is changed. -/
theorem Covers.change (hp : p.Covers) (f : σ → σ) : (p.change h f).Covers :=
  Covers.lineUp (h := h) (p := { p with shared := f p.shared }) hp

/-- No strand is forgotten when another is added. -/
theorem Covers.spawn (hp : p.Covers) (l : L) (strand : Strand R α) : (p.spawn h l strand).Covers := by
  apply Covers.lineUp
  intro i hi
  simp only [List.length_append, List.length_singleton, Nat.lt_succ_iff] at hi
  rcases Nat.lt_or_eq_of_le hi with hlt | rfl
  · exact List.mem_append_left _ (hp i hlt)
  · exact List.mem_append_right _ (List.mem_singleton_self _)

/-- No strand is forgotten when several are added. -/
theorem Covers.foldl_spawn {ι : Type} (entry : ι → L × Strand R α) (items : List ι)
    (hp : p.Covers) :
    (items.foldl (fun p i => p.spawn h (entry i).1 (entry i).2) p).Covers := by
  induction items generalizing p with
  | nil => exact hp
  | cons i rest ih => exact ih (hp.spawn _ _)

/-- No strand is forgotten when one takes its turn. -/
theorem Covers.turn (hp : p.Covers) (i : Nat) : (p.turn h i).Covers := by
  unfold Pool.turn
  split
  · exact hp
  · apply Covers.lineUp
    intro j hj
    rw [List.length_set] at hj
    by_cases hij : j = i
    · exact List.mem_append_right _ (List.mem_singleton.2 hij)
    · exact List.mem_append_left _ ((List.mem_erase_of_ne hij).2 (hp j hj))

/-- A pool that has run has no turn left. -/
theorem step?_run (limit : Option Nat) (goal : σ → Bool) (p : Pool R α L σ) :
    (p.run h limit goal).step? h limit goal = none := by
  induction p using (follows_wf h).induction with
  | _ p ih =>
    rw [run]
    split
    · next hstep => exact hstep
    · next q hq => exact ih q (step?_follows hq)

/-- A strand that is able to go on has a turn. -/
theorem next?_isSome (hp : p.Covers) (able : p.isAble h i = true) : (p.next? h).isSome = true := by
  obtain ⟨e, hi, -⟩ := (Option.any_eq_true _ _).1 able
  have hmem := hp i (List.getElem?_eq_some_iff.1 hi).1
  exact List.find?_isSome.2 ⟨i, hmem, able⟩

/-- A strand that is due is able to go on when its time has come. -/
theorem isAble_of_due? {strand : Strand R α} {due : Nat} (hdue : strand.due? = some due) {s : σ}
    (hnow : h.now s = due) (l : L) : h.isAble s l strand = true := by
  cases strand with
  | resting due' next =>
    obtain rfl : due' = due := Option.some.inj hdue
    simp [Host.isAble, hnow]
  | calling due' c next =>
    obtain rfl : due' = due := Option.some.inj hdue
    simp [Host.isAble, hnow]
  | _ => cases hdue

/-- In a pool without a turn whose goal is not reached, no strand is able to go on, and none will
ever be. -/
theorem standstill (hp : p.Covers) (hclock : ∀ time s, h.now (h.atTime time s) = time)
    {goal : σ → Bool} (hgoal : goal p.shared = false) (hstep : p.step? h none goal = none) :
    ∀ e ∈ p.strands, h.isAble p.shared e.1 e.2 = false ∧ e.2.due? = none := by
  have hnext : p.next? h = none := by
    cases hnext : p.next? h with
    | none => rfl
    | some i => simp [step?, hnext] at hstep
  have hdue : p.due? = none := by
    cases hdue : p.due? with
    | none => rfl
    | some due =>
      obtain ⟨e, he, hedue⟩ := List.mem_filterMap.1 (List.min?_mem hdue)
      obtain ⟨i, hi⟩ := List.getElem?_of_mem he
      have able : (p.change h (h.atTime due)).isAble h i = true :=
        (Option.any_eq_true _ _).2 ⟨e, hi, isAble_of_due? hedue (hclock due _) e.1⟩
      obtain ⟨j, hj⟩ := Option.isSome_iff_exists.1 (next?_isSome (hp.change _) able)
      simp [step?, hnext, hgoal, hdue, hj] at hstep
  intro e he
  obtain ⟨i, hi⟩ := List.getElem?_of_mem he
  constructor
  · cases hable : h.isAble p.shared e.1 e.2 with
    | false => rfl
    | true =>
      have hsome := next?_isSome hp ((Option.any_eq_true _ _).2 ⟨e, hi, hable⟩)
      rw [hnext] at hsome
      cases hsome
  · cases hedue : e.2.due? with
    | none => rfl
    | some due =>
      have hmem : due ∈ p.strands.filterMap fun e => e.2.due? := List.mem_filterMap.2 ⟨e, he, hedue⟩
      rw [due?, List.min?_eq_none_iff] at hdue
      rw [hdue] at hmem
      cases hmem

end Pool

end DeviceSuite
