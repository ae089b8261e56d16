import Mathlib.Data.Fintype.Card

/-! # The fixed-point sweep over parent links

Every slot of a table of `n` slots names at most one parent slot.  The slots whose parent chain
reaches a given set are collected by sweeping the table in slot order, marking each unmarked
slot whose parent is marked, until a pass marks nothing or `n` passes are done.

* `sweep_iff` — the sweep from one root marks exactly the slots that climb to it, whatever the
  links are (self links and cycles included). -/

namespace ParentSweep

open Function

variable {n : Nat}

/-- One slot of a pass: an unmarked slot whose parent is marked is marked, and the `added` flag
    raised. -/
def visit (next : Fin n → Option (Fin n)) (v : (Fin n → Bool) × Bool)
    (i : Fin n) : (Fin n → Bool) × Bool :=
  if v.1 i then v
  else
    match next i with
    | none => v
    | some p => if v.1 p then (update v.1 i true, true) else v

/-- One pass over all slots in order. -/
def pass (next : Fin n → Option (Fin n)) (v : Fin n → Bool) : (Fin n → Bool) × Bool :=
  (List.finRange n).foldl (visit next) (v, false)

/-- Passes until one adds nothing, at most `k` of them. -/
def sweep (next : Fin n → Option (Fin n)) : Nat → (Fin n → Bool) → Fin n → Bool
  | 0, v => v
  | k + 1, v =>
    if (pass next v).2 then sweep next k (pass next v).1 else (pass next v).1

/-- The slot climbs to the target along parent links. -/
def Climbs (next : Fin n → Option (Fin n)) : Fin n → Fin n → Prop :=
  Relation.ReflTransGen (fun a b => next a = some b)

/-- Marks are closed: a slot whose parent is marked is marked. -/
def Closed (next : Fin n → Option (Fin n)) (v : Fin n → Bool) : Prop :=
  ∀ i p, next i = some p → v p → v i

section

variable (next : Fin n → Option (Fin n))
include next

theorem visit_cases (v : (Fin n → Bool) × Bool) (i : Fin n) : visit next v i = v
      ∨ v.1 i = false ∧ (∃ p, next i = some p ∧ v.1 p)
        ∧ visit next v i = (update v.1 i true, true) := by
  cases hi : v.1 i with
  | true => exact Or.inl (by simp [visit, hi])
  | false =>
    cases hp : next i with
    | none => exact Or.inl (by simp [visit, hi, hp])
    | some p =>
      cases hv : v.1 p with
      | false => exact Or.inl (by simp [visit, hi, hp, hv])
      | true => exact Or.inr ⟨rfl, ⟨p, rfl, hv⟩, by simp [visit, hi, hp, hv]⟩

theorem visit_mono (v : (Fin n → Bool) × Bool) (i j : Fin n) (h : v.1 j) :
    (visit next v i).1 j := by
  rcases visit_cases next v i with he | ⟨-, -, he⟩
  · rw [he]; exact h
  · rw [he]
    by_cases hj : j = i
    · subst hj; exact update_self ..
    · rw [show (update v.1 i true, true).1 j = v.1 j from update_of_ne hj ..]
      exact h

/-- Sweeping a list of slots keeps every mark, and a raised flag. -/
theorem foldl_visit_mono : ∀ (l : List (Fin n)) (v : (Fin n → Bool) × Bool),
      (∀ j, v.1 j → (l.foldl (visit next) v).1 j) ∧ (v.2 → (l.foldl (visit next) v).2) := by
  intro l
  induction l with
  | nil => intro v; exact ⟨fun _ h => h, fun h => h⟩
  | cons i _ ih =>
    intro v
    obtain ⟨h1, h2⟩ := ih (visit next v i)
    refine ⟨fun j hj => h1 j (visit_mono next v i j hj), fun hv => h2 ?_⟩
    rcases visit_cases next v i with he | ⟨-, -, he⟩
    · rw [he]; exact hv
    · rw [he]

/-- Marks only ever spread from parents: anything that holds of the marked slots and passes from a
    parent to its child holds of the slots marked. -/
theorem foldl_visit_sound {P : Fin n → Prop}
    (hP : ∀ i p, next i = some p → P p → P i) : ∀ (l : List (Fin n)) (v : (Fin n → Bool) × Bool),
      (∀ j, v.1 j → P j) → ∀ j, (l.foldl (visit next) v).1 j → P j := by
  intro l
  induction l with
  | nil => intro v h; exact h
  | cons i _ ih =>
    intro v h
    refine ih (visit next v i) ?_
    intro j hj
    rcases visit_cases next v i with he | ⟨-, ⟨p, hp, hv⟩, he⟩
    · rw [he] at hj; exact h j hj
    · rw [he] at hj
      by_cases hji : j = i
      · subst hji; exact hP j p hp (h p hv)
      · rw [show (update v.1 i true, true).1 j = v.1 j from update_of_ne hji ..] at hj
        exact h j hj

/-- A stretch that raises no flag changed nothing, and its slots are marked or without marked
    parent. -/
theorem foldl_visit_quiet : ∀ (l : List (Fin n)) (v : Fin n → Bool),
      (l.foldl (visit next) (v, false)).2 = false → (l.foldl (visit next) (v, false)).1 = v
          ∧ ∀ i ∈ l, ∀ p, next i = some p → v p → v i := by
  intro l
  induction l with
  | nil => intro v _; exact ⟨rfl, fun i hi => nomatch hi⟩
  | cons i l ih =>
    intro v h
    rw [List.foldl_cons] at h ⊢
    rcases visit_cases next (v, false) i with he | ⟨-, -, he⟩
    · rw [he] at h ⊢
      obtain ⟨h1, h2⟩ := ih v h
      refine ⟨h1, ?_⟩
      intro j hj p hp hv
      rcases List.mem_cons.mp hj with hji | hjl
      · subst hji
        -- the visit left the pair alone, so the slot was already marked
        cases hvj : v j with
        | true => rfl
        | false =>
          have hup : visit next (v, false) j
              = (update v j true, true) := by
            simp [visit, hvj, hp, hv]
          rw [hup] at he
          exact nomatch congrArg Prod.snd he
      · exact h2 j hjl p hp hv
    · rw [he] at h
      rw [(foldl_visit_mono next l _).2 rfl] at h
      exact nomatch h

/-- A stretch that raises the flag marked a slot that was not marked. -/
theorem foldl_visit_added : ∀ (l : List (Fin n)) (v : Fin n → Bool),
      (l.foldl (visit next) (v, false)).2 →
        ∃ i, v i = false ∧ (l.foldl (visit next) (v, false)).1 i := by
  intro l
  induction l with
  | nil => intro v h; exact nomatch h
  | cons i l ih =>
    intro v h
    rw [List.foldl_cons] at h ⊢
    rcases visit_cases next (v, false) i with he | ⟨hi, -, he⟩
    · rw [he] at h ⊢
      exact ih v h
    · refine ⟨i, hi, (foldl_visit_mono next l _).1 i ?_⟩
      rw [he]
      exact update_self ..

end

/-- How many slots are marked. -/
def marks (v : Fin n → Bool) : Nat := (Finset.univ.filter (fun i => v i = true)).card

theorem marks_le (v : Fin n → Bool) : marks v ≤ n := by
  have h := Finset.card_le_univ (Finset.univ.filter (fun i => v i = true))
  simpa [marks] using h

theorem marks_lt_of_added (hmono : ∀ j, v j → w j) (hv : v i = false)
    (hw : w i) : marks v < marks w := by
  refine Finset.card_lt_card ?_
  rw [Finset.ssubset_iff_of_subset (Finset.monotone_filter_right _ (fun j _ hj => hmono j hj))]
  exact ⟨i, by simp [hw], by simp [hv]⟩

section

variable (next : Fin n → Option (Fin n))
include next

/-- With a pass for every unmarked slot and one to spare, the sweep ends closed. -/
theorem sweep_closed (k : Nat) (v : Fin n → Bool) (h : n < marks v + k) :
    Closed next (sweep next k v) := by
  fun_induction sweep next k v with
  | case1 v =>
    have := marks_le v
    omega
  | case2 _ v hadd ih =>
    obtain ⟨i, hv, hw⟩ := foldl_visit_added next (List.finRange n) v hadd
    have hlt : marks v < marks (pass next v).1 :=
      marks_lt_of_added (foldl_visit_mono next (List.finRange n) (v, false)).1 hv hw
    exact ih (by omega)
  | case3 _ v hadd =>
    obtain ⟨h1, h2⟩ := foldl_visit_quiet next (List.finRange n) v (Bool.eq_false_iff.mpr hadd)
    have h1' : (pass next v).1 = v := h1
    rw [h1']
    exact fun i p => h2 i (List.mem_finRange i) p

theorem sweep_mono (k : Nat) (v : Fin n → Bool) (j : Fin n) (h : v j) : sweep next k v j := by
  fun_induction sweep next k v with
  | case1 => exact h
  | case2 _ v _ ih => exact ih ((foldl_visit_mono next (List.finRange n) (v, false)).1 j h)
  | case3 _ v => exact (foldl_visit_mono next (List.finRange n) (v, false)).1 j h

theorem sweep_sound {P : Fin n → Prop} (hP : ∀ i p, next i = some p → P p → P i) (k : Nat)
    (v : Fin n → Bool) (h : ∀ j, v j → P j) : ∀ j, sweep next k v j → P j := by
  have hp : ∀ {v}, (∀ j, v j → P j) → ∀ j, (pass next v).1 j → P j :=
    fun h => foldl_visit_sound next hP (List.finRange n) (_, false) h
  fun_induction sweep next k v with
  | case1 => exact h
  | case2 _ _ _ ih => exact ih (hp h)
  | case3 => exact hp h

/-- **THE SWEEP IS THE CLOSURE**: from a single root, `n` passes mark exactly the slots that climb
    to it. -/
theorem sweep_iff (root i : Fin n) : sweep next n (fun j => decide (j = root)) i
      ↔ Climbs next i root := by
  constructor
  · refine sweep_sound next (P := fun j => Climbs next j root) ?_ n _ ?_ i
    · intro j _ hp hc
      exact Relation.ReflTransGen.head hp hc
    · intro j hj
      rw [of_decide_eq_true hj]
      exact Relation.ReflTransGen.refl
  · intro hc
    have hone : marks (fun j : Fin n => decide (j = root)) = 1 := by simp [marks, Finset.filter_eq']
    have hcl := sweep_closed next n (fun j => decide (j = root)) (by omega)
    -- the root is marked, and marks climb back down the chain
    induction hc using Relation.ReflTransGen.head_induction_on with
    | refl => exact sweep_mono next n _ root (decide_eq_true rfl)
    | head hp _ ih => exact hcl _ _ hp ih

end

end ParentSweep
