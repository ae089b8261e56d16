import SecureOS.CapHandleTableProofs

/-! # Room in the handle table

A grant takes a row only for a pair that has none; so a list of grants goes through exactly when
the pairs without a live row are no more than the rows that are not live. -/

namespace CapHandle

open Capability Function List

/-- The rows a grant can still take. -/
def freeRows (t : Table) : Nat := (Finset.univ.filter (fun i => (t i).live = false)).card

/-- The pairs of the list that have no live row. -/
def rowsNeeded (t : Table) (pairs : List (Nat × Nat)) : Nat :=
  (pairs.toFinset.filter (fun p => capHandleFindLive t p.1 p.2 = none)).card

/-- A table without a free slot has only live rows. -/
theorem findFreeSlot_eq_none_iff (t : Table) : capHandleFindFreeSlot t = none ↔ freeRows t = 0 := by
  have hcount : freeRows t = 0 ↔ ∀ i, (t i).live := by
    unfold freeRows
    rw [Finset.card_eq_zero, Finset.filter_eq_empty_iff]
    exact ⟨fun h i => Bool.eq_true_of_not_eq_false (h (Finset.mem_univ i)),
      fun h i _ hf => Bool.false_ne_true (hf.symm.trans (h i))⟩
  have hscan : (Fin.find? (fun i => !(t i).live) = none) ↔ ∀ i, (t i).live := by
    rw [Fin.find?_eq_none_iff]
    exact forall_congr' fun i => by rw [Bool.not_eq_false']
  rw [hcount, ← hscan]
  unfold capHandleFindFreeSlot
  obtain hf | ⟨j, hf⟩ := Option.eq_none_or_eq_some
    (Fin.find? (fun i => !(t i).live && !(t i).revoked))
  · rw [hf]
  · rw [hf]
    have hj := (Fin.find?_eq_some_iff.mp hf).1
    rw [Bool.and_eq_true] at hj
    refine ⟨fun h => absurd h (Option.some_ne_none j), fun h => ?_⟩
    exact absurd hj.1 (by rw [Fin.find?_eq_none_iff.mp h j]; exact Bool.false_ne_true)

section Taken

variable (owner cap : Nat) (parent : BitVec 32)

/-- A row taken is one free row less. -/
theorem freeRows_grant (hi : (t i).live = false) :
    freeRows (update t i ((t i).grant owner owner cap parent)) + 1 = freeRows t := by
  unfold freeRows
  have he : (Finset.univ.filter (fun j =>
        (update t i ((t i).grant owner owner cap parent) j).live = false))
      = (Finset.univ.filter (fun j => (t j).live = false)).erase i := by
    ext j
    by_cases hji : j = i
    · subst hji
      have hlive : ((t j).grant owner owner cap parent).live :=
        live_grantRow ⟨owner, owner, cap, parent⟩ (t j)
      rw [Finset.mem_filter, update_self, hlive]
      simp
    · rw [Finset.mem_filter, update_of_ne hji]
      simp [hji]
  rw [he]
  exact Finset.card_erase_add_one (by simp [hi])

/-- Afterwards exactly the pair it was taken for has lost its need of a row. -/
theorem findLive_grant (hi : (t i).live = false) (r d : Nat) :
    capHandleFindLive (update t i ((t i).grant owner owner cap parent)) r d = none
      ↔ ¬ (r = owner ∧ d = cap) ∧ capHandleFindLive t r d = none := by
  rw [findLive_eq_none_iff, findLive_eq_none_iff]
  have hrow : ∀ r d, ((t i).grant owner owner cap parent).isLiveFor r d
      ↔ r = owner ∧ d = cap := by
    intro r d
    rw [isLiveFor_iff]
    constructor
    · rintro ⟨-, rfl, rfl⟩; exact ⟨rfl, rfl⟩
    · rintro ⟨rfl, rfl⟩; exact ⟨live_grantRow ⟨r, r, d, parent⟩ (t i), rfl, rfl⟩
  have hdead : (t i).isLiveFor r d = false := by
    rw [Row.isLiveFor, hi]
    rfl
  constructor
  · intro h
    refine ⟨fun hp => ?_, fun j => ?_⟩
    · have := h i
      rw [update_self, ← Bool.not_eq_true] at this
      exact this ((hrow r d).mpr hp)
    · by_cases hji : j = i
      · rw [hji]; exact hdead
      · have := h j
        rwa [update_of_ne hji] at this
  · rintro ⟨hp, h⟩ j
    by_cases hji : j = i
    · subst hji
      rw [update_self, ← Bool.not_eq_true]
      exact fun hl => hp ((hrow r d).mp hl)
    · rw [update_of_ne hji]
      exact h j

/-- One pair less of a list needs a row. -/
theorem rowsNeeded_grant (hi : (t i).live = false) (hl : capHandleFindLive t owner cap = none)
    (pairs : List (Nat × Nat)) :
    rowsNeeded (update t i ((t i).grant owner owner cap parent)) pairs + 1
      = rowsNeeded t ((owner, cap) :: pairs) := by
  unfold rowsNeeded
  have he : (pairs.toFinset.filter (fun p => capHandleFindLive
        (update t i ((t i).grant owner owner cap parent)) p.1 p.2 = none))
      = (((owner, cap) :: pairs).toFinset.filter
          (fun p => capHandleFindLive t p.1 p.2 = none)).erase (owner, cap) := by
    ext ⟨r, d⟩
    rw [Finset.mem_filter, Finset.mem_erase, Finset.mem_filter, mem_toFinset,
      mem_toFinset, mem_cons]
    rw [findLive_grant owner cap parent hi, Ne, Prod.mk.injEq]
    constructor
    · rintro ⟨hm, hp, hn⟩
      exact ⟨hp, Or.inr hm, hn⟩
    · rintro ⟨hp, hm, hn⟩
      exact ⟨hm.resolve_left hp, hp, hn⟩
  rw [he]
  exact Finset.card_erase_add_one (by simp [hl])

end Taken

theorem rowsNeeded_cons_live (hl : capHandleFindLive t owner cap = some i)
    (pairs : List (Nat × Nat)) : rowsNeeded t ((owner, cap) :: pairs) = rowsNeeded t pairs := by
  unfold rowsNeeded
  congr 1
  ext ⟨r, d⟩
  simp only [Finset.mem_filter, mem_toFinset, mem_cons]
  constructor
  · rintro ⟨⟨rfl, rfl⟩ | hm, hn⟩
    · exact absurd (hl.symm.trans hn) (Option.some_ne_none i)
    · exact ⟨hm, hn⟩
  · rintro ⟨hm, hn⟩
    exact ⟨Or.inr hm, hn⟩

/-- Grants one after the other, each under its parent, up to the first that fails. -/
def grantAll : Table → List (Nat × Nat × BitVec 32) → Table × Bool
  | t, [] => (t, true)
  | t, (owner, cap, parent) :: rest =>
    let g := capHandleGrantChild t owner cap parent
    if g.2 = handleNull then (g.1, false) else grantAll g.1 rest

/-- The pairs of a list of grants. -/
def pairsOf (gs : List (Nat × Nat × BitVec 32)) : List (Nat × Nat) := gs.map (fun g => (g.1, g.2.1))

/-- **ROOM**: valid grants go through exactly when there is a row for each pair that needs one. -/
theorem grantAll_iff (t : Table) (gs : List (Nat × Nat × BitVec 32))
    (hv : ∀ g ∈ gs, capHandleSubjectValid g.1 ∧ capHandleCapIdValid g.2.1) :
    (grantAll t gs).2 ↔ rowsNeeded t (pairsOf gs) ≤ freeRows t := by
  induction gs generalizing t with
  | nil => simp [grantAll, pairsOf, rowsNeeded]
  | cons g gs ih =>
    obtain ⟨owner, cap, parent⟩ := g
    obtain ⟨hvalid, hrest⟩ := forall_mem_cons.mp hv
    rw [grantAll, show pairsOf ((owner, cap, parent) :: gs) = (owner, cap) :: pairsOf gs from rfl]
    have hgrants := grantChild_grants t owner cap parent
    generalize capHandleGrantChild t owner cap parent = out at hgrants ⊢
    cases hgrants with
    | refused hno => exact absurd hvalid hno
    | @found j _ _ hl =>
      rw [if_neg (fromRow_ne_null t j), ih _ hrest, rowsNeeded_cons_live hl]
    | full hl hf =>
      -- the pair needs a row and there is none
      have hneed : rowsNeeded t ((owner, cap) :: pairsOf gs) ≠ 0 := by
        unfold rowsNeeded
        rw [Finset.card_ne_zero]
        exact ⟨(owner, cap), by simp [hl]⟩
      rw [(findFreeSlot_eq_none_iff t).mp hf]
      exact iff_of_false Bool.false_ne_true (fun h => hneed (Nat.le_zero.mp h))
    | @took i _ _ hl hf =>
      rw [if_neg (fromRow_ne_null _ i), ih _ hrest]
      have hi := findFreeSlot_not_live hf
      have hneed := rowsNeeded_grant owner cap parent hi hl (pairsOf gs)
      have hfree := freeRows_grant owner cap parent hi
      dsimp only
      omega

theorem room_one (parent : BitVec 32)
    (ho : capHandleSubjectValid owner) (hc : capHandleCapIdValid cap) :
    (capHandleGrantChild t owner cap parent).2 ≠ handleNull
      ↔ rowsNeeded t [(owner, cap)] ≤ freeRows t := by
  have hroom := grantAll_iff t [(owner, cap, parent)] (by
    intro _ hg
    obtain rfl := mem_singleton.mp hg
    exact ⟨ho, hc⟩)
  refine Iff.trans ?_ hroom
  simp only [grantAll]
  by_cases hn : (capHandleGrantChild t owner cap parent).2 = handleNull <;> simp [hn]

theorem room_two (p₁ p₂ : BitVec 32) (ho₁ : capHandleSubjectValid o₁) (hc₁ : capHandleCapIdValid c₁)
    (ho₂ : capHandleSubjectValid o₂) (hc₂ : capHandleCapIdValid c₂) :
    ((capHandleGrantChild t o₁ c₁ p₁).2 ≠ handleNull
        ∧ (capHandleGrantChild (capHandleGrantChild t o₁ c₁ p₁).1 o₂ c₂ p₂).2 ≠ handleNull)
      ↔ rowsNeeded t [(o₁, c₁), (o₂, c₂)] ≤ freeRows t := by
  have hroom := grantAll_iff t [(o₁, c₁, p₁), (o₂, c₂, p₂)] (by
    intro _ hg
    rcases mem_cons.mp hg with rfl | hg
    · exact ⟨ho₁, hc₁⟩
    · obtain rfl := mem_singleton.mp hg
      exact ⟨ho₂, hc₂⟩)
  refine Iff.trans ?_ hroom
  simp only [grantAll]
  by_cases hn₁ : (capHandleGrantChild t o₁ c₁ p₁).2 = handleNull
  · simp [hn₁]
  · by_cases hn₂ : (capHandleGrantChild (capHandleGrantChild t o₁ c₁ p₁).1 o₂ c₂ p₂).2 = handleNull
    · simp [hn₁, hn₂]
    · simp [hn₁, hn₂]

end CapHandle
