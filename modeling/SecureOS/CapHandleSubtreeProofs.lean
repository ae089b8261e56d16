import SecureOS.CapHandleStaleProofs

/-! # Cascades by slot and cascades by grant

`cap_handle_revoke_subtree` follows recorded parent SLOTS.  What a child was granted under is a
GRANT: one use of a slot, between its grant and the next.  This file keeps the grants apart with
a ghost record and says when the two cascades agree.

* `subtree_by_grant` — after runs of safe grants the cascade from a live handle revokes exactly
  the live rows whose grants descend from its grant. -/

namespace CapHandle

open Capability MachineRun ParentSweep Function Option

/-- A grant: its slot, and which of the slot's grants it is, from one. -/
abbrev GrantId := Fin 64 × Nat

/-- The handle table with the grants its slots have seen. -/
structure Traced where
  table : Table
  /-- how many grants a slot has seen -/
  epoch : Fin 64 → Nat
  /-- the generation each grant was given -/
  genOf : Fin 64 → Nat → BitVec 32
  /-- the grant each grant named as its parent -/
  parentOf : Fin 64 → Nat → Option GrantId

/-- The start: a reset table and no grants. -/
def tracedReset : Traced := ⟨capHandleTableReset, fun _ => 0, fun _ _ => 0, fun _ _ => none⟩

/-- The grant of a slot had the wire generation of the handle. -/
def SameWire (g : Traced) (h : BitVec 32) (i : Fin 64) (n : Nat) : Prop :=
  1 ≤ n ∧ g.genOf i n &&& genMask = (capHandleGeneration h).setWidth 32

instance (g : Traced) (h : BitVec 32) (i : Fin 64) : DecidablePred (SameWire g h i) :=
  fun _ => inferInstanceAs (Decidable (_ ∧ _))

/-- The grant a handle value names: the latest grant of its slot that was given its wire generation.
    -/
def named (g : Traced) (h : BitVec 32) : Option GrantId :=
  if capHandleTag h ≠ tagKernel then none
  else if hs : (capHandleSlot h).toNat < tableMax then
    let n := Nat.findGreatest (SameWire g h ⟨(capHandleSlot h).toNat, hs⟩)
      (g.epoch ⟨(capHandleSlot h).toNat, hs⟩)
    if n = 0 then none else some (⟨(capHandleSlot h).toNat, hs⟩, n)
  else none

/-- A call, with the record of the grant it makes. -/
def tstep (g : Traced) (op : HandleOp) : Traced :=
  match fresh g.table op with
  | none => { g with table := step g.table op }
  | some (i, a) =>
    { table := step g.table op
      epoch := update g.epoch i (g.epoch i + 1)
      genOf := update g.genOf i (update (g.genOf i) (g.epoch i + 1) (step g.table op i).generation)
      parentOf := update g.parentOf i (update (g.parentOf i) (g.epoch i + 1) (named g a.parent)) }

/-- The grant a row stands for. -/
def Traced.grantAt (g : Traced) (i : Fin 64) : GrantId := (i, g.epoch i)

/-- The first grant was made, over any number of parents, under the second. -/
def Descends (g : Traced) : GrantId → GrantId → Prop :=
  Relation.ReflTransGen (fun x y => g.parentOf x.1 x.2 = some y)

/-- A fresh grant names no live parent or a live one, and takes no slot on the chain of a live row.
    -/
def SafeGrant (t : Table) (op : HandleOp) : Prop :=
  ∀ i a, fresh t op = some (i, a) →
    (a.parent = handleNull ∨ tableMax ≤ (capHandleSlot a.parent).toNat
      ∨ ∃ m, resolve t a.parent = some m)
    ∧ ∀ j, (t j).live → ¬ Climbs (parentSlot t) j i

/-! ## The ghost record -/

theorem tstep_table (g : Traced) (op : HandleOp) : (tstep g op).table = step g.table op := by
  cases hf : fresh g.table op <;> simp [tstep, hf]

theorem run_tstep_table (ops : List HandleOp) (g : Traced) :
    (run tstep g ops).table = run step g.table ops :=
  (List.foldl_hom Traced.table (fun g op => (tstep_table g op).symm)).symm

variable {g : Traced} {op : HandleOp} {i k : Fin 64} {t : Table}

theorem tstep_of_none (hf : fresh g.table op = none) :
    tstep g op = { g with table := step g.table op } := by
  simp [tstep, hf]

theorem tstep_of_some (hf : fresh g.table op = some (i, a)) :
    (tstep g op).epoch = update g.epoch i (g.epoch i + 1)
      ∧ (tstep g op).genOf i (g.epoch i + 1) = (step g.table op i).generation
      ∧ (tstep g op).parentOf i (g.epoch i + 1) = named g a.parent
      ∧ (∀ n, n ≠ g.epoch i + 1 → (tstep g op).parentOf i n = g.parentOf i n)
      ∧ ∀ k, k ≠ i → (tstep g op).genOf k = g.genOf k ∧ (tstep g op).parentOf k = g.parentOf k := by
  simp only [tstep, hf, update_self, true_and]
  refine ⟨fun n hn => update_of_ne hn .., fun k hk => ?_⟩
  exact ⟨update_of_ne hk .., update_of_ne hk ..⟩

/-- A live row holds its slot's latest grant, at the recorded generation. -/
def GenFaithful (g : Traced) : Prop :=
  ∀ i, (g.table i).live → 1 ≤ g.epoch i ∧ g.genOf i (g.epoch i) = (g.table i).generation

theorem genFaithful_step (hg : GenFaithful g) (op : HandleOp) : GenFaithful (tstep g op) := by
  intro i hi
  rw [tstep_table] at hi ⊢
  rcases live_step_cases hi with ⟨hl, he⟩ | ⟨_, hf, -⟩
  · obtain ⟨h1, h2⟩ := hg i hl
    rw [he]
    cases hf : fresh g.table op with
    | none => rw [tstep_of_none hf]; exact ⟨h1, h2⟩
    | some ja =>
      obtain ⟨j, _⟩ := ja
      have hij : i ≠ j := by
        rintro rfl
        rw [findFreeSlot_not_live (fresh_spec hf).2.2.2] at hl
        exact nomatch hl
      obtain ⟨hep, -, -, -, hother⟩ := tstep_of_some hf
      rw [hep, (hother i hij).1, update_of_ne hij]
      exact ⟨h1, h2⟩
  · obtain ⟨hep, hgen, -⟩ := tstep_of_some hf
    rw [hep, update_self]
    exact ⟨by omega, hgen⟩

theorem genFaithful_run (ops : List HandleOp) : GenFaithful (run tstep tracedReset ops) := by
  refine run_inv_all (I := GenFaithful) (fun _ op h => genFaithful_step h op) ops _ ?_
  intro _ hi
  exact nomatch live_resetRow.symm.trans hi

/-- An accepted handle names the grant its row stands for. -/
theorem named_of_resolve (hg : GenFaithful g) (hr : resolve g.table h = some i) :
    named g h = some (g.grantAt i) := by
  obtain ⟨htag, hslot, hl, hst⟩ := (resolve_eq_some_iff _ h i).mp hr
  obtain ⟨hpos, hgen⟩ := hg i hl
  have hs : (capHandleSlot h).toNat < tableMax := hslot ▸ i.isLt
  have hi : (⟨(capHandleSlot h).toNat, hs⟩ : Fin 64) = i := Fin.ext hslot
  have hwire : SameWire g h i (g.epoch i) := by
    refine ⟨hpos, ?_⟩
    rw [hgen]
    simpa [Row.stale] using hst
  have hfind : Nat.findGreatest (SameWire g h i) (g.epoch i) = g.epoch i :=
    Nat.findGreatest_eq_iff.mpr ⟨Nat.le_refl _, fun _ => hwire, fun hlt hle => by omega⟩
  rw [named, if_neg (not_not.mpr htag), dif_pos hs]
  simp only [hi, hfind]
  rw [if_neg (by omega)]
  rfl

theorem named_null (g : Traced) : named g handleNull = none := by
  rw [named, if_pos]
  decide

theorem named_out_of_range (g : Traced)
    (hs : tableMax ≤ (capHandleSlot h).toNat) : named g h = none := by
  rw [named]
  split
  · rfl
  · rw [dif_neg (by omega)]

/-! ## Parent links under one call -/

theorem parentSlot_congr (h : (t' k).parentHandle = (t k).parentHandle) :
    parentSlot t' k = parentSlot t k := by
  simp only [parentSlot, h]

/-- Revocations keep every parent link. -/
theorem parentSlot_step_of_none (hf : fresh t op = none) (k : Fin 64) :
    parentSlot (step t op) k = parentSlot t k := by
  rcases step_row_cases t op k with h | ⟨-, -, -, h⟩ | ⟨-, _, ha, -⟩
  · exact parentSlot_congr (by rw [h])
  · exact parentSlot_congr (by rw [h]; rfl)
  · rw [hf] at ha; exact nomatch ha

section

variable (hf : fresh t op = some (i, a))
include hf

/-- A fresh grant sets one link and keeps the others. -/
theorem parentSlot_step_of_some (hk : k ≠ i) : parentSlot (step t op) k = parentSlot t k := by
  have hrow : step t op k = t k := by
    rw [step_eq, hf]
    exact update_of_ne hk ..
  exact parentSlot_congr (by rw [hrow])

theorem parentHandle_fresh : (step t op i).parentHandle = a.parent := by
  rw [step_eq, hf]
  show (update t i (a.row (t i)) i).parentHandle = a.parent
  rw [update_self]
  rfl

/-- A chain that avoids the granted slot is not changed by the grant. -/
theorem climbs_step_of_avoids (havoid : ∀ k, Climbs (parentSlot t) j k → k ≠ i)
    (hc : Climbs (parentSlot (step t op)) j k) : Climbs (parentSlot t) j k := by
  induction hc with
  | refl => exact Relation.ReflTransGen.refl
  | tail _ hlink ih =>
    rw [parentSlot_step_of_some hf (havoid _ ih)] at hlink
    exact Relation.ReflTransGen.tail ih hlink

end

/-- **THE INVARIANT**: on the parent chain of a live row, each slot stands for its latest grant, and
    the recorded parent slot for the named grant. -/
def Faithful (g : Traced) : Prop :=
  ∀ j k, (g.table j).live → Climbs (parentSlot g.table) j k →
    g.parentOf k (g.epoch k) = (parentSlot g.table k).map g.grantAt

/-- The recorded link of a safe fresh grant is the grant it named. -/
theorem named_eq_parentSlot (hg : GenFaithful g) (hf : fresh g.table op = some (i, a))
    (hs : SafeGrant g.table op) : named g a.parent = (parentSlot (step g.table op) i).map g.grantAt
      ∧ ∀ m, parentSlot (step g.table op) i = some m → (g.table m).live := by
  rw [parentSlot, parentHandle_fresh hf]
  rcases (hs i a hf).1 with hnull | hrange | ⟨m, hm⟩
  · rw [hnull, named_null, if_pos rfl]
    exact ⟨rfl, fun m hm => absurd hm (some_ne_none m).symm⟩
  · rw [named_out_of_range g hrange, dif_neg (by omega), ite_self]
    exact ⟨rfl, fun m hm => absurd hm (some_ne_none m).symm⟩
  · obtain ⟨-, hslot, hl, -⟩ := (resolve_eq_some_iff _ _ m).mp hm
    have hne : a.parent ≠ handleNull := by
      intro h
      rw [h] at hm
      exact some_ne_none m hm.symm
    have hlt : (capHandleSlot a.parent).toNat < tableMax := hslot ▸ m.isLt
    have hmm : (⟨(capHandleSlot a.parent).toNat, hlt⟩ : Fin 64) = m := Fin.ext hslot
    rw [named_of_resolve hg hm, if_neg hne, dif_pos hlt, hmm]
    refine ⟨rfl, ?_⟩
    intro _ hm'
    obtain rfl := some.inj hm'
    exact hl

theorem faithful_step (hg : GenFaithful g) (hF : Faithful g) (hs : SafeGrant g.table op) :
    Faithful (tstep g op) := by
  cases hf : fresh g.table op with
  | none =>
    rw [tstep_of_none hf]
    intro j k hj hc
    -- links stay, and a row live now was live before
    have hlinks : parentSlot (step g.table op) = parentSlot g.table :=
      funext (parentSlot_step_of_none hf)
    have hj0 : (g.table j).live := by
      rcases live_step_cases hj with ⟨hl, -⟩ | ⟨a, ha, -⟩
      · exact hl
      · rw [hf] at ha; exact nomatch ha
    simp only [hlinks] at hc ⊢
    exact hF j k hj0 hc
  | some ia =>
    obtain ⟨i, a⟩ := ia
    obtain ⟨hep, -, hpar, -, hother⟩ := tstep_of_some hf
    obtain ⟨hnamed, hplive⟩ := named_eq_parentSlot hg hf hs
    have havoid : ∀ j, (g.table j).live → ∀ k, Climbs (parentSlot g.table) j k → k ≠ i := by
      rintro j hj k hc rfl
      exact (hs k a hf).2 j hj hc
    have hgrantAt : ∀ m, m ≠ i → (tstep g op).grantAt m = g.grantAt m := by
      intro m hm
      simp only [Traced.grantAt, hep, update_of_ne hm]
    -- a chain that starts at a row live before the grant
    have hold : ∀ j k, (g.table j).live → Climbs (parentSlot (tstep g op).table) j k →
        (tstep g op).parentOf k ((tstep g op).epoch k)
          = (parentSlot (tstep g op).table k).map (tstep g op).grantAt := by
      intro j k hj hc
      rw [tstep_table] at hc ⊢
      have hc0 := climbs_step_of_avoids hf (havoid j hj) hc
      have hk := havoid j hj k hc0
      rw [hep, update_of_ne hk, (hother k hk).2, hF j k hj hc0, parentSlot_step_of_some hf hk]
      cases hp : parentSlot g.table k with
      | none => rfl
      | some m =>
        have hm := havoid j hj m (Relation.ReflTransGen.tail hc0 hp)
        rw [map_some, map_some, hgrantAt m hm]
    intro j k hj hc
    rw [tstep_table] at hj
    rcases live_step_cases hj with ⟨hl, -⟩ | ⟨_, hb, -⟩
    · exact hold j k hl hc
    · -- the granted row itself, then the chain of its live parent
      have hji : i = j := congrArg Prod.fst (some.inj (hf.symm.trans hb))
      subst hji
      rcases Relation.ReflTransGen.cases_head hc with hik | ⟨m, hm, hrest⟩
      · subst hik
        rw [hep, update_self, hpar, hnamed, tstep_table]
        cases hp : parentSlot (step g.table op) i with
        | none => rfl
        | some m =>
          have hmi : m ≠ i := havoid m (hplive m hp) m Relation.ReflTransGen.refl
          rw [map_some, map_some, hgrantAt m hmi]
      · rw [tstep_table] at hm
        exact hold m k (hplive m hm) hrest

theorem faithful_run (ops : List HandleOp)
    (hs : Along tstep (fun g op => SafeGrant g.table op) tracedReset ops) :
    Faithful (run tstep tracedReset ops) := by
  refine (run_inv (I := fun g => GenFaithful g ∧ Faithful g) ?_ ops tracedReset ?_ hs).2
  · intro _ op h hsafe
    exact ⟨genFaithful_step h.1 op, faithful_step h.1 h.2 hsafe⟩
  · refine ⟨genFaithful_run [], ?_⟩
    intro _ _ hj
    exact nomatch live_resetRow.symm.trans hj

/-! ## The two cascades agree -/

/-- From a live row, the slot chain and the grant chain are the same chain. -/
theorem descends_iff_climbs (hF : Faithful g) (hj : (g.table j).live) (root : Fin 64) :
    Descends g (g.grantAt j) (g.grantAt root) ↔ Climbs (parentSlot g.table) j root := by
  constructor
  · -- every grant on the chain is the latest of a slot on the slot chain
    have hslots : ∀ x, Descends g (g.grantAt j) x →
        ∃ k, x = g.grantAt k ∧ Climbs (parentSlot g.table) j k := by
      intro _ hx
      induction hx with
      | refl => exact ⟨j, rfl, Relation.ReflTransGen.refl⟩
      | tail _ hlink ih =>
        obtain ⟨k, rfl, hc⟩ := ih
        have hpar := hF j k hj hc
        rw [show g.parentOf k (g.epoch k) = _ from hlink] at hpar
        obtain ⟨m, hm, hy⟩ := map_eq_some_iff.mp hpar.symm
        exact ⟨m, hy.symm, Relation.ReflTransGen.tail hc hm⟩
    intro h
    obtain ⟨k, hk, hc⟩ := hslots _ h
    rw [show root = k from congrArg Prod.fst hk]
    exact hc
  · intro hc
    induction hc with
    | refl => exact Relation.ReflTransGen.refl
    | tail hc hlink ih =>
      have hpar := hF j _ hj hc
      rw [hlink] at hpar
      exact Relation.ReflTransGen.tail ih hpar

/-- **CASCADE BY GRANT**: in every run whose fresh grants are safe, the cascade from a live handle
    revokes exactly the live rows whose grants descend from its grant. -/
theorem subtree_by_grant (ops : List HandleOp)
    (hs : Along tstep (fun g op => SafeGrant g.table op) tracedReset ops)
    (h : BitVec 32) (root : Fin 64) :
    let g := run tstep tracedReset ops
    resolve g.table h = some root → (capHandleRevokeSubtree g.table h).2 = .ok
      ∧ ∀ i, ((g.table i).live = true ∧ Descends g (g.grantAt i) (g.grantAt root) →
          (capHandleRevokeSubtree g.table h).1 i = (g.table i).revoke)
        ∧ (¬ ((g.table i).live = true ∧ Descends g (g.grantAt i) (g.grantAt root)) →
          (capHandleRevokeSubtree g.table h).1 i = g.table i) := by
  intro g hr
  have hF : Faithful g := faithful_run ops hs
  have hspec := capHandleRevokeSubtree_spec g.table h
  simp only [hr] at hspec
  rw [hspec]
  refine ⟨rfl, fun i => ⟨?_, ?_⟩⟩
  · rintro ⟨hl, hd⟩
    have hv := (visited_iff g.table root i).mpr ((descends_iff_climbs hF hl root).mp hd)
    simp [revokeWhere, hv, hl]
  · intro hno
    have hb : ¬ (capHandleVisitedGet (subtreeVisited g.table root) i
        && (g.table i).live) = true := by
      rw [Bool.and_eq_true]
      rintro ⟨hv, hl⟩
      exact hno ⟨hl, (descends_iff_climbs hF hl root).mpr ((visited_iff g.table root i).mp hv)⟩
    simp only [revokeWhere, if_neg hb]

/-- A child granted under a live handle: the run is safe, and the child is revoked with its parent.
    -/
theorem subtree_by_grant_child :
    let t := (run tstep tracedReset [.grant 0 1, .grantChild 1 1 0x40010000#32]).table
    resolve t 0x40010000#32 = some 0
      ∧ (capHandleRevokeSubtree t 0x40010000#32).1 1 = (t 1).revoke := by
  have hsafe : Along tstep (fun g op => SafeGrant g.table op) tracedReset
      [.grant 0 1, .grantChild 1 1 0x40010000#32] := by
    refine ⟨?_, ?_, trivial⟩
    · intro _ _ hf
      obtain rfl := some.inj (fresh_spec hf).1
      refine ⟨Or.inl rfl, fun j hj => ?_⟩
      exact nomatch live_resetRow.symm.trans hj
    · intro _ _ hf
      obtain rfl := some.inj (fresh_spec hf).1
      refine ⟨Or.inr (Or.inr ⟨0, by decide +kernel⟩), ?_⟩
      -- no row records a parent yet, and the granted slot is not live
      intro _ hj hc
      rcases Relation.ReflTransGen.cases_head hc with rfl | ⟨_, hm, -⟩
      · rw [findFreeSlot_not_live (fresh_spec hf).2.2.2] at hj
        exact nomatch hj
      · have hnone : ∀ k, parentSlot (tstep tracedReset (.grant 0 1)).table k = none := by
          decide +kernel
        rw [hnone] at hm
        exact nomatch hm
  refine ⟨by decide +kernel, ?_⟩
  refine ((subtree_by_grant _ hsafe 0x40010000#32 0 (by decide +kernel)).2 1).1 ?_
  exact ⟨by decide +kernel, Relation.ReflTransGen.single (by decide +kernel)⟩

/-! ## A reused slot -/

/-- A parent in slot 0 and its child in slot 1; the parent is revoked and slot 0 goes to a stranger.
    -/
def reuseTail : List HandleOp :=
  [.grant 1 1, .grantChild 2 1 0x40030000#32, .revoke 0x40030000#32, .grant 3 1]

/-- With every slot spent, the stranger is the recorded parent of a child it never granted. -/
theorem reuseTail_strands (hspent : g.table = spentTable 64 2#32) (hgen : GenFaithful g)
    (hg' : g' = run tstep g reuseTail) : resolve g'.table 0x40050000#32 = some 0 ∧ (g'.table 1).live
      ∧ ¬ Descends g' (g'.grantAt 1) (g'.grantAt 0)
      ∧ (capHandleRevokeSubtree g'.table 0x40050000#32).1 1 = (g'.table 1).revoke := by
  rw [hg', reuseTail]
  -- the four calls of the tail, one after the other
  have hf1 : fresh g.table (.grant 1 1) = some (0, ⟨1, 1, 1, handleNull⟩) := by
    rw [hspent]; decide +kernel
  obtain ⟨hep1, -, hpar1, -, -⟩ := tstep_of_some hf1
  have hgen1 := genFaithful_step hgen (.grant 1 1)
  have ht1 : (tstep g (.grant 1 1)).table = step (spentTable 64 2#32) (.grant 1 1) := by
    rw [tstep_table, hspent]
  rw [run_cons]
  generalize tstep g (.grant 1 1) = g1 at *
  have hr1 : resolve g1.table 0x40030000#32 = some 0 := by rw [ht1]; decide +kernel
  have hf2 : fresh g1.table (.grantChild 2 1 0x40030000#32)
      = some (1, ⟨2, 2, 1, 0x40030000#32⟩) := by
    rw [ht1]; decide +kernel
  obtain ⟨hep2, -, hpar2, -, hother2⟩ := tstep_of_some hf2
  have ht2 := tstep_table g1 (.grantChild 2 1 0x40030000#32)
  rw [ht1] at ht2
  rw [run_cons]
  generalize tstep g1 (.grantChild 2 1 0x40030000#32) = g2 at *
  have hf3 : fresh g2.table (.revoke 0x40030000#32) = none := rfl
  have ht3 := tstep_table g2 (.revoke 0x40030000#32)
  have hep3 : (tstep g2 (.revoke 0x40030000#32)).epoch = g2.epoch := by rw [tstep_of_none hf3]
  have hpar3 : (tstep g2 (.revoke 0x40030000#32)).parentOf = g2.parentOf := by
    rw [tstep_of_none hf3]
  rw [ht2] at ht3
  rw [run_cons]
  generalize tstep g2 (.revoke 0x40030000#32) = g3 at *
  have hf4 : fresh g3.table (.grant 3 1) = some (0, ⟨3, 3, 1, handleNull⟩) := by
    rw [ht3]; decide +kernel
  obtain ⟨hep4, -, -, hpast4, hother4⟩ := tstep_of_some hf4
  have ht4 := tstep_table g3 (.grant 3 1)
  rw [ht3] at ht4
  rw [run_cons, run_nil]
  refine ⟨by rw [ht4]; decide +kernel, by rw [ht4]; decide +kernel, ?_, by rw [ht4]; decide +kernel⟩
  · intro hd
    -- the child's only ancestor is the first grant of the pair of slot 0
    have hchild : g2.parentOf 1 (g2.epoch 1) = some (0, g.epoch 0 + 1) := by
      rw [hep2, update_self, hpar2, named_of_resolve hgen1 hr1, Traced.grantAt, hep1, update_self]
    have htop : g2.parentOf 0 (g.epoch 0 + 1) = none := by
      rw [(hother2 0 (by decide)).2, hpar1, named_null]
    have hep0 : g2.epoch 0 = g.epoch 0 + 1 := by
      rw [hep2, update_of_ne (by decide), hep1, update_self]
    rw [Traced.grantAt, Traced.grantAt, hep4, update_self,
      update_of_ne (by decide), hep3, hep0] at hd
    rcases Relation.ReflTransGen.cases_head hd with he | ⟨_, hy, hrest⟩
    · exact absurd (congrArg Prod.fst he) (show (1 : Fin 64) ≠ 0 by decide)
    · rw [(hother4 1 (by decide)).2, hpar3, hchild] at hy
      obtain rfl := some.inj hy
      rcases Relation.ReflTransGen.cases_head hrest with he | ⟨_, hz, -⟩
      · exact absurd (congrArg Prod.snd he) (Nat.ne_of_lt (Nat.lt_succ_self _))
      · rw [hpast4 _ (by rw [hep3, hep0]; omega), hpar3, htop] at hz
        exact nomatch hz

/-- The cascade from the stranger's handle revokes the child, which descends from the revoked parent
    only. -/
theorem subtree_takes_stranger : ∃ (ops : List HandleOp) (h : BitVec 32) (root i : Fin 64),
    let g := run tstep tracedReset ops
    resolve g.table h = some root ∧ (g.table i).live = true
      ∧ ¬ Descends g (g.grantAt i) (g.grantAt root)
      ∧ (capHandleRevokeSubtree g.table h).1 i = (g.table i).revoke := by
  refine ⟨regrantCycles 64 ++ reuseTail, 0x40050000#32, 0, 1, ?_⟩
  refine reuseTail_strands ?_ (genFaithful_run (regrantCycles 64)) (run_append ..)
  rw [run_tstep_table]
  exact run_cycles_unused 64 (Nat.le_refl 64)

end CapHandle
