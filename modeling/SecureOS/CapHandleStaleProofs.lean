import SecureOS.CapHandleTableProofs

/-! # When a revoked handle value comes back

A revoked handle fails because its row's generation moved on.  The counter moves on every
revocation AND on every grant, and the wire keeps fourteen bits of it, so the value comes back
after half as many revocations as the wire has generations.

* `accepted_iff` — after it was revoked, a value is accepted exactly when its row is live and
  8192 divides one plus the further revocations;
* `regrantCycle` — granting and revoking one pair walks through all 64 slots once and then turns
  on slot 0. -/

namespace CapHandle

open Capability MachineRun Function

/-- One of the three handle paths takes the value: a gate, the owner query, or a revoke. -/
def Accepted (t : Table) (v : BitVec 32) : Prop :=
  (∃ c, capGateCheckHandle t v c) ∨ capHandleOwner t v ≠ 0
    ∨ (capHandleRevoke t v).2 = .ok

theorem accepted_iff_resolve (t : Table) (v : BitVec 32) :
    Accepted t v ↔ ∃ i, resolve t v = some i := by
  have hspec := capHandleRevoke_spec t v
  rw [Accepted, capHandleOwner_eq]
  obtain hr | ⟨i, hr⟩ := Option.eq_none_or_eq_some (resolve t v)
  · simp only [hr] at hspec
    simp [hr, hspec.2, capGateCheckHandle_iff]
  · simp only [hr] at hspec
    constructor
    · intro _; exact ⟨i, hr⟩
    · intro _; exact Or.inr (Or.inr (by rw [hspec]))

/-- The call revokes the row at this slot. -/
def revokesRow (i : Fin 64) (t : Table) (op : HandleOp) : Bool := (t i).live && !(step t op i).live

/-- One for a live row. -/
def Row.lives (r : Row) : Nat := if r.live then 1 else 0

/-- One call moves a row's generation by one for a grant and one for a revocation. -/
theorem generation_step (t : Table) (op : HandleOp) (i : Fin 64) :
    (step t op i).generation + BitVec.ofNat 32 (t i).lives = (t i).generation
        + BitVec.ofNat 32 (2 * (if revokesRow i t op then 1 else 0) + (step t op i).lives) := by
  rcases step_row_cases t op i with h | ⟨hl, -, -, h⟩ | ⟨hl, _, -, h⟩
  · have hr : revokesRow i t op = false := by simp [revokesRow, h]
    simp [hr, h]
  · have hr : revokesRow i t op = true := by simp [revokesRow, h, hl]
    rw [hr, h]
    simp only [Row.lives, hl, live_revoke, if_true, Bool.false_eq_true, if_false]
    show (t i).generation + 1 + 1#32 = (t i).generation + 2#32
    rw [BitVec.add_assoc]
    rfl
  · have hr : revokesRow i t op = false := by simp [revokesRow, hl]
    rw [hr, h]
    simp only [Row.lives, hl, live_grantRow, if_true, Bool.false_eq_true, if_false]
    show (t i).generation + 1 + 0#32 = (t i).generation + 1#32
    rw [BitVec.add_zero]
    rfl

/-- The generation counts twice the revocations, but for whether the row is live at either end. -/
theorem generation_run (i : Fin 64) : ∀ (ops : List HandleOp) (t : Table),
      (run step t ops i).generation + BitVec.ofNat 32 (t i).lives
        = (t i).generation + BitVec.ofNat 32 (2 * hits step (revokesRow i) t ops
              + (run step t ops i).lives) := by
  intro ops
  induction ops with
  | nil => intro t; simp
  | cons op ops ih =>
    intro t
    have h1 := generation_step t op i
    have h2 := ih (step t op)
    rw [run_cons, hits_cons]
    generalize (run step (step t op) ops i).generation = g2 at *
    generalize (run step (step t op) ops i).lives = l2 at *
    generalize (step t op i).generation = g1 at *
    generalize (step t op i).lives = l1 at *
    generalize hits step (revokesRow i) (step t op) ops = n at *
    generalize (if revokesRow i t op then 1 else 0) = m at *
    generalize (t i).lives = l0 at *
    simp only [BitVec.toNat_eq, BitVec.toNat_add, BitVec.toNat_ofNat] at h1 h2 ⊢
    omega

variable {t : Table} {i : Fin 64}

/-- **THE WRAP**: a revoked value is accepted again exactly when its row is live and one plus the
    further revocations of the row is a multiple of
    8192. -/
theorem accepted_iff (hv : resolve t v = some i) (hr : (step t op i).live = false)
    (later : List HandleOp) (ht : run step (step t op) later = t') :
    Accepted t' v ↔ (t' i).live ∧ 8192 ∣ hits step (revokesRow i) (step t op) later + 1 := by
  obtain ⟨htag, hslot, hl, hst⟩ := (resolve_eq_some_iff t v i).mp hv
  rw [stale_eq_false_iff] at hst
  -- the revocation itself moved the generation by one
  have hrev : (step t op i).generation = (t i).generation + 1#32 := by
    rcases step_row_cases t op i with h | ⟨-, -, -, h⟩ | ⟨h, -⟩
    · rw [h, hl] at hr; exact nomatch hr
    · rw [h]; rfl
    · rw [hl] at h; exact nomatch h
  have hgen : (t' i).live → (t' i).generation.toNat
        = ((t i).generation.toNat + 2 * (hits step (revokesRow i) (step t op) later + 1))
          % 2 ^ 32 := by
    intro hl'
    have hrun := generation_run i later (step t op)
    rw [ht] at hrun
    have hl0 : (step t op i).lives = 0 := by simp [Row.lives, hr]
    have hl1 : (t' i).lives = 1 := by simp [Row.lives, hl']
    rw [hrev, hl0, hl1] at hrun
    simp only [BitVec.toNat_eq, BitVec.toNat_add, BitVec.toNat_ofNat] at hrun
    have hlt := (t' i).generation.isLt
    omega
  rw [accepted_iff_resolve]
  constructor
  · rintro ⟨j, hj⟩
    obtain ⟨-, hslot', hl', hst'⟩ := (resolve_eq_some_iff _ v j).mp hj
    have hji : j = i := Fin.ext (hslot'.symm.trans hslot)
    subst hji
    rw [stale_eq_false_iff] at hst'
    refine ⟨hl', ?_⟩
    rw [hgen hl', ← hst] at hst'
    omega
  · rintro ⟨hl', _⟩
    refine ⟨i, (resolve_eq_some_iff _ v i).mpr ⟨htag, hslot, hl', ?_⟩⟩
    rw [stale_eq_false_iff]
    rw [hgen hl', ← hst]
    omega

/-- **STALE MARGIN**: over every run from reset, a revoked value stays refused for 16384 further
    revocations of its slot except when its row is live after exactly 8191 or 16383 of them. -/
theorem staleMargin_iff (ops : List HandleOp) (v : BitVec 32) (i : Fin 64)
    (op : HandleOp) (later : List HandleOp) :
    let t := step (run step capHandleTableReset ops) op
    resolve (run step capHandleTableReset ops) v = some i → (t i).live = false →
      ((Accepted (run step t later) v → 16384 ≤ hits step (revokesRow i) t later)
        ↔ ¬ ((run step t later i).live = true
            ∧ (hits step (revokesRow i) t later = 8191
              ∨ hits step (revokesRow i) t later = 16383))) := by
  intro t hv hr
  rw [accepted_iff hv hr later rfl]
  generalize hits step (revokesRow i) t later = n
  constructor
  · rintro h ⟨hl, hn⟩
    have := h ⟨hl, by omega⟩
    omega
  · rintro h ⟨hl, _⟩
    by_contra hn
    exact h ⟨hl, by omega⟩

/-- The slot of a revoked value is granted again, revoked once more and granted: the value stays
    refused. -/
theorem staleMargin_regranted :
    ¬ Accepted (run step (step (run step capHandleTableReset [.grant 0 1]) (.revoke 0x40010000#32))
      [.grant 0 1, .tableRevoke 0 1, .grant 0 1]) 0x40010000#32 := by
  intro h
  have hmargin := (staleMargin_iff [.grant 0 1] 0x40010000#32 0 (.revoke 0x40010000#32)
    [.grant 0 1, .tableRevoke 0 1, .grant 0 1] (by decide) (by decide)).mpr (by decide +kernel) h
  exact absurd hmargin (by decide +kernel)

/-- Grant one pair and revoke it. -/
def regrantCycle : List HandleOp := [.grant 0 1, .tableRevoke 0 1]

/-- So many grant and revoke cycles. -/
def regrantCycles : Nat → List HandleOp
  | 0 => []
  | n + 1 => regrantCycles n ++ regrantCycle

/-- The row a grant of the pair writes. -/
def cycleRow (r : Row) : Row := r.grant 0 0 1 handleNull

section

variable (hdead : ∀ j, (t j).live = false)
include hdead

theorem step_grant_free (hi : capHandleFindFreeSlot t = some i) :
    step t (.grant 0 1) = update t i (cycleRow (t i)) := by
  have hnone : capHandleFindLive t 0 1 = none := by
    rw [findLive_eq_none_iff]
    intro j
    simp [Row.isLiveFor, hdead j]
  have hf : fresh t (.grant 0 1) = some (i, ⟨0, 0, 1, handleNull⟩) := by
    have hv : (⟨0, 0, 1, handleNull⟩ : GrantArgs).valid := by decide
    simp [fresh, HandleOp.grantArgs, hv, hnone, hi]
  rw [step_eq, hf]
  rfl

theorem step_revoke_granted (i : Fin 64) : step (update t i (cycleRow (t i))) (.tableRevoke 0 1)
      = update t i (cycleRow (t i)).revoke := by
  have hrow : (cycleRow (t i)).isLiveFor 0 1 :=
    (isLiveFor_iff _ _ _).mpr ⟨live_grantRow ⟨0, 0, 1, handleNull⟩ _, rfl, rfl⟩
  have hfind : capHandleFindLive (update t i (cycleRow (t i))) 0 1 = some i := by
    refine Fin.find?_eq_some_iff.mpr ⟨by rw [update_self]; exact hrow, ?_⟩
    intro j hj
    rw [update_of_ne (Fin.ne_of_lt hj)]
    simp [Row.isLiveFor, hdead j]
  have hv1 : capHandleSubjectValid 0 := by decide
  have hv2 : capHandleCapIdValid 1 := by decide
  show (capHandleTableRevoke _ 0 1).1 = _
  simp [capHandleTableRevoke, hv1, hv2, hfind]

/-- With no live row, one cycle writes the first free slot twice. -/
theorem run_regrantCycle (hi : capHandleFindFreeSlot t = some i) :
    run step t regrantCycle = update t i (cycleRow (t i)).revoke := by
  rw [regrantCycle, run_cons, run_cons, run_nil, step_grant_free hdead hi,
    step_revoke_granted hdead]

end

/-- The row cycles leave behind, at a generation. -/
def spentRow (g : BitVec 32) : Row := ⟨abiVersionV0, flagRevoked, 1, 0, 0, handleNull, g⟩

theorem live_spentRow (g : BitVec 32) : (spentRow g).live = false := by
  show decide (flagRevoked &&& flagLive ≠ 0) = false
  decide

theorem revoked_spentRow (g : BitVec 32) : (spentRow g).revoked := by
  show decide (flagRevoked &&& flagRevoked ≠ 0) = true
  decide

/-- The first `k` slots are spent, slot 0 at generation `g`; the others are unused. -/
def spentTable (k : Nat) (g : BitVec 32) : Table := fun i =>
  if i.val < k then spentRow (if i = 0 then g else 2#32) else resetRow

theorem spentTable_dead (k : Nat) (g : BitVec 32) (j : Fin 64) :
    (spentTable k g j).live = false := by
  rw [spentTable]
  split
  · exact live_spentRow _
  · exact live_resetRow

/-- While unused slots remain, a cycle spends the next one. -/
theorem run_cycle_unused (hk : k < 64) :
    run step (spentTable k 2#32) regrantCycle = spentTable (k + 1) 2#32 := by
  have hi : capHandleFindFreeSlot (spentTable k 2#32) = some ⟨k, hk⟩ := by
    have hfirst : Fin.find? (fun i => !(spentTable k 2#32 i).live && !(spentTable k 2#32 i).revoked)
        = some ⟨k, hk⟩ := by
      refine Fin.find?_eq_some_iff.mpr ⟨?_, ?_⟩
      · simp only [spentTable, Nat.lt_irrefl, if_false]
        decide
      · intro j hj
        have hj' : j.val < k := hj
        simp [spentTable, hj', revoked_spentRow]
    unfold capHandleFindFreeSlot
    rw [hfirst]
  rw [run_regrantCycle (spentTable_dead k _) hi]
  funext j
  by_cases hj : j = ⟨k, hk⟩
  · subst hj
    rw [update_self]
    simp only [spentTable, Nat.lt_irrefl, if_false, Nat.lt_succ_self, if_true, ite_self]
    rfl
  · have hne : j.val ≠ k := fun h => hj (Fin.ext h)
    rw [update_of_ne hj]
    simp only [spentTable, ite_self]
    by_cases hlt : j.val < k
    · rw [if_pos hlt, if_pos (by omega)]
    · rw [if_neg hlt, if_neg (by omega)]

theorem run_cycles_unused : ∀ k, k ≤ 64 →
    run step capHandleTableReset (regrantCycles k) = spentTable k 2#32 := by
  intro k
  induction k with
  | zero =>
    intro _
    funext j
    simp [regrantCycles, spentTable, capHandleTableReset]
  | succ _ ih =>
    intro _
    rw [regrantCycles, run_append, ih (by omega), run_cycle_unused (by omega)]

section

variable (g : BitVec 32)

theorem spentTable_all (j : Fin 64) :
    spentTable 64 g j = spentRow (if j = 0 then g else 2#32) :=
  if_pos j.isLt

theorem spentTable_free : capHandleFindFreeSlot (spentTable 64 g) = some 0 := by
  have hfirst : Fin.find? (fun i => !(spentTable 64 g i).live && !(spentTable 64 g i).revoked)
      = none := by
    rw [Fin.find?_eq_none_iff]
    intro j
    rw [spentTable_all, revoked_spentRow]
    simp
  have hsecond : Fin.find? (fun i => !(spentTable 64 g i).live) = some 0 := by
    refine Fin.find?_eq_some_iff.mpr ⟨by rw [spentTable_dead]; rfl, ?_⟩
    intro j hj
    exact absurd hj (Fin.not_lt_zero j)
  unfold capHandleFindFreeSlot
  rw [hfirst]
  exact hsecond

/-- Once every slot is spent, cycles turn on slot 0. -/
theorem run_cycle_spent : run step (spentTable 64 g) regrantCycle = spentTable 64 (g + 2#32) := by
  rw [run_regrantCycle (spentTable_dead 64 g) (spentTable_free g)]
  funext j
  rw [update_apply, spentTable_all, spentTable_all, spentTable_all]
  split
  · show (⟨_, _, _, _, _, _, g + 1 + 1⟩ : Row) = ⟨_, _, _, _, _, _, g + 2#32⟩
    rw [BitVec.add_assoc]
    rfl
  · rfl

theorem hits_cycle_spent : hits step (revokesRow 0) (spentTable 64 g) regrantCycle = 1 := by
  have h1 := step_grant_free (spentTable_dead 64 g) (spentTable_free g)
  have h2 := step_revoke_granted (spentTable_dead 64 g) 0
  have hlive : (cycleRow (spentTable 64 g 0)).live := live_grantRow ⟨0, 0, 1, handleNull⟩ _
  simp [regrantCycle, revokesRow, h1, h2, spentTable_dead, hlive]

theorem run_cycles_spent : ∀ n,
    run step (spentTable 64 g) (regrantCycles n) = spentTable 64 (g + BitVec.ofNat 32 (2 * n))
      ∧ hits step (revokesRow 0) (spentTable 64 g) (regrantCycles n) = n := by
  intro n
  induction n with
  | zero => simp [regrantCycles]
  | succ _ ih =>
    obtain ⟨h1, h2⟩ := ih
    rw [regrantCycles, run_append, hits_append, h1, h2, run_cycle_spent, hits_cycle_spent]
    refine ⟨?_, rfl⟩
    congr 1
    rw [BitVec.toNat_eq]
    simp only [BitVec.toNat_add, BitVec.toNat_ofNat]
    omega

end

/-- The table with slot 0 granted from generation `g`. -/
def grantedTable (g : BitVec 32) : Table :=
  update (spentTable 64 g) 0 (cycleRow (spentTable 64 g 0))

theorem step_grant_spent (g : BitVec 32) : step (spentTable 64 g) (.grant 0 1) = grantedTable g :=
  step_grant_free (spentTable_dead 64 g) (spentTable_free g)

theorem step_revoke_grantedTable (g : BitVec 32) :
    step (grantedTable g) (.tableRevoke 0 1) = spentTable 64 (g + 2#32) := by
  rw [← run_cycle_spent, regrantCycle, run_cons, run_cons, run_nil, step_grant_spent]

theorem grantedTable_live (g : BitVec 32) : (grantedTable g 0).live := by
  rw [grantedTable, update_self]
  exact live_grantRow ⟨0, 0, 1, handleNull⟩ _

/-- The value granted in slot 0 with every slot spent is accepted again 8191 revocations later. -/
theorem staleMargin_halved :
    let t := run step capHandleTableReset (regrantCycles 64 ++ [.grant 0 1])
    let t' := step t (.tableRevoke 0 1)
    resolve t 0x40030000#32 = some 0 ∧ (t' 0).live = false
      ∧ Accepted (run step t' (regrantCycles 8191 ++ [.grant 0 1])) 0x40030000#32
      ∧ hits step (revokesRow 0) t' (regrantCycles 8191 ++ [.grant 0 1]) = 8191 := by
  have hrun : run step capHandleTableReset (regrantCycles 64 ++ [.grant 0 1])
      = grantedTable 2#32 := by
    rw [run_append, run_cycles_unused 64 (Nat.le_refl 64), run_cons,
      run_nil, step_grant_spent]
  have hval : capHandleFromRow (grantedTable 2#32) 0 = 0x40030000#32 := by
    rw [BitVec.toNat_eq, capHandleFromRow_toNat, grantedTable, Function.update_self,
      spentTable_all]
    rfl
  have hv : resolve (grantedTable 2#32) 0x40030000#32 = some 0 :=
    hval ▸ resolve_fromRow (grantedTable_live 2#32)
  have hdead : (step (grantedTable 2#32) (.tableRevoke 0 1) 0).live = false := by
    rw [step_revoke_grantedTable]
    exact spentTable_dead 64 _ 0
  obtain ⟨hcycles, hcount⟩ := run_cycles_spent (2#32 + 2#32) 8191
  have hhits : hits step (revokesRow 0) (step (grantedTable 2#32) (.tableRevoke 0 1))
      (regrantCycles 8191 ++ [.grant 0 1]) = 8191 := by
    rw [step_revoke_grantedTable, hits_append, hcount, hcycles, hits_cons, hits_nil]
    have hno : revokesRow 0 (spentTable 64 (2#32 + 2#32 + BitVec.ofNat 32 (2 * 8191)))
        (.grant 0 1) = false := by
      rw [revokesRow, spentTable_dead]
      rfl
    rw [hno]
    rfl
  intro t t'
  rw [show t' = step t _ from rfl, show t = _ from hrun]
  refine ⟨hv, hdead, (accepted_iff hv hdead _ rfl).mpr ⟨?_, ?_⟩, hhits⟩
  · rw [step_revoke_grantedTable, run_append, hcycles, run_cons, run_nil, step_grant_spent]
    exact grantedTable_live _
  · rw [hhits]

end CapHandle
