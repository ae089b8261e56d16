import Mathlib.Order.Fin.Basic
import SecureOS.AddressSpaceModel

/-! # Address-space windows over the integers

The bounds test and the carving compute with 64-bit words.  For a window that ends within the
address space no sum wraps, and what the test says is the statement over the integers. -/

namespace AddressSpace

/-- The exclusive end of a window, over the integers. -/
def Window.finish (w : Window) : Nat := w.base.toNat + w.size.toNat

theorem Window.toNat_end {w : Window} (hw : w.finish ≤ uintptrMax) :
    (w.base + w.size).toNat = w.finish := by
  rw [BitVec.toNat_add]
  simp only [Window.finish, uintptrMax] at hw ⊢
  omega

/-- **THE BOUNDS TEST WITHOUT WRAP.** -/
theorem aspaceContains_iff (hw : w.finish ≤ uintptrMax) (ptr : BitVec 64) (len : Nat) :
    aspaceContains (some w) ptr len
      ↔ w.base.toNat ≤ ptr.toNat ∧ ptr.toNat < w.finish ∧ ptr.toNat + len ≤ w.finish := by
  have hend := Window.toNat_end hw
  have hsize : ¬ w.size.toNat > uintptrMax - w.base.toNat := by
    simp only [Window.finish] at hw
    omega
  simp only [aspaceContains, if_neg hsize]
  split
  next hout =>
    rw [hend] at hout
    constructor
    · rintro ⟨⟩
    · intro hin
      omega
  next hin =>
    -- The pointer is inside, so the headroom is the distance to the end.
    rw [hend, not_or, Nat.not_lt, Nat.not_le] at hin
    have hroom : (w.base + w.size - ptr).toNat = w.finish - ptr.toNat := by
      rw [BitVec.toNat_sub_of_le (BitVec.le_def.mpr (hend ▸ hin.2.le)), hend]
    rw [hroom]
    split
    next _ => exact ⟨nofun, fun h => absurd h.2.2 (by omega)⟩
    next _ => exact ⟨fun _ => ⟨hin.1, hin.2, by omega⟩, fun _ => rfl⟩

section Carving

theorem aspaceWindowAlignDown_le (v : BitVec 64) : (aspaceWindowAlignDown v).toNat ≤ v.toNat := by
  rw [aspaceWindowAlignDown, BitVec.toNat_and]
  exact Nat.and_le_left

/-- A window at `start`, its stack at the top and its scratch space at the bottom, as numbers. -/
structure Carved (w : Window) (start per : Nat) : Prop where
  base : w.base.toNat = start
  size : w.size.toNat = per
  top : w.stackTop.toNat = start + per
  scratch : w.ipcScratch = w.base
  room : 16464 ≤ per
  ends : start + per ≤ uintptrMax

theorem Carved.finish (hc : Carved w start per) : w.finish = start + per := by
  rw [Window.finish, hc.base, hc.size]

theorem Carved.finish_le (hc : Carved w start per) : w.finish ≤ uintptrMax :=
  hc.finish ▸ hc.ends

theorem Carved.invariantOk (hc : Carved w start per) : aspaceInvariantOk (some w) := by
  have hend : (w.base + w.size).toNat = start + per := by
    rw [Window.toNat_end hc.finish_le, hc.finish]
  have hroom := hc.room
  have hends := hc.ends
  have hsize : w.size ≠ 0 := by
    intro h0
    rw [← hc.size, h0] at hroom
    exact absurd hroom (by decide)
  have hscratch : aspaceContains (some w) w.ipcScratch ipcMsgPayloadMax := by
    rw [aspaceContains_iff hc.finish_le, hc.scratch, hc.finish, hc.base]
    simp only [ipcMsgPayloadMax]
    omega
  simp only [aspaceInvariantOk, if_neg hsize, hc.size, hc.base, hc.top, hend, hscratch]
  rw [if_neg (by omega), if_neg (by omega), if_neg (by omega), if_neg (by simp)]

/-- The windows stand one behind the other from the arena's base on and end in the arena. -/
theorem aspacePartition_carved {out ws : Fin n → Window} (hn : n < 2 ^ 64)
    (harena : arenaBase.toNat + arenaSize.toNat ≤ uintptrMax)
    (hok : aspacePartition arenaBase arenaSize out = (ws, .ok)) : ∃ per, per * n ≤ arenaSize.toNat
      ∧ ∀ i, Carved (ws i) (arenaBase.toNat + per * i.val) per := by
  simp only [aspacePartition] at hok
  split at hok
  · cases hok
  split at hok
  · cases hok
  next hroom =>
    have hroom' := BitVec.le_def.mp (BitVec.not_lt.mp hroom)
    have hper := aspaceWindowAlignDown_le (arenaSize / BitVec.ofNat 64 n)
    rw [BitVec.toNat_udiv, BitVec.toNat_ofNat, Nat.mod_eq_of_lt hn] at hper
    generalize aspaceWindowAlignDown (arenaSize / BitVec.ofNat 64 n) = per at hok hroom' hper
    have hfits := (Nat.mul_le_mul_right n hper).trans (Nat.div_mul_le_self _ n)
    refine ⟨per.toNat, hfits, fun i => ?_⟩
    obtain rfl : (fun i => carvedWindow arenaBase per i.val) = ws := congrArg Prod.fst hok
    -- No product or sum below the arena's end wraps.
    have hlast := (Nat.mul_le_mul_left per.toNat i.isLt).trans hfits
    rw [Nat.mul_succ] at hlast
    simp only [uintptrMax] at harena
    have hoff : (per * BitVec.ofNat 64 i.val).toNat = per.toNat * i.val := by
      rw [BitVec.toNat_mul, BitVec.toNat_ofNat, Nat.mod_eq_of_lt (i.isLt.trans hn)]
      exact Nat.mod_eq_of_lt (by omega)
    have hbase : (arenaBase + per * BitVec.ofNat 64 i.val).toNat
        = arenaBase.toNat + per.toNat * i.val := by
      rw [BitVec.toNat_add, hoff]
      exact Nat.mod_eq_of_lt (by omega)
    refine ⟨hbase, rfl, ?_, rfl, hroom', by simp only [uintptrMax]; omega⟩
    show (arenaBase + per * BitVec.ofNat 64 i.val + per).toNat = _
    rw [BitVec.toNat_add, hbase]
    exact Nat.mod_eq_of_lt (by omega)

/-- **THE WINDOWS OF A CARVED ARENA** lie in it one behind the other and keep the invariant; a
    message at the scratch pointer ends below the stack; the bounds test is exact. -/
theorem aspacePartition_windows {out ws : Fin n → Window} (hn : n < 2 ^ 64)
    (harena : arenaBase.toNat + arenaSize.toNat ≤ uintptrMax)
    (hok : aspacePartition arenaBase arenaSize out = (ws, .ok)) :
    (∀ i, arenaBase.toNat ≤ (ws i).base.toNat ∧ (ws i).finish ≤ arenaBase.toNat + arenaSize.toNat
        ∧ aspaceInvariantOk (some (ws i)) = true)
      ∧ (∀ i j, i < j → (ws i).finish ≤ (ws j).base.toNat)
      ∧ (∀ i, (ws i).base.toNat ≤ (ws i).ipcScratch.toNat
          ∧ (ws i).ipcScratch.toNat + 80 + procKstackBytes.toNat ≤ (ws i).stackTop.toNat
          ∧ (ws i).stackTop.toNat ≤ (ws i).finish)
      ∧ (∀ i ptr len, aspaceContains (some (ws i)) ptr len = true
          ↔ (ws i).base.toNat ≤ ptr.toNat ∧ ptr.toNat < (ws i).finish
            ∧ ptr.toNat + len ≤ (ws i).finish)
      ∧ (∀ i j ptr len, 0 < len → aspaceContains (some (ws i)) ptr len = true →
          aspaceContains (some (ws j)) ptr len = true → i = j) := by
  obtain ⟨per, hfits, hc⟩ := aspacePartition_carved hn harena hok
  have hbefore : ∀ i j : Fin n, i < j → (ws i).finish ≤ (ws j).base.toNat := by
    intro i j hij
    have hmul := Nat.mul_le_mul_left per (Nat.succ_le_of_lt hij)
    rw [Nat.mul_succ] at hmul
    rw [(hc i).finish, (hc j).base]
    omega
  refine ⟨?_, hbefore, ?_, fun i => aspaceContains_iff (hc i).finish_le, ?_⟩
  · intro i
    have hlast := (Nat.mul_le_mul_left per i.isLt).trans hfits
    rw [Nat.mul_succ] at hlast
    rw [(hc i).base, (hc i).finish]
    exact ⟨Nat.le_add_right _ _, by omega, (hc i).invariantOk⟩
  · intro i
    have hk : procKstackBytes.toNat = 16384 := rfl
    have hroom := (hc i).room
    rw [(hc i).scratch, (hc i).top, (hc i).finish, (hc i).base, hk]
    omega
  · intro i j _ _ _ hi hj
    -- The pointer itself is in both windows, so neither stands before the other.
    rw [aspaceContains_iff (hc _).finish_le] at hi hj
    by_contra hne
    rcases lt_or_gt_of_ne hne with hlt | hlt
    · exact absurd (hbefore i j hlt) (by omega)
    · exact absurd (hbefore j i hlt) (by omega)

theorem lastArena_carved : aspacePartition (BitVec.ofNat 64 (uintptrMax - 32928)) 32928
        (fun _ : Fin 2 => ⟨0, 0, 0, 0⟩)
      = (fun i => carvedWindow (BitVec.ofNat 64 (uintptrMax - 32928)) 16464 i.val, .ok) := rfl

/-- Two windows of the smallest size, in an arena that ends with the address space. -/
theorem aspacePartition_windows_last :
    aspaceInvariantOk (some (carvedWindow (BitVec.ofNat 64 (uintptrMax - 32928)) 16464 1)) = true :=
  ((aspacePartition_windows (by decide) (by decide) lastArena_carved).1 1).2.2

end Carving

end AddressSpace
