import SecureOS.NativeElfModel

/-! # Where the loader writes

The check of a segment against the end of the window is `p_memsz > APP_NATIVE_LOAD_MAX -
p_vaddr` in 64-bit words.  It means what it says while the segment begins below the end of the
window; above, the difference wraps and every size passes. -/

namespace NativeElf

open Sof List

/-- The application window. -/
def InWindow (addr : BitVec 64) : Prop := loadMin ≤ addr ∧ addr < loadMax

/-- What the checks have found of a segment that is loaded. -/
theorem verdict_load (h : verdict elfLen ph = .load) :
    ph.pFilesz ≤ ph.pMemsz ∧ loadMin ≤ ph.pVaddr ∧ ph.pMemsz ≤ loadMax - ph.pVaddr := by
  revert h
  fun_cases verdict elfLen ph with
  | case5 _ hsize _ haddr =>
    rw [not_or, BitVec.not_lt, BitVec.not_lt] at haddr
    exact fun _ => ⟨BitVec.not_lt.mp hsize, haddr.1, haddr.2⟩
  | _ => rintro ⟨⟩

/-- A segment that begins in the window, or at its end, is written inside it. -/
theorem segmentWrites_inWindow (elfData : Memory) (hfile : ph.pFilesz ≤ ph.pMemsz)
    (hmin : loadMin ≤ ph.pVaddr) (hmem : ph.pMemsz ≤ loadMax - ph.pVaddr)
    (hbegin : ph.pVaddr ≤ loadMax) : ∀ w ∈ segmentWrites elfData ph, InWindow w.addr := by
  have hend : ph.pVaddr.toNat + ph.pMemsz.toNat ≤ loadMax.toNat := by bv_omega
  have hfits : ph.pFilesz.toNat ≤ ph.pMemsz.toNat := hfile
  have hoffset {base : BitVec 64} {j : Nat} (hlow : loadMin ≤ base)
      (hhigh : base.toNat + j < loadMax.toNat) : InWindow (base + BitVec.ofNat 64 j) := by
    rw [loadMax] at hhigh
    rw [loadMin] at hlow
    constructor
    · rw [loadMin]
      bv_omega
    · rw [loadMax]
      bv_omega
  intro _ hw
  rcases mem_append.mp hw with hw | hw
  · obtain ⟨_, hj, rfl⟩ := mem_map.mp hw
    have hj := mem_range.mp hj
    exact hoffset hmin (by omega)
  · split at hw
    · obtain ⟨_, hj, rfl⟩ := mem_map.mp hw
      have hj := mem_range.mp hj
      rw [loadMax] at hend
      rw [loadMin] at hmin
      refine hoffset ?_ ?_
      · rw [loadMin]
        bv_omega
      · rw [loadMax]
        bv_omega
    · cases hw

/-- A segment with bytes that begins above the window is written above it. -/
theorem segmentWrites_outside (elfData : Memory) (hmem : ph.pMemsz ≠ 0)
    (hbegin : ¬ ph.pVaddr ≤ loadMax) : ∃ w ∈ segmentWrites elfData ph, ¬ InWindow w.addr := by
  have hout (b : Byte) : ¬ InWindow (Write.mk (ph.pVaddr + BitVec.ofNat 64 0) b).addr := by
    rintro ⟨-, hlt⟩
    rw [show ph.pVaddr + BitVec.ofNat 64 0 = ph.pVaddr from BitVec.add_zero _] at hlt
    exact hbegin (BitVec.le_of_lt hlt)
  by_cases hfile : ph.pFilesz = 0
  · -- nothing is copied, so the first byte is cleared
    have hgt : ph.pMemsz > ph.pFilesz := by bv_omega
    refine ⟨⟨ph.pVaddr + ph.pFilesz + BitVec.ofNat 64 0, 0⟩, mem_append_right _ ?_, ?_⟩
    · rw [if_pos hgt]
      exact mem_map_of_mem (mem_range.mpr (by bv_omega))
    · rw [hfile, BitVec.add_zero]
      exact hout 0
  · refine ⟨_, mem_append_left _ (mem_map_of_mem (mem_range.mpr ?_)), hout _⟩
    bv_omega

/-- **ONE SEGMENT** is written inside the window exactly if it is empty or does not begin above it.
    -/
theorem segmentWrites_inWindow_iff (elfData : Memory)
    (h : verdict elfLen ph = .load) : (∀ w ∈ segmentWrites elfData ph, InWindow w.addr)
      ↔ ph.pMemsz = 0 ∨ ph.pVaddr ≤ loadMax := by
  obtain ⟨hfile, hmin, hmem⟩ := verdict_load h
  constructor
  · intro hin
    by_contra hcond
    obtain ⟨hsome, hbegin⟩ := not_or.mp hcond
    obtain ⟨w, hw, hout⟩ := segmentWrites_outside elfData hsome hbegin
    exact hout (hin w hw)
  · rintro (hempty | hbegin)
    · have hzero : ph.pFilesz = 0 := by bv_omega
      intro _ hw
      rw [segmentWrites, hempty, hzero] at hw
      cases hw
    · exact segmentWrites_inWindow elfData hfile hmin hmem hbegin

section Loop

/-- The program header of a number. -/
def header (elfData : Memory) (ePhoff : BitVec 64) (ePhentsize : BitVec 16) (i : Nat) :
    ProgramHeader :=
  programHeader elfData (phOff ePhoff ePhentsize i).toNat

/-- The loop goes on behind the header: it lies in the image and is not refused. -/
def Passes (elfData : Memory) (elfLen ePhoff : BitVec 64) (ePhentsize : BitVec 16) (i : Nat) :
    Prop :=
  phOff ePhoff ePhentsize i + 56 ≤ elfLen
    ∧ ∀ e, verdict elfLen (header elfData ePhoff ePhentsize i) ≠ .refuse e

/-- If the segment of the header is loaded, it is empty or does not begin above the window. -/
def Lands (elfData : Memory) (elfLen ePhoff : BitVec 64) (ePhentsize : BitVec 16) (i : Nat) :
    Prop :=
  verdict elfLen (header elfData ePhoff ePhentsize i) = .load →
    (header elfData ePhoff ePhentsize i).pMemsz = 0
      ∨ (header elfData ePhoff ePhentsize i).pVaddr ≤ loadMax

/-- A property of the numbers a prefix reaches, one number at a time. -/
theorem forall_reached_succ {P L : Nat → Prop} (left i : Nat) :
    (∀ k, k < left + 1 → (∀ j, j ≤ k → P (i + j)) → L (i + k))
      ↔ (P i → L i ∧ ∀ k, k < left → (∀ j, j ≤ k → P (i + 1 + j)) → L (i + 1 + k)) := by
  constructor
  · intro h hi
    refine ⟨h 0 (Nat.succ_pos left) (fun j hj => ?_), fun k hk hreach => ?_⟩
    · rw [Nat.le_zero.mp hj]
      exact hi
    · rw [Nat.add_assoc, Nat.add_comm 1 k]
      refine h (k + 1) (Nat.succ_lt_succ hk) (fun j hj => ?_)
      cases j with
      | zero => exact hi
      | succ j =>
        rw [Nat.add_comm j 1, ← Nat.add_assoc]
        exact hreach j (Nat.le_of_succ_le_succ hj)
  · intro h k hk hreach
    obtain ⟨hfirst, hrest⟩ := h (hreach 0 (Nat.zero_le k))
    cases k with
    | zero => exact hfirst
    | succ k =>
      rw [Nat.add_comm k 1, ← Nat.add_assoc]
      refine hrest k (Nat.lt_of_succ_lt_succ hk) (fun j hj => ?_)
      rw [Nat.add_assoc, Nat.add_comm 1 j]
      exact hreach (j + 1) (Nat.succ_le_succ hj)

theorem loadSegments_stop (hnot : ¬ Passes elfData elfLen ePhoff ePhentsize i) :
    (loadSegments elfData elfLen ePhoff ePhentsize (left + 1) i hasLoad).1 = [] := by
  rw [loadSegments]
  dsimp only
  split
  · rfl
  · rename_i hin
    cases hv : verdict elfLen (programHeader elfData (phOff ePhoff ePhentsize i).toNat) with
    | refuse => rfl
    | _ =>
      refine absurd ⟨BitVec.not_lt.mp hin, fun e he => ?_⟩ hnot
      rw [header, hv] at he
      cases he

/-- **THE LOOP STAYS IN THE WINDOW** exactly if every segment it loads lands there. -/
theorem loadSegments_inWindow_iff (left i : Nat) (hasLoad : Bool) :
    (∀ w ∈ (loadSegments elfData elfLen ePhoff ePhentsize left i hasLoad).1, InWindow w.addr)
    ↔ ∀ k, k < left → (∀ j, j ≤ k → Passes elfData elfLen ePhoff ePhentsize (i + j)) →
      Lands elfData elfLen ePhoff ePhentsize (i + k) := by
  induction left generalizing i hasLoad with
  | zero => exact iff_of_true (fun w hw => by cases hw) (fun k hk => absurd hk (Nat.not_lt_zero k))
  | succ left ih =>
    refine Iff.trans ?_ (forall_reached_succ left i).symm
    by_cases hpass : Passes elfData elfLen ePhoff ePhentsize i
    · rw [forall_prop_of_true hpass, loadSegments]
      dsimp only
      rw [if_neg (BitVec.not_lt.mpr hpass.1), ← header]
      cases hv : verdict elfLen (header elfData ePhoff ePhentsize i) with
      | skip =>
        refine (ih (i + 1) hasLoad).trans ⟨fun h => ⟨fun hload => ?_, h⟩, fun h => h.2⟩
        rw [hv] at hload
        cases hload
      | refuse e => exact absurd hv (hpass.2 e)
      | load =>
        dsimp only
        rw [forall_mem_append, ih (i + 1) true, segmentWrites_inWindow_iff elfData hv]
        exact and_congr_left' ⟨fun h _ => h, fun h => h hv⟩
    · rw [loadSegments_stop hpass]
      exact iff_of_true (fun w hw => by cases hw) (fun h => absurd h hpass)

end Loop

/-- The program headers of the image are read from its own header. -/
def PassesAt (elfData : Memory) (elfLen : BitVec 64) (i : Nat) : Prop :=
  Passes elfData elfLen (appReadU64 elfData 32) (appReadU16 elfData 54) i

def LandsAt (elfData : Memory) (elfLen : BitVec 64) (i : Nat) : Prop :=
  Lands elfData elfLen (appReadU64 elfData 32) (appReadU16 elfData 54) i

theorem appExecuteNativeElf_writes (elfData : Memory) (elfLen : BitVec 64) :
    (appExecuteNativeElf elfData elfLen).1 = if !elfHeaderOk elfData elfLen then []
        else (loadSegments elfData elfLen (appReadU64 elfData 32) (appReadU16 elfData 54)
          (appReadU16 elfData 56).toNat 0 false).1 := by
  fun_cases appExecuteNativeElf elfData elfLen with
  | case1 h => rw [if_pos h]
  | _ h => rw [if_neg h]

/-- **THE LOADER STAYS IN ITS WINDOW** exactly if its image is refused at once, or every segment it
    loads is empty or does not begin above the end of the window. -/
theorem nativeElf_inWindow_iff (elfData : Memory) (elfLen : BitVec 64) :
    (∀ w ∈ (appExecuteNativeElf elfData elfLen).1, InWindow w.addr)
    ↔ (elfHeaderOk elfData elfLen = true →
      ∀ k, k < (appReadU16 elfData 56).toNat → (∀ j, j ≤ k → PassesAt elfData elfLen j) →
        LandsAt elfData elfLen k) := by
  rw [appExecuteNativeElf_writes]
  cases hok : elfHeaderOk elfData elfLen with
  | false => exact iff_of_true (fun w hw => by cases hw) (fun h => by cases h)
  | true =>
    rw [if_neg (by decide), loadSegments_inWindow_iff, forall_prop_of_true rfl]
    simp only [Nat.zero_add]
    exact Iff.rfl

/-- An image with one program header, for a segment at a place given by its low bytes. -/
def oneSegment (vaddr : List Byte) : Memory := fun i =>
  ([0x7F, 0x45, 0x4C, 0x46, 2, 1, 1] ++ List.replicate 9 0 ++ [2, 0, 62, 0, 1, 0, 0, 0]
    ++ [0, 0, 0x80, 0, 0, 0, 0, 0] ++ [64, 0, 0, 0, 0, 0, 0, 0] ++ List.replicate 12 0
    ++ [64, 0, 56, 0, 1, 0, 0, 0, 0, 0, 0, 0] ++ [1, 0, 0, 0, 5, 0, 0, 0]
    ++ [120, 0, 0, 0, 0, 0, 0, 0] ++ vaddr ++ [0, 0, 0, 0, 0] ++ List.replicate 8 0
    ++ [1, 0, 0, 0, 0, 0, 0, 0] ++ [2, 0, 0, 0, 0, 0, 0, 0] ++ List.replicate 8 0
    ++ [0xC3]).getD i 0

/-- **A SEGMENT BEHIND THE WINDOW IS LOADED**: at 0xA00000 the loader copies a byte and clears the
    next one, and goes on to call the entry. -/
theorem segment_behind_window_loaded : appExecuteNativeElf (oneSegment [0, 0, 0xA0]) 121
        = ([⟨0xA00000, 0xC3⟩, ⟨0xA00001, 0⟩], .ok 0x800000)
      ∧ ¬ InWindow 0xA00000 ∧ ¬ InWindow 0xA00001 :=
  ⟨by decide +kernel, fun h => absurd h.2 (by decide), fun h => absurd h.2 (by decide)⟩

example : appExecuteNativeElf (oneSegment [0, 0, 0x80]) 121
    = ([⟨0x800000, 0xC3⟩, ⟨0x800001, 0⟩], .ok 0x800000) := by
  decide +kernel

end NativeElf
