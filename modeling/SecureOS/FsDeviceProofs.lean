import Mathlib.Data.List.Range
import SecureOS.FsModel
import SecureOS.Lib.LinkChainProofs

/-! # Calls on the device and the allocation table -/

namespace Fs

open Sof (Byte)
open LinkChain (Linked)

section Calls

variable {α β : Type} {x : FsM α} {f : α → FsM β} {dev dev' : Device} {a : α}

theorem bind_ok (h : x dev = .ok a dev') : (x >>= f) dev = f a dev' := by
  show EStateM.bind x f dev = _
  rw [EStateM.bind, h]

theorem bind_error (h : x dev = .error e dev') : (x >>= f) dev = .error e dev' := by
  show EStateM.bind x f dev = _
  rw [EStateM.bind, h]

@[simp] theorem pure_apply (a : α) (dev : Device) : (pure a : FsM α) dev = .ok a dev := rfl

theorem query_ok (h : q dev = .ok a) : query q dev = .ok a dev := by rw [query, h]

theorem query_error (h : q dev = .error e) : query q dev = .error e dev := by rw [query, h]

theorem orFail_ok (h : x dev = .ok a dev') : orFail x e dev = .ok a dev' := by rw [orFail, h]

theorem orFail_error (h : x dev = .error e' dev') : orFail x e dev = .error e dev' := by
  rw [orFail, h]

end Calls

/-! ## A device that never fails -/

/-- Every sector can be read and written. -/
structure Healthy (dev : Device) : Prop where
  ready : dev.ready = true
  readOk : ∀ lba, dev.readOk lba = true
  writeOk : ∀ lba, dev.writeOk lba = true

/-- A cluster of the data area. -/
def DataCluster (c : Nat) : Prop := 2 ≤ c ∧ c ≤ 8191

/-- A cluster of the allocatable range. -/
def Allocatable (c : Nat) : Prop := 3 ≤ c ∧ c ≤ 8191

theorem Allocatable.data (h : Allocatable c) : DataCluster c := ⟨Nat.le_of_succ_le h.1, h.2⟩

theorem Allocatable.inRange (h : Allocatable c) : ¬ (c < 3 ∨ 8191 < c) :=
  not_or.mpr ⟨Nat.not_lt.mpr h.1, Nat.not_lt.mpr h.2⟩

section Healthy

variable {dev : Device}

theorem fsReadCluster_ok (hd : Healthy dev) (hc : DataCluster c) :
    fsReadCluster dev c = .ok (dev.data c) := by
  obtain ⟨_, _⟩ := hc
  rw [fsReadCluster, if_neg (by omega), if_pos (hd.readOk _)]

theorem fsWriteCluster_ok (hd : Healthy dev) (hc : DataCluster c) :
    fsWriteCluster c b dev = .ok () { dev with data := Function.update dev.data c b } := by
  obtain ⟨_, _⟩ := hc
  rw [fsWriteCluster, if_neg (by omega), if_pos (hd.writeOk _)]

theorem fsLoadFat_ok (hd : Healthy dev) : fsLoadFat dev = .ok dev.fat := by
  rw [fsLoadFat, if_pos (List.all_eq_true.mpr (fun i _ => hd.readOk _))]

/-- The device with another table and other data is as healthy. -/
theorem Healthy.with (hd : Healthy dev) (boot : Block) (fat : Fat) (data : Nat → Block) :
    Healthy { dev with boot := boot, fat := fat, data := data } :=
  ⟨hd.ready, hd.readOk, hd.writeOk⟩

/-- The loop of the store: the entries of the sectors that are left come from the table in
    memory. -/
theorem fsStoreFatSectors_ok (fat : Fat) : ∀ (sectors : List Nat) (dev : Device), Healthy dev →
    fsStoreFatSectors fat sectors dev = .ok ()
      { dev with fat := fun c => if c.val / 128 ∈ sectors then fat c else dev.fat c } := by
  intro sectors
  induction sectors with
  | nil => simp [fsStoreFatSectors]
  | cons i sectors ih =>
    intro dev hd
    have hsector : fsStoreFatSectors fat (i :: sectors) dev = fsStoreFatSectors fat sectors
        { dev with fat := fun c => if c.val / 128 = i then fat c else dev.fat c } :=
      if_pos (hd.writeOk _)
    rw [hsector, ih _ (hd.with ..)]
    congr 2
    funext c
    simp only [List.mem_cons]
    split_ifs <;> tauto

theorem fsStoreFat_ok (hd : Healthy dev) (fat : Fat) :
    fsStoreFat fat dev = .ok () { dev with fat := fat } := by
  rw [fsStoreFat, fsStoreFatSectors_ok fat _ dev hd]
  congr 2
  funext c
  -- each entry of the table is in one of the 64 sectors
  have hc := c.isLt
  exact if_pos (List.mem_range.mpr (by omega))

theorem fsEnsureInitialized_ok (hd : Healthy dev)
    (hboot : fsIsFat32BootSectorValid dev.boot) : fsEnsureInitialized dev = .ok () dev := by
  rw [fsEnsureInitialized, hd.ready, hd.readOk, if_neg (by simp), if_neg (by simp), if_pos hboot]

end Healthy

/-! ## The freshly formatted layout -/

/-- The device with an empty root directory. -/
def formatted (dev : Device) : Device :=
  { dev with boot := bootSector, fat := freshFat, data := Function.update dev.data 2 zeroBlock }

/-- A device of zero bytes. -/
def blankDevice : Device where
  ready := true
  readOk := fun _ => true
  writeOk := fun _ => true
  boot := zeroBlock
  fat := fun _ => 0
  data := fun _ => zeroBlock

theorem blankDevice_healthy : Healthy blankDevice := ⟨rfl, fun _ => rfl, fun _ => rfl⟩

theorem bootSector_valid : fsIsFat32BootSectorValid bootSector := by decide

/-! ## The table -/

section Table

variable {fat : Fat} {c : Nat}

theorem fatEntryEoc_gt : 8191 < fatEntryEoc := by decide

theorem get_set_self (hc : c ≤ 8191) (hv : v ≤ fatEntryEoc) :
    fsFatGetEntry (fsFatSetEntry fat c v) c = v := by
  rw [fsFatGetEntry, dif_pos (by omega), fsFatSetEntry, if_pos rfl]
  exact Nat.mod_eq_of_lt (Nat.lt_succ_of_le hv)

theorem get_set_of_ne (h : c ≠ d) :
    fsFatGetEntry (fsFatSetEntry fat d v) c = fsFatGetEntry fat c := by
  rw [fsFatGetEntry, fsFatGetEntry]
  split_ifs
  · rw [fsFatSetEntry, if_neg h]
  · rfl

/-- The link of a cluster, none at the end of a chain. -/
def fatLink (fat : Fat) (c : Nat) : Option Nat :=
  if fsFatGetEntry fat c = fatEntryEoc then none else some (fsFatGetEntry fat c)

theorem fatLink_congr (h : fsFatGetEntry fat' c = fsFatGetEntry fat c) :
    fatLink fat' c = fatLink fat c := by
  rw [fatLink, fatLink, h]

theorem fatLink_eq_none : fatLink fat c = none ↔ fsFatGetEntry fat c = fatEntryEoc := by
  rw [fatLink]
  by_cases h : fsFatGetEntry fat c = fatEntryEoc
  · rw [if_pos h]
    exact iff_of_true rfl h
  · rw [if_neg h]
    exact iff_of_false (Option.some_ne_none _) h

theorem fatLink_eq_some (h : fatLink fat c = some d) : fsFatGetEntry fat c = d := by
  rw [fatLink] at h
  by_cases he : fsFatGetEntry fat c = fatEntryEoc
  · rw [if_pos he] at h
    cases h
  · rw [if_neg he] at h
    exact Option.some.inj h

/-! ## The search for a free cluster -/

theorem fsFindFreeCluster_eq_some (h : fsFindFreeCluster fat = some c) :
    Allocatable c ∧ fsFatGetEntry fat c = 0 := by
  have hfree := List.find?_some h
  have hmem := List.mem_range'_1.mp (List.mem_of_find?_eq_some h)
  exact ⟨⟨hmem.1, by omega⟩, eq_of_beq hfree⟩

theorem fsFindFreeCluster_eq_none (h : fsFindFreeCluster fat = none) (hc : Allocatable c) :
    fsFatGetEntry fat c ≠ 0 := by
  intro hfree
  have hmem : c ∈ List.range' 3 8189 := List.mem_range'_1.mpr ⟨hc.1, by have := hc.2; omega⟩
  exact List.find?_eq_none.mp h c hmem (beq_iff_eq.mpr hfree)

end Table

end Fs
