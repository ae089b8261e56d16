import SecureOS.FsPathProofs

/-! # The bytes of a directory slot -/

namespace Fs

open Sof (Byte)
open List
open ByteStore (load store store_of_lt store_of_ge store_apply_of_lt load_congr)

section Fields

theorem fsWriteU16_before (h : i < off) : fsWriteU16 b off v i = b i := store_of_lt h

theorem fsWriteU16_behind (h : off + 2 ≤ i) : fsWriteU16 b off v i = b i := store_of_ge h

theorem fsWriteU32_before (h : i < off) : fsWriteU32 b off v i = b i := store_of_lt h

theorem fsWriteU32_behind (h : off + 4 ≤ i) : fsWriteU32 b off v i = b i := store_of_ge h

theorem fsReadU16_congr (h : b' off = b off) (h' : b' (off + 1) = b (off + 1)) :
    fsReadU16 b' off = fsReadU16 b off := by
  rw [fsReadU16, fsReadU16, h, h']

theorem fsReadU16_write (b : Block) (off v : Nat) :
    fsReadU16 (fsWriteU16 b off v) off = v % 65536 := by
  have h0 : fsWriteU16 b off v off = BitVec.ofNat 8 v :=
    store_apply_of_lt (m := b) (i := 0) (by simp)
  have h1 : fsWriteU16 b off v (off + 1) = BitVec.ofNat 8 (v / 256) :=
    store_apply_of_lt (m := b) (i := 1) (by simp)
  rw [fsReadU16, h0, h1, BitVec.toNat_ofNat, BitVec.toNat_ofNat]
  omega

theorem fsReadU32_write (b : Block) (off v : Nat) :
    fsReadU32 (fsWriteU32 b off v) off = v % 2 ^ 32 := by
  have h0 : fsWriteU32 b off v off = BitVec.ofNat 8 v :=
    store_apply_of_lt (m := b) (i := 0) (by simp)
  have h1 : fsWriteU32 b off v (off + 1) = BitVec.ofNat 8 (v / 256) :=
    store_apply_of_lt (m := b) (i := 1) (by simp)
  have h2 : fsWriteU32 b off v (off + 2) = BitVec.ofNat 8 (v / 65536) :=
    store_apply_of_lt (m := b) (i := 2) (by simp)
  have h3 : fsWriteU32 b off v (off + 2 + 1) = BitVec.ofNat 8 (v / 16777216) :=
    store_apply_of_lt (m := b) (i := 3) (by simp)
  rw [fsReadU32, fsReadU16, fsReadU16, h0, h1, h2, h3]
  simp only [BitVec.toNat_ofNat]
  omega

end Fields

section Congr

theorem entryAt_congr (h : ∀ i, i < 32 → b' (off + i) = b (off + i)) :
    entryAt b' off = entryAt b off := by
  have hname : load b' off 11 = load b off 11 := load_congr (fun i hi => h i (by omega))
  have hword : ∀ k, k < 31 → fsReadU16 b' (off + k) = fsReadU16 b (off + k) := fun k hk =>
    fsReadU16_congr (h k (by omega)) (h (k + 1) (by omega))
  have hsize : fsReadU32 b' (off + 28) = fsReadU32 b (off + 28) := by
    rw [fsReadU32, fsReadU32, hword 28 (by omega), hword 30 (by omega)]
  have hcluster : fsEntryCluster b' off = fsEntryCluster b off := by
    rw [fsEntryCluster, fsEntryCluster, hword 20 (by omega), hword 26 (by omega)]
  have hattr : b' (off + 11) = b (off + 11) := h 11 (by omega)
  simp only [entryAt, hname, hattr, hcluster, hsize]

theorem slotAt_congr (h : ∀ i, i < 32 → b' (off + i) = b (off + i)) :
    slotAt b' off = slotAt b off := by
  have hmark : b' off = b off := h 0 (by omega)
  rw [slotAt, slotAt, hmark, h 11 (by omega), entryAt_congr h]

end Congr

section Entry

variable {b : Block} {off : Nat}

theorem fsSetEntryCluster_outside (h : i < off + 20 ∨ off + 28 ≤ i) :
    fsSetEntryCluster b off cluster i = b i := by
  rw [fsSetEntryCluster]
  rcases h with _ | _
  · rw [fsWriteU16_before (by omega), fsWriteU16_before (by omega)]
  · rw [fsWriteU16_behind (by omega), fsWriteU16_behind (by omega)]

theorem fsEntryCluster_set (b : Block) (off cluster : Nat) :
    fsEntryCluster (fsSetEntryCluster b off cluster) off = cluster % 2 ^ 32 := by
  have hhigh : fsReadU16 (fsSetEntryCluster b off cluster) (off + 20)
      = cluster / 65536 % 65536 := by
    rw [fsSetEntryCluster, fsReadU16_congr (fsWriteU16_before (by omega))
      (fsWriteU16_before (by omega)), fsReadU16_write]
  have hlow : fsReadU16 (fsSetEntryCluster b off cluster) (off + 26) = cluster % 65536 % 65536 := by
    rw [fsSetEntryCluster, fsReadU16_write]
  rw [fsEntryCluster]
  omega

theorem setEntry_outside (h : i < off ∨ off + 28 ≤ i) :
    setEntry b off name attr cluster i = b i := by
  rw [setEntry, fsSetEntryCluster_outside (by omega)]
  rcases h with h | h
  · exact store_of_lt h
  · exact store_of_ge (by
      rw [length_append, length_singleton]
      omega)

theorem setEntry_head (h : i < 12) :
    setEntry b off name attr cluster (off + i) = store b off (name.1 ++ [attr]) (off + i) := by
  rw [setEntry, fsSetEntryCluster_outside (by omega)]

theorem load_setEntry_name (b : Block) (off cluster : Nat) (name : Name83) (attr : Byte) :
    load (setEntry b off name attr cluster) off 11 = name.1 := by
  have hlen : (name.1 ++ [attr]).length = 12 := by rw [length_append, name.2, length_singleton]
  have hload := ByteStore.load_store b off (name.1 ++ [attr])
  rw [hlen] at hload
  have htake := ByteStore.take_load (store b off (name.1 ++ [attr])) off 12 11
  rw [hload, take_append_of_le_length (by rw [name.2]),
    take_of_length_le (Nat.le_of_eq name.2)] at htake
  rw [htake]
  exact load_congr (fun i hi => setEntry_head (by omega))

theorem setEntry_attr (b : Block) (off cluster : Nat) (name : Name83) (attr : Byte) :
    setEntry b off name attr cluster (off + 11) = attr := by
  have hlen : 11 < (name.1 ++ [attr]).length := by
    rw [length_append, length_singleton]
    omega
  rw [setEntry_head (by omega), store_apply_of_lt hlen]
  exact getElem_concat_length name.2.symm _

theorem entryAt_ext (hname : load b off 11 = e.name.1)
    (hattr : b (off + 11) = e.attr) (hcluster : fsEntryCluster b off = e.cluster)
    (hsize : fsReadU32 b (off + 28) = e.size) : entryAt b off = e := by
  obtain ⟨⟨_, _⟩, _, _, _⟩ := e
  simp only [entryAt, DirEntry.mk.injEq, Subtype.mk.injEq]
  exact ⟨hname, hattr, hcluster, hsize⟩

/-- The size field is behind all other fields. -/
theorem fsWriteU32_size_before (h : i < 28) :
    fsWriteU32 b (off + 28) size (off + i) = b (off + i) :=
  fsWriteU32_before (by omega)

theorem fsEntryCluster_writeSize (b : Block) (off size : Nat) :
    fsEntryCluster (fsWriteU32 b (off + 28) size) off = fsEntryCluster b off := by
  rw [fsEntryCluster, fsEntryCluster,
    fsReadU16_congr (fsWriteU32_before (by omega)) (fsWriteU32_before (by omega)),
    fsReadU16_congr (fsWriteU32_before (by omega)) (fsWriteU32_before (by omega))]

/-- **A NEW ENTRY** is read back. -/
theorem entryAt_new (b : Block) (off : Nat) (name : Name83) (attr : Byte)
    (hcluster : cluster < 2 ^ 32) (hsize : size < 2 ^ 32) :
    entryAt (fsWriteU32 (setEntry b off name attr cluster) (off + 28) size) off
      = ⟨name, attr, cluster, size⟩ := by
  refine entryAt_ext ?_ ?_ ?_ ?_
  · rw [load_congr (fun i hi => fsWriteU32_size_before (by omega))]
    exact load_setEntry_name ..
  · rw [fsWriteU32_size_before (by omega), setEntry_attr]
  · rw [fsEntryCluster_writeSize, setEntry, fsEntryCluster_set]
    exact Nat.mod_eq_of_lt hcluster
  · rw [fsReadU32_write]
    exact Nat.mod_eq_of_lt hsize

/-- **A NEW SIZE** leaves the other fields. -/
theorem entryAt_resize (b : Block) (off : Nat) (hsize : size < 2 ^ 32) :
    entryAt (fsWriteU32 b (off + 28) size) off = { entryAt b off with size := size } := by
  refine entryAt_ext ?_ ?_ ?_ ?_
  · exact load_congr (fun i hi => fsWriteU32_size_before (by omega))
  · exact fsWriteU32_size_before (by omega)
  · exact fsEntryCluster_writeSize ..
  · rw [fsReadU32_write]
    exact Nat.mod_eq_of_lt hsize

end Entry

section Marks

theorem slotAt_of_entry (h0 : b off ≠ 0x00) (hE5 : b off ≠ 0xE5) (hattr : b (off + 11) ≠ 0x0F) :
    slotAt b off = .entry (entryAt b off) := by
  rw [slotAt, if_neg h0, if_neg (fun h => h.elim hE5 hattr)]

theorem slotAt_entry_bytes (h : slotAt b off = .entry e) :
    b off ≠ 0x00 ∧ b off ≠ 0xE5 ∧ b (off + 11) ≠ 0x0F := by
  rw [slotAt] at h
  by_cases h0 : b off = 0x00
  · rw [if_pos h0] at h
    cases h
  · rw [if_neg h0] at h
    by_cases hdel : b off = 0xE5 ∨ b (off + 11) = 0x0F
    · rw [if_pos hdel] at h
      cases h
    · rw [not_or] at hdel
      exact ⟨h0, hdel.1, hdel.2⟩

theorem slotAt_deleted (b : Block) (off : Nat) : slotAt (store b off [0xE5]) off = .deleted := by
  have hmark : store b off [0xE5] off = 0xE5 := store_apply_of_lt (m := b) (i := 0) (by decide)
  rw [slotAt, hmark, if_neg (by decide), if_pos (Or.inl rfl)]

/-- The first byte of a name, as the marker of its slot. -/
def Name83.marker (name : Name83) : Byte := name.1.get ⟨0, by rw [name.2]; omega⟩

theorem newSlot_marker (b : Block) (off : Nat) (name : Name83) (attr : Byte) (cluster size : Nat) :
    fsWriteU32 (setEntry b off name attr cluster) (off + 28) size off = name.marker := by
  have hlen : 0 < (name.1 ++ [attr]).length := by
    rw [length_append]
    omega
  have hfirst : setEntry b off name attr cluster (off + 0) = (name.1 ++ [attr])[0] := by
    rw [setEntry_head (by omega), store_apply_of_lt hlen]
  rw [fsWriteU32_before (by omega)]
  refine hfirst.trans ?_
  exact getElem_append_left (by rw [name.2]; omega)

/-- A new entry is seen, unless its name starts with the byte of a deleted slot. -/
theorem slotAt_new (hcluster : cluster < 2 ^ 32) (hsize : size < 2 ^ 32) (h0 : name.marker ≠ 0x00)
    (hattr : attr ≠ 0x0F) :
    slotAt (fsWriteU32 (setEntry b off name attr cluster) (off + 28) size) off
      = if name.marker = 0xE5 then .deleted else .entry ⟨name, attr, cluster, size⟩ := by
  split_ifs with hE5
  · rw [slotAt, newSlot_marker, hE5, if_neg (by decide), if_pos (Or.inl rfl)]
  · rw [slotAt_of_entry (by rw [newSlot_marker]; exact h0) (by rw [newSlot_marker]; exact hE5)
      (by rw [fsWriteU32_size_before (by omega), setEntry_attr]; exact hattr),
      entryAt_new b off name attr hcluster hsize]

end Marks

end Fs
