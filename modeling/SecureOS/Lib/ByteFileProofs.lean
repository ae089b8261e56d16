import SecureOS.Lib.ByteStoreProofs

/-! # A file held in a buffer

A file is a list.  Held in a buffer it is the first cells of a memory, and the rest of the
buffer is filled with one value.  A run of elements put at a place replaces what stands there;
in front of a place behind the end the file is first made longer with the filling. -/

namespace ByteFile

open ByteStore List

variable {α : Type} {z : α} {m : Nat → α} {len pos : Nat}

/-- The list with a run put in at a place. -/
def splice (z : α) (xs : List α) (pos : Nat) (ys : List α) : List α :=
  xs.take pos ++ List.replicate (pos - xs.length) z ++ ys ++ xs.drop (pos + ys.length)

/-- The buffer holds the filling from a length on. -/
def Blank (z : α) (m : Nat → α) (len : Nat) : Prop := ∀ i, len ≤ i → m i = z

theorem drop_load (m : Nat → α) (off len k : Nat) :
    (load m off len).drop k = load m (off + k) (len - k) := by
  rcases Nat.le_total k len with h | h
  · obtain ⟨_, rfl⟩ := Nat.exists_eq_add_of_le h
    rw [load_add, drop_left' (load_length m off k), Nat.add_sub_cancel_left]
  · rw [drop_eq_nil_of_le (by rw [load_length]; exact h), Nat.sub_eq_zero_of_le h]
    rfl

section

variable (h : Blank z m len)
include h

theorem load_blank (k : Nat) : load m len k = List.replicate k z := by
  refine eq_replicate_iff.mpr ⟨load_length m len k, ?_⟩
  rintro _ hb
  obtain ⟨i, -, rfl⟩ := mem_map.mp hb
  exact h (len + i) (Nat.le_add_right len i)

/-- The cells before a place are the file up to there, with the gap filled. -/
theorem load_before (pos : Nat) :
    load m 0 pos = (load m 0 len).take pos ++ List.replicate (pos - len) z := by
  rw [take_load]
  rcases Nat.le_total pos len with hle | hle
  · rw [Nat.min_eq_left hle, Nat.sub_eq_zero_of_le hle, replicate_zero, append_nil]
  · obtain ⟨_, rfl⟩ := Nat.exists_eq_add_of_le hle
    rw [Nat.min_eq_right hle, load_add, Nat.zero_add, load_blank h, Nat.add_sub_cancel_left]

/-- Putting a run into a file is one store into its buffer. -/
theorem load_splice (pos : Nat) (ys : List α) : load (store m pos ys) 0 (max len (pos + ys.length))
      = splice z (load m 0 len) pos ys := by
  -- the file behind the run is what was there before
  have htail : max len (pos + ys.length) = pos + ys.length + (len - (pos + ys.length)) := by omega
  have hbefore : load (store m pos ys) 0 pos = load m 0 pos :=
    load_congr (fun i hi => store_of_lt (by omega))
  have hbehind : load (store m pos ys) (pos + ys.length) (len - (pos + ys.length))
      = load m (pos + ys.length) (len - (pos + ys.length)) :=
    load_congr (fun i _ => store_of_ge (Nat.le_add_right _ i))
  rw [htail, load_add, load_add, Nat.zero_add, Nat.zero_add, hbefore, hbehind, load_store,
    load_before h, splice, load_length, drop_load, Nat.zero_add]

theorem blank_store (pos : Nat) (ys : List α) :
    Blank z (store m pos ys) (max len (pos + ys.length)) := by
  intro i _
  rw [store_of_ge (by omega)]
  exact h i (by omega)

end

/-- A whole file put into a cleared buffer. -/
theorem blank_whole (z : α) (xs : List α) : Blank z (store (fun _ => z) 0 xs) xs.length := by
  intro _ _
  exact store_of_ge (by omega)

end ByteFile
