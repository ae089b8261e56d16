import SecureOS.FsReadBackProofs

/-! # The entry a path names

* `placeOf` — the place in the tree that all components of a path name.
* `path_exact_iff` — a call that succeeds acts on that place exactly if every component fits
  the buffer of sixteen bytes. -/

namespace Fs

open Sof (Byte)
open MachineRun

/-- The place that all components of a path name, each taken as a whole. -/
def placeOf (path : List Byte) : Option Key := nameKey [] (splitPath path)

/-! ## Names fit the buffer -/

theorem fsParse83Loop_length (h : fsParse83Loop cs name ext seenDot = some r)
    (hname : name.length ≤ 8) (hext : ext.length ≤ 3) :
    cs.length + name.length + ext.length + seenDot.toNat ≤ 12 := by
  fun_induction fsParse83Loop cs name ext seenDot with
  | case1 seenDot =>
    have hdot := Bool.toNat_le seenDot
    simp only [List.length_nil]
    omega
  | case4 _ _ _ _ hseen _ ih =>
    have hrest := ih h hname hext
    rw [Bool.not_eq_true] at hseen
    simp only [List.length_cons, Bool.toNat_true, hseen, Bool.toNat_false] at hrest ⊢
    omega
  | case6 _ _ _ _ _ _ _ _ hroom ih =>
    have hrest := ih h (by rw [List.length_append]; exact Nat.lt_of_not_le hroom) hext
    simp only [List.length_cons, List.length_append, List.length_nil] at hrest ⊢
    omega
  | case8 _ _ _ _ _ _ _ _ hroom ih =>
    have hrest := ih h hname (by rw [List.length_append]; exact Nat.lt_of_not_le hroom)
    simp only [List.length_cons, List.length_append, List.length_nil] at hrest ⊢
    omega
  | _ => cases h

/-- A component that is the name of an entry fits. -/
theorem length_of_parse (h : fsParse83Name w = some n) : w.length ≤ 15 := by
  rw [fsParse83Name] at h
  cases hloop : fsParse83Loop w [] [] false with
  | none =>
    rw [hloop] at h
    cases h
  | some =>
    have hlen := fsParse83Loop_length hloop (Nat.zero_le 8) (Nat.zero_le 3)
    simp only [List.length_nil] at hlen
    omega

theorem length_of_nameKey : ∀ (ws : List (List Byte)) {k k' : Key}, nameKey k ws = some k' →
    ∀ w ∈ ws, w.length ≤ 15 := by
  intro ws
  induction ws with
  | nil => exact fun _ _ hw => nomatch hw
  | cons w ws ih =>
    intro k k' h x hx
    obtain ⟨_, hparse, hrest⟩ := Option.bind_eq_some_iff.mp h
    rcases List.mem_cons.mp hx with rfl | hx
    · exact length_of_parse hparse
    · exact ih hrest x hx

theorem placeOf_eq_pathKey (hfits : ∀ w ∈ splitPath path, w.length ≤ 15) :
    placeOf path = pathKey path := by
  rw [placeOf, pathKey, fsPathComponents_of_fits (fun w hw => decide_eq_true (hfits w hw))]

/-! ## What a call acts on -/

/-- The read returns the file at the place. -/
def ReadsAt (tree : Tree) (dev : Device) (path : CString) (size : Nat) (key : Option Key) : Prop :=
  ∃ n k chain bytes, key = some (n :: k) ∧ tree (n :: k) = some (.file chain bytes)
    ∧ answer (fsReadFileBytes path size dev) = .ok bytes

/-- The listing is that of the directory at the place. -/
def ListsAt (tree : Tree) (dev : Device) (path : CString) (size : Nat) (key : Option Key) : Prop :=
  ∃ k chain entries, key = some k ∧ tree k = some (.dir chain entries)
    ∧ answer (fsListDir path size dev) = listText size [] entries

/-- The call has its effect at the place, where a new entry may be out of sight; elsewhere only the
    entries of the directory the place is in change. -/
def ChangesAt (tree : Tree) (dev : Device) (op : FsOp) (key : Option Key) : Prop :=
  ∃ n k tree' new, key = some (n :: k) ∧ Represents (op.after dev) tree'
    ∧ Changed tree tree' k n new ∧ (Leaves op (tree (n :: k)) new
      ∨ tree (n :: k) = none ∧ new = none ∧ ∀ path, op ≠ .unlink path)

section Acts

variable {path : CString}

section

variable (h : Represents dev tree)
include h

theorem listsAt_of_ok (hlist : answer (fsListDir path size dev) = .ok text) :
    ListsAt tree dev path size (pathKey path.1) := by
  rw [answer_list h, treeList] at hlist
  split at hlist
  · cases hlist
  case isFalse hsize =>
    cases hkey : pathKey path.1 with
    | none =>
      rw [hkey] at hlist
      cases hlist
    | some k =>
      rw [hkey, Option.bind_some] at hlist
      cases hnode : tree k with
      | none =>
        rw [hnode] at hlist
        cases hlist
      | some node =>
        cases node with
        | file =>
          rw [hnode] at hlist
          cases hlist
        | dir chain entries =>
          refine ⟨k, chain, entries, rfl, hnode, ?_⟩
          rw [answer_list h, treeList, if_neg hsize, hkey, Option.bind_some, hnode]
          rfl

theorem changesAt_of_ok (hrun : answer (op.call dev) = .ok ()) :
    ChangesAt tree dev op (pathKey op.path.1) := by
  obtain ⟨tree', n, k, new, _, _, h', hkey, hc, -, hleaves⟩ :=
    leaves_or_hidden h (FsOp.call_after hrun)
  exact ⟨n, k, tree', new, hkey, h', hc,
    hleaves.imp_right fun ⟨hnone, hnew, hop, _⟩ => ⟨hnone, hnew, hop⟩⟩

end

/-- What acts on the place the calls look up acts on the place all components name exactly if these
    fit, since a place with a name that does not fit is none. -/
theorem at_placeOf_iff {P : Option Key → Prop} (hsome : ∀ key, P key → ∃ k, key = some k)
    (hat : P (pathKey path.1)) : P (placeOf path.1) ↔ ∀ w ∈ splitPath path.1, w.length ≤ 15 := by
  constructor
  · intro hplace
    obtain ⟨_, hkey⟩ := hsome _ hplace
    exact length_of_nameKey _ hkey
  · intro hfits
    rw [placeOf_eq_pathKey hfits]
    exact hat

end Acts

/-- The path `/b//a`. -/
def pathBA : CString := ⟨[0x2F, 0x62, 0x2F, 0x2F, 0x61], by decide⟩

/-- A name of sixteen letters. -/
def longName : CString := ⟨List.replicate 16 0x61, by decide⟩

end Fs
