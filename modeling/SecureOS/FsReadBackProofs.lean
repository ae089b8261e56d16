import SecureOS.FsWellFormedProofs

/-! # Reading after writing

* `read_after_write` — what is read and listed after a successful write, unlink or
  mkdir in a state a tame run reaches. -/

namespace Fs

open Sof (Byte)
open MachineRun

/-- Reads of other places, and listings of directories other than the parent, answer as before. -/
structure Elsewhere (dev dev' : Device) (path : CString) : Prop where
  reads : ∀ (q : CString) (size : Nat), pathKey q.1 ≠ pathKey path.1 →
    answer (fsReadFileBytes q size dev') = answer (fsReadFileBytes q size dev)
  lists : ∀ (q : CString) (size : Nat) (n : Name83) (k : Key), pathKey path.1 = some (n :: k) →
    pathKey q.1 ≠ some k → answer (fsListDir q size dev') = answer (fsListDir q size dev)

/-- A state that a run of tame calls reaches from a formatted disk. -/
def TameReached (dev : Device) : Prop :=
  ∃ raw ops, Healthy raw ∧ Along FsOp.after Tame (formatted raw) ops
    ∧ dev = run FsOp.after (formatted raw) ops

/-- What a call puts at the place of its path, by what was there. -/
inductive Leaves : FsOp → Option Node → Option Node → Prop
  | created : Leaves (.write path content append) none (some (.file chain content))
  | rewritten : Leaves (.write path content append) (some (.file chain old))
      (some (.file chain' (written old content append)))
  | madeDir : Leaves (.mkdir path) none (some (.dir [c] []))
  | unlinked : Leaves (.unlink path) (some (.file chain content)) none
  | removedDir : Leaves (.rmdir path) (some (.dir chain [])) none

section Effect

section

variable (h : Represents dev tree)
include h

/-- A place that is no directory before and after the change: the rest is as before. -/
theorem Changed.elsewhere (h' : Represents dev' tree') (hkey : pathKey path.1 = some (n :: k))
    (hc : Changed tree tree' k n child) (habove : tree k = some (.dir chain entries))
    (hold : ∀ ch es, tree (n :: k) ≠ some (.dir ch es))
    (hnew : ∀ ch es, child ≠ some (.dir ch es)) : Elsewhere dev dev' path := by
  have hnot : ∀ {node : Option Node}, (∀ ch es, node ≠ some (.dir ch es)) → ∀ size,
      listNode size node = .error .notFound := by
    intro node hno size
    cases node with
    | none => rfl
    | some node =>
      cases node with
      | file => rfl
      | dir ch es => exact absurd rfl (hno ch es)
  obtain ⟨_, _, hparent⟩ := hc.parent
  refine ⟨fun q size hq => ?_, fun q size n' k' hkey' hq => ?_⟩
  · rw [answer_read h', answer_read h]
    cases hqk : pathKey q.1 with
    | none => rfl
    | some key =>
      cases key with
      | nil => rfl
      | cons m j =>
        rw [treeRead, treeRead]
        by_cases hk : m :: j = k
        · -- the parent is a directory before and after
          rw [hk, hparent, habove]
          rfl
        · rw [hc.others _ (fun heq => hq (by rw [hqk, hkey, heq])) hk]
  · rw [hkey] at hkey'
    cases hkey'
    rw [answer_list h', answer_list h, treeList, treeList]
    by_cases hsize : size = 0
    · rw [if_pos hsize, if_pos hsize]
    · rw [if_neg hsize, if_neg hsize]
      cases hqk : pathKey q.1 with
      | none => rfl
      | some key =>
        rw [Option.bind_some, Option.bind_some]
        by_cases hn : key = n :: k
        · rw [hn, hc.child_eq, hnot hnew, hnot hold]
        · rw [hc.others key hn (fun heq => hq (by rw [hqk, heq]))]

/-- **WHAT A SUCCESSFUL CALL LEAVES** at its place; a new entry may be out of sight. -/
theorem leaves_or_hidden (hrun : op.call dev = .ok () dev') :
    ∃ tree' n k new chain entries, Represents dev' tree' ∧ pathKey op.path.1 = some (n :: k)
      ∧ Changed tree tree' k n new ∧ tree k = some (.dir chain entries)
      ∧ (Leaves op (tree (n :: k)) new ∨ tree (n :: k) = none ∧ new = none
        ∧ (∀ path, op ≠ .unlink path) ∧ (n.marker ≠ 0xE5 → chain.length ≤ 128 →
          ∃ chain' entries', tree' k = some (.dir chain' entries')
            ∧ 2048 < (entriesIn dev'.data (slotsOf chain')).length)) := by
  obtain ⟨tree', h', hout⟩ := outcome_of_ok h hrun
  cases hout with
  | refused _ run | clobbered _ _ _ _ _ _ _ _ _ _ _ run =>
    rw [hrun] at run
    cases run
  | created n k chain entries node _ op_eq key above absent _ _ changed =>
    refine ⟨tree', n, k, some node, chain, entries, h', ?_, changed, above, .inl ?_⟩ <;>
      rcases op_eq with ⟨_, _, _, rfl, rfl⟩ | ⟨rfl, _, rfl⟩
    · exact key
    · exact key
    · exact absent ▸ .created
    · exact absent ▸ .madeDir
  | hidden n k chain entries _ op_eq key above absent _ _ changed beyond =>
    rcases op_eq with ⟨_, _, rfl⟩ | rfl <;>
      exact ⟨tree', n, k, none, chain, entries, h', key, changed, above,
        .inr ⟨absent, rfl, fun _ => FsOp.noConfusion, beyond⟩⟩
  | rewritten n k _ _ _ _ _ _ op_eq key file _ changed =>
    subst op_eq
    obtain ⟨chain, entries, habove, _⟩ := h.parent file
    exact ⟨tree', n, k, _, chain, entries, h', key, changed, habove, .inl (file ▸ .rewritten)⟩
  | removed n k _ _ op_eq key there _ changed =>
    obtain ⟨chain, entries, habove, _⟩ := h.parent there
    refine ⟨tree', n, k, none, chain, entries, h', ?_, changed, habove, .inl ?_⟩ <;>
      rcases op_eq with ⟨rfl, _, _, rfl⟩ | ⟨rfl, _, rfl⟩
    · exact key
    · exact key
    · exact there ▸ .unlinked
    · exact there ▸ .removedDir

/-- A tight state has room for every new entry of a tame call. -/
theorem leaves_of_ok (ht : Tight dev tree) (htame : (∀ path, op ≠ .unlink path) → Tame dev op)
    (hrun : op.call dev = .ok () dev') :
    ∃ tree' n k new, Represents dev' tree' ∧ pathKey op.path.1 = some (n :: k)
      ∧ Changed tree tree' k n new ∧ (∃ chain entries, tree k = some (.dir chain entries))
      ∧ Leaves op (tree (n :: k)) new := by
  obtain ⟨tree', n, k, new, chain, entries, h', hkey, hc, habove, hleaves | ⟨-, -, hop, hbeyond⟩⟩ :=
    leaves_or_hidden h hrun
  · exact ⟨tree', n, k, new, h', hkey, hc, ⟨chain, entries, habove⟩, hleaves⟩
  · have hsmall := (htame hop).2
    rw [FsOp.after_ok hrun] at hsmall
    exact (tame_seen h' ht (htame hop).1 hsmall hkey habove hbeyond).elim

theorem read_absent (hkey : pathKey path.1 = some (n :: k))
    (hnone : tree (n :: k) = none) (size : Nat) :
    answer (fsReadFileBytes path size dev) = .error .notFound := by
  rw [answer_read h, hkey, treeRead, hnone]
  rfl

end

end Effect

/-- **READ AFTER WRITE, AND THE FRAME**: a write leaves exactly the content (behind the old one
    for an append), an unlink leaves nothing to read, a new directory lists empty, and all other
    files and listings are as before. -/
theorem read_after_write (dev : Device) (hreach : TameReached dev) :
    (∀ (path : CString) (content : List Byte) (append : Bool) (dev' : Device),
      Tame dev (.write path content append) →
      fsWriteFileBytes path content append dev = .ok () dev' →
      (append = false → ∀ size, content.length ≤ size →
        answer (fsReadFileBytes path size dev') = .ok content)
      ∧ (append = true → (∃ old size₀, answer (fsReadFileBytes path size₀ dev) = .ok old
          ∧ ∀ size, (old ++ content).length ≤ size →
            answer (fsReadFileBytes path size dev') = .ok (old ++ content))
        ∨ ((∀ size, answer (fsReadFileBytes path size dev) = .error .notFound)
          ∧ ∀ size, content.length ≤ size → answer (fsReadFileBytes path size dev') = .ok content))
      ∧ Elsewhere dev dev' path)
    ∧ (∀ (path : CString) (dev' : Device), fsUnlink path dev = .ok () dev' →
      (∀ size, answer (fsReadFileBytes path size dev') = .error .notFound)
      ∧ Elsewhere dev dev' path)
    ∧ (∀ (path : CString) (dev' : Device), Tame dev (.mkdir path) → fsMkdir path dev = .ok () dev' →
      ∀ size, 0 < size → answer (fsListDir path size dev') = .ok []) := by
  obtain ⟨_, ops, hd, htame, rfl⟩ := hreach
  obtain ⟨tree, h, ht⟩ := tame_run hd ops htame
  refine ⟨fun path content append dev' hop hrun => ?_, fun path dev' hrun => ?_,
    fun path dev' hop hrun size hsize => ?_⟩
  · obtain ⟨_, n, k, _, h', hkey, hc, ⟨_, _, habove⟩, hleaves⟩ :=
      leaves_of_ok h ht (fun _ => hop) hrun
    generalize hold : tree (n :: k) = before at hleaves
    have hdir : ∀ ch es, before ≠ some (.dir ch es) := by
      rintro ch es rfl
      cases hleaves
    cases hleaves with
    | created =>
      have hread := fun size (hs : _ ≤ size) => read_of_file h' hkey hc.child_eq hs
      refine ⟨fun _ => hread, fun _ => .inr ⟨read_absent h hkey hold, hread⟩, ?_⟩
      exact hc.elsewhere h h' hkey habove (hold ▸ hdir) (fun _ _ hnew => by cases hnew)
    | rewritten =>
      have hread := fun size (hs : _ ≤ size) => read_of_file h' hkey hc.child_eq hs
      refine ⟨fun happ => ?_, fun happ => ?_, ?_⟩
      · subst happ
        exact hread
      · subst happ
        exact .inl ⟨_, _, read_of_file h hkey hold (Nat.le_refl _), hread⟩
      · exact hc.elsewhere h h' hkey habove (hold ▸ hdir) (fun _ _ hnew => by cases hnew)
  · obtain ⟨_, n, k, _, h', hkey, hc, ⟨_, _, habove⟩, hleaves⟩ :=
      leaves_of_ok h ht (fun hno => absurd rfl (hno path)) hrun
    generalize hold : tree (n :: k) = before at hleaves
    cases hleaves
    refine ⟨read_absent h' hkey hc.child_eq, hc.elsewhere h h' hkey habove (fun _ _ hdir => ?_)
      (fun _ _ hnew => by cases hnew)⟩
    rw [hold] at hdir
    cases hdir
  · obtain ⟨_, n, k, _, h', hkey, hc, _, hleaves⟩ := leaves_of_ok h ht (fun _ => hop) hrun
    generalize tree (n :: k) = before at hleaves
    cases hleaves
    rw [answer_list h', show pathKey path.1 = _ from hkey, treeList, if_neg (by omega),
      Option.bind_some, hc.child_eq]
    rfl

theorem TameReached.step (h : TameReached dev) (hop : Tame dev op) :
    TameReached (op.after dev) := by
  obtain ⟨raw, ops, hd, hops, rfl⟩ := h
  refine ⟨raw, ops ++ [op], hd, (along_append ..).mpr ⟨hops, hop, trivial⟩, ?_⟩
  rw [run_append]
  rfl

/-- A file is written, appended to and removed, and read after each of the calls. -/
theorem read_after_write_firstCalls : ∃ dev dev₁ dev₂ dev₃,
    dev = FsOp.after (formatted blankDevice) (.mkdir pathB)
      ∧ fsWriteFileBytes pathA [0x01, 0x02] false dev = .ok () dev₁
      ∧ answer (fsReadFileBytes pathA 16 dev₁) = .ok [0x01, 0x02]
      ∧ fsWriteFileBytes pathA [0x03] true dev₁ = .ok () dev₂
      ∧ answer (fsReadFileBytes pathA 16 dev₂) = .ok [0x01, 0x02, 0x03]
      ∧ fsUnlink pathA dev₂ = .ok () dev₃
      ∧ answer (fsReadFileBytes pathA 16 dev₃) = .error .notFound := by
  have hoks : Along FsOp.after (fun dev op => answer (op.call dev) = .ok ())
      (formatted blankDevice) (firstCalls ++ [.unlink pathA]) := by decide +kernel
  obtain ⟨-, hwrite, happend, hunlink, -⟩ := hoks
  obtain ⟨htame, htame₁, htame₂, -⟩ := firstCalls_tame
  have hfirst : TameReached (formatted blankDevice) :=
    ⟨blankDevice, [], blankDevice_healthy, trivial, rfl⟩
  have hreach := hfirst.step htame
  have hreach₁ := hreach.step htame₁
  have hreach₂ := hreach₁.step htame₂
  generalize FsOp.after (formatted blankDevice) (.mkdir pathB) = dev at *
  have hread₁ := ((read_after_write dev hreach).1 pathA _ false _ htame₁
    (FsOp.call_after hwrite)).1 rfl 16 (by decide)
  refine ⟨dev, _, _, _, rfl, FsOp.call_after hwrite, hread₁, FsOp.call_after happend, ?_,
    FsOp.call_after hunlink, ?_⟩
  · generalize FsOp.after dev (.write pathA [0x01, 0x02] false) = dev₁ at *
    obtain ⟨old, _, hold, hread⟩ | ⟨hnone, -⟩ := ((read_after_write dev₁ hreach₁).1 pathA _ true _
      htame₂ (FsOp.call_after happend)).2.1 rfl
    · -- the old content is what was written
      obtain ⟨_, _, _, _, rfl⟩ := hreach₁
      obtain ⟨_, h⟩ := reachable_tree ‹_› _
      obtain ⟨_, _, _, hkey, hnode⟩ := file_of_read h hold
      obtain ⟨_, _, _, hkey', hnode'⟩ := file_of_read h hread₁
      rw [hkey] at hkey'
      cases hkey'
      rw [hnode] at hnode'
      cases hnode'
      exact hread 16 (by decide)
    · exact nomatch (hnone 16).symm.trans hread₁
  · exact ((read_after_write _ hreach₂).2.1 pathA _ (FsOp.call_after hunlink)).1 16

end Fs
