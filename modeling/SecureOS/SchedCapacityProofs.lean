import SecureOS.SchedRunProofs

/-! # Room for registrations

An entry of the scheduler is taken by a registration and never given back: `proc_exit` and
`process_destroy` leave it in use.  So what decides whether a process can be registered is how
many registrations there have been, not how many processes there are. -/

namespace SchedRun

open MachineRun Process ProcSched Function List

theorem findEntry_isSome_iff (t : Tasks) (pid : BitVec 32) : (findEntry t pid).isSome
      ↔ ∃ e, (t.entries e).inUse ∧ (t.entries e).pid = pid := by
  unfold findEntry
  rw [Fin.isSome_find?_iff]
  refine exists_congr fun e => ?_
  rw [Bool.and_eq_true, beq_iff_eq]

theorem allocEntry_isSome_iff (t : Tasks) (pid : BitVec 32) (mallocOk : Bool) :
    (allocEntry t pid mallocOk).isSome ↔ (∃ e, (t.entries e).inUse = false) ∧ mallocOk := by
  unfold allocEntry
  cases hfree : Fin.find? (fun e => !(t.entries e).inUse) with
  | none =>
    refine iff_of_false (by simp) ?_
    rintro ⟨⟨e, he⟩, -⟩
    have hno := Fin.find?_eq_none_iff.mp hfree e
    rw [he] at hno
    exact absurd hno (by simp)
  | some e =>
    have he : (!(t.entries e).inUse) := (Fin.find?_eq_some_iff.mp hfree).1
    cases mallocOk with
    | false => exact iff_of_false (by simp) (fun h => Bool.false_ne_true h.2)
    | true => exact iff_of_true rfl ⟨⟨e, by simpa using he⟩, rfl⟩

/-- What a registration needs. -/
theorem procSchedRegister_ok_iff (t : Tasks) (pid : BitVec 32) (entry : Option Nat)
    (mallocOk : Bool) : (procSchedRegister t pid entry mallocOk).2 = .ok
      ↔ entry ≠ none ∧ resolve t.procs pid ≠ none
        ∧ ¬ (findEntry t pid).isSome ∧ (allocEntry t pid mallocOk).isSome := by
  fun_cases procSchedRegister t pid entry mallocOk with
  | case1 hentry => exact iff_of_false (by simp) (fun h => h.1 hentry)
  | case2 _ hpid =>
    exact iff_of_false (by simp) (fun h => h.2.1 (Option.isNone_iff_eq_none.mp hpid))
  | case3 _ _ htaken => exact iff_of_false (by simp) (fun h => h.2.2.1 htaken)
  | case4 _ _ _ halloc => exact iff_of_false (by simp) (by simp [halloc])
  | case5 hentry hpid htaken _ _ halloc =>
    exact iff_of_true rfl ⟨hentry, mt Option.isNone_iff_eq_none.mpr hpid, htaken, by simp [halloc]⟩

/-- The entries in use. -/
def usedEntries (t : Tasks) : Finset (Fin 16) :=
  Finset.univ.filter (fun e => (t.entries e).inUse = true)

theorem mem_usedEntries (t : Tasks) (e : Fin 16) : e ∈ usedEntries t ↔ (t.entries e).inUse := by
  rw [usedEntries, Finset.mem_filter]
  exact ⟨And.right, fun h => ⟨Finset.mem_univ e, h⟩⟩

/-- An entry is free exactly when fewer than all are in use. -/
theorem exists_free_iff (t : Tasks) :
    (∃ e, (t.entries e).inUse = false) ↔ (usedEntries t).card < 16 := by
  have hcard : Fintype.card (Fin 16) = 16 := Fintype.card_fin 16
  constructor
  · rintro ⟨e, he⟩
    have hnot : e ∉ usedEntries t := by
      rw [mem_usedEntries, he]
      exact Bool.false_ne_true
    have hlt := Finset.card_lt_univ_of_notMem hnot
    rwa [hcard] at hlt
  · intro hlt
    by_contra hno
    have hall : usedEntries t = Finset.univ := by
      refine Finset.eq_univ_iff_forall.mpr fun e => ?_
      rw [mem_usedEntries]
      exact Bool.eq_true_of_not_eq_false fun he => hno ⟨e, he⟩
    rw [hall, Finset.card_univ] at hlt
    omega

/-- The entries in use are those of the registrations so far. -/
structure Recorded (m : Machine) : Prop where
  count : (usedEntries m.tasks).card = m.registered.length
  pids : ∀ pid, (∃ e, (m.tasks.entries e).inUse = true ∧ (m.tasks.entries e).pid = pid)
    ↔ pid ∈ m.registered

theorem recorded_boot (p : Procs) (handles : CapHandle.Table) : Recorded (boot p handles) := by
  refine ⟨?_, fun pid => ?_⟩
  · refine Finset.card_eq_zero.mpr (Finset.eq_empty_of_forall_notMem fun e he => ?_)
    rw [mem_usedEntries] at he
    exact Bool.false_ne_true he
  · refine iff_of_false ?_ (not_mem_nil)
    rintro ⟨_, he, -⟩
    exact Bool.false_ne_true he

theorem recorded_same (h : Recorded m) (hs : SameEntries m.tasks m'.tasks)
    (hr : m'.registered = m.registered) : Recorded m' := by
  have hused : usedEntries m'.tasks = usedEntries m.tasks := by
    ext e
    rw [mem_usedEntries, mem_usedEntries, (hs e).1]
  refine ⟨?_, fun pid => ?_⟩
  · rw [hused, hr]
    exact h.count
  · rw [hr, ← h.pids pid]
    exact exists_congr fun e => by rw [(hs e).1, (hs e).2]

/-- A registration takes one entry and adds one record. -/
theorem recorded_register (h : Recorded m) (pid : BitVec 32)
    (entry : Option Nat) (mallocOk : Bool) : Recorded (exec m (.register pid entry mallocOk)) := by
  obtain ⟨he, hno⟩ | ⟨e, _, hfree, -, -, he⟩ := procSchedRegister_cases m.tasks pid entry mallocOk
  · refine recorded_same h (sameEntries_of_eq (congrArg Tasks.entries he)) ?_
    exact if_neg hno
  · have hentries : (exec m (.register pid entry mallocOk)).tasks.entries
        = update m.tasks.entries e ⟨true, pid, false⟩ := by
      show (procSchedRegister m.tasks pid entry mallocOk).1.entries = _
      rw [he]
    have hreg : (exec m (.register pid entry mallocOk)).registered = m.registered ++ [pid] := by
      show (if (procSchedRegister m.tasks pid entry mallocOk).2 = .ok then _ else _) = _
      rw [he]
      rfl
    have hused : usedEntries (exec m (.register pid entry mallocOk)).tasks
        = insert e (usedEntries m.tasks) := by
      ext e'
      rw [mem_usedEntries, Finset.mem_insert, mem_usedEntries, hentries, update_apply]
      split_ifs with hee
      · exact iff_of_true rfl (Or.inl hee)
      · exact (or_iff_right hee).symm
    have hnot : e ∉ usedEntries m.tasks := by
      rw [mem_usedEntries, hfree]
      exact Bool.false_ne_true
    refine ⟨?_, fun pid' => ?_⟩
    · rw [hused, Finset.card_insert_of_notMem hnot, h.count, hreg, length_append]
      rfl
    · rw [hreg, mem_append, mem_singleton, ← h.pids pid', hentries]
      constructor
      · rintro ⟨e', hin, hp⟩
        rw [update_apply] at hin hp
        split_ifs at hin hp
        · exact Or.inr hp.symm
        · exact Or.inl ⟨e', hin, hp⟩
      · rintro (⟨e', hin, hp⟩ | rfl)
        · have hee : e' ≠ e := by
            rintro rfl
            exact Bool.false_ne_true (hfree.symm.trans hin)
          refine ⟨e', ?_⟩
          rw [update_of_ne hee]
          exact ⟨hin, hp⟩
        · exact ⟨e, by simp⟩

theorem recorded_step (m : Machine) (op : Op) (h : Recorded m) : Recorded (step m op) := by
  obtain ⟨hs, hr⟩ | ⟨pid, entry, mallocOk, rfl, he⟩ := entries_step m op
  · exact recorded_same h hs hr
  · rw [he]
    exact recorded_register h pid entry mallocOk

/-- The live processes that an entry is in use for. -/
def liveRegistered (t : Tasks) : Nat :=
  (List.finRange 16).countP (fun i => (t.procs i).live
      && (findEntry t (encodePid i (t.procs i).generation)).isSome)

/-- A live process without an entry leaves fewer than sixteen with one. -/
theorem liveRegistered_lt (hi : resolve t.procs pid = some i) (hnone : findEntry t pid = none) :
    liveRegistered t < 16 := by
  have hpid : encodePid i (t.procs i).generation = pid := by
    have hdecode := ((GenHandle.resolve_eq_some_iff (fun i => (t.procs i).live)
      (fun i => (t.procs i).generation) pid i).mp hi).1
    exact GenHandle.encode_of_decode (by decide) hdecode
  have hle : liveRegistered t ≤ 16 := by
    have hlen := countP_le_length (p := fun i => (t.procs i).live
      && (findEntry t (encodePid i (t.procs i).generation)).isSome) (l := List.finRange 16)
    rwa [length_finRange] at hlen
  refine lt_of_le_of_ne hle fun hall => ?_
  have hslot := countP_eq_length.mp (hall.trans length_finRange.symm) i
  rw [hpid, hnone] at hslot
  simp at hslot

/-- **ROOM FOR REGISTRATIONS**: after any calls, a live process with an entry function and a stack
    is registered exactly when fewer than sixteen registrations have succeeded and none was for its
    pid. -/
theorem register_ok_iff_room (p : Procs) (handles : CapHandle.Table) (ops : List Op)
    (pid : BitVec 32) (entry : Option Nat) (i : Fin 16) (hentry : entry ≠ none) :
    let m := run step (boot p handles) ops
    resolve m.tasks.procs pid = some i →
      (findEntry m.tasks pid = none → liveRegistered m.tasks < 16)
        ∧ ((procSchedRegister m.tasks pid entry true).2 = .ok
          ↔ m.registered.length < 16 ∧ pid ∉ m.registered) := by
  intro m hlive
  have hrec : Recorded m :=
    run_inv_all recorded_step ops (boot p handles) (recorded_boot p handles)
  refine ⟨liveRegistered_lt hlive, ?_⟩
  rw [procSchedRegister_ok_iff, findEntry_isSome_iff, allocEntry_isSome_iff, exists_free_iff,
    hrec.count, hrec.pids pid, hlive]
  constructor
  · rintro ⟨-, -, hfresh, hroom, -⟩
    exact ⟨hroom, hfresh⟩
  · rintro ⟨hroom, hfresh⟩
    exact ⟨hentry, by simp, hfresh, hroom, rfl⟩

/-- The first process of a fresh table. -/
theorem register_ok_first :
    (procSchedRegister (run step (boot processTableInit CapHandle.capHandleTableReset)
        [.create 1 none]).tasks 0x00010000 (some 1) true).2 = .ok :=
  (register_ok_iff_room processTableInit CapHandle.capHandleTableReset [.create 1 none]
    0x00010000 (some 1) 0 (by decide) (by decide)).2.mpr (by decide)

/-- Sixteen processes in a row, each destroyed after it has exited, and then one more. -/
def seventeen : Machine :=
  run step (boot processTableInit CapHandle.capHandleTableReset)
    ((List.range 16).flatMap (fun k => lifetime (BitVec.ofNat 32 (65536 * (k + 1))))
      ++ [.create 1 (some ⟨0x1000, 0x1000, 0x2000, 0⟩)])

/-- The seventeenth process is the only one there is, and cannot be registered. -/
theorem seventeenth_not_registered : resolve seventeen.tasks.procs 0x00110000 = some 0
      ∧ findEntry seventeen.tasks 0x00110000 = none ∧ liveRegistered seventeen.tasks = 0
      ∧ (procSchedRegister seventeen.tasks 0x00110000 (some 1) true).2 = .errInvalidArg := by
  decide +kernel

end SchedRun
