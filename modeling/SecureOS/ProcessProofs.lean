import SecureOS.ProcessModel

/-! # Processes by pid

A pid names at most one slot and a slot has at most one pid, so writing the
slot of one pid is seen by that pid alone. -/

namespace Process

open Function Option

variable {p : Procs} {pid : BitVec 32} {i : Fin 16}

theorem resolve_inj (h : resolve p pid = some i) (h' : resolve p pid' = some i) : pid = pid' :=
  GenHandle.resolve_inj (fun i => (p i).live) (fun i => (p i).generation) h h'

theorem resolve_kept (h : resolve p pid = some i) (hl : (q i).live = (p i).live)
    (hg : (q i).generation = (p i).generation) : resolve q pid = some i :=
  GenHandle.resolve_kept (fun i => (p i).live) (fun i => (q i).live)
    (fun i => (p i).generation) (fun i => (q i).generation) h hl hg

/-- The write leaves the slot named as it was. -/
def Keeps (f : Slot → Slot) : Prop := ∀ s, (f s).live = s.live ∧ (f s).generation = s.generation

/-- A write that keeps slots named moves no pid. -/
theorem resolve_setSlot (hf : Keeps f) (p : Procs) (pid pid' : BitVec 32) :
    resolve (setSlot f p pid).1 pid' = resolve p pid' := by
  rw [setSlot]
  cases resolve p pid with
  | none => rfl
  | some i =>
    have hslot : ∀ j, (update p i (f (p i)) j).live = (p j).live
        ∧ (update p i (f (p i)) j).generation = (p j).generation := by
      intro j
      by_cases hji : j = i
      · subst hji
        rw [update_self]
        exact hf (p j)
      · rw [update_of_ne hji]
        exact ⟨rfl, rfl⟩
    refine Option.ext fun j => ⟨fun h => ?_, fun h => ?_⟩
    · exact resolve_kept h (hslot j).1.symm (hslot j).2.symm
    · exact resolve_kept h (hslot j).1 (hslot j).2

/-- **A SLOT WRITE** is seen by the pid it was made for and by no other. -/
theorem lookup_setSlot (hf : Keeps f) (p : Procs) (pid pid' : BitVec 32) :
    processLookup (setSlot f p pid).1 pid'
      = if pid' = pid then (processLookup p pid').map f else processLookup p pid' := by
  rw [processLookup, resolve_setSlot hf, processLookup, setSlot]
  cases hi : resolve p pid with
  | none =>
    by_cases hpid : pid' = pid
    · rw [if_pos hpid, hpid, hi]; rfl
    · rw [if_neg hpid]
  | some i =>
    cases hj : resolve p pid' with
    | none => simp
    | some j =>
      by_cases hpid : pid' = pid
      · obtain rfl : j = i := some.inj (hj.symm.trans (hpid ▸ hi))
        rw [if_pos hpid]
        exact congrArg some (update_self ..)
      · have hji : j ≠ i := fun h => hpid (resolve_inj hj (h ▸ hi))
        rw [if_neg hpid]
        exact congrArg some (update_of_ne hji ..)

theorem setSlot_setSlot (f g : Slot → Slot) (hf : Keeps f) (p : Procs) (pid : BitVec 32) :
    (setSlot g (setSlot f p pid).1 pid).1 = (setSlot (g ∘ f) p pid).1 := by
  rw [setSlot, resolve_setSlot hf, setSlot, setSlot]
  cases resolve p pid with
  | none => rfl
  | some i =>
    show update (update p i (f (p i))) i (g (update p i (f (p i)) i)) = update p i (g (f (p i)))
    rw [update_self, update_idem]

section

variable (p : Procs) (subject : Nat) (aspace : Option AddressSpace.Window)

/-- `process_create` finds no slot or takes a dead one. -/
theorem processCreate_outcome : let r := processCreate p subject aspace
    ((∀ i, (p i).live) ∧ r.2.1 ≠ .ok ∧ r.1 = p)
      ∨ ∃ i, (p i).live = false ∧ r.2.1 = .ok ∧ r.2.2.1 = encodePid i (p i).generation
        ∧ r.1 = update p i
            { p i with
              live := true, subject := subject, aspace := aspace, state := .new,
              entry := none, exitCode := 0, blockedOnPort := none } := by
  dsimp only
  obtain hf | ⟨i, hf⟩ := eq_none_or_eq_some (Fin.find? (fun i => !(p i).live))
  · left
    unfold processCreate
    rw [hf]
    exact ⟨fun i => by simpa using Fin.find?_eq_none_iff.mp hf i, by simp, rfl⟩
  · right
    have hdead : (!(p i).live) := (Fin.find?_eq_some_iff.mp hf).1
    refine ⟨i, by simpa using hdead, ?_⟩
    unfold processCreate
    rw [hf]
    exact ⟨rfl, rfl, rfl⟩

theorem processCreate_cases : (processCreate p subject aspace).1 = p
      ∨ ∃ i, (p i).live = false ∧ (processCreate p subject aspace).1
        = update p i
          { p i with
            live := true, subject := subject, aspace := aspace, state := .new,
            entry := none, exitCode := 0, blockedOnPort := none } := by
  obtain ⟨-, -, he⟩ | ⟨i, hdead, -, -, he⟩ := processCreate_outcome p subject aspace
  · exact Or.inl he
  · exact Or.inr ⟨i, hdead, he⟩

/-- A process is created exactly when a slot is dead. -/
theorem processCreate_ok_iff :
    (processCreate p subject aspace).2.1 = .ok ↔ ∃ i, (p i).live = false := by
  obtain ⟨hlive, hr, -⟩ | ⟨i, hdead, hr, -, -⟩ := processCreate_outcome p subject aspace
  · refine iff_of_false hr ?_
    rintro ⟨i, hi⟩
    exact Bool.false_ne_true (hi.symm.trans (hlive i))
  · exact iff_of_true hr ⟨i, hdead⟩

end

theorem live_of_resolve (h : resolve p pid = some i) : (p i).live :=
  ((GenHandle.resolve_eq_some_iff (fun i => (p i).live) (fun i => (p i).generation) pid i).mp h).2

/-- The live processes of one table are in the other, slot by slot. -/
def Extends (p q : Procs) : Prop := ∀ i, (p i).live = true → q i = p i

theorem resolve_extends (h : Extends p q) (hi : resolve p pid = some i) :
    resolve q pid = some i := by
  have he := h i (live_of_resolve hi)
  exact resolve_kept hi (by rw [he]) (by rw [he])

theorem extends_create (p : Procs) (subject : Nat) (aspace : Option AddressSpace.Window) :
    Extends p (processCreate p subject aspace).1 := by
  intro j hj
  obtain he | ⟨i, hdead, he⟩ := processCreate_cases p subject aspace
  · rw [he]
  · have hji : j ≠ i := by
      rintro rfl
      exact Bool.false_ne_true (hdead.symm.trans hj)
    rw [he, update_of_ne hji]

/-- **A NEW PROCESS** takes a dead slot: every process there is stays where it is. -/
theorem lookup_create (subject : Nat) (aspace : Option AddressSpace.Window)
    (h : processLookup p pid = some s) :
    processLookup (processCreate p subject aspace).1 pid = some s := by
  have hext := extends_create p subject aspace
  rw [processLookup, map_eq_some_iff] at h
  obtain ⟨j, hj, rfl⟩ := h
  rw [processLookup, resolve_extends hext hj]
  exact congrArg some (hext j (live_of_resolve hj))

/-- The new process is NEW and waits for nothing. -/
theorem lookup_of_create (h : processLookup (processCreate p subject aspace).1 pid = some s) :
    processLookup p pid = some s ∨ (s.state = .new ∧ s.blockedOnPort = none) := by
  obtain he | ⟨i, _, he⟩ := processCreate_cases p subject aspace
  · left
    rwa [he] at h
  · rw [he, processLookup, map_eq_some_iff] at h
    obtain ⟨j, hj, rfl⟩ := h
    by_cases hji : j = i
    · right
      rw [hji, update_self]
      exact ⟨rfl, rfl⟩
    · left
      rw [processLookup, resolve_kept hj (by rw [update_of_ne hji]) (by rw [update_of_ne hji])]
      exact congrArg some (update_of_ne hji ..).symm

/-- No generation is zero, so every live slot has a pid. -/
def Numbered (p : Procs) : Prop := ∀ i, (p i).generation ≠ 0

theorem numbered_create (h : Numbered p) (subject : Nat) (aspace : Option AddressSpace.Window) :
    Numbered (processCreate p subject aspace).1 := by
  intro j
  obtain he | ⟨i, -, he⟩ := processCreate_cases p subject aspace
  · rw [he]
    exact h j
  · rw [he]
    by_cases hji : j = i
    · rw [hji, update_self]
      exact h i
    · rw [update_of_ne hji]
      exact h j

/-- The pid of a new process names a slot that was dead. -/
theorem resolve_create (h : Numbered p) (hok : (processCreate p subject aspace).2.1 = .ok) :
    let r := processCreate p subject aspace
    ∃ i, (p i).live = false ∧ resolve r.1 r.2.2.1 = some i ∧ (r.1 i).subject = subject := by
  obtain ⟨-, hr, -⟩ | ⟨i, hdead, -, hpid, he⟩ := processCreate_outcome p subject aspace
  · exact absurd hok hr
  · generalize processCreate p subject aspace = r at hpid he ⊢
    refine ⟨i, hdead, ?_, ?_⟩
    · have hgen : (r.1 i).generation = (p i).generation := by rw [he, update_self]
      have hlive : (r.1 i).live := by rw [he, update_self]
      rw [hpid, ← hgen]
      refine (GenHandle.resolve_eq_some_iff (fun i => (r.1 i).live) _ _ i).mpr
        ⟨GenHandle.decode_encode (by decide) i ?_, hlive⟩
      exact hgen ▸ h i
    · rw [he, update_self]

/-- Destroying a process touches the slot its pid names and no other. -/
theorem processDestroy_other (p : Procs) (handles : CapHandle.Table)
    (h : resolve p pid ≠ some j) : (processDestroy p handles pid).1 j = p j := by
  unfold processDestroy
  obtain hr | ⟨i, hr⟩ := eq_none_or_eq_some (resolve p pid)
  · rw [hr]
  · have hji : j ≠ i := by
      rintro rfl
      exact h hr
    rw [hr]
    exact update_of_ne hji ..

/-- **A DESTROYED PROCESS** is found by no pid, the others as before. -/
theorem lookup_destroy (p : Procs) (handles : CapHandle.Table) (pid pid' : BitVec 32) :
    processLookup (processDestroy p handles pid).1 pid'
      = if pid' = pid then none else processLookup p pid' := by
  unfold processDestroy
  cases hr : resolve p pid with
  | none =>
    by_cases hpid : pid' = pid
    · rw [if_pos hpid, hpid, processLookup, hr]
      rfl
    · rw [if_neg hpid]
  | some i =>
    have hother : ∀ j, j ≠ i → update p i (p i).destroy j = p j := fun j hji => update_of_ne hji ..
    cases hj : resolve (update p i (p i).destroy) pid' with
    | some j =>
      have hji : j ≠ i := by
        rintro rfl
        have hl := live_of_resolve hj
        rw [update_self] at hl
        exact Bool.false_ne_true hl
      have hkept := resolve_kept (q := p) hj (by rw [hother j hji]) (by rw [hother j hji])
      have hpid : pid' ≠ pid := by
        rintro rfl
        exact hji (some.inj (hkept.symm.trans hr))
      rw [if_neg hpid, processLookup, processLookup, hj, hkept]
      exact congrArg some (hother j hji)
    | none =>
      rw [processLookup, hj]
      by_cases hpid : pid' = pid
      · rw [if_pos hpid]
        rfl
      · rw [if_neg hpid, processLookup]
        cases hj' : resolve p pid' with
        | none => rfl
        | some j =>
          have hji : j ≠ i := fun h => hpid (resolve_inj hj' (h ▸ hr))
          have hkept := resolve_kept (q := update p i (p i).destroy) hj'
            (by rw [hother j hji]) (by rw [hother j hji])
          rw [hj] at hkept
          exact absurd hkept (by simp)

theorem numbered_destroy (h : Numbered p) (handles : CapHandle.Table) (pid : BitVec 32) :
    Numbered (processDestroy p handles pid).1 := by
  intro j
  unfold processDestroy
  obtain hr | ⟨i, hr⟩ := eq_none_or_eq_some (resolve p pid)
  · rw [hr]
    exact h j
  · rw [hr]
    show (update p i (p i).destroy j).generation ≠ 0
    by_cases hji : j = i
    · rw [hji, update_self]
      exact GenHandle.bump_ne_zero _
    · rw [update_of_ne hji]
      exact h j

end Process
