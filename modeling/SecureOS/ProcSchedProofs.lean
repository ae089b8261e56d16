import Mathlib.Data.Fintype.Card
import SecureOS.ProcSchedModel
import SecureOS.ProcessProofs

/-! # The scheduler's invariant

Each operation of the scheduler moves one entry: it rewrites the process of that entry, may add
it to the ready ring or take it off, and may change which entry runs. -/

namespace ProcSched

open AddressSpace (aspaceInvariantOk)
open Capability Process Function List Option

/-! ## Entries and their processes -/

theorem isActive_iff (t : Tasks) :
    procSchedIsActive t ↔ t.dispatching ∧ ∃ c, t.current = some c := by
  rw [procSchedIsActive, Bool.and_eq_true, isSome_iff_exists]

variable {t t' : Tasks} {c e : Fin 16} {s : Slot}

theorem block_ok (hc : t.current = some c) (i : Fin 16) :
    (procSchedBlockCurrentOnPort t (some i)).2 = .ok := by
  rw [procSchedBlockCurrentOnPort, if_neg (by simp), hc]

/-- The entry is registered and its process is in slot `s`. -/
def Tasks.At (t : Tasks) (e : Fin 16) (s : Slot) : Prop := (t.entries e).inUse ∧ t.slotOf e = some s

theorem at_unique (h : t.At e s) (h' : t.At e s') : s = s' := some.inj (h.2.symm.trans h'.2)

/-- The invariant of the scheduler's state.  An entry in use may have lost its process. -/
structure SchedOk (t : Tasks) : Prop where
  distinct : ∀ e e', (t.entries e).inUse = true → (t.entries e').inUse = true →
    (t.entries e).pid = (t.entries e').pid → e = e'
  nodup : t.ready.toList.Nodup
  ready : ∀ e, e ∈ t.ready.toList ↔ ∃ s, t.At e s ∧ s.state = .ready
  running : ∀ e, t.current = some e → (t.entries e).started = true
    ∧ ∃ s, t.At e s ∧ s.state = .running ∧ aspaceInvariantOk s.aspace = true
  blocked : ∀ e s, t.At e s → (s.state = .blocked ↔ s.blockedOnPort.isSome = true)
  aside : ∀ pid s, (∀ e, (t.entries e).inUse = true → (t.entries e).pid ≠ pid) →
    processLookup t.procs pid = some s → s.blockedOnPort = none

/-- A reset scheduler, over processes that wait for nothing. -/
theorem schedOk_reset (hp : ∀ pid s, processLookup p pid = some s → s.blockedOnPort = none) :
    SchedOk (procSchedReset p) where
  distinct _ _ h := nomatch h
  nodup := nodup_nil
  ready _ := ⟨fun h => (nomatch h), fun ⟨_, h, _⟩ => (nomatch h.1)⟩
  running _ h := nomatch h
  blocked _ _ h := nomatch h.1
  aside pid s _ h := hp pid s h

/-- Whether the loop runs is no part of the invariant. -/
theorem schedOk_dispatching (h : SchedOk t) (b : Bool) : SchedOk { t with dispatching := b } :=
  ⟨h.distinct, h.nodup, h.ready, h.running, h.blocked, h.aside⟩

theorem count_le (h : SchedOk t) : t.ready.count ≤ 16 := by
  have hlen := h.nodup.length_le_card
  rwa [RingQueue.length_toList, Fintype.card_fin] at hlen

/-- There is room for an entry that is not on the ring. -/
theorem count_lt (h : SchedOk t) (he : e ∉ t.ready.toList) : t.ready.count < 16 := by
  have hlen := (nodup_cons.mpr ⟨he, h.nodup⟩).length_le_card
  rw [length_cons, RingQueue.length_toList] at hlen
  exact hlen

theorem not_mem_ready (h : SchedOk t) (hat : t.At e s) (hs : s.state ≠ .ready) :
    e ∉ t.ready.toList := by
  intro he
  obtain ⟨_, hat', hs'⟩ := (h.ready e).mp he
  exact hs (at_unique hat' hat ▸ hs')

/-- The process of one entry is now in slot `s` and has its pid alone; every other one stays. -/
structure Shifts (t t' : Tasks) (e : Fin 16) (s : Slot) : Prop where
  entry : ∀ e', e' ≠ e → (t'.entries e').inUse = (t.entries e').inUse
    ∧ (t'.entries e').pid = (t.entries e').pid
  pid : (t.entries e).inUse = true → (t'.entries e).pid = (t.entries e).pid
  self : t'.At e s
  other : ∀ e', e' ≠ e → ∀ s', t'.At e' s' ↔ t.At e' s'
  apart : ∀ e', e' ≠ e → (t.entries e').inUse = true → (t.entries e').pid ≠ (t'.entries e).pid
  lookup : ∀ pid, pid ≠ (t'.entries e).pid → processLookup t'.procs pid = processLookup t.procs pid

/-- One registered entry moves. -/
structure Moves (t t' : Tasks) (e : Fin 16) (s : Slot) : Prop extends Shifts t t' e s where
  started : ∀ e', (t.entries e').started = true → (t'.entries e').started = true

/-- The entries keep what they are registered for, and those that have started stay so. -/
def EntriesKept (t t' : Fin 16 → Entry) : Prop :=
  ∀ e, (t' e).inUse = (t e).inUse ∧ (t' e).pid = (t e).pid ∧ ((t e).started → (t' e).started)

/-- A write to the process of an entry moves that entry. -/
theorem moves_setSlot (f : Slot → Slot) (h : SchedOk t) (hat : t.At e s) (hf : Keeps f)
    (hprocs : t'.procs = (setSlot f t.procs (t.entries e).pid).1)
    (hentries : EntriesKept t.entries t'.entries) : Moves t t' e (f s) := by
  have hslot : ∀ e', t'.slotOf e' = if (t.entries e').pid = (t.entries e).pid
      then (t.slotOf e').map f else t.slotOf e' := by
    intro e'
    rw [Tasks.slotOf, hprocs, (hentries e').2.1, lookup_setSlot hf]
    rfl
  have hapart : ∀ e', e' ≠ e → (t.entries e').inUse → (t.entries e').pid ≠ (t.entries e).pid :=
    fun e' hne hin hp => hne (h.distinct e' e hin hat.1 hp)
  rw [← (hentries e).2.1] at hapart
  refine ⟨⟨fun e' _ => ⟨(hentries e').1, (hentries e').2.1⟩,
    fun _ => (hentries e).2.1, ⟨(hentries e).1.trans hat.1, ?_⟩, fun e' hne s' => ?_, hapart,
    fun pid hpid => ?_⟩, fun e' => (hentries e').2.2⟩
  · rw [hslot e, if_pos rfl, hat.2]
    rfl
  · rw [Tasks.At, Tasks.At, (hentries e').1]
    refine and_congr_right fun hin => ?_
    rw [hslot e', if_neg ((hentries e).2.1 ▸ hapart e' hne hin)]
  · rw [hprocs, lookup_setSlot hf, if_neg ((hentries e).2.1 ▸ hpid)]

/-- A write to the process of an entry, and one of its state. -/
theorem moves_setSlot_setState (f : Slot → Slot) (state : ProcState) (h : SchedOk t)
    (hat : t.At e s) (hf : Keeps f)
    (hprocs : t'.procs = (setSlot (fun s => { s with state }) (setSlot f t.procs
      (t.entries e).pid).1 (t.entries e).pid).1)
    (hentries : EntriesKept t.entries t'.entries) : Moves t t' e { f s with state } :=
  moves_setSlot (fun s => { f s with state }) h hat hf
    (hprocs.trans (setSlot_setSlot f _ hf t.procs (t.entries e).pid)) hentries

/-- Entries with different pids keep them. -/
theorem Shifts.distinct (hm : Shifts t t' e s)
    (hd : ∀ e1 e2, (t.entries e1).inUse → (t.entries e2).inUse →
      (t.entries e1).pid = (t.entries e2).pid → e1 = e2) (e1 e2 : Fin 16)
    (h1 : (t'.entries e1).inUse) (h2 : (t'.entries e2).inUse)
    (hp : (t'.entries e1).pid = (t'.entries e2).pid) : e1 = e2 := by
  by_cases he1 : e1 = e
  · by_cases he2 : e2 = e
    · rw [he1, he2]
    · rw [(hm.entry e2 he2).1] at h2
      rw [(hm.entry e2 he2).2, he1] at hp
      exact absurd hp.symm (hm.apart e2 he2 h2)
  · rw [(hm.entry e1 he1).1] at h1
    rw [(hm.entry e1 he1).2] at hp
    by_cases he2 : e2 = e
    · exact absurd (he2 ▸ hp) (hm.apart e1 he1 h1)
    · rw [(hm.entry e2 he2).1] at h2
      rw [(hm.entry e2 he2).2] at hp
      exact hd e1 e2 h1 h2 hp

/-- **ONE ENTRY CHANGES** and the ring and the running entry follow it. -/
theorem schedOk_shifts (h : SchedOk t) (hm : Shifts t t' e s) (hnodup : t'.ready.toList.Nodup)
    (hring : ∀ e', e' ≠ e → (e' ∈ t'.ready.toList ↔ e' ∈ t.ready.toList))
    (hself : e ∈ t'.ready.toList ↔ s.state = .ready)
    (hcur : ∀ c, t'.current = some c → (c ≠ e ∧ t.current = some c
        ∧ ((t.entries c).started → (t'.entries c).started))
      ∨ (c = e ∧ (t'.entries e).started ∧ s.state = .running
        ∧ aspaceInvariantOk s.aspace))
    (hblocked : s.state = .blocked ↔ s.blockedOnPort.isSome) : SchedOk t' where
  distinct := hm.distinct h.distinct
  nodup := hnodup
  ready e' := by
    by_cases hee : e' = e
    · subst hee
      rw [hself]
      exact ⟨fun hs => ⟨s, hm.self, hs⟩, fun ⟨s', hs', hr⟩ => at_unique hs' hm.self ▸ hr⟩
    · rw [hring e' hee, h.ready]
      exact exists_congr fun s' => and_congr_left fun _ => (hm.other e' hee s').symm
  running c hc := by
    rcases hcur c hc with ⟨hce, hc', hst⟩ | ⟨rfl, hst, hr, ha⟩
    · obtain ⟨hold, s', hs', hr⟩ := h.running c hc'
      exact ⟨hst hold, s', (hm.other c hce s').mpr hs', hr⟩
    · exact ⟨hst, s, hm.self, hr, ha⟩
  blocked e' s' hs' := by
    by_cases hee : e' = e
    · subst hee
      obtain rfl := at_unique hs' hm.self
      exact hblocked
    · exact h.blocked e' s' ((hm.other e' hee s').mp hs')
  aside pid s' hnone hs' := by
    rw [hm.lookup pid (hnone e hm.self.1).symm] at hs'
    refine h.aside pid s' (fun e' he' hp => ?_) hs'
    by_cases hee : e' = e
    · subst hee
      exact hnone e' hm.self.1 ((hm.pid he').trans hp)
    · obtain ⟨hin, hpid⟩ := hm.entry e' hee
      exact hnone e' (hin.trans he') (hpid.trans hp)

/-- One entry moves, with the ring and the running entry that result. -/
structure Lands (t t' : Tasks) (e : Fin 16) (s : Slot) (ring : List (Fin 16))
    (current : Option (Fin 16)) : Prop where
  moves : Moves t t' e s
  ring : t'.ready.toList = ring
  current : t'.current = current
  ok : SchedOk t'

section

variable (h : SchedOk t) (hat : t.At e s0) (hs0 : s0.state ≠ .ready) (hm : Moves t t' e s)
include h hat hs0 hm

/-- The entry becomes READY at the end of the ring; what runs is some other entry. -/
theorem lands_push (hs : s.state = .ready) (hidle : s.blockedOnPort = none)
    (hr : t'.ready = t.ready.push e)
    (hcur : ∀ c, t'.current = some c → c ≠ e ∧ t.current = some c) :
    Lands t t' e s (t.ready.toList ++ [e]) t'.current := by
  have hnot := not_mem_ready h hat hs0
  have hlist : t'.ready.toList = t.ready.toList ++ [e] := by
    rw [hr, RingQueue.toList_push t.ready e (count_lt h hnot)]
  refine ⟨hm, hlist, rfl, schedOk_shifts h hm.toShifts ?_ ?_ ?_ (fun c hc => Or.inl ?_) ?_⟩
  · rw [hlist, ← concat_eq_append]
    exact h.nodup.concat hnot
  · intro _ hne
    simp [hlist, hne]
  · simp [hlist, hs]
  · exact ⟨(hcur c hc).1, (hcur c hc).2, hm.started c⟩
  · simp [hs, hidle]

/-- The entry stops running without becoming READY. -/
theorem lands_off (hs : s.state ≠ .ready) (hb : s.state = .blocked ↔ s.blockedOnPort.isSome)
    (hr : t'.ready.toList = t.ready.toList) (hcur : t'.current = none) :
    Lands t t' e s t.ready.toList none := by
  have hnot := not_mem_ready h hat hs0
  refine ⟨hm, hr, hcur, schedOk_shifts h hm.toShifts (hr ▸ h.nodup) ?_ ?_ ?_ hb⟩
  · intro _ _
    rw [hr]
  · rw [hr]
    exact ⟨fun he => absurd he hnot, fun hr => absurd hr hs⟩
  · intro _ hc
    rw [hcur] at hc
    exact nomatch hc

end

/-- The entry is taken off the head of the ring. -/
theorem lands_pop (h : SchedOk t) (hl : t.ready.toList = e :: rest)
    (hm : Moves t t' e s) (hs : s.state ≠ .ready)
    (hb : s.state = .blocked ↔ s.blockedOnPort.isSome) (hr : t'.ready.toList = rest)
    (hcur : ∀ c, t'.current = some c → c = e ∧ (t'.entries e).started
      ∧ s.state = .running ∧ aspaceInvariantOk s.aspace) : Lands t t' e s rest t'.current := by
  have hnodup := h.nodup
  rw [hl, nodup_cons] at hnodup
  refine ⟨hm, hr, rfl, schedOk_shifts h hm.toShifts (hr ▸ hnodup.2) ?_ ?_
    (fun c hc => Or.inr (hcur c hc)) hb⟩
  · intro _ hne
    simp [hr, hl, hne]
  · rw [hr]
    exact ⟨fun he => absurd he hnodup.1, fun hr => absurd hr hs⟩

/-! ## The operations of what runs -/

section

variable (h : SchedOk t) (hc : t.current = some c)
include h hc

/-- What runs, and that it waits for nothing. -/
theorem running_at : ∃ s, t.At c s ∧ s.state = .running ∧ s.blockedOnPort = none
      ∧ aspaceInvariantOk s.aspace := by
  obtain ⟨-, s, hat, hs, ha⟩ := h.running c hc
  refine ⟨s, hat, hs, ?_, ha⟩
  have hb := (h.blocked c s hat).not
  rw [hs] at hb
  simpa using hb

/-- `proc_yield` puts the running entry at the end of the ring. -/
theorem yield_lands : ∃ s, t.At c s ∧ s.state = .running
      ∧ Lands t (procYield t).1 c { s with state := .ready } (t.ready.toList ++ [c]) none := by
  obtain ⟨s, hat, hs, hidle, -⟩ := running_at h hc
  have hy : (procYield t).1
      = { readyPush (t.setState (t.entries c).pid .ready) c with current := none } := by
    rw [procYield, hc]
  refine ⟨s, hat, hs, ?_⟩
  rw [hy]
  have hm : Moves t { readyPush (t.setState (t.entries c).pid .ready) c with current := none } c
      { s with state := .ready } :=
    moves_setSlot (fun s => { s with state := .ready }) h hat (fun _ => ⟨rfl, rfl⟩) rfl
      (fun _ => ⟨rfl, rfl, id⟩)
  exact lands_push h hat (by simp [hs]) hm rfl hidle rfl (fun _ hc' => (nomatch hc'))

/-- `proc_exit` ends the running entry's process. -/
theorem exit_lands (code : BitVec 32) : ∃ s, t.At c s ∧ s.state = .running
      ∧ Lands t (procExit t code).1 c { s with exitCode := code, state := .exited }
        t.ready.toList none := by
  obtain ⟨s, hat, hs, hidle, -⟩ := running_at h hc
  have hx : (procExit t code).1
      = { readyDrop ((t.setExitCode (t.entries c).pid code).setState (t.entries c).pid .exited) c
          with current := none } := by
    rw [procExit, hc]
  refine ⟨s, hat, hs, ?_⟩
  rw [hx]
  refine lands_off h hat (by simp [hs]) ?_ (by simp) (by simp [hidle]) ?_ rfl
  · exact moves_setSlot_setState (fun s => { s with exitCode := code }) .exited h hat
      (fun _ => ⟨rfl, rfl⟩) rfl (fun _ => ⟨rfl, rfl, id⟩)
  · exact RingQueue.toList_drop_of_not_mem (r := t.ready) (count_le h)
      (not_mem_ready h hat (by simp [hs]))

/-- `proc_sched_block_current_on_port` makes the running entry wait for the port. -/
theorem block_lands (i : Token) : ∃ s, t.At c s ∧ s.state = .running ∧ aspaceInvariantOk s.aspace
      ∧ Lands t (procSchedBlockCurrentOnPort t (some i)).1 c
        { s with blockedOnPort := some i, state := .blocked } t.ready.toList none := by
  obtain ⟨s, hat, hs, _, ha⟩ := running_at h hc
  have hb : (procSchedBlockCurrentOnPort t (some i)).1
      = { (t.setBlockedOn (t.entries c).pid (some i)).setState (t.entries c).pid .blocked
          with current := none } := by
    rw [procSchedBlockCurrentOnPort, if_neg (by simp), hc]
  refine ⟨s, hat, hs, ha, ?_⟩
  rw [hb]
  refine lands_off h hat (by simp [hs]) ?_ (by simp) (by simp) rfl rfl
  exact moves_setSlot_setState (fun s => { s with blockedOnPort := some i }) .blocked h hat
    (fun _ => ⟨rfl, rfl⟩) rfl (fun _ => ⟨rfl, rfl, id⟩)

end

/-! ## Waking -/

/-- A wake: nobody waits, or the first waiter in table order becomes ready. -/
theorem wake_cases (t : Tasks) (i : Fin 16) :
    (Fin.find? (t.waitsOn i) = none ∧ (procSchedWakeOneOnPort t (some i)).1 = t)
      ∨ ∃ e, Fin.find? (t.waitsOn i) = some e ∧ (procSchedWakeOneOnPort t (some i)).1
          = readyPush ((t.setBlockedOn (t.entries e).pid none).setState
              (t.entries e).pid .ready) e := by
  obtain hf | ⟨e, hf⟩ := eq_none_or_eq_some (Fin.find? (t.waitsOn i))
  · refine Or.inl ⟨hf, ?_⟩
    rw [procSchedWakeOneOnPort, hf]
    rfl
  · refine Or.inr ⟨e, hf, ?_⟩
    rw [procSchedWakeOneOnPort, hf]
    rfl

theorem wake_current (t : Tasks) (i : Fin 16) :
    (procSchedWakeOneOnPort t (some i)).1.current = t.current := by
  obtain ⟨-, he⟩ | ⟨_, -, he⟩ := wake_cases t i
  · rw [he]
  · rw [he]; rfl

theorem waitsOn_iff (t : Tasks) (i : Token) (e : Fin 16) : t.waitsOn i e
      ↔ ∃ s, t.At e s ∧ s.state = .blocked ∧ s.blockedOnPort = some i := by
  rw [Tasks.waitsOn, Bool.and_eq_true, Option.any_eq_true]
  constructor
  · rintro ⟨hin, s, hs, hb⟩
    rw [Bool.and_eq_true, beq_iff_eq, beq_iff_eq] at hb
    exact ⟨s, ⟨hin, hs⟩, hb⟩
  · rintro ⟨s, ⟨hin, hs⟩, hb⟩
    rw [← beq_iff_eq (a := s.state), ← beq_iff_eq (a := s.blockedOnPort), ← Bool.and_eq_true] at hb
    exact ⟨hin, s, hs, hb⟩

/-- An entry that moves without having waited or waiting now leaves the waiters. -/
theorem waitsOn_moves (hm : Moves t t' e s) (hat : t.At e s0) (hs0 : s0.state ≠ .blocked)
    (hs : s.state ≠ .blocked) (i : Token) : t'.waitsOn i = t.waitsOn i := by
  funext e'
  rw [Bool.eq_iff_iff, waitsOn_iff, waitsOn_iff]
  by_cases hee : e' = e
  · subst hee
    constructor
    · rintro ⟨s', hs', hb, -⟩
      exact absurd (at_unique hs' hm.self ▸ hb) hs
    · rintro ⟨s', hs', hb, -⟩
      exact absurd (at_unique hs' hat ▸ hb) hs0
  · exact exists_congr fun s' => and_congr_left fun _ => hm.other e' hee s'

/-- `proc_sched_wake_one_on_port`: nobody waits, or the first waiter goes to the end of the ring. -/
theorem wake_lands (h : SchedOk t) (i : Token) :
    (Fin.find? (t.waitsOn i) = none ∧ (procSchedWakeOneOnPort t (some i)).1 = t)
      ∨ ∃ e s, Fin.find? (t.waitsOn i) = some e ∧ t.At e s ∧ s.state = .blocked
        ∧ s.blockedOnPort = some i
        ∧ Lands t (procSchedWakeOneOnPort t (some i)).1 e
          { s with blockedOnPort := none, state := .ready } (t.ready.toList ++ [e])
          t.current := by
  obtain ⟨hf, hw⟩ | ⟨e, hf, hw⟩ := wake_cases t i
  · exact Or.inl ⟨hf, hw⟩
  · obtain ⟨s, hat, hs, hb⟩ := (waitsOn_iff t i e).mp (Fin.find?_eq_some_iff.mp hf).1
    refine Or.inr ⟨e, s, hf, hat, hs, hb, ?_⟩
    rw [hw]
    have hm : Moves t (readyPush ((t.setBlockedOn (t.entries e).pid none).setState
        (t.entries e).pid .ready) e) e { s with blockedOnPort := none, state := .ready } :=
      moves_setSlot_setState (fun s => { s with blockedOnPort := none }) .ready h hat
        (fun _ => ⟨rfl, rfl⟩) rfl (fun _ => ⟨rfl, rfl, id⟩)
    -- a waiting entry does not run
    refine lands_push h hat (by simp [hs]) hm rfl rfl rfl (fun c hc => ⟨?_, hc⟩)
    rintro rfl
    obtain ⟨-, _, hat', hr, -⟩ := h.running c hc
    rw [at_unique hat' hat, hs] at hr
    exact nomatch hr

/-! ## New processes and entries -/

/-- Other processes under the same entries: what has not exited stays, and what is seen now was
    there or is NEW. -/
theorem schedOk_procs (h : SchedOk t)
    (hkept : ∀ e s, t.At e s → s.state ≠ .exited → ({ t with procs := p } : Tasks).At e s)
    (hseen : ∀ pid s, processLookup p pid = some s →
      processLookup t.procs pid = some s ∨ (s.state = .new ∧ s.blockedOnPort = none)) :
    SchedOk { t with procs := p } where
  distinct := h.distinct
  nodup := h.nodup
  ready e := by
    constructor
    · intro hmem
      obtain ⟨s, hat, hs⟩ := (h.ready e).mp hmem
      exact ⟨s, hkept e s hat (by simp [hs]), hs⟩
    · rintro ⟨s, ⟨hin, hlook⟩, hs⟩
      rcases hseen _ s hlook with hold | ⟨hnew, -⟩
      · exact (h.ready e).mpr ⟨s, ⟨hin, hold⟩, hs⟩
      · exact nomatch hnew.symm.trans hs
  running e hc := by
    obtain ⟨hst, s, hat, hrun, hok⟩ := h.running e hc
    exact ⟨hst, s, hkept e s hat (by simp [hrun]), hrun, hok⟩
  blocked e s hat := by
    rcases hseen _ s hat.2 with hold | ⟨hnew, hidle⟩
    · exact h.blocked e s ⟨hat.1, hold⟩
    · simp [hnew, hidle]
  aside pid s hnone hs := (hseen pid s hs).elim (h.aside pid s hnone) And.right

theorem create_ok (h : SchedOk t) (subject : Nat) (aspace : Option AddressSpace.Window) :
    SchedOk { t with procs := (processCreate t.procs subject aspace).1 } :=
  schedOk_procs h (fun _ _ hat _ => ⟨hat.1, lookup_create subject aspace hat.2⟩)
    (fun _ _ => lookup_of_create)

/-- `alloc_entry` fills a free entry. -/
theorem allocEntry_some (h : allocEntry t pid mallocOk = some (e, t')) : (t.entries e).inUse = false
      ∧ t' = { t with entries := update t.entries e ⟨true, pid, false⟩ } := by
  unfold allocEntry at h
  split at h
  · cases h
  next hf =>
    split_ifs at h
    obtain ⟨rfl, rfl⟩ := Prod.mk.inj (some.inj h)
    exact ⟨by simpa using (Fin.find?_eq_some_iff.mp hf).1, rfl⟩

/-- `proc_sched_register` is refused, or writes the process and fills a free entry. -/
theorem procSchedRegister_cases (t : Tasks) (pid : BitVec 32) (entry : Option Nat)
    (mallocOk : Bool) : let r := procSchedRegister t pid entry mallocOk
    (r.1 = t ∧ r.2 ≠ .ok)
      ∨ ∃ e i, (t.entries e).inUse = false ∧ Process.resolve t.procs pid = some i
        ∧ (∀ e', (t.entries e').inUse → (t.entries e').pid ≠ pid)
        ∧ r = ({ t with
              procs := (setSlot (fun s => { s with entry := entry, state := .ready }) t.procs pid).1
              entries := update t.entries e ⟨true, pid, false⟩
              ready := t.ready.push e }, .ok) := by
  dsimp only
  fun_cases procSchedRegister t pid entry mallocOk with
  | case5 _ hpid hfind e _ ha =>
    obtain ⟨i, hi⟩ : ∃ i, Process.resolve t.procs pid = some i := by
      simpa [ne_none_iff_exists'] using hpid
    obtain ⟨hfree, rfl⟩ := allocEntry_some ha
    refine .inr ⟨e, i, hfree, hi, fun e' hin hp => hfind ?_, ?_⟩
    · unfold findEntry
      rw [Fin.isSome_find?_iff]
      exact ⟨e', by simp [hin, hp]⟩
    · have hset := setSlot_setSlot (fun s => { s with entry := entry })
        (fun s => { s with state := .ready }) (fun _ => ⟨rfl, rfl⟩) t.procs pid
      exact congrArg (fun p : Procs =>
        (({ t with
          procs := p
          entries := update t.entries e ⟨true, pid, false⟩
          ready := t.ready.push e } : Tasks), SchedResult.ok)) hset
  | _ => exact .inl ⟨rfl, nofun⟩

/-- Registering makes a free entry READY with the process, at the end of the ring, and no more. -/
structure Registers (t t' : Tasks) (e : Fin 16) : Prop where
  free : (t.entries e).inUse = false
  entry : ∀ e', e' ≠ e → t'.entries e' = t.entries e'
  self : ∃ s, t'.At e s ∧ s.state = .ready ∧ s.blockedOnPort = none
  other : ∀ e', e' ≠ e → ∀ s', t'.At e' s' ↔ t.At e' s'
  ring : t'.ready.toList = t.ready.toList ++ [e]
  current : t'.current = t.current
  fresh : ∀ e', (t.entries e').inUse = true → (t.entries e').pid ≠ (t'.entries e).pid
  lookup : ∀ pid, pid ≠ (t'.entries e).pid →
    processLookup t'.procs pid = processLookup t.procs pid

theorem free_not_mem (h : SchedOk t) (hfree : (t.entries e).inUse = false) :
    e ∉ t.ready.toList := by
  intro hmem
  obtain ⟨_, hat, -⟩ := (h.ready e).mp hmem
  exact Bool.false_ne_true (hfree.symm.trans hat.1)

theorem register_lands (h : SchedOk t) (pid : BitVec 32) (entry : Option Nat) (mallocOk : Bool) :
    let r := procSchedRegister t pid entry mallocOk
    (r.1 = t ∧ r.2 ≠ .ok) ∨ ∃ e, Registers t r.1 e := by
  obtain he | ⟨e, i, hfree, hpid, hnone, he⟩ := procSchedRegister_cases t pid entry mallocOk
  · exact Or.inl he
  refine Or.inr ⟨e, ?_⟩
  rw [he]
  have hself : update t.entries e ⟨true, pid, false⟩ e = ⟨true, pid, false⟩ := update_self ..
  have hkept : ∀ e', e' ≠ e → update t.entries e ⟨true, pid, false⟩ e' = t.entries e' :=
    fun e' hne => update_of_ne hne ..
  have hslot := lookup_setSlot (f := fun s => { s with entry := entry, state := .ready })
    (fun _ => ⟨rfl, rfl⟩) t.procs pid
  have hold : processLookup t.procs pid = some (t.procs i) := by rw [processLookup, hpid]; rfl
  refine ⟨hfree, hkept, ⟨{ t.procs i with entry := entry, state := .ready }, ⟨?_, ?_⟩, rfl,
    h.aside pid (t.procs i) hnone hold⟩, fun e' hne s' => ?_, ?_, rfl, ?_, ?_⟩
  · show (update t.entries e _ e).inUse = true
    rw [hself]
  · show processLookup _ (update t.entries e _ e).pid = _
    rw [hself, hslot, if_pos rfl, hold]
    rfl
  · show ((update t.entries e _ e').inUse = true
        ∧ processLookup _ (update t.entries e _ e').pid = some s') ↔ _
    rw [hkept e' hne]
    refine and_congr_right fun hin => ?_
    rw [hslot, if_neg (hnone e' hin)]
    rfl
  · exact RingQueue.toList_push t.ready e (count_lt h (free_not_mem h hfree))
  · show ∀ e', _ → (t.entries e').pid ≠ (update t.entries e _ e).pid
    rw [hself]
    exact hnone
  · show ∀ pid', pid' ≠ (update t.entries e _ e).pid → _
    rw [hself]
    intro _ hne
    rw [hslot, if_neg hne]

theorem Registers.shifts (hr : Registers t t' e) (hat : t'.At e s) : Shifts t t' e s where
  entry e' hne := by
    rw [hr.entry e' hne]
    exact ⟨rfl, rfl⟩
  pid hin := absurd hin (by simp [hr.free])
  self := hat
  other := hr.other
  apart e' _ := hr.fresh e'
  lookup := hr.lookup

theorem registers_ok (h : SchedOk t) (hr : Registers t t' e) : SchedOk t' := by
  obtain ⟨s, hat, hready, hidle⟩ := hr.self
  refine schedOk_shifts h (hr.shifts hat) ?_ (fun e' hee => by simp [hr.ring, hee])
    (by simp [hr.ring, hready]) (fun c hc => Or.inl ?_) (by simp [hready, hidle])
  · rw [hr.ring, ← concat_eq_append]
    exact h.nodup.concat (free_not_mem h hr.free)
  · rw [hr.current] at hc
    obtain ⟨_, _, hs', _⟩ := h.running c hc
    have hce : c ≠ e := by
      rintro rfl
      exact Bool.false_ne_true (hr.free.symm.trans hs'.1)
    rw [hr.entry c hce]
    exact ⟨hce, hc, id⟩

/-! ## The dispatch loop -/

theorem dispatch_runs_current (h : dispatch t ctxOk = (t', .runs i)) : t'.current = some i := by
  revert h
  fun_cases dispatch t ctxOk with
  | case5 =>
    rw [switchTo]
    split_ifs <;> rintro ⟨⟩ <;> rfl
  | _ => exact fun h => by cases (Prod.mk.inj h).2

/-- How a turn of the loop ends that takes an entry off the ring. -/
inductive Dispatches (t : Tasks) (e : Fin 16) (s : Slot) (rest : List (Fin 16)) :
    Tasks × Turn → Prop
  /-- its address space is bad, and the panic hook would end its process -/
  | violated {t' : Tasks} {reason : CStr}
      (hbad : aspaceInvariantOk s.aspace = false) (hp : t'.procs = t.procs)
      (he : t'.entries = t.entries) (hr : t'.ready.toList = rest)
      (hforce : Lands t (forceExit t' e) e
        { s with exitCode := BitVec.allOnes 32, state := .exited } rest none) :
      Dispatches t e s rest (t', .violated e reason)
  /-- it runs -/
  | runs {t' : Tasks} (hok : aspaceInvariantOk s.aspace = true)
      (hd : t'.dispatching = t.dispatching)
      (hl : Lands t t' e { s with state := .running } rest (some e)) :
      Dispatches t e s rest (t', .runs e)
  /-- its context cannot be made -/
  | fails {t' : Tasks} (hnew : (t.entries e).started = false)
      (hl : Lands t t' e { s with state := .exited } rest none) :
      Dispatches t e s rest (t', .skipped)

/-- Marking an entry started keeps what it is registered for. -/
theorem entries_started (t : Tasks) (e : Fin 16) :
    EntriesKept t.entries (update t.entries e { t.entries e with started := true }) := by
  intro e'
  by_cases hee : e' = e
  · subst hee
    rw [update_self]
    exact ⟨rfl, rfl, fun _ => rfl⟩
  · rw [update_of_ne hee]
    exact ⟨rfl, rfl, id⟩

theorem switchTo_dispatches (h : SchedOk t)
    (hl : t.ready.toList = e :: ready.toList) (hat : t.At e s) (hidle : s.blockedOnPort = none)
    (hok : aspaceInvariantOk s.aspace) (ctxOk : Bool) :
    Dispatches t e s ready.toList (switchTo { t with ready := ready } e ctxOk) := by
  have hrun : ∀ t' : Tasks, Moves t t' e { s with state := .running } →
      t'.ready.toList = ready.toList → t'.current = some e → (t'.entries e).started = true →
      Lands t t' e { s with state := .running } ready.toList (some e) := by
    intro _ hm hr hc hst
    have hlands := lands_pop h hl hm (by simp) (by simp [hidle]) hr (fun c hc' => by
      rw [hc] at hc'
      exact ⟨(some.inj hc').symm, hst, rfl, hok⟩)
    rwa [hc] at hlands
  rw [switchTo]
  split_ifs with hst hctx
  · refine .runs hok rfl (hrun _ ?_ rfl rfl hst)
    exact moves_setSlot (fun s => { s with state := .running }) h hat (fun _ => ⟨rfl, rfl⟩) rfl
      (fun _ => ⟨rfl, rfl, id⟩)
  · refine .runs hok rfl (hrun _ ?_ rfl rfl ?_)
    · exact moves_setSlot (fun s => { s with state := .running }) h hat
        (fun _ => ⟨rfl, rfl⟩) rfl (entries_started t e)
    · show (update t.entries e _ e).started = true
      rw [update_self]
  · refine .fails (Bool.eq_false_iff.mpr hst) (lands_pop h hl ?_ (by simp) (by simp [hidle]) rfl
      (fun c hc => absurd hc.symm (some_ne_none c)))
    refine moves_setSlot_setState (fun s => { s with state := .running }) .exited h hat
      (fun _ => ⟨rfl, rfl⟩) ?_ (entries_started t e)
    show (setSlot _ _ (update t.entries e { t.entries e with started := true } e).pid).1
      = _
    rw [(entries_started t e e).2.1]
    rfl

theorem forceExit_lands (h : SchedOk t)
    (hl : t.ready.toList = e :: ready.toList) (hat : t.At e s) (hidle : s.blockedOnPort = none) :
    Lands t (forceExit { t with ready := ready } e) e
      { s with exitCode := BitVec.allOnes 32, state := .exited } ready.toList none := by
  have hlen : ready.count ≤ 16 := by
    have hle := count_le h
    rw [← RingQueue.length_toList, hl, length_cons, RingQueue.length_toList] at hle
    omega
  have hnot : e ∉ ready.toList := by
    have hnodup := h.nodup
    rw [hl, nodup_cons] at hnodup
    exact hnodup.1
  refine lands_pop h hl ?_ (by simp) (by simp [hidle])
    (RingQueue.toList_drop_of_not_mem hlen hnot) (fun c hc => (nomatch hc))
  exact moves_setSlot_setState (fun s => { s with exitCode := BitVec.allOnes 32 }) .exited h hat
    (fun _ => ⟨rfl, rfl⟩) rfl (fun _ => ⟨rfl, rfl, id⟩)

/-- **A TURN OF THE LOOP** finds the ring empty, or takes the READY entry at its head. -/
theorem dispatch_cases (h : SchedOk t) (ctxOk : Bool) :
    (t.ready.toList = [] ∧ ∃ r, dispatch t ctxOk = ({ t with dispatching := false }, .drained r))
      ∨ ∃ e rest s, t.ready.toList = e :: rest ∧ t.At e s ∧ s.state = .ready
        ∧ Dispatches t e s rest (dispatch t ctxOk) := by
  rw [dispatch]
  cases hp : t.ready.pop with
  | none => exact Or.inl ⟨(RingQueue.pop_none_iff t.ready).mp hp, _, rfl⟩
  | some x =>
    obtain ⟨e, ready⟩ := x
    have hl := RingQueue.pop_some hp
    obtain ⟨s, hat, hs⟩ := (h.ready e).mp (hl ▸ mem_cons_self)
    have hidle : s.blockedOnPort = none := by
      have hb := (h.blocked e s hat).not
      rw [hs] at hb
      simpa using hb
    refine Or.inr ⟨e, ready.toList, s, hl, hat, hs, ?_⟩
    have hslot : Tasks.slotOf { t with ready := ready } e = some s := hat.2
    dsimp only
    rw [hslot]
    dsimp only
    rw [if_neg (by simp [hs])]
    cases hok : aspaceInvariantOk s.aspace with
    | false => exact .violated hok rfl rfl rfl (forceExit_lands h hl hat hidle)
    | true => exact switchTo_dispatches h hl hat hidle hok ctxOk

end ProcSched
