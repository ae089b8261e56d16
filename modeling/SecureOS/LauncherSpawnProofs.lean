import SecureOS.CapHandleRoomProofs
import SecureOS.LauncherModel
import SecureOS.ProcessProofs

/-! # When a spawn goes through, and what it leaves when it does not

A spawn first checks its manifest, then takes a slot and a window, and only then asks for a
process and for handles.  The window is never given back: neither on the error paths nor when
the spawn is destroyed. -/

namespace Launcher

open CapHandle (capHandleCapIdValid capHandleGrant freeRows handleNull room_one room_two rowsNeeded)
open Capability CapTable AddressSpace MachineRun Option

/-! ## The arena -/

/-- The windows of the arena. -/
def carved (a : Arena) (i : Fin 8) : Window := carvedWindow a.base 16512 i.val

theorem carved_scratch (a : Arena) (i : Fin 8) : (carved a i).ipcScratch ≠ 0 := by
  have hfits : a.base.toNat + 132096 < 2 ^ 64 := a.fits
  have hpos : a.base.toNat ≠ 0 := fun h => a.nonNull (BitVec.eq_of_toNat_eq h)
  intro h
  have hn : (a.base + 16512#64 * BitVec.ofNat 64 i.val).toNat = 0 := congrArg BitVec.toNat h
  have hoff : (16512#64 * BitVec.ofNat 64 i.val).toNat = 16512 * i.val := by
    rw [BitVec.toNat_mul, BitVec.toNat_ofNat, BitVec.toNat_ofNat,
      Nat.mod_eq_of_lt (show 16512 < 2 ^ 64 by decide), Nat.mod_eq_of_lt (by omega),
      Nat.mod_eq_of_lt (by omega)]
  rw [BitVec.toNat_add, Nat.mod_eq_of_lt (by omega)] at hn
  omega

/-- A ready arena holds its windows. -/
def ArenaOk (a : Arena) (l : State) : Prop := l.arenaReady = true → l.aspaces = carved a

theorem rebuild_eq (a : Arena) (l : State) : launcherArenaRebuild a l
      = { l with aspaces := carved a, aspaceNext := 0, arenaReady := true } := by
  rfl

/-- The windows no spawn has taken; before the first rebuild, all of them. -/
def unclaimed (l : State) : Finset (Fin 8) :=
  Finset.univ.filter (fun i => l.arenaReady = false ∨ l.aspaceNext ≤ i.val)

/-- The window the next spawn gets. -/
def nextWindow (l : State) : Option (Fin 8) :=
  if !l.arenaReady then some 0
  else if h : l.aspaceNext < 8 then some ⟨l.aspaceNext, h⟩
  else none

/-- The state once a window is taken. -/
def takeWindow (a : Arena) (l : State) (k : Fin 8) : State :=
  { l with aspaces := carved a, aspaceNext := k.val + 1, arenaReady := true }

variable {a : Arena} {l : State} {apps : Fin 8 → AppEntry} {m : Manifest}

/-- **A CLAIM** takes the next window. -/
theorem claim_eq (h : ArenaOk a l) : launcherAspaceClaim a l
      = match nextWindow l with
        | none => (l, none)
        | some k => (takeWindow a l k, some (carved a k)) := by
  cases hr : l.arenaReady with
  | false => simp [launcherAspaceClaim, hr, rebuild_eq, nextWindow, takeWindow]
  | true =>
    by_cases hn : l.aspaceNext < 8
    · simp [launcherAspaceClaim, hr, nextWindow, takeWindow, hn, h hr]
    · simp [launcherAspaceClaim, hr, nextWindow, hn]

theorem nextWindow_mem (h : nextWindow l = some k) : k ∈ unclaimed l := by
  rw [nextWindow] at h
  rw [unclaimed, Finset.mem_filter]
  split_ifs at h with hr hn
  · exact ⟨Finset.mem_univ k, Or.inl (by simpa using hr)⟩
  · obtain rfl := some.inj h
    exact ⟨Finset.mem_univ _, Or.inr (Nat.le_refl _)⟩

/-! ## The apps -/

/-- Used entries name distinct subjects in range. -/
structure AppsOk (apps : Fin 8 → AppEntry) : Prop where
  inRange : ∀ i, (apps i).used = true → (apps i).subjectId < 8
  distinct : ∀ i j, (apps i).used = true → (apps j).used = true →
    (apps i).subjectId = (apps j).subjectId → i = j

/-- A full table of apps has every subject. -/
theorem findEntry_of_full (h : AppsOk apps) (hfull : ∀ i, (apps i).used) (hs : s < 8) :
    launcherFindEntry apps s ≠ none := by
  let name : Fin 8 → Fin 8 := fun i => ⟨(apps i).subjectId, h.inRange i (hfull i)⟩
  have hinj : Function.Injective name := fun i j hij =>
    h.distinct i j (hfull i) (hfull j) (congrArg Fin.val hij)
  obtain ⟨i, hi⟩ := Finite.surjective_of_injective hinj ⟨s, hs⟩
  intro hnone
  have hno := Fin.find?_eq_none_iff.mp hnone i
  have hsub : (apps i).subjectId = s := congrArg Fin.val hi
  rw [hfull i, hsub] at hno
  simp at hno

theorem register_ok (h : AppsOk apps) (hs : s < 8) : (launcherRegisterApp apps s).2 = .ok := by
  fun_cases launcherRegisterApp apps s with
  | case1 hin => simp [show launcherSubjectInRange s from decide_eq_true hs] at hin
  | case4 _ he hf =>
    have hfull : ∀ i, (apps i).used := fun i => by simpa using Fin.find?_eq_none_iff.mp hf i
    exact absurd he (findEntry_of_full h hfull hs)
  | _ => rfl

theorem register_appsOk (h : AppsOk apps) (s : Nat) : AppsOk (launcherRegisterApp apps s).1 := by
  fun_cases launcherRegisterApp apps s with
  | case3 hin he =>
    -- the new entry names a subject that no used entry names
    have hnew : ∀ j, (apps j).used → (apps j).subjectId ≠ s := by
      intro j hj hs
      have := Fin.find?_eq_none_iff.mp he j
      rw [hj, hs] at this
      simp at this
    constructor
    · intro j hj
      simp only [Function.update_apply] at hj ⊢
      split_ifs at hj ⊢
      · rw [Bool.not_eq_true, Bool.not_eq_false'] at hin
        exact of_decide_eq_true hin
      · exact h.inRange j hj
    · intro j k hj hk hjk
      simp only [Function.update_apply] at hj hk hjk
      split_ifs at hj hk hjk with hji hki hki
      · rw [hji, hki]
      · exact absurd hjk.symm (hnew k hk)
      · exact absurd hjk (hnew j hj)
      · exact h.distinct j k hj hk hjk
  | _ => exact h

/-! ## The handover -/

/-- The pairs a bit-and-handle handover makes rows for. -/
def appPairs (m : Manifest) : List (Nat × Nat) :=
  if m.wantGrant then [(m.subjectId, capConsoleWrite)] else []

/-- The pairs the filesystem variant grants. -/
def fsPairs (grantWrite : Bool) (m : Manifest) : List (Nat × Nat) :=
  (m.subjectId, capFsRead) :: if grantWrite then [(m.subjectId, capFsWrite)] else []

/-- The pairs the broker variant grants. -/
def brokerPairs (m : Manifest) : List (Nat × Nat) :=
  if m.ownershipRole = .none then [(m.subjectId, capIpcSend)]
  else [(launcherOwnerSubjectId, capIpcSend), (m.subjectId, capIpcSend)]

/-- The arena ceiling is accepted. -/
def arenaAccepted (requested : BitVec 32) : Bool :=
  requested = 0 ∨ ¬ requested > procArenaBytesMax ∧ ¬ requested < procArenaBytesDefault

section Variant

variable {H : Type} (v : Variant H)

/-- The manifest passes the checks of this way of spawning. -/
def Variant.accepts (m : Manifest) : Bool :=
  launcherOwnershipRoleValid m.ownershipRole
    && (launcherSubjectInRange m.subjectId && m.subjectId != 0)
    && v.grantsAccepted m && arenaAccepted m.arenaBytes && v.capAccepted m

/-- The handover goes through exactly when the handle table has a row for each pair that needs one.
    -/
def Mints (pairs : Manifest → List (Nat × Nat)) : Prop :=
  ∀ (m : Manifest) (t : Authority), v.accepts m → ((v.mint m t).2.isSome
      ↔ rowsNeeded t.2 (pairs m) ≤ freeRows t.2)

theorem subject_of_accepts (h : v.accepts m) : m.subjectId < 8 := by
  simp only [Variant.accepts, Bool.and_eq_true] at h
  exact of_decide_eq_true h.1.1.1.2.1

end Variant

/-- A bit and handle for a valid pair is one grant of the handle table. -/
theorem mintHandle_spec (t : Authority) (hv : ValidPair s c) :
    (mintHandle t s c).1.2 = (capHandleGrant t.2 s c).1 ∧ ((mintHandle t s c).2.isSome
        ↔ (capHandleGrant t.2 s c).2 ≠ handleNull) := by
  have hg := (capTableGrant_ok_iff t.1 s c).mpr hv
  unfold mintHandle
  by_cases hn : (capHandleGrant t.2 s c).2 = handleNull <;> simp [hg, hn]

theorem app_mints : Mints appVariant appPairs := by
  intro m t hacc
  have hs := subject_of_accepts _ hacc
  show (mintConsole m t).2.isSome = true ↔ _
  unfold mintConsole appPairs
  cases hw : m.wantGrant with
  | false => simp [rowsNeeded]
  | true =>
    have hcap : m.grantCap = capConsoleWrite := by
      simp only [Variant.accepts, Bool.and_eq_true] at hacc
      simpa [appVariant, hw] using hacc.2
    rw [if_pos rfl, hcap, (mintHandle_spec t ⟨hs, by decide, by decide⟩).2]
    exact room_one _ (decide_eq_true hs) (by decide)

theorem fs_mints (grantWrite : Bool) : Mints (fsVariant grantWrite) (fsPairs grantWrite) := by
  intro m t hacc
  have hs := subject_of_accepts _ hacc
  obtain ⟨htable, hread⟩ := mintHandle_spec t (c := capFsRead) ⟨hs, by decide, by decide⟩
  show (mintFs grantWrite m t).2.isSome = true ↔ _
  unfold mintFs fsPairs
  rcases hmint : mintHandle t m.subjectId capFsRead with ⟨t', r⟩
  rw [hmint] at htable hread
  -- the write handle is minted in the table the read handle leaves
  obtain ⟨-, hwrite⟩ := mintHandle_spec t' (c := capFsWrite) ⟨hs, by decide, by decide⟩
  rw [htable] at hwrite
  cases grantWrite with
  | false =>
    refine Iff.trans ?_ (room_one handleNull (decide_eq_true hs)
      (show capHandleCapIdValid capFsRead = true by decide))
    refine Iff.trans ?_ hread
    cases r <;> simp
  | true =>
    refine Iff.trans ?_ (room_two handleNull handleNull
      (decide_eq_true hs) (show capHandleCapIdValid capFsRead = true by decide)
      (decide_eq_true hs) (show capHandleCapIdValid capFsWrite = true by decide))
    refine Iff.trans ?_ (and_congr hread hwrite)
    cases r with
    | none => simp
    | some =>
      rcases hmint' : mintHandle t' m.subjectId capFsWrite with ⟨_, r'⟩
      cases r' <;> simp [hmint']

theorem broker_mints : Mints brokerVariant brokerPairs := by
  intro m t hacc
  have hs := subject_of_accepts _ hacc
  have hsub : CapHandle.capHandleSubjectValid m.subjectId := decide_eq_true hs
  have hcap : capHandleCapIdValid capIpcSend := by decide
  have hg := (capTableGrant_ok_iff t.1 m.subjectId capIpcSend).mpr ⟨hs, by decide, by decide⟩
  show (mintBroker m t).2.isSome = true ↔ _
  unfold mintBroker brokerPairs
  rw [if_neg (not_not.mpr hg)]
  by_cases hrole : m.ownershipRole = .none
  · rw [if_pos hrole, if_neg (fun h => h.1 hrole), launcherOwnershipRoleParent, if_pos hrole]
    refine Iff.trans ?_ (room_one handleNull hsub hcap)
    dsimp only
    split_ifs with hn <;> simp [hn]
  · -- the launcher's own handle comes first
    have hg' := (capTableGrant_ok_iff (capTableGrant t.1 m.subjectId capIpcSend).1
      launcherOwnerSubjectId capIpcSend).mpr (by decide)
    rw [if_neg hrole, launcherOwnershipRoleParent, if_neg hrole, if_neg (not_not.mpr hg')]
    refine Iff.trans ?_ (room_two handleNull
      (capHandleGrant t.2 launcherOwnerSubjectId capIpcSend).2
      (show CapHandle.capHandleSubjectValid launcherOwnerSubjectId = true by decide) hcap hsub hcap)
    dsimp only
    split_ifs with hn hn'
    · exact iff_of_false Bool.false_ne_true fun h => h.1 hn.2
    · exact iff_of_false Bool.false_ne_true fun h => h.2 hn'
    · exact iff_of_true rfl ⟨fun h => hn ⟨hrole, h⟩, hn'⟩

/-! ## One spawn -/

section Spawn

variable {H : Type} (v : Variant H)

/-- The call is not turned away before it takes a window. -/
def Variant.starts (l : State) : Option Manifest → Bool
  | none => false
  | some m => v.accepts m && (launcherSpawnSlotAlloc l.spawns).isSome && (nextWindow l).isSome

/-- It gets past its checks, to a slot and a window. -/
structure Begins (l : State) (m : Manifest) (k slot : Fin 8) : Prop where
  accepts : v.accepts m = true
  slot : launcherSpawnSlotAlloc l.spawns = some slot
  window : nextWindow l = some k

/-- The apps once the spawn has registered its subject, or not. -/
def registered (l : State) (m : Manifest) : Fin 8 → AppEntry :=
  if v.registersApp then (launcherRegisterApp l.apps m.subjectId).1 else l.apps

/-- The process the spawn creates: table, result, pid and output. -/
def created (a : Arena) (l : State) (m : Manifest) (k : Fin 8) :
    Process.Procs × Process.ProcResult × BitVec 32 × List CStr :=
  Process.processCreate l.procs m.subjectId (some (carved a k))

/-- The state once a process was asked for. -/
def begun (a : Arena) (l : State) (m : Manifest) (k : Fin 8) : State :=
  { takeWindow a l k with
    apps := registered v l m
    procs := (created a l m k).1
    stdout := l.stdout ++ (created a l m k).2.2.2 }

/-- The state after the handover, whether it succeeded or not. -/
def handedOver (a : Arena) (l : State) (m : Manifest) (k : Fin 8) : State :=
  { begun v a l m k with
    memory := scratchClear l.memory (carved a k).ipcScratch
    bits := (v.mint m (l.bits, l.handles)).1.1
    handles := (v.mint m (l.bits, l.handles)).1.2 }

/-- The state of a spawn that went through. -/
def landed (a : Arena) (l : State) (m : Manifest) (k slot : Fin 8) (arenaCap : BitVec 32)
    (h : H) : State :=
  { handedOver v a l m k with
    memory := v.stamp m (scratchClear l.memory (carved a k).ipcScratch) (carved a k).ipcScratch h
    spawns := Function.update l.spawns slot
      ⟨true, (created a l m k).2.2.1, some (carved a k), v.slotHandle h, v.slotCap m⟩
    arenaAudit := { l.arenaAudit with activeCap := arenaCap, lastDeny := .none, lastDenyVal := 0 } }

/-- **HOW A SPAWN ENDS**: turned away, without a process, without its handles, or through. -/
inductive Ends (a : Arena) (l : State) :
    Option Manifest → State × Result × Option (Spawned H) → Prop where
  | refused (hstarts : v.starts l manifest = false) (hr : r ≠ .ok) (audit : ArenaAudit) :
      Ends a l manifest ({ l with arenaAudit := audit }, r, none)
  | noProcess {m : Manifest} (hb : Begins v l m k slot) (hp : (created a l m k).2.1 ≠ .ok) :
      Ends a l (some m) (begun v a l m k, .errProcCreate, none)
  | noHandles {m : Manifest} (hb : Begins v l m k slot) (hp : (created a l m k).2.1 = .ok)
      (hm : (v.mint m (l.bits, l.handles)).2 = none) :
      Ends a l (some m)
        (dropProcess (handedOver v a l m k) (created a l m k).2.2.1, .errHandleMint, none)
  | spawned {m : Manifest} (hb : Begins v l m k slot) (hp : (created a l m k).2.1 = .ok)
      (hm : (v.mint m (l.bits, l.handles)).2 = some h) (arenaCap : BitVec 32) :
      Ends a l (some m) (landed v a l m k slot arenaCap h, .ok,
        some ⟨(created a l m k).2.2.1, carved a k, h⟩)

/-- From the window on: there are scratch bytes, and there is room for the app. -/
theorem spawnInto_ends (hb : Begins v l m k slot) (happs : AppsOk l.apps) (arenaCap : BitVec 32) :
    Ends v a l (some m) (spawnInto v (takeWindow a l k) m arenaCap slot (carved a k)) := by
  have hreg : (if v.registersApp then launcherRegisterApp l.apps m.subjectId
      else (l.apps, .ok)) = (registered v l m, .ok) := by
    unfold registered
    cases v.registersApp with
    | false => rfl
    | true => exact Prod.ext rfl (register_ok happs (subject_of_accepts v hb.accepts))
  have heq : spawnInto v (takeWindow a l k) m arenaCap slot (carved a k)
      = (if (created a l m k).2.1 ≠ .ok then (begun v a l m k, .errProcCreate, none)
        else (v.mint m (l.bits, l.handles)).2.elim
          (dropProcess (handedOver v a l m k) (created a l m k).2.2.1, .errHandleMint, none)
          (fun h => (landed v a l m k slot arenaCap h, .ok,
            some ⟨(created a l m k).2.2.1, carved a k, h⟩))) := by
    simp only [spawnInto, takeWindow, hreg, carved_scratch a k, beq_iff_eq, Bool.and_eq_true,
      and_false]
    cases (v.mint m (l.bits, l.handles)).2 <;> rfl
  rw [heq]
  by_cases hp : (created a l m k).2.1 = .ok
  · rw [if_neg (not_not.mpr hp)]
    cases hm : (v.mint m (l.bits, l.handles)).2 with
    | none => exact .noHandles hb hp hm
    | some => exact .spawned hb hp hm arenaCap
  · rw [if_pos hp]
    exact .noProcess hb hp

theorem resolveArenaBytes_isSome (audit : ArenaAudit) (requested : BitVec 32) :
    (launcherResolveArenaBytes audit requested).2.isSome = arenaAccepted requested := by
  rw [launcherResolveArenaBytes, arenaAccepted]
  split_ifs with h h1 h2
  · exact (decide_eq_true (Or.inl h)).symm
  · exact (decide_eq_false (not_or.mpr ⟨h, fun hn => hn.1 h1⟩)).symm
  · exact (decide_eq_false (not_or.mpr ⟨h, fun hn => hn.2 h2⟩)).symm
  · exact (decide_eq_true (Or.inr ⟨h1, h2⟩)).symm

theorem spawnWith_ends (ha : ArenaOk a l) (happs : AppsOk l.apps) (manifest : Option Manifest) :
    Ends v a l manifest (spawnWith v a l manifest) := by
  have hrefused : ∀ {m r}, v.accepts m = false → r ≠ .ok → ∀ audit,
      Ends v a l (some m) ({ l with arenaAudit := audit }, r, none) :=
    fun hacc => .refused (by simp [Variant.starts, hacc])
  fun_cases spawnWith v a l manifest with
  | case1 => exact .refused rfl (by simp) l.arenaAudit
  | case5 m _ _ _ audit hres =>
    have hsome := resolveArenaBytes_isSome l.arenaAudit m.arenaBytes
    rw [hres] at hsome
    exact hrefused (by grind [Variant.accepts]) (by simp) audit
  | case7 => exact .refused (by simp [Variant.starts, *]) (by simp) l.arenaAudit
  | case8 m _ _ _ _ _ _ _ _ _ _ hclaim =>
    rw [claim_eq ha] at hclaim
    split at hclaim <;> cases hclaim
    exact .refused (by simp [Variant.starts, *]) (by simp) l.arenaAudit
  | case9 m _ _ _ _ arenaCap hres _ slot hslot _ _ hclaim =>
    have hsome := resolveArenaBytes_isSome l.arenaAudit m.arenaBytes
    rw [hres] at hsome
    rw [claim_eq ha] at hclaim
    split at hclaim <;> cases hclaim
    next hwin => exact spawnInto_ends v ⟨by grind [Variant.accepts], hslot, hwin⟩ happs arenaCap
  | _ => exact hrefused (by grind [Variant.accepts]) (by simp) l.arenaAudit

end Spawn

/-! ## The three spawns as one -/

namespace SpawnCall

/-- The manifest of a spawn. -/
def manifest : SpawnCall → Option Manifest
  | .app m => m
  | .fs m _ => m
  | .broker m => m

/-- The manifest passes the checks of this spawn. -/
def accepts : SpawnCall → Manifest → Bool
  | .app _ => appVariant.accepts
  | .fs _ grantWrite => (fsVariant grantWrite).accepts
  | .broker _ => brokerVariant.accepts

/-- The pairs the spawn makes handles for. -/
def pairs : SpawnCall → Manifest → List (Nat × Nat)
  | .app _ => appPairs
  | .fs _ grantWrite => fsPairs grantWrite
  | .broker _ => brokerPairs

/-- The spawn gets to a window: its manifest is accepted, and a slot of the pool and a window are
    left. -/
def starts (l : State) (call : SpawnCall) : Bool :=
  match call.manifest with
  | none => false
  | some m => call.accepts m && (launcherSpawnSlotAlloc l.spawns).isSome && (nextWindow l).isSome

/-- The process table has a slot and the handle table the rows for it. -/
def Supplied (l : State) (call : SpawnCall) : Prop :=
  ∀ m, call.manifest = some m → (∃ i, (l.procs i).live = false)
      ∧ rowsNeeded l.handles (call.pairs m) ≤ freeRows l.handles

end SpawnCall

/-- The tables that a failed spawn should leave alone. -/
structure SameTables (l l' : State) : Prop where
  bits : l'.bits = l.bits
  handles : l'.handles = l.handles
  apps : l'.apps = l.apps
  procs : l'.procs = l.procs
  windows : unclaimed l' = unclaimed l

/-- The launcher's own invariant. -/
structure LauncherOk (a : Arena) (l : State) : Prop where
  arena : ArenaOk a l
  apps : AppsOk l.apps

/-- The windows taken so far; none before the first rebuild. -/
def windowsTaken (l : State) : Nat := if l.arenaReady then l.aspaceNext else 0

theorem nextWindow_val (h : nextWindow l = some k) : k.val = windowsTaken l := by
  rw [nextWindow] at h
  rw [windowsTaken]
  cases hr : l.arenaReady with
  | false =>
    rw [hr] at h
    exact congrArg Fin.val (some.inj h).symm
  | true =>
    rw [hr] at h
    simp only [Bool.not_true, Bool.false_eq_true, if_false] at h
    split_ifs at h
    exact congrArg Fin.val (some.inj h).symm

/-- **A SPAWN** is turned away and changes at most the audit cell, or it takes a window for good and
    goes through exactly when it is supplied. -/
inductive Takes (l l' : State) (r : Result) (starts : Bool) (supplied : Prop) : Prop where
  | nothing (hstarts : starts = false) (hr : r ≠ .ok) (audit : ArenaAudit)
      (he : l' = { l with arenaAudit := audit })
  | window (k : Fin 8) (hstarts : starts = true) (hk : k ∈ unclaimed l) (hgone : k ∉ unclaimed l')
      (htaken : windowsTaken l' = windowsTaken l + 1) (hiff : r = .ok ↔ supplied)

theorem takes_of_begins (a : Arena) (hmints : Mints v pairs) (hb : Begins v l m k slot)
    (hready : l'.arenaReady = true) (hnext : l'.aspaceNext = k.val + 1)
    (hr : r = .ok ↔ (created a l m k).2.1 = .ok ∧ (v.mint m (l.bits, l.handles)).2.isSome) :
    Takes l l' r (v.starts l (some m)) (∀ m', some m = some m' → (∃ i, (l.procs i).live = false)
      ∧ rowsNeeded l.handles (pairs m') ≤ freeRows l.handles) := by
  refine .window k ?_ (nextWindow_mem hb.window) ?_ ?_ ?_
  · simp [Variant.starts, hb.accepts, hb.slot, hb.window]
  · simp [unclaimed, hready, hnext]
  · rw [windowsTaken, hready, hnext, nextWindow_val hb.window]
    rfl
  · rw [created, Process.processCreate_ok_iff, hmints m _ hb.accepts] at hr
    simpa only [some.injEq, forall_eq'] using hr

theorem spawnWith_takes (hmints : Mints v pairs) (h : LauncherOk a l) (manifest : Option Manifest) :
    Takes l (spawnWith v a l manifest).1 (spawnWith v a l manifest).2.1 (v.starts l manifest)
      (∀ m, manifest = some m → (∃ i, (l.procs i).live = false)
        ∧ rowsNeeded l.handles (pairs m) ≤ freeRows l.handles) := by
  have hends := spawnWith_ends v h.arena h.apps manifest
  generalize spawnWith v a l manifest = out at hends ⊢
  cases hends with
  | refused hstarts hr audit => exact .nothing hstarts hr audit rfl
  | noProcess hb hp => exact takes_of_begins a hmints hb rfl rfl (by simp [hp])
  | noHandles hb hp hm => exact takes_of_begins a hmints hb rfl rfl (by simp [hm])
  | spawned hb hp hm => exact takes_of_begins a hmints hb rfl rfl (by simp [hp, hm])

/-- The same for any of the three. -/
theorem spawn_takes (h : LauncherOk a l) (call : SpawnCall) :
    Takes l (spawn a l call).1 (spawn a l call).2 (call.starts l) (call.Supplied l) := by
  rcases call with ⟨_ | m⟩ | ⟨_ | m, grantWrite⟩ | ⟨_ | m⟩
  · exact spawnWith_takes app_mints h none
  · exact spawnWith_takes app_mints h (some m)
  · exact spawnWith_takes (fs_mints grantWrite) h none
  · exact spawnWith_takes (fs_mints grantWrite) h (some m)
  · exact spawnWith_takes broker_mints h none
  · exact spawnWith_takes broker_mints h (some m)

end Launcher
