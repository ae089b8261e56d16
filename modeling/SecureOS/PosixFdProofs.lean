import SecureOS.PosixFdModel
import SecureOS.Lib.ByteFileProofs

/-! # Descriptors are byte files

What the slots are for: an open file is a sequence of bytes with a cursor, and the storage is a
map from paths to byte sequences.  `Files` is that model, with its own calls `Files.exec`.
`view` reads a `Files` off the slots, where the bytes of a file are the first `len` bytes of the
buffer, and every call commutes with it.

Two facts about a slot carry the proofs, `Slot.Holds`: behind `len` the buffer is zero, which is
why a gap left by a seek reads as zero, and a slot that is not dirty has the bytes of the stored
file, which is why `close` need not write them.  The second one survives the calls on other
slots because no two slots have one path. -/

namespace PosixFd

open Capability (CStr)
open Sof (Byte)
open ByteStore (load store load_length load_store take_load)
open ByteFile Function List Option
open MachineRun

/-! ## Byte files -/

/-- An open file: `changed` says that the stored file may be another. -/
structure Desc where
  path : CStr
  writable : Bool
  append : Bool
  changed : Bool
  bytes : List Byte
  cursor : Nat

/-- The open files and the stored ones. -/
structure Files where
  desc : Fin 8 → Option Desc
  disk : Disk

/-- The bytes from the cursor on are read, and the cursor moves behind them. -/
def Desc.read (null : Bool) (count : Nat) (d : Desc) : Desc × Result :=
  if null ∧ 0 < count then (d, .error .efault)
  else
    let bytes := (d.bytes.drop d.cursor).take count
    ({ d with cursor := d.cursor + bytes.length }, .ok (bytes.length, bytes))

/-- Where a write goes. -/
def Desc.place (d : Desc) : Nat := if d.append then d.bytes.length else d.cursor

/-- The bytes are put in at the cursor, or at the end in append mode.  Where they do not fit the
    file stays; only an appending cursor has gone to the end. -/
def Desc.write (null : Bool) (data : List Byte) (d : Desc) : Desc × Result :=
  if d.writable = false then (d, .error .ebadf)
  else if null ∧ 0 < data.length then (d, .error .efault)
  else if data.length = 0 then (d, .ok (0, []))
  else if fileCap < d.place + data.length then ({ d with cursor := d.place }, .error .enospc)
  else ({ d with bytes := splice 0 d.bytes d.place data
                 cursor := d.place + data.length
                 changed := true }, .ok (data.length, []))

/-- Where an offset counts from. -/
def Desc.base (whence : Int) (d : Desc) : Option Int :=
  if whence = seekSet then some 0
  else if whence = seekCur then some d.cursor
  else if whence = seekEnd then some d.bytes.length
  else none

/-- The cursor goes to any place that is a nonnegative `long`. -/
def Desc.seek (offset : BitVec 64) (whence : Int) (d : Desc) : Desc × Result :=
  match d.base whence with
  | none => (d, .error .einval)
  | some base =>
    if 0 ≤ base + offset.toInt ∧ base + offset.toInt ≤ longMax then
      ({ d with cursor := (base + offset.toInt).toNat }, .ok (base + offset.toInt, []))
    else (d, .error .einval)

/-- The bytes are stored and the descriptor is free, or the storage refuses and the file stays open.
    -/
def Desc.close (refusal : Option Refusal) (disk : Disk) (d : Desc) : Disk × Option Desc × Result :=
  match d.changed, refusal.bind (fun r => statusToErrno r.status) with
  | true, some e => (disk, some d, .error e)
  | _, _ => (update disk d.path (some d.bytes), none, .ok (0, []))

/-- A call that leaves the storage alone. -/
def edit (g : Desc → Desc × Result) (disk : Disk) (d : Desc) : Disk × Option Desc × Result :=
  (disk, some (g d).1, (g d).2)

/-- A call on the open file of a descriptor. -/
def Files.on (a : Files) (fd : Int) (g : Disk → Desc → Disk × Option Desc × Result) :
    Files × Result :=
  match (fdIndex fd).bind (fun i => (a.desc i).map (fun d => (i, d))) with
  | none => (a, .error .ebadf)
  | some (i, d) => (⟨update a.desc i (g a.disk d).2.1, (g a.disk d).1⟩, (g a.disk d).2.2)

/-- The file as it is opened: the stored one, a new one, or an emptied one. -/
def opening (disk : Disk) (refusal : Option Refusal) (path : CStr) (flags : BitVec 32) :
    Except Errno Desc :=
  let d : Desc :=
    { path := path, writable := flags &&& oAccmode != oRdonly, append := flags &&& oAppend != 0,
      changed := true, bytes := [], cursor := 0 }
  match osFsReadFileBytes disk refusal path fileCap with
  | (.ok, bytes) =>
    if flags &&& oTrunc ≠ 0 ∧ bytes.length ≠ 0 then .ok d
    else .ok { d with changed := false, bytes := bytes }
  | (.notFound, _) => if flags &&& oCreat ≠ 0 then .ok d else .error .enoent
  | (.denied, _) => .error .eacces
  | (.error, _) => .error .eio

/-- The lowest free descriptor gets the file. -/
def Files.openFile (a : Files) (refusal : Option Refusal) (path : Option CStr)
    (flags : BitVec 32) : Files × Result :=
  match path with
  | none => (a, .error .einval)
  | some path =>
    if path = [] then (a, .error .einval)
    else if pathIsConsoleAlias path then (a, .error .ebusy)
    else
      match (List.finRange 8).find? (fun i => (a.desc i).isNone) with
      | none => (a, .error .emfile)
      | some i =>
        if pathCap ≤ path.length then (a, .error .einval)
        else
          match opening a.disk refusal path flags with
          | .error e => (a, .error e)
          | .ok d => ({ a with desc := update a.desc i (some d) }, .ok (fdFirst + i.val, []))

/-- What a write to the console returns. -/
def consoleResult (accepts : Nat → Bool) (fd : Int) (null : Bool) (data : List Byte) : Result :=
  if fd = 0 then .error .ebadf
  else if null ∧ 0 < data.length then .error .efault
  else if (consoleWriteBytes accepts 0 data).2 then .ok (data.length, []) else .error .eio

/-- The calls on byte files. -/
def Files.exec (a : Files) : Op → Files × Result
  | .openFile refusal path flags => a.openFile refusal path flags
  | .close refusal fd =>
    if fdIsConsole fd then (a, .ok (0, [])) else a.on fd (Desc.close refusal)
  | .read fd null count =>
    if fd = 0 then (a, .error .enotsup) else a.on fd (edit (Desc.read null count))
  | .write accepts fd null data =>
    if fdIsConsole fd then (a, consoleResult accepts fd null data)
    else a.on fd (edit (Desc.write null data))
  | .lseek fd offset whence =>
    if fdIsConsole fd then (a, .error .espipe) else a.on fd (edit (Desc.seek offset whence))

/-! ## The view of the slots -/

/-- The content in the buffer. -/
def Slot.bytes (slot : Slot) : List Byte := load slot.data 0 slot.len

/-- A slot as an open file. -/
def Slot.file (slot : Slot) : Desc :=
  ⟨slot.path, slot.writable, slot.append, slot.dirty, slot.bytes, slot.cursor⟩

/-- The open file of a slot in use. -/
def Slot.desc (slot : Slot) : Option Desc := if slot.inUse then some slot.file else none

/-- The descriptors as byte files. -/
def view (s : State) : Files := ⟨fun i => (s.slots i).desc, s.disk⟩

variable {s : State} {slot : Slot} {disk : Disk} {i : Fin 8} {fd : Int}

theorem Slot.desc_of_inUse (h : slot.inUse) : slot.desc = some slot.file := if_pos h

theorem Slot.desc_of_free (h : slot.inUse = false) : slot.desc = none :=
  if_neg (Bool.eq_false_iff.mp h)

@[simp] theorem Slot.bytes_length (slot : Slot) : slot.bytes.length = slot.len :=
  load_length slot.data 0 slot.len

theorem view_update (s : State) (i : Fin 8) (slot : Slot) (disk : Disk) :
    view { s with slots := update s.slots i slot, disk := disk }
      = ⟨update (view s).desc i slot.desc, disk⟩ := by
  refine congrArg (Files.mk · disk) (funext (fun j => ?_))
  rcases eq_or_ne j i with rfl | hne
  · simp only [view, update_self]
  · simp only [view, update_of_ne hne]

/-- A slot that was free and stays free is not seen. -/
theorem view_setSlot_free (hi : (s.slots i).inUse = false) (hslot : slot.inUse = false) :
    view (s.setSlot i slot) = view s := by
  have hnone : (view s).desc i = none := Slot.desc_of_free hi
  rw [State.setSlot, view_update, Slot.desc_of_free hslot, ← hnone, update_eq_self]
  rfl

/-! ## What the slots keep -/

/-- What a slot in use keeps. -/
structure Slot.Holds (disk : Disk) (slot : Slot) : Prop where
  fits : slot.len ≤ fileCap
  blank : Blank 0 slot.data slot.len
  cursor : (slot.cursor : Int) ≤ longMax
  clean : slot.dirty = false → disk slot.path = some slot.bytes

/-- No two slots in use have one path. -/
def PathsDiffer (s : State) : Prop :=
  ∀ i j, (s.slots i).inUse → (s.slots j).inUse → (s.slots i).path = (s.slots j).path → i = j

/-- The invariant of the runs. -/
structure Inv (s : State) : Prop where
  holds : ∀ i, (s.slots i).inUse = true → (s.slots i).Holds s.disk
  paths : PathsDiffer s

theorem inv_start (disk : Disk) : Inv (start disk) :=
  ⟨fun _ h => absurd h Bool.false_ne_true, fun _ _ h => absurd h Bool.false_ne_true⟩

/-- What a call on a slot may leave: the slot, still holding, or a free slot and its bytes stored.
    -/
inductive Leaves (disk : Disk) (slot : Slot) : Disk → Slot → Prop where
  | kept (slot' : Slot) : slot'.inUse = true → slot'.path = slot.path → slot'.Holds disk →
      Leaves disk slot disk slot'
  | freed (slot' : Slot) : slot'.inUse = false →
      Leaves disk slot (update disk slot.path (some slot.bytes)) slot'

theorem Leaves.path (h : Leaves disk slot disk' slot')
    (huse : slot'.inUse) : slot'.path = slot.path := by
  cases h with
  | kept _ _ hpath => exact hpath
  | freed _ hfree => exact absurd huse (Bool.eq_false_iff.mp hfree)

/-- The other slots do not notice, since their files are other files. -/
theorem inv_leaves (h : Inv s) (huse : (s.slots i).inUse)
    (hl : Leaves s.disk (s.slots i) disk' slot') :
    Inv { s with disk := disk', slots := update s.slots i slot' } := by
  have hpaths : ∀ j, j ≠ i → (s.slots j).inUse → (s.slots j).path ≠ (s.slots i).path :=
    fun j hj hjuse heq => hj (h.paths j i hjuse huse heq)
  constructor
  · intro j hj
    rcases eq_or_ne j i with rfl | hne
    · simp only [update_self] at hj ⊢
      cases hl with
      | kept _ _ _ hholds => exact hholds
      | freed _ hfree => exact absurd hj (Bool.eq_false_iff.mp hfree)
    · simp only [update_of_ne hne] at hj ⊢
      have hold := h.holds j hj
      cases hl with
      | kept => exact hold
      | freed =>
        refine ⟨hold.fits, hold.blank, hold.cursor, fun hclean => ?_⟩
        rw [update_of_ne (hpaths j hne hj)]
        exact hold.clean hclean
  · intro j k hj hk hjk
    simp only [update_apply] at hj hk hjk
    split_ifs at hj hk hjk with hji hki hki
    · rw [hji, hki]
    · exact absurd (hjk.symm.trans (hl.path hj)) (hpaths k hki hk)
    · exact absurd (hjk.trans (hl.path hk)) (hpaths j hji hj)
    · exact h.paths j k hj hk hjk

/-! ## Calls on a slot -/

/-- A call on a slot does what a call on its file does. -/
def Simulates (f : Disk → Slot → Disk × Slot × Result)
    (g : Disk → Desc → Disk × Option Desc × Result) : Prop :=
  ∀ disk slot, slot.inUse = true → slot.Holds disk →
    g disk slot.file = ((f disk slot).1, (f disk slot).2.1.desc, (f disk slot).2.2)
      ∧ Leaves disk slot (f disk slot).1 (f disk slot).2.1

/-- A call that leaves the slot as it was. -/
theorem simulates_same (huse : slot.inUse)
    (hold : slot.Holds disk) (hg : g slot.file = (slot.file, r)) :
    edit g disk slot.file = (disk, slot.desc, r) ∧ Leaves disk slot disk slot := by
  refine ⟨?_, .kept slot huse rfl hold⟩
  rw [edit, hg, Slot.desc_of_inUse huse]

/-- A call that moves the cursor. -/
theorem simulates_move {c : Nat}
    (huse : slot.inUse) (hold : slot.Holds disk) (hc : (c : Int) ≤ longMax)
    (hg : g slot.file = ({ slot.file with cursor := c }, r)) :
    edit g disk slot.file = (disk, ({ slot with cursor := c } : Slot).desc, r)
      ∧ Leaves disk slot disk { slot with cursor := c } := by
  refine ⟨?_, .kept _ huse rfl ⟨hold.fits, hold.blank, hc, hold.clean⟩⟩
  have hdesc : ({ slot with cursor := c } : Slot).desc = _ := Slot.desc_of_inUse huse
  rw [edit, hg, hdesc]
  rfl

theorem le_longMax (h : n ≤ fileCap) : (n : Int) ≤ longMax := by
  unfold fileCap at h
  unfold longMax
  omega

theorem readSlot_simulates (null : Bool) (count : Nat) :
    Simulates (readSlot null count) (edit (Desc.read null count)) := by
  intro _ slot huse hold
  have hfits := hold.fits
  obtain ⟨n, hn⟩ : ∃ n, n = min count (slot.len - slot.cursor) := ⟨_, rfl⟩
  have hread : (slot.bytes.drop slot.cursor).take count = load slot.data slot.cursor n := by
    rw [Slot.bytes, drop_load, take_load, Nat.zero_add, hn]
  have hg : ¬ (null ∧ 0 < count) → Desc.read null count slot.file
      = ({ slot.file with cursor := slot.cursor + n }, .ok (n, load slot.data slot.cursor n)) := by
    intro hnull
    rw [Desc.read, if_neg hnull]
    simp only [Slot.file, hread, load_length]
  have htake : (if count < slot.len - slot.cursor then count else slot.len - slot.cursor) = n := by
    split <;> omega
  have hlong : (n : Int) ≤ longMax := le_longMax (by omega)
  rw [readSlot]
  dsimp only
  rw [htake, if_neg (Int.not_lt.mpr hlong)]
  split_ifs with hnull hcount hend
  · exact simulates_same huse hold (if_pos hnull)
  · obtain rfl : n = 0 := by omega
    exact simulates_same huse hold (hg hnull)
  · obtain rfl : n = 0 := by omega
    exact simulates_same huse hold (hg hnull)
  · exact simulates_move huse hold (le_longMax (by omega)) (hg hnull)

/-- The sum of a cursor and an offset fits in a `long long` or turns negative. -/
theorem wrap64_sum (hbase : 0 ≤ base ∧ base ≤ longMax) (offset : BitVec 64) :
    (0 ≤ base + offset.toInt ∧ base + offset.toInt ≤ longMax
        ∧ wrap64 (base + offset.toInt) = base + offset.toInt)
      ∨ (¬ (0 ≤ base + offset.toInt ∧ base + offset.toInt ≤ longMax)
        ∧ wrap64 (base + offset.toInt) < 0) := by
  have hlow := offset.le_toInt
  have hhigh := offset.toInt_lt
  unfold longMax at *
  rw [wrap64, Int.bmod_def]
  omega

theorem seekBase_range (h : slot.Holds disk)
    (hbase : seekBase slot whence = some base) : 0 ≤ base ∧ base ≤ longMax := by
  have hcursor := h.cursor
  have hfits := le_longMax h.fits
  rw [seekBase] at hbase
  split_ifs at hbase <;> cases hbase <;> omega

theorem seekSlot_simulates (offset : BitVec 64) (whence : Int) :
    Simulates (seekSlot offset whence) (edit (Desc.seek offset whence)) := by
  intro _ slot huse hold
  have hdesc : slot.file.base whence = seekBase slot whence := by
    rw [Desc.base, seekBase, Slot.file, Slot.bytes_length]
  unfold seekSlot
  cases hbase : seekBase slot whence with
  | none =>
    refine simulates_same huse hold ?_
    rw [Desc.seek, hdesc, hbase]
  | some =>
    dsimp only
    rcases wrap64_sum (seekBase_range hold hbase) offset with ⟨hlow, hhigh, hwrap⟩ | ⟨hout, hwrap⟩
    · rw [hwrap, if_neg (Int.not_lt.mpr hlow), if_neg (by unfold sizeMax longMax at *; omega)]
      refine simulates_move huse hold (by omega) ?_
      simp only [Desc.seek, hdesc, hbase, if_pos (And.intro hlow hhigh)]
    · rw [if_pos hwrap]
      refine simulates_same huse hold ?_
      simp only [Desc.seek, hdesc, hbase, if_neg hout]

/-- Where a write goes. -/
def Slot.place (slot : Slot) : Nat := if slot.append then slot.len else slot.cursor

theorem Slot.place_file (slot : Slot) : slot.file.place = slot.place := by
  rw [Desc.place, Slot.place, Slot.file, Slot.bytes_length]

theorem Slot.place_le (h : slot.Holds disk) : (slot.place : Int) ≤ longMax := by
  fun_cases Slot.place slot with
  | case1 => exact le_longMax h.fits
  | case2 => exact h.cursor

/-- A slot with a run of bytes put in. -/
def Slot.put (slot : Slot) (data : List Byte) : Slot :=
  { slot with
    data := store slot.data slot.place data
    cursor := slot.place + data.length
    len := max slot.len (slot.place + data.length)
    dirty := true }

theorem holds_put (h : slot.Holds disk)
    (hfits : slot.place + data.length ≤ fileCap) : (slot.put data).Holds disk := by
  exact ⟨Nat.max_le.mpr ⟨h.fits, hfits⟩, blank_store h.blank _ data, le_longMax hfits, nofun⟩

/-- What is left of `write` when there is something to write. -/
theorem writeSlot_eq (null : Bool) (data : List Byte) (disk : Disk) (slot : Slot) :
    writeSlot null data disk slot
      = if slot.writable = false then (disk, slot, .error .ebadf)
        else if null ∧ 0 < data.length then (disk, slot, .error .efault)
        else if data.length = 0 then (disk, slot, .ok (0, []))
        else if fileCap < slot.place + data.length then
          (disk, { slot with cursor := slot.place }, .error .enospc)
        else (disk, slot.put data, .ok (data.length, [])) := by
  have hslot : (if slot.append then { slot with cursor := slot.len } else slot)
      = { slot with cursor := slot.place } := by
    unfold Slot.place
    split <;> rfl
  have hmax : (if slot.len < slot.place + data.length then slot.place + data.length else slot.len)
      = max slot.len (slot.place + data.length) := by
    split <;> omega
  have hfits : (fileCap < data.length ∨ fileCap - data.length < slot.place)
      = (fileCap < slot.place + data.length) := by
    rw [eq_iff_iff]
    omega
  simp only [writeSlot, hslot, hmax, hfits, Slot.put]

theorem writeSlot_simulates (null : Bool) (data : List Byte) :
    Simulates (writeSlot null data) (edit (Desc.write null data)) := by
  intro _ slot huse hold
  rw [writeSlot_eq]
  split_ifs with hwritable hnull hdata hfits
  · exact simulates_same huse hold (if_pos hwritable)
  · exact simulates_same huse hold (by simp [Desc.write, Slot.file, hwritable, hnull])
  · exact simulates_same huse hold (by simp [Desc.write, Slot.file, hwritable, hdata])
  · refine simulates_move huse hold (Slot.place_le hold) ?_
    simp only [Desc.write, Slot.place_file, if_pos hfits, if_neg hnull, if_neg hdata]
    exact if_neg hwritable
  · refine ⟨?_, .kept _ huse rfl (holds_put hold (Nat.not_lt.mp hfits))⟩
    have hbytes : (slot.put data).bytes = splice 0 slot.file.bytes slot.place data :=
      load_splice hold.blank slot.place data
    have hdesc : (slot.put data).desc = _ := Slot.desc_of_inUse huse
    have hnot : ¬ slot.file.writable = false := hwritable
    simp only [edit, Desc.write, Slot.place_file, if_neg hfits, if_neg hnull, if_neg hdata, hdesc,
      if_neg hnot, ← hbytes]
    rfl

theorem closeSlot_simulates (refusal : Option Refusal) :
    Simulates (closeSlot refusal) (Desc.close refusal) := by
  intro disk slot huse hold
  by_cases hdirty : slot.dirty = false
  · -- the storage has the bytes already
    have hsame : update disk slot.path (some slot.bytes) = disk := by
      rw [← hold.clean hdirty, update_eq_self]
    have hclose : closeSlot refusal disk slot = (disk, .zero, .ok (0, [])) := by
      rw [closeSlot, flushSnapshot, if_pos hdirty]
    have hfreed : Leaves disk slot _ Slot.zero := .freed Slot.zero rfl
    rw [hsame] at hfreed
    rw [hclose]
    refine ⟨?_, hfreed⟩
    simp only [Desc.close, Slot.file, hdirty, hsame]
    rfl
  have hchanged : slot.dirty := Bool.not_eq_false _ ▸ hdirty
  cases refusal with
  | none =>
    have hclose : closeSlot none disk slot
        = (update disk slot.path (some slot.bytes), .zero, .ok (0, [])) := by
      rw [closeSlot, flushSnapshot, if_neg hdirty]
      rfl
    rw [hclose]
    refine ⟨?_, .freed _ rfl⟩
    simp only [Slot.file, hchanged]
    rfl
  | some why =>
    obtain ⟨e, he, hclose⟩ : ∃ e, statusToErrno why.status = some e
        ∧ closeSlot (some why) disk slot = (disk, slot, .error e) := by
      rw [closeSlot, flushSnapshot, if_neg hdirty]
      cases why
      · exact ⟨.eacces, rfl, rfl⟩
      · exact ⟨.enoent, rfl, rfl⟩
      · exact ⟨.eio, rfl, rfl⟩
    rw [hclose]
    refine ⟨?_, .kept slot huse rfl hold⟩
    have hfile : slot.file.changed := hchanged
    rw [Desc.close, hfile, bind_some, he, Slot.desc_of_inUse huse]

/-- What a call leaves and returns is what `q` says of the byte files, and the invariant holds while
    the paths differ. -/
structure Refines (r : State × Result) (q : Files × Result) : Prop where
  same : (view r.1, r.2) = q
  inv : PathsDiffer r.1 → Inv r.1

/-- A call on a descriptor, over what it does on its slot. -/
theorem onSlot_on (h : Inv s) (hsim : Simulates f g) (fd : Int) :
    Refines (onSlot s fd f) ((view s).on fd g) := by
  unfold onSlot fdSlotFromPublic Files.on
  cases hi : fdIndex fd with
  | none => exact ⟨rfl, fun _ => h⟩
  | some i =>
    cases huse : (s.slots i).inUse with
    | false =>
      rw [filter_some_neg (by simp [huse])]
      refine ⟨?_, fun _ => h⟩
      simp only [bind_some, view, Slot.desc_of_free huse, map_none]
    | true =>
      obtain ⟨hsame, hl⟩ := hsim s.disk (s.slots i) huse (h.holds i huse)
      rw [filter_some_pos (p := fun i => (s.slots i).inUse) huse]
      refine ⟨?_, fun _ => inv_leaves h huse hl⟩
      simp only [bind_some, view_update]
      simp only [view, Slot.desc_of_inUse huse, map_some, hsame]

/-! ## Open -/

theorem osFsReadFileBytes_ok (h : osFsReadFileBytes disk refusal path size = (.ok, bytes)) :
    disk path = some bytes ∧ bytes.length ≤ size := by
  revert h
  fun_cases osFsReadFileBytes disk refusal path size with
  | case5 _ _ _ hb hle =>
    rintro ⟨⟩
    exact ⟨hb, Nat.not_lt.mp hle⟩
  | _ => rintro ⟨⟩

/-- The slot `open` takes, with the flags put in. -/
def Slot.taken (flags : BitVec 32) (slot : Slot) : Slot :=
  { slot with
    writable := flags &&& oAccmode != oRdonly
    append := flags &&& oAppend != 0
    inUse := true }

/-- An empty snapshot that is still to be stored. -/
theorem holds_empty (hlen : slot.len = 0) (hcursor : slot.cursor = 0)
    (hdata : slot.data = fun _ => 0) (hdirty : slot.dirty = true) : slot.Holds disk := by
  refine ⟨by omega, fun i _ => by rw [hdata], ?_, fun h => ?_⟩
  · rw [hcursor]
    decide
  · exact absurd (hdirty.symm.trans h) Bool.noConfusion

/-- `open` has the file it is to have, or fails for the same reason. -/
theorem openSnapshot_opening (disk : Disk) (refusal : Option Refusal) (path : CStr)
    (flags : BitVec 32) : ∃ slot, slot.inUse = false ∧
      ((openSnapshot disk refusal path flags = (slot, none)
          ∧ opening disk refusal path flags = .ok (slot.taken flags).file
          ∧ (slot.taken flags).Holds disk)
        ∨ ∃ e, openSnapshot disk refusal path flags = (slot, some e)
          ∧ opening disk refusal path flags = .error e) := by
  unfold openSnapshot loadSnapshot opening
  rcases hread : osFsReadFileBytes disk refusal path fileCap with ⟨st, bytes⟩
  cases st with
  | ok =>
    obtain ⟨hfile, hfits⟩ := osFsReadFileBytes_ok hread
    simp only [if_neg (Nat.not_lt.mpr hfits)]
    by_cases htrunc : flags &&& oTrunc ≠ 0 ∧ bytes.length ≠ 0
    · exact ⟨_, rfl, .inl ⟨if_pos htrunc, if_pos htrunc, holds_empty rfl rfl rfl rfl⟩⟩
    · have hload : load (store (fun _ => (0 : Byte)) 0 bytes) 0 bytes.length = bytes :=
        load_store _ 0 bytes
      refine ⟨_, rfl, .inl ⟨if_neg htrunc, (if_neg htrunc).trans ?_, hfits, blank_whole 0 bytes,
        by change (0 : Int) ≤ longMax; decide, fun _ => hfile.trans (congrArg some hload.symm)⟩⟩
      simp only [Slot.taken, Slot.file, Slot.bytes, hload]
      rfl
  | notFound =>
    simp only [statusToErrno, true_and]
    by_cases hcreat : flags &&& oCreat ≠ 0
    · exact ⟨_, rfl, .inl ⟨if_pos hcreat, if_pos hcreat, holds_empty rfl rfl rfl rfl⟩⟩
    · exact ⟨_, rfl, .inr ⟨_, if_neg hcreat, if_neg hcreat⟩⟩
  | denied => exact ⟨_, rfl, .inr ⟨.eacces, if_neg (fun h => Errno.noConfusion h.1), rfl⟩⟩
  | error => exact ⟨_, rfl, .inr ⟨.eio, if_neg (fun h => Errno.noConfusion h.1), rfl⟩⟩

theorem pathCopy_eq (hne : path ≠ []) :
    pathCopy path = if pathCap ≤ path.length then .error .einval else .ok path := by
  have hpos : path.length ≠ 0 := fun h => hne (eq_nil_of_length_eq_zero h)
  unfold pathCopy pathCap
  dsimp only
  congr 1
  rw [eq_iff_iff]
  omega

/-- A free slot that stays free. -/
theorem open_fails (h : Inv s) (hi : (s.slots i).inUse = false) (hslot : slot.inUse = false)
    (e : Errno) : Refines (s.setSlot i slot, .error e) (view s, .error e) := by
  refine ⟨by rw [view_setSlot_free hi hslot], fun hpaths => ⟨fun j hj => ?_, hpaths⟩⟩
  rcases eq_or_ne j i with rfl | hne
  · simp only [State.setSlot, update_self, hslot] at hj
    exact absurd hj Bool.false_ne_true
  · simp only [State.setSlot, update_of_ne hne] at hj ⊢
    exact h.holds j hj

theorem posixOpen_openFile (h : Inv s) (refusal : Option Refusal) (path : Option CStr)
    (flags : BitVec 32) :
    Refines (posixOpen s refusal path flags) ((view s).openFile refusal path flags) := by
  cases path with
  | none => exact ⟨rfl, fun _ => h⟩
  | some path =>
    have hfind : (List.finRange 8).find? (fun i => ((view s).desc i).isNone) = freeSlot s := by
      refine congrArg ((List.finRange 8).find? ·) (funext (fun i => ?_))
      cases huse : (s.slots i).inUse with
      | false => simp only [view, Slot.desc_of_free huse, isNone_none, Bool.not_false]
      | true => simp only [view, Slot.desc_of_inUse huse, isNone_some, Bool.not_true]
    simp only [posixOpen, Files.openFile, hfind]
    by_cases hempty : path = []
    · simp only [if_pos hempty]
      exact ⟨rfl, fun _ => h⟩
    by_cases halias : pathIsConsoleAlias path = true
    · simp only [if_neg hempty, if_pos halias]
      exact ⟨rfl, fun _ => h⟩
    simp only [if_neg hempty, if_neg halias, pathCopy_eq hempty]
    cases hslot : freeSlot s with
    | none => exact ⟨rfl, fun _ => h⟩
    | some i =>
      have hfree : (s.slots i).inUse = false := by simpa using List.find?_some hslot
      by_cases hlen : pathCap ≤ path.length
      · simp only [if_pos hlen]
        exact open_fails h hfree rfl .einval
      simp only [if_neg hlen]
      obtain ⟨slot, hnot, ⟨hopen, hd, hholds⟩ | ⟨e, hopen, hd⟩⟩ :=
        openSnapshot_opening s.disk refusal path flags
      · simp only [hopen, view, hd]
        refine ⟨?_, fun hpaths => ⟨fun j hj => ?_, hpaths⟩⟩
        · exact congrArg (·, (.ok (fdFirst + i.val, []) : Result))
            (view_update s i (slot.taken flags) s.disk)
        · rcases eq_or_ne j i with rfl | hne
          · simp only [State.setSlot, update_self]
            exact hholds
          · simp only [State.setSlot, update_of_ne hne] at hj ⊢
            exact h.holds j hj
      · simp only [hopen, view, hd]
        exact open_fails h hfree hnot e

/-! ## Whole runs -/

theorem fdIndex_of_console (h : fdIsConsole fd) : fdIndex fd = none := by
  simp only [fdIsConsole, Bool.or_eq_true, beq_iff_eq] at h
  rw [fdIndex, dif_neg]
  unfold fdFirst
  omega

theorem on_of_console (a : Files) (h : fdIsConsole fd)
    (g : Disk → Desc → Disk × Option Desc × Result) : a.on fd g = (a, .error .ebadf) := by
  rw [Files.on, fdIndex_of_console h]
  rfl

/-- A write to the console is none to a file. -/
theorem posixWrite_console (h : fdIsConsole fd) (accepts : Nat → Bool) (null : Bool)
    (data : List Byte) : ∃ chunks, posixWrite s accepts fd null data
      = ({ s with console := s.console ++ chunks }, consoleResult accepts fd null data) := by
  unfold consoleResult
  fun_cases posixWrite s accepts fd null data with
  | case1 _ h0 => exact ⟨[], by rw [if_pos h0, append_nil]⟩
  | case2 _ h0 hnull => exact ⟨[], by rw [if_neg h0, if_pos hnull, append_nil]⟩
  | case3 _ h0 hnull hdata =>
    obtain rfl := eq_nil_of_length_eq_zero hdata
    refine ⟨[], ?_⟩
    rw [if_neg h0, if_neg hnull, append_nil, consoleWriteBytes]
    rfl
  | case4 _ h0 hnull _ chunks ok hwrite =>
    exact ⟨chunks, by rw [if_neg h0, if_neg hnull, hwrite]⟩
  | case5 hfile => exact absurd h hfile

/-- Every call is a call on byte files. -/
theorem exec_view (h : Inv s) (op : Op) : Refines (exec s op) ((view s).exec op) := by
  cases op with
  | openFile refusal path flags => exact posixOpen_openFile h refusal path flags
  | close refusal fd =>
    simp only [exec, posixClose, Files.exec]
    split
    · exact ⟨rfl, fun _ => h⟩
    · exact onSlot_on h (closeSlot_simulates refusal) fd
  | read fd null count =>
    simp only [exec, posixRead, Files.exec]
    split
    · exact ⟨rfl, fun _ => h⟩
    · split
      · next hconsole => exact ⟨(on_of_console _ hconsole _).symm, fun _ => h⟩
      · exact onSlot_on h (readSlot_simulates null count) fd
  | write accepts fd null data =>
    by_cases hconsole : fdIsConsole fd = true
    · obtain ⟨_, heq⟩ := posixWrite_console hconsole (s := s) accepts null data
      simp only [exec, heq, Files.exec, if_pos hconsole]
      exact ⟨rfl, fun _ => ⟨h.holds, h.paths⟩⟩
    · simp only [exec, posixWrite, Files.exec, if_neg hconsole]
      exact onSlot_on h (writeSlot_simulates null data) fd
  | lseek fd offset whence =>
    simp only [exec, lseek, Files.exec]
    split
    · exact ⟨rfl, fun _ => h⟩
    · exact onSlot_on h (seekSlot_simulates offset whence) fd

/-- The states of the runs in which no two open descriptors name one path. -/
def Reached (disk : Disk) (s : State) : Prop :=
  ∃ ops, Along step (fun s op => PathsDiffer (step s op)) (start disk) ops
    ∧ run step (start disk) ops = s

theorem Reached.inv (h : Reached disk s) : Inv s := by
  obtain ⟨ops, hpaths, rfl⟩ := h
  refine run_inv (fun s op hs hp => ?_) ops (start disk) (inv_start disk) hpaths
  exact (exec_view hs op).2 hp

/-- The slot a call is made on. -/
def Op.index : Op → Option (Fin 8)
  | .openFile _ _ _ => none
  | .close _ fd => fdIndex fd
  | .read fd _ _ => fdIndex fd
  | .write _ fd _ _ => fdIndex fd
  | .lseek fd _ _ => fdIndex fd

/-- An open file but for its cursor. -/
def Desc.content (d : Desc) : CStr × Bool × Bool × List Byte :=
  (d.path, d.writable, d.append, d.bytes)

/-- What a call can do to byte files: nothing, a change to the file it is made on, with the content
    kept if it fails, a new file at a free descriptor, or a stored file. -/
inductive Change (a : Files) (op : Op) : Files × Result → Prop where
  | same (r : Result) : Change a op (a, r)
  | edit (i : Fin 8) (d d' : Desc) (r : Result) : op.index = some i → a.desc i = some d →
      (∀ e, r = .error e → d'.content = d.content) →
      Change a op (⟨update a.desc i (some d'), a.disk⟩, r)
  | take (i : Fin 8) (d : Desc) (v : Int × List Byte) : a.desc i = none →
      Change a op (⟨update a.desc i (some d), a.disk⟩, .ok v)
  | release (i : Fin 8) (d : Desc) (v : Int × List Byte) : op.index = some i → a.desc i = some d →
      Change a op (⟨update a.desc i none, update a.disk d.path (some d.bytes)⟩, .ok v)

variable {a : Files} {op : Op}

/-- A call on a descriptor, over what it does on the file. -/
theorem change_on (hop : op.index = fdIndex fd)
    (hg : ∀ d, (∃ d', g a.disk d = (a.disk, some d', (g a.disk d).2.2)
        ∧ ∀ e, (g a.disk d).2.2 = .error e → d'.content = d.content)
      ∨ ∃ v, g a.disk d = (update a.disk d.path (some d.bytes), none, .ok v)) :
    Change a op (a.on fd g) := by
  unfold Files.on
  cases hi : fdIndex fd with
  | none => exact .same _
  | some i =>
    cases hd : a.desc i with
    | none =>
      simp only [bind_some, hd]
      exact .same _
    | some d =>
      simp only [bind_some, hd, map_some]
      rcases hg d with ⟨d', heq, hcontent⟩ | ⟨v, heq⟩
      · have hedit : Change a op (⟨update a.desc i (some d'), a.disk⟩, _) :=
          .edit i d d' _ (hop.trans hi) hd hcontent
        rw [heq]
        exact hedit
      · rw [heq]
        exact .release i d v (hop.trans hi) hd

theorem change_edit (hop : op.index = fdIndex fd)
    (hg : ∀ d e, (g d).2 = .error e → (g d).1.content = d.content) :
    Change a op (a.on fd (edit g)) :=
  change_on hop (fun d => .inl ⟨(g d).1, rfl, hg d⟩)

theorem exec_change (a : Files) (op : Op) : Change a op (a.exec op) := by
  cases op with
  | openFile _ path =>
    rw [Files.exec]
    fun_cases Files.openFile with
    | case7 _ _ _ i hi =>
      have hfree : a.desc i = none := by simpa using List.find?_some hi
      exact .take i _ _ hfree
    | _ => exact .same _
  | close =>
    simp only [Files.exec]
    split
    · exact .same _
    · refine change_on rfl (fun d => ?_)
      unfold Desc.close
      split
      · exact .inl ⟨d, rfl, fun _ _ => rfl⟩
      · exact .inr ⟨_, rfl⟩
  | read =>
    simp only [Files.exec]
    split
    · exact .same _
    · refine change_edit rfl (fun d e _ => ?_)
      unfold Desc.read
      split <;> rfl
  | write =>
    simp only [Files.exec]
    split
    · exact .same _
    · refine change_edit rfl (fun d e he => ?_)
      unfold Desc.write at he ⊢
      repeat' split at he
      all_goals simp_all [Desc.content]
  | lseek =>
    simp only [Files.exec]
    split
    · exact .same _
    · refine change_edit rfl (fun d e _ => ?_)
      unfold Desc.seek
      split
      · rfl
      · split <;> rfl

/-- A call leaves the open files it is not made on alone. -/
theorem Change.frame (h : Change a op x) (hj : op.index ≠ some j)
    (hopen : a.desc j ≠ none) : x.1.desc j = a.desc j := by
  cases h with
  | same => rfl
  | edit i _ _ _ hi | release i _ _ hi =>
    have hne : j ≠ i := fun heq => hj (heq ▸ hi)
    exact update_of_ne hne _ _
  | take i _ _ hfree =>
    have hne : j ≠ i := fun heq => hopen (heq ▸ hfree)
    exact update_of_ne hne _ _

/-- A call that fails changes no stored file and no open file. -/
theorem Change.of_error (h : Change a op x) (he : x.2 = .error e) :
    x.1.disk = a.disk ∧ ∀ j, (x.1.desc j).map Desc.content = (a.desc j).map Desc.content := by
  cases h with
  | same => exact ⟨rfl, fun _ => rfl⟩
  | edit i _ _ _ _ hd hcontent =>
    refine ⟨rfl, fun j => ?_⟩
    dsimp only
    rcases eq_or_ne j i with rfl | hne
    · rw [update_self, hd]
      exact congrArg some (hcontent e he)
    · rw [update_of_ne hne]
  | _ => cases he

theorem close_stored (hi : fdIndex fd = some i) (hd : a.desc i = some d)
    (h : (a.on fd (Desc.close refusal)).2 = .ok v) :
    (a.on fd (Desc.close refusal)).1.disk d.path = some d.bytes := by
  simp only [Files.on, hi, bind_some, hd, map_some, Desc.close] at h ⊢
  split at h
  · cases h
  · exact update_self ..

/-- The descriptors are byte files with a cursor wherever no two open ones name one path: each call
    does what it does to byte files and leaves the others alone, a `close` has stored the bytes, and
    a failing call changes no bytes. -/
theorem fd_refines_files (disk : Disk) (s : State) (op : Op) (hs : Reached disk s) :
    (view (step s op), (exec s op).2) = (view s).exec op
      ∧ (∀ i, op.index ≠ some i → (view s).desc i ≠ none →
        (view (step s op)).desc i = (view s).desc i)
      ∧ (∀ refusal fd i d v, op = .close refusal fd → fdIndex fd = some i →
        (view s).desc i = some d → (exec s op).2 = .ok v → (step s op).disk d.path = some d.bytes)
      ∧ (∀ e, (exec s op).2 = .error e → (step s op).disk = s.disk
        ∧ ∀ i, ((view (step s op)).desc i).map Desc.content
          = ((view s).desc i).map Desc.content) := by
  have hexec := (exec_view hs.inv op).1
  have hchange := exec_change (view s) op
  rw [← hexec] at hchange
  refine ⟨hexec, fun i hi hopen => hchange.frame hi hopen, ?_, fun e he => hchange.of_error he⟩
  rintro refusal fd i _ v rfl hi hd hok
  have hconsole : ¬ fdIsConsole fd := fun h => some_ne_none i (hi.symm.trans (fdIndex_of_console h))
  rw [Files.exec, if_neg hconsole] at hexec
  have hok' : ((view s).on fd (Desc.close refusal)).2 = .ok v := by rw [← hexec, hok]
  have hstored := close_stored hi hd hok'
  rw [← hexec] at hstored
  exact hstored

theorem pathsDiffer_of_only (h : ∀ j, j ≠ i → (s.slots j).inUse = false) : PathsDiffer s := by
  have only : ∀ j, (s.slots j).inUse → j = i := fun j hj =>
    not_not.mp (fun hne => Bool.eq_false_iff.mp (h j hne) hj)
  intro j k hj hk _
  rw [only j hj, only k hk]

/-- A new file, written two bytes behind its start. -/
def gapOps : List Op :=
  [.openFile none (some ['a']) (oRdwr ||| oCreat), .lseek 3 2 seekSet,
    .write (fun _ => true) 3 false [7]]

def gapState : State := run step (start (fun _ => none)) gapOps

theorem reached_gapState : Reached (fun _ => none) gapState := by
  refine ⟨gapOps, ⟨?_, ?_, ?_, trivial⟩, rfl⟩
  all_goals exact pathsDiffer_of_only (i := 0) (by decide +kernel)

theorem fd_refines_files_gap :
    (view gapState).desc 0 = some ⟨['a'], true, false, true, [0, 0, 7], 3⟩
      ∧ (step gapState (.close none 3)).disk ['a'] = some [0, 0, 7] :=
  have hdesc : (view gapState).desc 0 = some ⟨['a'], true, false, true, [0, 0, 7], 3⟩ := by rfl
  ⟨hdesc, (fd_refines_files (fun _ => none) gapState (.close none 3) reached_gapState).2.2.1
    none 3 0 _ (0, []) rfl rfl hdesc (by rfl)⟩

/-- A file opened for appending, with one byte and the cursor in front of it. -/
def appendOps : List Op :=
  [.openFile none (some ['a']) (oRdwr ||| oCreat ||| oAppend),
    .write (fun _ => true) 3 false [7], .lseek 3 0 seekSet]

def appendState : State := run step (start (fun _ => none)) appendOps

/-- An append that does not fit fails, and the cursor has moved. -/
theorem full_append_moves_cursor : Reached (fun _ => none) appendState
      ∧ (view appendState).desc 0 = some ⟨['a'], true, true, true, [7], 0⟩
      ∧ (exec appendState (.write (fun _ => true) 3 false (List.replicate 131073 0))).2
        = .error .enospc
      ∧ (view (step appendState (.write (fun _ => true) 3 false (List.replicate 131073 0)))).desc 0
        = some ⟨['a'], true, true, true, [7], 1⟩ := by
  obtain ⟨data, hdata⟩ : ∃ data, List.replicate 131073 (0 : Byte) = data := ⟨_, rfl⟩
  have hlen : data.length = 131073 := by rw [← hdata, length_replicate]
  rw [hdata]
  have hreached : Reached (fun _ => none) appendState := by
    refine ⟨appendOps, ⟨?_, ?_, ?_, trivial⟩, rfl⟩
    all_goals exact pathsDiffer_of_only (i := 0) (by decide +kernel)
  have hdesc : (view appendState).desc 0 = some ⟨['a'], true, true, true, [7], 0⟩ := by rfl
  have hwrite : Desc.write false data ⟨['a'], true, true, true, [7], 0⟩
      = (⟨['a'], true, true, true, [7], 1⟩, .error .enospc) := by
    simp [Desc.write, Desc.place, fileCap, hlen]
  have hexec := (exec_view hreached.inv (.write (fun _ => true) 3 false data)).1
  have hindex : fdIndex 3 = some 0 := by rfl
  simp only [Files.exec, if_neg (show ¬ fdIsConsole 3 = true by decide), Files.on, hindex,
    bind_some, hdesc, map_some, edit, hwrite] at hexec
  refine ⟨hreached, hdesc, congrArg Prod.snd hexec, ?_⟩
  exact congrArg (fun x => x.1.desc 0) hexec

end PosixFd
