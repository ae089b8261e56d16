import SecureOS.CcModel
import SecureOS.FsRunProofs

/-! # What the cc driver overwrites

The preflight of `cc_compile` compares the spellings of paths, letter case apart; the filesystem
compares the entries that paths resolve to.  In a filesystem that calls have reached, paths
resolve to one entry exactly if they are resolved to the same names and the directory is there
(`sameEntry_iff`), so the two comparisons differ on every job with two spellings of one place.

* `inputs_protected_iff` — the inputs are safe iff files read are spelled like files written, or
  name other places. -/

namespace Cc

open ConsolePath
open Sof (Byte)
open Fs (Device)
open MachineRun (run)

theorem ccSamePath_iff (left right : Path) :
    ccSamePath left right ↔ left.map upper = right.map upper := by
  induction left generalizing right with
  | nil => cases right <;> simp [ccSamePath]
  | cons a _ ih =>
    cases right with
    | nil => simp [ccSamePath]
    | cons b =>
      rw [ccSamePath, List.map_cons, List.map_cons, List.cons.injEq, ← ih]
      by_cases hab : upper a = upper b <;> simp [hab]

/-- The files a job reads: the source and, if it is given, the manifest. -/
def Job.reads (job : Job) : List Path := job.input :: job.manifest.toList

/-- The files a job is told to write: the output and the staging file. -/
def Job.targets (job : Job) : List Path :=
  job.output :: (ccSwapExt ccPathMax job.output (text "elf")).toList

/-- Some file read has the spelling of some file written, letter case apart. -/
def SpelledAlike (job : Job) : Prop := ∃ p ∈ job.reads, ∃ q ∈ job.targets, p.map upper = q.map upper

/-- The staging path does not fit its buffer. -/
def TooLong (job : Job) : Prop := ccSwapExt ccPathMax job.output (text "elf") = none

theorem ccPathsCollide_iff (job : Job) : ccPathsCollide job ↔ TooLong job ∨ SpelledAlike job := by
  unfold ccPathsCollide TooLong SpelledAlike Job.targets Job.reads
  cases ccSwapExt ccPathMax job.output (text "elf") with
  | none => simp
  | some => cases job.manifest <;> simp [ccSamePath_iff, or_assoc]

/-- The driver ends well or with the code of a call. -/
theorem runStages_exit (hok : code ≠ .ok) (hss : ∀ s ∈ ss, s.exit ≠ code) :
    (runStages t elf ss written).exit ≠ code := by
  induction ss generalizing written with
  | nil => exact fun h => hok h.symm
  | cons s _ ih =>
    unfold runStages
    split
    · exact ih (fun s' hs' => hss s' (List.mem_cons_of_mem s hs'))
    · exact hss s List.mem_cons_self

/-- No call behind the preflight is answered with the usage code. -/
theorem stages_exit_ne_usage : ∀ s ∈ stages t job elf, s.exit ≠ .usage := by
  have hinput : (if t.inputUnreadable then ExitCode.io else .compile) ≠ .usage := by
    split <;> decide
  have houtput : (if t.outputSawError then ExitCode.compile else .link) ≠ .usage := by
    split <;> decide
  simp [stages, hinput, houtput]

/-- A job ends with the usage code iff the preflight stops it, and then nothing has been written. -/
theorem usage_iff_spelledAlike (t : Toolchain) (job : Job) :
    ((ccCompile t job).exit = .usage ∧ (ccCompile t job).written = [])
      ↔ TooLong job ∨ SpelledAlike job := by
  rw [← ccPathsCollide_iff, ccCompile]
  split
  next hpre => exact iff_of_true ⟨rfl, rfl⟩ hpre
  next hpre =>
    refine iff_of_false (fun h => ?_) hpre
    split at h
    next helf => exact hpre ((ccPathsCollide_iff job).mpr (Or.inl helf))
    next => exact runStages_exit (by decide) stages_exit_ne_usage h.1

/-- Two paths resolve to one directory entry. -/
def SameEntry (dev : Device) (cwd p q : Path) : Prop :=
  ∃ entry, entryOf dev cwd p = .ok entry ∧ entryOf dev cwd q = .ok entry

/-- A file the job is told to write is the entry of a file it reads. -/
def Clashes (dev : Device) (cwd : Path) (job : Job) : Prop :=
  ∃ p ∈ job.reads, ∃ q ∈ job.targets, SameEntry dev cwd p q

/-- The names that a path spells, from the root on. -/
def spelledPlace (cwd path : Path) : Option Fs.Key := Fs.pathKey (resolvePath cwd path appTokenMax)

/-- The directory of the path is there. -/
def Resolves (dev : Device) (cwd path : Path) : Prop := ∃ entry, entryOf dev cwd path = .ok entry

/-- The entry of a path is its last name in the directory that the names before it lead to. -/
theorem entryOf_ok_iff (h : Fs.Represents dev tree) (cwd path : Path) :
    entryOf dev cwd path = .ok entry ↔ ∃ n k c l entries, spelledPlace cwd path = some (n :: k)
      ∧ tree k = some (.dir (c :: l) entries) ∧ (c, n) = entry := by
  rw [entryOf, spelledPlace]
  rcases Fs.resolve_tree h (resolvePath cwd path appTokenMax) with
    ⟨n, k, c, l, entries, hkey, hdir, hres⟩ | ⟨⟨_, herr⟩, hno⟩
  · rw [hres]
    constructor
    · exact fun he => ⟨n, k, c, l, entries, hkey, hdir, Except.ok.inj he⟩
    · rintro ⟨_, _, _, _, _, hkey', hdir', rfl⟩
      cases hkey.symm.trans hkey'
      cases hdir.symm.trans hdir'
      rfl
  · rw [herr]
    refine iff_of_false nofun ?_
    rintro ⟨n, k, _, _, _, hkey, hdir, -⟩
    exact hno n k hkey _ _ hdir

/-- **ONE ENTRY, ONE PLACE**: paths resolve to one entry exactly if they spell the same names and
    the directory is there. -/
theorem sameEntry_iff (h : Fs.Represents dev tree) (cwd p q : Path) :
    SameEntry dev cwd p q ↔ Resolves dev cwd q ∧ spelledPlace cwd p = spelledPlace cwd q := by
  constructor
  · rintro ⟨entry, hp, hq⟩
    refine ⟨⟨entry, hq⟩, ?_⟩
    obtain ⟨_, _, _, _, _, hkp, hdir, rfl⟩ := (entryOf_ok_iff h cwd p).mp hp
    obtain ⟨_, _, _, _, _, hkq, hdir', heq⟩ := (entryOf_ok_iff h cwd q).mp hq
    obtain ⟨rfl, rfl⟩ := Prod.mk.inj heq
    -- two directories of the tree do not share a cluster
    rw [hkp, hkq, h.disjoint hdir hdir' List.mem_cons_self List.mem_cons_self]
  · rintro ⟨⟨entry, hq⟩, hplace⟩
    refine ⟨entry, (entryOf_ok_iff h cwd p).mpr ?_, hq⟩
    rw [hplace]
    exact (entryOf_ok_iff h cwd q).mp hq

/-- Files read and files written that are in a directory spell different places. -/
def SpelledApart (dev : Device) (cwd : Path) (job : Job) : Prop :=
  ∀ p ∈ job.reads, ∀ q ∈ job.targets, Resolves dev cwd q → spelledPlace cwd p ≠ spelledPlace cwd q

/-- **INPUTS ARE SAFE** in every filesystem that calls reach iff the staging path does not fit, some
    file read and some file written have one spelling, letter case apart, or they all spell
    different places: for these jobs, and no others, a clash ends the driver before any file is
    written. -/
theorem inputs_protected_iff (raw : Device) (hd : Fs.Healthy raw) (ops : List Fs.FsOp) (cwd : Path)
    (t : Toolchain) (line : Path) (job : Job) (haccept : parseArgs line = .ok job) :
    (Clashes (run Fs.FsOp.after (Fs.formatted raw) ops) cwd job →
        (ccMain t line).exit = .usage ∧ (ccMain t line).written = [])
      ↔ TooLong job ∨ SpelledAlike job
        ∨ SpelledApart (run Fs.FsOp.after (Fs.formatted raw) ops) cwd job := by
  obtain ⟨_, h⟩ := Fs.reachable_tree hd ops
  have happart : SpelledApart (run Fs.FsOp.after (Fs.formatted raw) ops) cwd job
      ↔ ¬ Clashes (run Fs.FsOp.after (Fs.formatted raw) ops) cwd job := by
    simp only [SpelledApart, Clashes, sameEntry_iff h, not_exists, not_and]
  rw [ccMain, haccept]
  dsimp only
  rw [usage_iff_spelledAlike, happart, ← or_assoc, imp_iff_or_not]

/-- Every call succeeds. -/
def allWell : Toolchain := ⟨fun _ => true, false, false, false⟩

/-- The output is the manifest, in other letters: the driver stops. -/
theorem inputs_protected_iff_letterCase :
    (ccMain allWell (text "a.c -o /a.bin --manifest /A.BIN")).exit = .usage
      ∧ (ccMain allWell (text "a.c -o /a.bin --manifest /A.BIN")).written = [] := by
  refine (inputs_protected_iff Fs.blankDevice Fs.blankDevice_healthy [] (text "/") allWell _
    ⟨text "a.c", text "/a.bin", some (text "/A.BIN")⟩ (by decide +kernel)).mpr
    (Or.inr (Or.inl ?_)) ?_
  · exact ⟨text "/A.BIN", by decide +kernel, text "/a.bin", by decide +kernel, by decide +kernel⟩
  · refine ⟨text "/A.BIN", by decide +kernel, text "/a.bin", by decide +kernel, ?_⟩
    exact ⟨(2, ⟨text "A       BIN", by decide⟩), rfl, rfl⟩

/-- `cc a.c -o /a.bin --manifest //a.bin` overwrites its manifest: it is the output's entry. -/
theorem manifest_overwritten : ∃ job, parseArgs (text "a.c -o /a.bin --manifest //a.bin") = .ok job
      ∧ Clashes (Fs.formatted Fs.blankDevice) (text "/") job
      ∧ (ccMain allWell (text "a.c -o /a.bin --manifest //a.bin")).exit = .ok
      ∧ text "/a.bin" ∈ (ccMain allWell (text "a.c -o /a.bin --manifest //a.bin")).written := by
  refine ⟨⟨text "a.c", text "/a.bin", some (text "//a.bin")⟩, by decide +kernel, ?_,
    by decide +kernel, by decide +kernel⟩
  refine ⟨text "//a.bin", by decide +kernel, text "/a.bin", by decide +kernel, ?_⟩
  exact ⟨(2, ⟨text "A       BIN", by decide⟩), rfl, rfl⟩

end Cc
