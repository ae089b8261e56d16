import SecureOS.CodesignModel
import SecureOS.SofProofs
import SecureOS.Lib.MachineRunProofs

/-! # The codesign cache and the bytes that run

A launch that finds its path and its size in the cache is let through without a look at the
bytes.  The verdict was about bytes that stood at that path when it was stored; the disk may
hold others by now, and a failed verdict lets the file through as well, with a warning. -/

namespace Codesign

open Capability CapTable Sof MachineRun Function List

/-! ## Paths and files -/

/-- The path fits its buffer, and the file is what stands where it points. -/
def Reads (files : Files) (path : CStr) (file : List Byte) : Prop :=
  path.length < appTokenMax ∧ files (fsPathOf path) = .ok file

variable {path : CStr} {files : Files} {file : List Byte} {l : Launch} {y : Machine}
  {parsed : Parsed} {crypto : Crypto}

theorem appAppendString_length (h : dst.length < size) (src : CStr) :
    (appAppendString size dst src).length < size := by
  rw [appAppendString, length_append, length_take]
  omega

theorem appCopyString_length (h : 0 < size) (src : CStr) :
    (appCopyString size src).length < size := by
  rw [appCopyString, length_take]
  omega

theorem appAppendBinSuffix_length (h : path.length < size) :
    (appAppendBinSuffix size path).length < size := by
  rw [appAppendBinSuffix]
  split
  · exact h
  · exact appAppendString_length h _

theorem appBuildPathFromDir_length (h : 0 < size) (baseDir appName : CStr) :
    (appBuildPathFromDir size baseDir appName).length < size := by
  have hdir : (appAppendString size [] baseDir).length < size := appAppendString_length h _
  rw [appBuildPathFromDir]
  split
  · exact h
  · dsimp only
    refine appAppendBinSuffix_length (appAppendString_length ?_ _)
    split
    case isTrue hroom =>
      rw [length_append]
      exact hroom.1
    case isFalse => exact hdir

theorem fsReadFileBytes_ok (h : fsReadFileBytes files path size = .ok file) :
    files path = .ok file := by
  rw [fsReadFileBytes] at h
  cases hf : files path with
  | error =>
    rw [hf] at h
    cases h
  | ok =>
    rw [hf] at h
    dsimp only at h
    split at h
    · cases h
    · exact h

theorem appTryReadAppCandidate_reads (hc : candidate.length < appTokenMax)
    (h : appTryReadAppCandidate files candidate = .ok (path, file)) : Reads files path file := by
  rw [appTryReadAppCandidate] at h
  split at h
  · cases h
  · cases hr : fsReadFileBytes files (fsPathOf candidate) appFileMax with
    | error =>
      rw [hr] at h
      cases h
    | ok =>
      rw [hr] at h
      cases h
      exact ⟨hc, fsReadFileBytes_ok hr⟩

theorem tryCandidate_reads (hc : candidate.length < appTokenMax)
    (h : tryCandidate files fsResult candidate = .ok (path, file)) : Reads files path file := by
  rw [tryCandidate] at h
  split at h
  · cases h
  · split at h
    · cases h
    · exact appTryReadAppCandidate_reads hc h

theorem searchPath_reads (h : searchPath files appName fsResult entries = .ok (path, file)) :
    Reads files path file := by
  induction entries with
  | nil => cases h
  | cons _ _ ih =>
    rw [searchPath] at h
    split at h
    · exact ih h
    · split at h
      · exact ih h
      · exact appTryReadAppCandidate_reads (appBuildPathFromDir_length (by decide) _ _) h

theorem searchRelative_reads (h : searchRelative files context appName = .ok (path, file)) :
    Reads files path file := by
  have htoken : 0 < appTokenMax := by decide
  unfold searchRelative at h
  dsimp only at h
  split at h
  case h_1 found halong =>
    cases h
    split at halong
    case h_1 hhere =>
      cases halong
      split at hhere
      · cases hhere
      · exact tryCandidate_reads (appAppendBinSuffix_length (appCopyString_length htoken _)) hhere
    case h_2 e hhere =>
      split at halong
      · cases halong
      · exact searchPath_reads halong
  case h_2 e halong => exact tryCandidate_reads (appBuildPathFromDir_length htoken _ _) h

theorem processRunFile_reads (h : processRunFile files context appName = .ok (path, file)) :
    Reads files path file := by
  cases appName with
  | nil => cases h
  | cons =>
    rw [processRunFile] at h
    split at h
    · cases h
    · dsimp only at h
      split at h
      · cases h
      · split at h
        case h_1 found hfound =>
          cases h
          split at hfound
          · exact appTryReadAppCandidate_reads
              (appAppendBinSuffix_length (appCopyString_length (by decide) _)) hfound
          · exact searchRelative_reads hfound
        · cases h
        · cases h

/-- The path shown for a library is the whole path. -/
def Target.Whole : Target → Prop
  | .run _ => True
  | .loadLibrary libraryName =>
    (appBuildLibraryPath appTokenMax libraryName).length + 1 < appTokenMax

theorem libraryDisplayPath_whole (h : libraryPath.length + 1 < appTokenMax) :
    libraryDisplayPath libraryPath = '/' :: libraryPath := by
  rw [libraryDisplayPath, appAppendString, take_of_length_le]
  · rfl
  · show libraryPath.length ≤ appTokenMax - 1 - 1
    omega

theorem processLoadLibraryFile_reads (hwhole : (Target.loadLibrary libraryName).Whole)
    (h : processLoadLibraryFile files bits context libraryName = .ok (path, file)) :
    Reads files path file := by
  revert h
  fun_cases processLoadLibraryFile files bits context libraryName with
  | case4 _ _ _ _ _ bytes hread =>
    rintro ⟨⟩
    rw [libraryDisplayPath_whole hwhole]
    exact ⟨hwhole, fsReadFileBytes_ok hread⟩
  | _ => rintro ⟨⟩

theorem launchFile_reads (hwhole : l.target.Whole) (h : launchFile files l = .ok (path, file)) :
    Reads files path file := by
  rw [launchFile] at h
  cases ht : l.target with
  | run =>
    rw [ht] at h
    exact processRunFile_reads h
  | loadLibrary =>
    rw [ht] at h hwhole
    exact processLoadLibraryFile_reads hwhole h

/-! ## What a launch does -/

/-- A launch finds a signed file of its type. -/
structure Finds (y : Machine) (l : Launch) (path : CStr) (file : List Byte) (parsed : Parsed) :
    Prop where
  found : launchFile y.files l = .ok (path, file)
  parses : sofParse (bufferOf file l.around) file.length = .ok parsed
  type : parsed.header.fileType = l.target.fileType
  signed : parsed.hasSignature = true

instance (y : Machine) (l : Launch) (path : CStr) (file : List Byte) (parsed : Parsed) :
    Decidable (Finds y l path file parsed) :=
  decidable_of_iff (_ ∧ _ ∧ _ ∧ _)
    ⟨fun h => ⟨h.1, h.2.1, h.2.2.1, h.2.2.2⟩, fun h => ⟨h.found, h.parses, h.type, h.signed⟩⟩

/-- The cache knows the path and the size of the signed file a launch finds. -/
def LetThrough (y : Machine) (l : Launch) (path : CStr) (file : List Byte) (parsed : Parsed) :
    Prop :=
  Finds y l path file parsed ∧
    codesignCacheLookup y.cache path parsed.header.totalSize ≠ .empty

instance (y : Machine) (l : Launch) (path : CStr) (file : List Byte) (parsed : Parsed) :
    Decidable (LetThrough y l path file parsed) :=
  inferInstanceAs (Decidable (_ ∧ _))

/-- The cache holds a verdict under a path and a size. -/
def Remembers (cache : Cache) (state : CacheState) (path : CStr) (totalSize : BitVec 32) : Prop :=
  ∃ i, cache i = ⟨state, path, totalSize⟩

instance (cache : Cache) (state : CacheState) (path : CStr) (totalSize : BitVec 32) :
    Decidable (Remembers cache state path totalSize) :=
  inferInstanceAs (Decidable (∃ _, _ = _))

theorem remembers_of_lookup (hs : state ≠ .empty)
    (h : codesignCacheLookup cache path totalSize = state) :
    cache (codesignCacheHash path) = ⟨state, path, totalSize⟩ := by
  revert h
  fun_cases codesignCacheLookup cache path totalSize with
  | case4 entry _ hsize hpath =>
    rintro rfl
    show entry = ⟨entry.state, path, totalSize⟩
    rw [← not_not.mp hpath, ← not_not.mp hsize]
  | _ => exact fun h => absurd h.symm hs

/-- What a launch can do. -/
inductive Launches (crypto : Crypto) (y : Machine) (l : Launch) (outcome : Outcome) : Prop
  /-- nothing signed is found -/
  | unsigned (hno : ∀ path file parsed, ¬ Finds y l path file parsed)
      (hcache : outcome.cache = y.cache)
  /-- a verdict of the cache lets the file through -/
  | cached (path : CStr) (file : List Byte) (parsed : Parsed)
      (hlet : LetThrough y l path file parsed) (hcache : outcome.cache = y.cache)
      (hresult : outcome.result = .ok)
  /-- the signature is verified, and the verdict kept -/
  | verified (path : CStr) (file : List Byte) (parsed : Parsed) (state : CacheState)
      (hfinds : Finds y l path file parsed)
      (hlookup : codesignCacheLookup y.cache path parsed.header.totalSize = .empty)
      (hstate : state =
        if sofVerifySignature crypto (bufferOf file l.around) file.length parsed = .ok then .valid
        else .invalid)
      (hcache : outcome.cache
        = codesignCacheStore y.cache path parsed.header.totalSize state)
      (hresult : outcome.result = .ok)

theorem validateUnsigned_cache (bits : Bits) (context : Context) (cache : Cache)
    (displayPath : Option CStr) :
    (validateUnsigned bits context cache displayPath).cache = cache := by
  fun_cases validateUnsigned bits context cache displayPath <;> rfl

theorem Finds.unique (h : Finds y l path file parsed) (h' : Finds y l path' file' parsed') :
    path = path' ∧ file = file' ∧ parsed = parsed' := by
  obtain ⟨rfl, rfl⟩ := Prod.mk.inj (Except.ok.inj (h.found.symm.trans h'.found))
  exact ⟨rfl, rfl, Except.ok.inj (h.parses.symm.trans h'.parses)⟩

/-- A launch of a signed file is its validation. -/
theorem launch_finds (crypto : Crypto) (h : Finds y l path file parsed) :
    launch crypto y l = appValidateCodesign crypto l.bits l.context y.cache
      (bufferOf file l.around) file.length parsed (some path) := by
  rw [launch, h.found]
  dsimp only
  rw [h.parses]
  exact if_neg (not_not_intro h.type)

theorem launch_launches (crypto : Crypto) (y : Machine) (l : Launch) :
    Launches crypto y l (launch crypto y l) := by
  by_cases hfinds : ∃ path file parsed, Finds y l path file parsed
  · obtain ⟨path, file, parsed, hf⟩ := hfinds
    rw [launch_finds crypto hf, appValidateCodesign, hf.signed]
    cases hlookup : codesignCacheLookup y.cache path parsed.header.totalSize with
    | empty =>
      rw [Option.map_some, hlookup]
      show Launches crypto y l (validateSignature crypto l.context y.cache _ _ parsed (some path))
      unfold validateSignature
      dsimp only
      split
      case isTrue hok =>
        exact .verified path file parsed .valid hf hlookup (if_pos hok).symm rfl rfl
      case isFalse hok =>
        exact .verified path file parsed .invalid hf hlookup (if_neg hok).symm rfl rfl
    | _ =>
      rw [Option.map_some, hlookup]
      exact .cached path file parsed ⟨hf, by rw [hlookup]; decide⟩ rfl rfl
  · have hno : ∀ path file parsed, ¬ Finds y l path file parsed := fun path file parsed h =>
      hfinds ⟨path, file, parsed, h⟩
    refine .unsigned hno ?_
    rw [launch]
    cases hfile : launchFile y.files l with
    | error => rfl
    | ok found =>
      obtain ⟨path, file⟩ := found
      dsimp only
      cases hparsed : sofParse (bufferOf file l.around) file.length with
      | error => rfl
      | ok parsed =>
        dsimp only
        split
        · rfl
        case isFalse htype =>
          -- of the right type, it can only be an unsigned file
          have hsigned : parsed.hasSignature = false :=
            Bool.eq_false_iff.mpr fun hs =>
              hno path file parsed ⟨hfile, hparsed, not_not.mp htype, hs⟩
          rw [appValidateCodesign, hsigned]
          exact validateUnsigned_cache _ _ _ _

/-! ## The invariant -/

/-- The file verifies, whatever lies around its buffer. -/
def Verifies (crypto : Crypto) (file : List Byte) (parsed : Parsed) : Prop :=
  ∀ around, sofVerifySignature crypto (bufferOf file around) file.length parsed = .ok

/-- The file parses as a signed container. -/
def SignedAs (file : List Byte) (parsed : Parsed) : Prop :=
  sofParse (bufferOf file (fun _ => 0)) file.length = .ok parsed ∧ parsed.hasSignature

theorem agree_bufferOf (file : List Byte) (around around' : Memory) :
    Agree (bufferOf file around) (bufferOf file around') file.length := by
  intro _ hi
  rw [bufferOf, bufferOf, getD_eq_getElem?_getD, getD_eq_getElem?_getD, List.getElem?_eq_getElem hi]
  rfl

theorem Finds.signedAs (h : Finds y l path file parsed) : SignedAs file parsed :=
  ⟨(sofParse_congr (agree_bufferOf file _ _)).trans h.parses, h.signed⟩

theorem verifies_of_contained (hin : Contained parsed file.length)
    (h : sofVerifySignature crypto (bufferOf file around) file.length parsed = .ok) :
    Verifies crypto file parsed := fun around' =>
  (sofVerifySignature_congr (agree_bufferOf file around' around) crypto hin).trans h

/-- Entries stand where their path hashes to, and what a good verdict answers for verifies. -/
structure CacheOk (crypto : Crypto) (y : Machine) : Prop where
  placed : ∀ i, (y.cache i).state ≠ .empty → codesignCacheHash (y.cache i).path = i
  backed : ∀ path totalSize, Remembers y.cache .valid path totalSize →
    ∀ file parsed, y.files (fsPathOf path) = .ok file → SignedAs file parsed →
      parsed.header.totalSize = totalSize → Verifies crypto file parsed

theorem cacheOk_start (crypto : Crypto) (files : Files) : CacheOk crypto (start files) := by
  refine ⟨fun i hi => absurd rfl hi, fun path totalSize hrem => ?_⟩
  obtain ⟨_, hi⟩ := hrem
  cases hi

/-- A verdict on the file that stands at the path is kept. -/
theorem CacheOk.store (h : CacheOk crypto y) (hreads : Reads y.files path file)
    (hsigned : SignedAs file parsed) (hstate : state = .valid → Verifies crypto file parsed) :
    CacheOk crypto
      { y with cache := codesignCacheStore y.cache path parsed.header.totalSize state } := by
  have hpath : path.take (cachePathMax - 1) = path :=
    take_of_length_le (Nat.le_sub_one_of_lt hreads.1)
  have hcache : codesignCacheStore y.cache path parsed.header.totalSize state
      = update y.cache (codesignCacheHash path) ⟨state, path, parsed.header.totalSize⟩ := by
    rw [codesignCacheStore, hpath]
  rw [hcache]
  constructor
  · intro i
    show (update y.cache _ _ i).state ≠ _ → codesignCacheHash (update y.cache _ _ i).path = i
    by_cases hi : i = codesignCacheHash path
    · rw [hi, update_self]
      exact fun _ => rfl
    · rw [update_of_ne hi]
      exact h.placed i
  · rintro path' totalSize ⟨i, hi⟩ file' parsed' hfile' hsigned' hsize
    dsimp only at hi hfile'
    by_cases hslot : i = codesignCacheHash path
    · -- the new entry answers for the file it was made from
      rw [hslot, update_self] at hi
      obtain ⟨hs, hp, -⟩ := Entry.mk.inj hi
      rw [← hp] at hfile'
      obtain rfl := Except.ok.inj (hreads.2.symm.trans hfile')
      obtain rfl := Except.ok.inj (hsigned.1.symm.trans hsigned'.1)
      exact hstate hs
    · rw [update_of_ne hslot] at hi
      exact h.backed path' totalSize ⟨i, hi⟩ file' parsed' hfile' hsigned' hsize

/-! ## Runs -/

/-- A file of the new disk that a good verdict answers for is the old one or verifies; and the
    signed file a launch finds has no failed verdict and stands under its whole path, its ranges its
    own unless a good verdict answers for it. -/
def Sound (crypto : Crypto) (y : Machine) : Op → Prop
  | .replace files =>
    ∀ path file parsed, files (fsPathOf path) = .ok file → y.files (fsPathOf path) ≠ .ok file →
      SignedAs file parsed → Remembers y.cache .valid path parsed.header.totalSize →
      Verifies crypto file parsed
  | .launch l =>
    ∀ path file parsed, Finds y l path file parsed →
      ¬ Remembers y.cache .invalid path parsed.header.totalSize
        ∧ (¬ Remembers y.cache .valid path parsed.header.totalSize → Contained parsed file.length)
        ∧ l.target.Whole

/-- The entry a verdict was found in is the one the lookup reads. -/
theorem CacheOk.lookup (h : CacheOk crypto y) (hs : state ≠ .empty)
    (hrem : Remembers y.cache state path totalSize) :
    codesignCacheLookup y.cache path totalSize = state := by
  obtain ⟨i, hi⟩ := hrem
  have hslot : codesignCacheHash path = i := by
    have := h.placed i (by rw [hi]; exact hs)
    rwa [hi] at this
  rw [codesignCacheLookup, hslot, hi]
  rw [if_neg hs, if_neg (not_not_intro rfl), if_neg (not_not_intro rfl)]

theorem cacheOk_step (h : CacheOk crypto y) (hop : Sound crypto y op) :
    CacheOk crypto (step crypto y op) := by
  cases op with
  | replace files =>
    refine ⟨h.placed, fun path totalSize hrem file parsed hfile hsigned hsize => ?_⟩
    subst hsize
    -- an old file is answered for by the invariant, a new one by the condition
    by_cases hsame : y.files (fsPathOf path) = .ok file
    · exact h.backed path _ hrem file parsed hsame hsigned rfl
    · exact hop path file parsed hfile hsame hsigned hrem
  | launch l =>
    show CacheOk crypto { y with cache := (launch crypto y l).cache }
    cases launch_launches crypto y l with
    | unsigned _ hcache | cached _ _ _ _ hcache =>
      rw [hcache]
      exact h
    | verified path file parsed _ hfinds hlookup hstate hcache =>
      obtain ⟨-, hin, hwhole⟩ := hop path file parsed hfinds
      have hnone : ¬ Remembers y.cache .valid path parsed.header.totalSize := fun hrem =>
        CacheState.noConfusion (hlookup.symm.trans (h.lookup (by decide) hrem))
      rw [hcache]
      refine h.store (launchFile_reads hwhole hfinds.found) hfinds.signedAs (fun hvalid => ?_)
      rw [hvalid] at hstate
      by_cases hok : sofVerifySignature crypto (bufferOf file l.around) file.length parsed = .ok
      · exact verifies_of_contained (hin hnone) hok
      · rw [if_neg hok] at hstate
        cases hstate

/-- **THE CACHE AGREES WITH VERIFICATION**: after every run of sound steps, a sound launch that the
    cache lets through would pass `sof_verify_signature` on the bytes it launches. -/
theorem cached_verdict_agrees (crypto : Crypto) (files : Files) (ops : List Op)
    (hops : Along (step crypto) (Sound crypto) (start files) ops) (l : Launch)
    (hl : Sound crypto (run (step crypto) (start files) ops) (.launch l))
    (path : CStr) (file : List Byte) (parsed : Parsed)
    (hlet : LetThrough (run (step crypto) (start files) ops) l path file parsed) :
    sofVerifySignature crypto (bufferOf file l.around) file.length parsed = .ok := by
  have hok : CacheOk crypto (run (step crypto) (start files) ops) :=
    run_inv (I := CacheOk crypto) (fun _ _ h ha => cacheOk_step h ha) ops _
      (cacheOk_start crypto files) hops
  obtain ⟨hfinds, hcached⟩ := hlet
  obtain ⟨hfailed, -, hwhole⟩ := hl path file parsed hfinds
  obtain ⟨_, hfile⟩ := launchFile_reads hwhole hfinds.found
  cases hstate : codesignCacheLookup (run (step crypto) (start files) ops).cache path
      parsed.header.totalSize with
  | empty => exact absurd hstate hcached
  | invalid => exact absurd ⟨_, remembers_of_lookup (by decide) hstate⟩ hfailed
  | valid =>
    exact hok.backed path _ ⟨_, remembers_of_lookup (by decide) hstate⟩ file parsed hfile
      hfinds.signedAs rfl l.around

/-! ## A verdict that outlives its bytes -/

/-- A scheme in which a message signs itself, as far as the signature goes. -/
def echoCrypto : Crypto where
  sha512Hash := fun bytes => bytes
  ed25519Verify := fun signature message _ =>
    signature.take message.length == message.take signature.length
  publicKeyHash := fun key => key
  rootPublicKey := List.replicate 32 0

/-- An application of one byte, with a signature for another. -/
def signedFile (payload signedFor : Byte) : List Byte :=
  sofMagic ++ [1, 1, 0, 0, 233, 0, 0, 0, 36, 0, 0, 0, 0, 0, 0, 0, 36, 0, 0, 0, 1, 0, 0, 0,
      37, 0, 0, 0, 196, 0, 0, 0]
    ++ [payload] ++ certMagic ++ List.replicate 64 0 ++ certMagic ++ List.replicate 60 0
    ++ signedFor :: List.replicate 63 0

/-- What `sof_parse` makes of each of them. -/
def signedParsed : Parsed where
  header := ⟨.bin, 0, 233, 36, 0, 0, 36, 1, 37, 196⟩
  entries := []
  payload := 36
  payloadSize := 1
  hasSignature := true

theorem contained_signedFile (payload signedFor : Byte) :
    Contained signedParsed (signedFile payload signedFor).length := by
  have hlen : (signedFile payload signedFor).length = 233 := by
    simp only [signedFile, sofMagic, certMagic, length_append, length_cons,
      length_nil, length_replicate]
  rw [hlen]
  exact ⟨by decide, by decide⟩

/-- The disk that holds one file. -/
def diskWith (file : List Byte) : Files := fun path =>
  if path = ['a', '.', 'b', 'i', 'n'] then .ok file else .error .notFound

/-- The path its launch shows. -/
def shownPath : CStr := ['/', 'a', '.', 'b', 'i', 'n']

/-- A subject without capabilities launches it. -/
def launchIt : Launch where
  target := .run ['/', 'a']
  bits := capTableReset
  context := ⟨0, true, none, none, none, none⟩
  around := fun _ => 0

/-- The file is put on the disk and launched. -/
def putAndLaunch (file : List Byte) : List Op := [.replace (diskWith file), .launch launchIt]

theorem sound_putAndLaunch : Along (step echoCrypto) (Sound echoCrypto) (start (diskWith []))
      (putAndLaunch (signedFile 1 1)) := by
  refine ⟨?_, ?_, trivial⟩
  · rintro _ _ _ - - - ⟨_, hi⟩
    cases hi
  · intro _ _ _ hfinds
    have hit : Finds (step echoCrypto (start (diskWith [])) (.replace (diskWith (signedFile 1 1))))
        launchIt shownPath (signedFile 1 1) signedParsed := by decide +kernel
    obtain ⟨rfl, rfl, rfl⟩ := hfinds.unique hit
    refine ⟨?_, fun _ => contained_signedFile 1 1, trivial⟩
    rintro ⟨_, hi⟩
    cases hi

theorem sound_launchIt :
    Sound echoCrypto (run (step echoCrypto) (start (diskWith [])) (putAndLaunch (signedFile 1 1)))
      (.launch launchIt) := by
  intro _ _ _ hfinds
  have hit : Finds (run (step echoCrypto) (start (diskWith [])) (putAndLaunch (signedFile 1 1)))
      launchIt shownPath (signedFile 1 1) signedParsed := by decide +kernel
  obtain ⟨rfl, rfl, rfl⟩ := hfinds.unique hit
  exact ⟨by decide +kernel, fun _ => contained_signedFile 1 1, trivial⟩

theorem cached_verdict_agrees_unchanged :
    sofVerifySignature echoCrypto (bufferOf (signedFile 1 1) launchIt.around)
      (signedFile 1 1).length signedParsed = .ok :=
  cached_verdict_agrees echoCrypto (diskWith []) (putAndLaunch (signedFile 1 1))
    sound_putAndLaunch launchIt sound_launchIt shownPath (signedFile 1 1) signedParsed
    (by decide +kernel)

/-- Launched, changed in its payload alone and launched again, the file is let through without a
    word; and a file that failed is let through the second time too. -/
theorem cached_verdict_stale :
    let stale := run (step echoCrypto) (start (diskWith []))
      (putAndLaunch (signedFile 1 1) ++ [.replace (diskWith (signedFile 2 1))])
    let failed := run (step echoCrypto) (start (diskWith [])) (putAndLaunch (signedFile 2 1))
    LetThrough stale launchIt shownPath (signedFile 2 1) signedParsed
      ∧ (launch echoCrypto stale launchIt).result = .ok
      ∧ (launch echoCrypto stale launchIt).output = []
      ∧ LetThrough failed launchIt shownPath (signedFile 2 1) signedParsed
      ∧ (launch echoCrypto failed launchIt).result = .ok
      ∧ sofVerifySignature echoCrypto (bufferOf (signedFile 2 1) launchIt.around)
          (signedFile 2 1).length signedParsed = .signatureInvalid := by
  decide +kernel

end Codesign
