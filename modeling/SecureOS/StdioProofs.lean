import SecureOS.StdioModel
import SecureOS.PosixFdProofs

/-! # What a closed stream has written

A session is the life of one stream from `fopen` or `fdopen` to `fclose`.  `Kept` says
where the bytes the stream took are: in the file, or still in the buffer.  A call takes
what it reports, unless the length wrapped, `Fits`; and the first flush is what empties
a file opened for writing, so a session that takes nothing leaves the old content. -/

namespace Stdio

open Capability (CStr)
open Sof (Byte)
open ByteStore (load load_length)
open PosixFd (Disk Refusal osFsWriteFileBytes)
open MachineRun List

/-- The bytes of a file; one that is missing has none. -/
def content (disk : Disk) (path : CStr) : List Byte := (disk path).getD []

variable {old : List Byte} {t : Session} {f : Stream}

/-- What is in front of the bytes of the session. -/
def base (f : Stream) (old : List Byte) : List Byte := if f.kind = .fileA then old else []

/-- The next flush replaces the file. -/
def Stream.Replaces (f : Stream) : Prop := f.kind = .fileW ∧ f.flushedOnce = false

/-- Where the bytes a stream took are. -/
structure Kept (old acc : List Byte) (path : CStr) (disk : Disk) (f : Stream) : Prop where
  same : f.path = path
  out : f.kind ≠ .fileR
  room : f.buf.length ≤ fileBufCap
  before : f.Replaces → content disk path = old ∧ acc = f.buf
  after : ¬ f.Replaces → ∃ xs, content disk path = base f old ++ xs ∧ acc = xs ++ f.buf
    ∧ (f.kind = .fileW → xs ≠ [])

theorem fflush_stores (h : ¬ (f.kind = .fileR ∨ f.buf.length = 0)) : fflush disk none f
      = (Function.update disk f.path (some ((if f.kind = .fileA ∨ f.flushedOnce
          then content disk f.path else []) ++ f.buf)),
        { f with flushedOnce := true, buf := [] }, true) := by
  simp only [fflush, if_neg h, osFsWriteFileBytes, decide_eq_true_eq]
  rfl

/-- `fflush` moves the buffer behind the file, or leaves both. -/
theorem Kept.flush (h : Kept old acc path disk f) (refusal : Option Refusal) :
    let r := fflush disk refusal f
    Kept old acc path r.1 r.2.1 ∧ (r.2.2 → r.2.1.buf = []) ∧ r.2.1.ownedFd = f.ownedFd
      ∧ r.2.1.kind = f.kind := by
  by_cases hempty : f.kind = .fileR ∨ f.buf.length = 0
  · rw [fflush, if_pos hempty]
    exact ⟨h, fun _ => eq_nil_of_length_eq_zero (hempty.resolve_left h.out), rfl, rfl⟩
  have hbuf : f.buf ≠ [] := fun hnil => hempty (.inr (congrArg List.length hnil))
  cases refusal with
  | some r =>
    rw [fflush, if_neg hempty]
    cases r <;> exact ⟨⟨h.same, h.out, h.room, h.before, h.after⟩, nofun, rfl, rfl⟩
  | none =>
    rw [fflush_stores hempty]
    refine ⟨⟨h.same, h.out, Nat.zero_le _, fun hr => absurd hr.2 Bool.noConfusion, fun _ => ?_⟩,
      fun _ => rfl, rfl, rfl⟩
    -- the file is what it was, or nothing, with the buffer behind it
    simp only [content, h.same, Function.update_self, Option.getD_some]
    by_cases hrep : f.Replaces
    · obtain ⟨-, rfl⟩ := h.before hrep
      refine ⟨f.buf, ?_, (append_nil _).symm, fun _ => hbuf⟩
      simp [base, hrep.1, hrep.2]
    · obtain ⟨xs, hcontent, rfl, -⟩ := h.after hrep
      have happend : f.kind = .fileA ∨ f.flushedOnce := by
        unfold Stream.Replaces at hrep
        cases hkind : f.kind <;> simp_all
      refine ⟨xs ++ f.buf, ?_, (append_nil _).symm, by simp [hbuf]⟩
      rw [if_pos happend, ← content, hcontent, append_assoc]
      rfl

/-- The buffer gets more bytes. -/
theorem Kept.more (h : Kept old acc path disk f) (hroom : f.buf.length + xs.length ≤ fileBufCap) :
    Kept old (acc ++ xs) path disk { f with buf := f.buf ++ xs, errFlag := e } := by
  refine ⟨h.same, h.out, by rw [length_append]; exact hroom, fun hr => ?_, fun hr => ?_⟩
  · obtain ⟨hc, rfl⟩ := h.before hr
    exact ⟨hc, rfl⟩
  · obtain ⟨ys, hc, rfl, hne⟩ := h.after hr
    exact ⟨ys, hc, append_assoc .., hne⟩

/-- The length of a write, wrapped or not, is on one side of the buffer's end. -/
def Fits (t : Session) : Call → Prop
  | .write _ (some _) size nmemb =>
    t.stream.buf.length + size.toNat * nmemb.toNat ≤ fileBufCap
      ∨ fileBufCap < (t.stream.buf.length + size.toNat * nmemb.toNat) % 2 ^ 64
  | _ => True

/-- There is an element to write and room for it. -/
def Accepts (t : Session) : Call → Prop
  | .write _ (some _) size nmemb =>
    0 < size.toNat ∧ 0 < nmemb.toNat ∧ t.stream.buf.length + size.toNat ≤ fileBufCap
  | _ => False

/-- A call that reports everything or nothing reports everything. -/
def Succeeds (t : Session) : Call → Prop
  | .write true buf size nmemb => (fwrite t.stream buf size nmemb).units = nmemb.toNat
  | _ => True

/-- What `fwrite` takes against what it reports. -/
theorem fwrite_takes (hkind : f.kind ≠ .fileR) (hroom : f.buf.length ≤ fileBufCap)
    (data : Nat → Byte) (size nmemb : BitVec 64) :
    let p := f.buf.length + size.toNat * nmemb.toNat
    let w := fwrite f (some data) size nmemb
    ((p ≤ fileBufCap ∨ fileBufCap < p % 2 ^ 64) ∧ w.smashed = false
        ∧ (w.units = 0 ↔ ¬ (0 < size.toNat ∧ 0 < nmemb.toNat
          ∧ f.buf.length + size.toNat ≤ fileBufCap))
        ∧ f.buf.length + w.units * size.toNat ≤ fileBufCap
        ∧ ∃ e, w.stream
          = { f with buf := f.buf ++ load data 0 (w.units * size.toNat), errFlag := e })
      ∨ (¬ (p ≤ fileBufCap ∨ fileBufCap < p % 2 ^ 64)
        ∧ (w.smashed = true ∨ (w.smashed = false ∧ 2 ^ 64 ≤ w.units * size.toNat
          ∧ ∃ n e, n < w.units * size.toNat ∧ f.buf.length + n ≤ fileBufCap
            ∧ w.stream = { f with buf := f.buf ++ load data 0 n, errFlag := e }))) := by
  intro p w
  have hp : (BitVec.ofNat 64 f.buf.length + size * nmemb).toNat = p % 2 ^ 64 := by
    simp [p, BitVec.toNat_add, BitVec.toNat_mul, Nat.add_mod]
  have hwant : (size * nmemb).toNat = size.toNat * nmemb.toNat % 2 ^ 64 := BitVec.toNat_mul ..
  have hcomm := Nat.mul_comm size.toNat nmemb.toNat
  unfold fileBufCap at *
  by_cases hzero : size = 0 ∨ nmemb = 0
  · -- nothing to write
    have hw0 : w = ⟨f, 0, false⟩ := if_pos hzero
    have hprod : size.toNat * nmemb.toNat = 0 := by rcases hzero with rfl | rfl <;> simp
    have hnot : ¬ (0 < size.toNat ∧ 0 < nmemb.toNat ∧ f.buf.length + size.toNat ≤ 8192) := by
      rcases hzero with rfl | rfl <;> simp
    rw [hw0]
    exact .inl ⟨.inl (by omega), rfl, iff_of_true rfl hnot, by simpa using hroom, f.errFlag,
      by simp [load]⟩
  obtain ⟨_, hn⟩ : 0 < size.toNat ∧ 0 < nmemb.toNat := by
    simp only [not_or, ← BitVec.toNat_inj] at hzero
    exact ⟨Nat.pos_of_ne_zero hzero.1, Nat.pos_of_ne_zero hzero.2⟩
  simp only [w, fwrite, if_neg hzero, if_neg hkind, hp, hwant, fileBufCap]
  by_cases hlong : 8192 < p % 2 ^ 64
  · -- as many elements as there is room for
    have hle := Nat.div_mul_le_self (8192 - f.buf.length) size.toNat
    rw [if_pos hlong]
    refine .inl ⟨.inr hlong, rfl, ?_, by dsimp only; omega, true, rfl⟩
    rw [Nat.div_eq_zero_iff]
    omega
  rw [if_neg hlong]
  by_cases hbehind : 8192 < f.buf.length + size.toNat * nmemb.toNat % 2 ^ 64
  · rw [if_pos hbehind]
    exact .inr ⟨by omega, .inl rfl⟩
  rw [if_neg hbehind]
  by_cases hwrap : size.toNat * nmemb.toNat < 2 ^ 64
  · rw [Nat.mod_eq_of_lt hwrap] at hbehind ⊢
    exact .inl ⟨.inl (by omega), rfl, iff_of_false (by dsimp only; omega) (by
      have := Nat.le_mul_of_pos_right size.toNat hn
      omega), by dsimp only; omega, f.errFlag, by simp only [hcomm]⟩
  · exact .inr ⟨by omega, .inr ⟨rfl, by dsimp only; omega, _, f.errFlag, by dsimp only; omega,
      by omega, rfl⟩⟩

/-- What was taken is what was reported, and is nothing when the calls were idle; or a
    length wrapped and more was reported than there is memory. -/
def Took (fits idle : Prop) (more rep : List Byte) : Prop :=
  (fits ∧ more = rep ∧ (more = [] ↔ idle))
    ∨ (¬ fits ∧ more.length < rep.length ∧ 2 ^ 64 ≤ rep.length)

theorem Took.append (h : Took fits idle more rep) (h' : Took fits' idle' more' rep') :
    Took (fits ∧ fits') (idle ∧ idle') (more ++ more') (rep ++ rep') := by
  rcases h with ⟨hfits, rfl, hidle⟩ | ⟨hfits, _, _⟩ <;>
    rcases h' with ⟨hfits', rfl, hidle'⟩ | ⟨hfits', _, _⟩
  · exact .inl ⟨⟨hfits, hfits'⟩, rfl, by rw [append_eq_nil_iff, hidle, hidle']⟩
  all_goals
    simp only [Took, hfits, hfits', length_append, false_and, and_false, not_false_eq_true,
      true_and, false_or]
    omega

/-- From a session to a later one the stream took and reported bytes, or ran behind its buffer. -/
structure Did (path : CStr) (old : List Byte) (t t' : Session) (fits idle : Prop) : Prop where
  stays : t.smashed = true → t'.smashed = true
  does : ∀ acc, t.smashed = false → Kept old acc path t.disk t.stream →
    (t'.smashed = true ∧ ¬ fits) ∨ (t'.smashed = false ∧ t'.stream.kind = t.stream.kind
      ∧ t'.stream.ownedFd = t.stream.ownedFd ∧ ∃ more rep,
        Kept old (acc ++ more) path t'.disk t'.stream ∧ t'.reported = t.reported ++ rep
        ∧ Took fits idle more rep)

variable {path : CStr}

theorem Did.refl (t : Session) : Did path old t t True True :=
  ⟨id, fun acc hsmashed hkept => .inr ⟨hsmashed, rfl, rfl, [], [], by rwa [append_nil],
    (append_nil _).symm, .inl ⟨trivial, rfl, iff_of_true rfl trivial⟩⟩⟩

theorem Did.trans (h : Did path old t t' fits idle) (h' : Did path old t' t'' fits' idle') :
    Did path old t t'' (fits ∧ fits') (idle ∧ idle') := by
  refine ⟨fun hs => h'.stays (h.stays hs), fun acc hsmashed hkept => ?_⟩
  rcases h.does acc hsmashed hkept with
    ⟨hs, hfits⟩ | ⟨hs, hkind, hfd, more, rep, hkept, hrep, htook⟩
  · exact .inl ⟨h'.stays hs, fun hall => hfits hall.1⟩
  rcases h'.does _ hs hkept with ⟨hs, hfits⟩ | ⟨hs, hkind', hfd', more', rep', _, hrep', htook'⟩
  · exact .inl ⟨hs, fun hall => hfits hall.2⟩
  · exact .inr ⟨hs, hkind'.trans hkind, hfd'.trans hfd, more ++ more', rep ++ rep',
      by rwa [← append_assoc], by rw [hrep', hrep, append_assoc], htook.append htook'⟩

/-- A call that succeeds reports as many elements as `fwrite` says. -/
theorem reportedBytes_of_succeeds (h : Succeeds t (.write whole buf size nmemb)) :
    reportedBytes whole buf size nmemb (fwrite t.stream buf size nmemb).units
      = load (buf.getD fun _ => 0) 0 ((fwrite t.stream buf size nmemb).units * size.toNat) := by
  refine if_neg fun hnot => ?_
  obtain ⟨rfl, hne⟩ := hnot
  exact hne h

theorem step_did (c : Call) (h : Succeeds t c) :
    Did path old t (step t c) (Fits t c) (¬ Accepts t c) := by
  cases c with
  | flush refusal =>
    refine ⟨id, fun acc hsmashed hkept => .inr ⟨hsmashed, ?_⟩⟩
    obtain ⟨hkept, -, hfd, hkind⟩ := hkept.flush refusal
    exact ⟨hkind, hfd, [], [], by rwa [append_nil], (append_nil _).symm,
      .inl ⟨trivial, rfl, iff_of_true rfl id⟩⟩
  | write whole buf size nmemb =>
    refine ⟨fun hs => by simp [step, hs], fun acc hsmashed hkept => ?_⟩
    have hbytes := reportedBytes_of_succeeds h
    cases buf with
    | none =>
      have hnil : reportedBytes whole none size nmemb 0 = [] := by simpa [fwrite, load] using hbytes
      exact .inr ⟨by simp [step, fwrite, hsmashed], rfl, rfl, [], [],
        by rwa [append_nil], by simp [step, fwrite, hnil],
        .inl ⟨trivial, rfl, iff_of_true rfl id⟩⟩
    | some data =>
      have htakes := fwrite_takes hkept.out hkept.room data size nmemb
      simp only [step, hbytes, hsmashed]
      rcases htakes with ⟨hfits, hs, hidle, _, _, hstream⟩ | ⟨hfits, hs | ⟨hs, _, n, _,
        _, _, hstream⟩⟩
      · refine .inr ⟨hs, by rw [hstream], by rw [hstream], _, _, ?_, rfl, .inl ⟨hfits, rfl, ?_⟩⟩
        · rw [hstream]
          exact hkept.more (by rwa [load_length])
        · rw [← length_eq_zero_iff, load_length, Nat.mul_eq_zero, hidle]
          exact ⟨fun h => h.elim id fun hzero ha => ha.1.ne' hzero, .inl⟩
      · exact .inl ⟨hs, hfits⟩
      · refine .inr ⟨hs, by rw [hstream], by rw [hstream], load data 0 n, _, ?_, rfl,
          .inr ⟨hfits, ?_, ?_⟩⟩
        · rw [hstream]
          exact hkept.more (by rwa [load_length])
        · rwa [load_length, load_length]
        · rwa [load_length]

theorem run_did (calls : List Call) : ∀ t, Along step Succeeds t calls →
    Did path old t (run step t calls) (Along step Fits t calls)
      (Along step (fun t c => ¬ Accepts t c) t calls) := by
  induction calls with
  | nil => exact fun t _ => .refl t
  | cons c _ ih => exact fun t h => (step_did c h.1).trans (ih _ h.2)

/-- A stream that was just put into the pool; an adopted descriptor stores nothing. -/
structure Opened (s s' : State) (f : Stream) : Prop where
  disk : s'.fds.disk = s.fds.disk
  empty : f.buf = []
  first : f.kind = .fileW → f.flushedOnce = false
  clean : ∀ fd k, f.ownedFd = some fd → PosixFd.fdSlotFromPublic s'.fds fd = some k →
    (s'.fds.slots k).dirty = false

variable {s : State}

theorem openStream_some (h : openStream s refusal path f = (s', some i))
    (hg : s'.pool i = some g) (hkind : g.kind ≠ .fileR) : g = f ∧ s'.fds = s.fds := by
  revert h
  fun_cases openStream s refusal path f <;> intro h <;>
    simp only [Prod.mk.injEq, reduceCtorEq, and_false, Option.some.injEq] at h
  all_goals
    obtain ⟨rfl, rfl⟩ := h
    simp only [Function.update_self, Option.some.injEq] at hg
    subst hg
  · contradiction
  · exact ⟨rfl, rfl⟩

theorem fopen_opened (h : fopen s refusal path mode = (s', some i))
    (hf : s'.pool i = some f) (hkind : f.kind ≠ .fileR) : Opened s s' f := by
  unfold fopen at h
  cases hmode : parseMode mode with
  | none => simp [hmode] at h
  | some =>
    rw [hmode] at h
    obtain ⟨rfl, hfds⟩ := openStream_some h hf hkind
    exact ⟨congrArg _ hfds, rfl, fun _ => rfl, nofun⟩

theorem fdopen_opened (h : fdopen s refusal fd mode = (s', some i))
    (hf : s'.pool i = some f) (hkind : f.kind ≠ .fileR) : Opened s s' f := by
  revert h
  fun_cases fdopen s refusal fd mode with
  | case2 _ _ _ _ _ _ _ hopen =>
    rintro ⟨⟩
    exact absurd (congrArg Stream.kind (openStream_some hopen hf hkind).1) hkind
  | case3 _ k hslot _ _ _ _ _ hopen =>
    rintro ⟨⟩
    obtain ⟨rfl, hfds⟩ := openStream_some hopen hf hkind
    refine ⟨by rw [← hfds]; rfl, rfl, fun hw => ?_, fun fd' k' hfd hk => ?_⟩
    · exact decide_eq_false fun ha => Kind.noConfusion (ha.symm.trans hw)
    · -- the descriptor stands for the slot that was forgotten
      obtain rfl : fd = fd' := Option.some.inj hfd
      obtain ⟨hk, -⟩ := Option.filter_eq_some_iff.mp hk
      obtain rfl : k = k' := Option.some.inj ((Option.filter_eq_some_iff.mp hslot).1.symm.trans hk)
      simp [posixFdForget, PosixFd.State.setSlot]
  | _ => rintro ⟨⟩

/-- Closing a descriptor whose snapshot is clean stores nothing. -/
theorem posixClose_disk (refusal : Option Refusal)
    (hclean : ∀ k, PosixFd.fdSlotFromPublic fds fd = some k → (fds.slots k).dirty = false) :
    (PosixFd.posixClose fds refusal fd).1.disk = fds.disk := by
  unfold PosixFd.posixClose PosixFd.onSlot
  split
  · rfl
  split
  · rfl
  · next k hk => simp [PosixFd.closeSlot, PosixFd.flushSnapshot, hclean k hk]

/-- A successful close has stored what the stream took. -/
theorem fclose_kept (h : Kept old acc path s.fds.disk f)
    (hclean : ∀ fd k, f.ownedFd = some fd → PosixFd.fdSlotFromPublic s.fds fd = some k →
      (s.fds.slots k).dirty = false) (hok : (fclose s refusal refusal' i f).2) :
    (f.kind = .fileW ∧ acc = [] ∧ content (fclose s refusal refusal' i f).1.fds.disk path = old)
      ∨ ((f.kind = .fileW → acc ≠ [])
        ∧ content (fclose s refusal refusal' i f).1.fds.disk path = base f old ++ acc) := by
  obtain ⟨hkept, hbuf, hfd, hkind⟩ := h.flush refusal
  obtain ⟨hflush, hdisk⟩ : (fflush s.fds.disk refusal f).2.2
      ∧ (fclose s refusal refusal' i f).1.fds.disk = (fflush s.fds.disk refusal f).1 := by
    unfold fclose at hok ⊢
    dsimp only at hok ⊢
    rw [hfd] at hok ⊢
    cases howned : f.ownedFd with
    | none => exact ⟨by rwa [howned] at hok, rfl⟩
    | some fd =>
      simp only [howned, Bool.and_eq_true] at hok ⊢
      exact ⟨hok.1, posixClose_disk refusal' fun k hk => hclean fd k howned hk⟩
  rw [hdisk]
  have hempty := hbuf hflush
  have hbase : base (fflush s.fds.disk refusal f).2.1 old = base f old := by rw [base, hkind, base]
  by_cases hrep : (fflush s.fds.disk refusal f).2.1.Replaces
  · obtain ⟨hcontent, rfl⟩ := hkept.before hrep
    exact .inl ⟨hkind ▸ hrep.1, hempty, hcontent⟩
  · obtain ⟨_, hcontent, rfl, hne⟩ := hkept.after hrep
    rw [hempty, append_nil, ← hbase]
    exact .inr ⟨fun hw => hne (hkind.trans hw), hcontent⟩

/-- The session of a stream that was just opened. -/
def start (s : State) (f : Stream) : Session := ⟨s.fds.disk, f, [], false⟩

/-- The close at the end of a session. -/
def finish (s : State) (t : Session) (refusal refusal' : Option Refusal) (i : Fin 8) :
    State × Bool :=
  fclose { s with fds := { s.fds with disk := t.disk } } refusal refusal' i t.stream

theorem Opened.kept (h : Opened s s' f) (hkind : f.kind ≠ .fileR) :
    Kept (content s.fds.disk f.path) [] f.path s'.fds.disk f := by
  refine ⟨rfl, hkind, by simp [h.empty], fun _ => ⟨by rw [h.disk], h.empty.symm⟩, fun hr => ?_⟩
  have hw : f.kind ≠ .fileW := fun hw => hr ⟨hw, h.first hw⟩
  refine ⟨[], ?_, h.empty.symm, fun hw' => absurd hw' hw⟩
  rw [base, if_pos (by cases hk : f.kind <;> simp_all), h.disk, append_nil]

/-- **A closed stream has written what its calls reported**, exactly when no length wrapped and a
    stream that replaces the file found it empty or had something to write and room for it. -/
theorem stream_content_iff (s s' : State) (f : Stream) (i : Fin 8) (calls : List Call)
    (refusal₀ refusal refusal' : Option Refusal)
    (hopen : (∃ path mode, fopen s refusal₀ path mode = (s', some i))
      ∨ ∃ fd mode, fdopen s refusal₀ fd mode = (s', some i))
    (hf : s'.pool i = some f) (hkind : f.kind ≠ .fileR)
    (hold : (content s.fds.disk f.path).length < 2 ^ 64)
    (hcalls : Along step Succeeds (start s' f) calls)
    (hclose : (finish s' (run step (start s' f) calls) refusal refusal' i).2 = true) :
    ((run step (start s' f) calls).smashed = false
      ∧ content (finish s' (run step (start s' f) calls) refusal refusal' i).1.fds.disk f.path
        = (if f.kind = .fileA then content s.fds.disk f.path else [])
          ++ (run step (start s' f) calls).reported) ↔ Along step Fits (start s' f) calls
      ∧ (f.kind = .fileW → content s.fds.disk f.path = []
        ∨ ¬ Along step (fun t c => ¬ Accepts t c) (start s' f) calls) := by
  have hopened : Opened s s' f := by
    obtain ⟨_, _, hopen⟩ | ⟨fd, _, hopen⟩ := hopen
    · exact fopen_opened hopen hf hkind
    · exact fdopen_opened hopen hf hkind
  have hdid : Did f.path (content s.fds.disk f.path) _ _ _ _ := run_did calls _ hcalls
  obtain ⟨hs, hfits⟩ | ⟨hs, hkind', hfd, _, rep, hkept, hrep, htook⟩ :=
    hdid.does [] rfl (hopened.kept hkind)
  · simp [hs, hfits]
  set t := run step (start s' f) calls with ht
  have hend := fclose_kept (s := { s' with fds := { s'.fds with disk := t.disk } }) hkept
    (fun fd k h => hopened.clean fd k (hfd ▸ h)) hclose
  rw [nil_append, show base t.stream _ = base f _ by rw [base, hkind', start, base]] at hend
  have hreported : t.reported = rep := hrep
  simp only [hs, true_and, hreported, ← base.eq_def]
  change (content (fclose _ _ _ _ _).1.fds.disk _ = _) ↔ _
  rcases hend with ⟨hw, rfl, hcontent⟩ | ⟨hne, hcontent⟩
  · -- nothing was flushed: the file is the old one
    have hw : f.kind = .fileW := hkind'.symm.trans hw
    rw [hcontent, base, if_neg (by rw [hw]; exact Kind.noConfusion), nil_append]
    rcases htook with ⟨hfits, rfl, hidle⟩ | ⟨hfits, -, _⟩
    · simp [hfits, hw, hidle.mp rfl]
    · refine iff_of_false (fun heq => ?_) (fun h => hfits h.1)
      rw [heq] at hold
      omega
  · rw [hcontent, append_cancel_left_eq]
    rcases htook with ⟨hfits, rfl, hidle⟩ | ⟨hfits, hlt, -⟩
    · exact iff_of_true rfl ⟨hfits, fun hw => .inr fun h => hne (hkind'.trans hw) (hidle.mpr h)⟩
    · exact iff_of_false (fun heq => by rw [heq] at hlt; omega) (fun h => hfits h.1)

/-- Nothing open, and a file "f" with the given content. -/
def blank (bytes : List Byte) : State :=
  ⟨fun _ => none, PosixFd.start fun p => if p = ['f'] then some bytes else none⟩

theorem stream_content_iff_putc : content (finish (fopen (blank [1]) none ['f'] ['w']).1
        (run step (start (fopen (blank [1]) none ['f'] ['w']).1 (fresh ['f'] .fileW))
          [fputc 7, .flush none, fputc 8]) none none 0).1.fds.disk ['f'] = [7, 8] := by
  refine ((stream_content_iff (blank [1]) _ (fresh ['f'] .fileW) 0
    [fputc 7, .flush none, fputc 8] none none none (.inl ⟨['f'], ['w'], rfl⟩) rfl Kind.noConfusion
    (by decide) ⟨rfl, trivial, rfl, trivial⟩ rfl).mpr ⟨?_, fun _ => .inr ?_⟩).2
  · exact ⟨.inl (by decide), trivial, .inl (by decide), trivial⟩
  · exact fun h => h.1 (by unfold fputc Accepts; decide)

/-- A stream opened to replace a file and closed leaves the content; two elements of 2^63 bytes
    are reported. -/
theorem empty_session_keeps_content : (finish (fopen (blank [1]) none ['f'] ['w']).1
        (start (fopen (blank [1]) none ['f'] ['w']).1 (fresh ['f'] .fileW)) none none 0).2 = true
      ∧ content (finish (fopen (blank [1]) none ['f'] ['w']).1
        (start (fopen (blank [1]) none ['f'] ['w']).1 (fresh ['f'] .fileW)) none none 0).1.fds.disk
        ['f'] = [1]
      ∧ (fwrite (fresh ['f'] .fileW) (some fun _ => 0) (BitVec.ofNat 64 (2 ^ 63)) 2).units = 2
      ∧ (fwrite (fresh ['f'] .fileW) (some fun _ => 0) (BitVec.ofNat 64 (2 ^ 63)) 2).stream.buf
        = [] := by
  refine ⟨rfl, rfl, ?_, ?_⟩ <;> decide

end Stdio
