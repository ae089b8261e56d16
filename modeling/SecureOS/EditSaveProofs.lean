import SecureOS.EditModel
import SecureOS.Lib.MachineRunProofs
import Mathlib.Data.List.InsertIdx
import Mathlib.Data.List.TakeWhile

/-! # What the editor saves

The purpose of the editor, said of its trace alone: the last `o` that succeeded names a
document, the commands `a`, `c` and `d` edit its lines, and a save writes those lines to that
name (`document`, `Justified`).  The events of the trace are what the entered lines asked for
and what the reads answered (`Did.records`).

The globals agree with the document as long as a file is open (`Kept`), unless an `o` takes the
name and then fails, cuts the name, or reads a file with a zero byte in it; those are the inputs
`OpensSafely` excludes. -/

namespace Edit

open Capability MachineRun List

/-! ## Documents -/

/-- The pieces between newlines, without an empty last one. -/
def dropPhantom (parts : List CStr) : List CStr :=
  if parts.getLast? = some [] then parts.dropLast else parts

/-- The lines of a file: a newline ends a line, and the last one needs none. -/
def linesOf (content : CStr) : List CStr := dropPhantom (content.splitOn '\n')

/-- Lines as a file, each with its newline. -/
def joinLines (lines : List CStr) : CStr := (lines.map (· ++ ['\n'])).flatten

/-- A file being edited. -/
structure Document where
  name : CStr
  lines : List CStr
deriving DecidableEq, Repr

/-- What an event does to the document. -/
def Document.next (doc : Option Document) : Event → Option Document
  | .opened name content => some ⟨name, linesOf content⟩
  | .appended line => doc.map (fun d => { d with lines := d.lines ++ [line] })
  | .changed n line => doc.map (fun d => { d with lines := d.lines.set (n - 1) line })
  | .deleted n => doc.map (fun d => { d with lines := d.lines.eraseIdx (n - 1) })
  | .log _ | .refused _ | .wrote .. | .exited _ => doc

/-- The document after some events: the file of the last `o` that succeeded, as edited since. -/
def document (es : List Event) : Option Document := es.foldl Document.next none

@[simp] theorem document_snoc (es : List Event) (ev : Event) :
    document (es ++ [ev]) = Document.next (document es) ev := by
  rw [document, foldl_append, document, foldl_cons, foldl_nil]

/-- An event saves nothing but the document that the events before it leave. -/
def SavesDocument (es : List Event) : Event → Prop
  | .wrote path content _ => ∃ lines, document es = some ⟨path, lines⟩ ∧ content = joinLines lines
  | _ => True

/-- Every save in a trace is of the document at that time. -/
def Justified (es : List Event) : Prop := Along (fun pre ev => pre ++ [ev]) SavesDocument [] es

theorem run_snoc (pre es : List Event) : run (fun pre ev => pre ++ [ev]) pre es = pre ++ es := by
  induction es generalizing pre with
  | nil => simp
  | cons _ _ ih => rw [run_cons, ih, append_assoc, singleton_append]

theorem justified_snoc : Justified (es ++ [ev]) ↔ Justified es ∧ SavesDocument es ev := by
  rw [Justified, along_append, run_snoc]
  exact and_congr_right (fun _ => and_iff_left trivial)

/-! ## The buffer against the file -/

/-- The texts of the lines in the buffer. -/
def texts (lines : List Line) : List CStr := lines.map Subtype.val

theorem cstr_eq_self (h : nul ∉ s) : cstr s = s := by
  refine takeWhile_eq_self_iff.mpr (fun c hc => ?_)
  exact decide_eq_true (fun heq => h (heq ▸ hc))

theorem editStrCopy_eq_self (h : nul ∉ s) (hlen : s.length < cap) : editStrCopy s cap = s := by
  rw [editStrCopy, cstr_eq_self h]
  exact take_of_length_le (by omega)

variable {lines : List Line} {content : CStr}

theorem joinLoop_eq (h : joinLoop out lines = some content) :
    content = out ++ joinLines (texts lines) := by
  induction lines generalizing out with
  | nil =>
    cases h
    simp [joinLines, texts]
  | cons _ _ ih =>
    unfold joinLoop at h
    split at h
    · cases h
    · rw [ih h]
      simp [joinLines, texts]

variable {line : CStr}

/-- A line that is taken in is taken in as it is, unless it has a zero byte. -/
theorem loadLine_texts (hnul : nul ∉ line)
    (h : loadLine lines line = .ok lines') : texts lines' = texts lines ++ [line] := by
  revert h
  fun_cases loadLine lines line with
  | case3 =>
    rintro ⟨⟩
    have hcopy : editStrCopy line (line.length + 1) = line :=
      editStrCopy_eq_self hnul (Nat.lt_succ_self _)
    simp [texts, Line.copy, hcopy]
  | _ => rintro ⟨⟩

theorem dropPhantom_cons (h : parts ≠ []) :
    dropPhantom (part :: parts) = part :: dropPhantom parts := by
  unfold dropPhantom
  rw [List.getLast?_cons_of_ne_nil h, dropLast_cons_of_ne_nil h]
  split <;> rfl

/-- The load adds to the buffer the pieces between newlines. -/
theorem loadLoop_texts (hrest : nul ∉ rest) (hline : nul ∉ line)
    (h : loadLoop lines line rest = (lines', none)) : texts lines' = texts lines
      ++ dropPhantom ((rest.splitOn '\n').modifyHead (line ++ ·)) := by
  fun_induction loadLoop lines line rest with
  | case1 =>
    cases h
    simp [dropPhantom]
  | case3 _ _ hempty _ hload =>
    cases h
    rw [loadLine_texts hline hload]
    simp [dropPhantom, hempty]
  | case5 _ _ rest _ hload ih =>
    -- a newline: the line so far is one piece, the next one starts empty
    have hparts : ('\n' :: rest).splitOn '\n' = [] :: rest.splitOn '\n' := by
      rw [List.splitOn, splitOnP_cons_eq_if_modifyHead]
      exact if_pos rfl
    rw [ih (not_mem_of_not_mem_cons hrest) not_mem_nil h, loadLine_texts hline hload, hparts]
    have hne := splitOn_ne_nil '\n' rest
    have hid : (rest.splitOn '\n').modifyHead (([] : CStr) ++ ·) = rest.splitOn '\n' := by
      cases rest.splitOn '\n' <;> rfl
    rw [hid, modifyHead_cons, append_nil, dropPhantom_cons hne, append_assoc, singleton_append]
  | case6 _ line c rest hother ih =>
    obtain ⟨hc, htail⟩ := not_or.mp (mt mem_cons.mpr hrest)
    have hparts : (c :: rest).splitOn '\n' = (rest.splitOn '\n').modifyHead (List.cons c) := by
      rw [List.splitOn, splitOnP_cons_eq_if_modifyHead]
      exact if_neg (by simpa using hother)
    have hlonger : nul ∉ line ++ [c] := by simpa using ⟨hline, hc⟩
    rw [ih htail hlonger h, hparts, modifyHead_modifyHead]
    congr 3
    funext part
    simp
  | _ => cases h

/-- What a whole load leaves in the buffer. -/
theorem loadLoop_linesOf (hnul : nul ∉ content) (h : loadLoop [] [] content = (lines, none)) :
    texts lines = linesOf content := by
  have hload := loadLoop_texts hnul not_mem_nil h
  have hid : (content.splitOn '\n').modifyHead (([] : CStr) ++ ·) = content.splitOn '\n' := by
    cases content.splitOn '\n' <;> rfl
  rw [hid] at hload
  exact hload

/-- The argument of a command is part of the line. -/
theorem mem_of_mem_splitCommand (h : c ∈ (splitCommand line).2) : c ∈ line := by
  have htrim := mem_reverse.mp h
  have harg := mem_reverse.mp ((dropWhile_suffix _).subset htrim)
  have hcmd := (dropWhile_suffix _).subset harg
  have hline := (dropWhile_suffix _).subset hcmd
  exact (dropWhile_suffix _).subset hline

variable {name : CStr}

theorem parseCommand_open (h : parseCommand line = .open name) : name = (splitCommand line).2 := by
  revert h
  fun_cases parseCommand line with
  | case2 _ hsplit =>
    rintro ⟨⟩
    rw [hsplit]
  | _ => rintro ⟨⟩

theorem nul_notMem_open (hnul : nul ∉ line) (h : parseCommand line = .open name) : nul ∉ name := by
  intro hmem
  rw [parseCommand_open h] at hmem
  exact hnul (mem_of_mem_splitCommand hmem)

/-! ## What an entered line does -/

/-- The globals that a save depends on, with the trace. -/
structure Core where
  lines : List Line
  fileName : CStr
  fileOpen : Bool
  trace : List Event

variable {fs : FileSystem} {e : Editor fs}

/-- What the invariant is about. -/
def Editor.core (e : Editor fs) : Core := ⟨e.lines, e.fileName, e.fileOpen, e.trace⟩

/-- The answer that an `o` with that name gets. -/
def openAnswer (e : Editor fs) (name : CStr) : ReadAnswer :=
  (osFsReadFileBytes fs e.disk (editStrCopy name nameMax) fileMax).1

/-- The events of an entered line: `opened` is its `o` with the content that the read answered,
    `appended` and `changed` have the line the program waited for, `deleted` is its `d`, `wrote` its
    `w` with the lines in the buffer. -/
def Records (e : Editor fs) (line : CStr) : Event → Prop
  | .opened name content => e.waiting = .command ∧ parseCommand line = .open name ∧ name ≠ []
      ∧ (openAnswer e name = .ok content ∨ openAnswer e name = .notFound ∧ content = [])
  | .appended l => e.waiting = .append ∧ l = line
  | .changed n l => e.waiting = .change n ∧ l = line
  | .deleted n => e.waiting = .command ∧ ∃ arg, parseCommand line = .delete arg
      ∧ editParseU arg = some n ∧ n ≤ e.lines.length
  | .wrote path content _ => e.waiting = .command ∧ parseCommand line = .write
      ∧ path = e.fileName ∧ editJoinBuffer e = some content
  | .log _ | .refused _ | .exited _ => True

/-- What a line can leave: one event of its own with the buffer to it, or none, and quiet events
    behind it. -/
inductive Did (e : Editor fs) (line : CStr) : Core → Prop where
  | same : Did e line e.core
  | failed (hwait : e.waiting = .command) (hline : parseCommand line = .open file)
      (hfile : file ≠ []) (hans : openAnswer e file = .denied ∨ openAnswer e file = .error) :
      Did e line { e.core with fileName := editStrCopy file nameMax }
  | closed (rows : List Line) (file : CStr) : Did e line ⟨rows, file, false, e.trace⟩
  | opened (hrec : Records e line (.opened file text))
      (hload : loadLoop [] [] text = (rows, none)) :
      Did e line ⟨rows, editStrCopy file nameMax, true, e.trace ++ [.opened file text]⟩
  | edited (hrec : Records e line ev) (hev : SavesDocument e.trace ev)
      (hedit : Document.next (some ⟨e.fileName, texts e.lines⟩) ev
        = some ⟨e.fileName, texts rows⟩) :
      Did e line ⟨rows, e.fileName, e.fileOpen, e.trace ++ [ev]⟩
  | wrote (hrec : Records e line (.wrote file text status)) (hopen : e.fileOpen = true) :
      Did e line { e.core with trace := e.trace ++ [.wrote file text status] }
  | log (h : Did e line d) (message : CStr) :
      Did e line { d with trace := d.trace ++ [.log message] }
  | refused (h : Did e line d) (file : CStr) :
      Did e line { d with trace := d.trace ++ [.refused file] }
  | exited (h : Did e line d) (status : Nat) :
      Did e line { d with trace := d.trace ++ [.exited status] }

theorem Did.printFrom (h : Did e line e'.core) (n : Nat) (lines : List Line) :
    Did e line (printFrom e' n lines).core := by
  induction lines generalizing e' n with
  | nil => exact h
  | cons _ _ ih => exact ih (((h.log _).log _).log _) (n + 1)

theorem Did.prompt (h : Did e line e'.core) : Did e line (prompt e').core := by
  unfold Edit.prompt
  split
  · exact h.log _
  · exact h

theorem editCmdOpen_did (hwait : e.waiting = .command) (hline : parseCommand line = .open name) :
    Did e line (editCmdOpen e name).core := by
  fun_cases editCmdOpen e name with
  | case1 => exact Did.same.log _
  | case2 _ _ _ _ _ _ hload =>
    unfold editLoadBuffer at hload
    split at hload <;> cases hload
    exact ((Did.closed _ _).log _).refused name
  | case3 hname _ content _ hread _ hload =>
    unfold editLoadBuffer at hload
    split at hload <;> cases hload
    next hloop =>
    have hrec : Records e line (.opened name content) :=
      ⟨hwait, hline, hname, Or.inl (congrArg Prod.fst hread)⟩
    exact (Did.opened hrec hloop).log _
  | case4 hname _ _ hread =>
    have hrec : Records e line (.opened name []) :=
      ⟨hwait, hline, hname, Or.inr ⟨congrArg Prod.fst hread, rfl⟩⟩
    exact (Did.opened hrec rfl).log _
  | case5 hname _ _ hread =>
    exact ((Did.failed hwait hline hname (Or.inl (congrArg Prod.fst hread))).log _).refused name
  | case6 hname _ _ hread =>
    exact ((Did.failed hwait hline hname (Or.inr (congrArg Prod.fst hread))).log _).refused name

theorem texts_copy (hnul : nul ∉ line) (hlen : line.length < lineMax)
    (hcap : 0 < lineMax ∧ lineMax ≤ lineMax) : (Line.copy line lineMax hcap).1 = line :=
  editStrCopy_eq_self hnul hlen

theorem dispatch_did (hwait : e.waiting = .command) (line : CStr) :
    Did e line (dispatch e (parseCommand line)).core := by
  generalize hline : parseCommand line = c
  fun_cases dispatch e c with
  | case1 | case4 | case11 => exact Did.same.log _
  | case2 name => exact editCmdOpen_did hwait hline
  | case3 => exact ((Did.same.printFrom 1 e.lines).log _).log _
  | case5 | case10 => exact Did.same
  | case6 arg =>
    fun_cases editCmdChange e arg with
    | case3 => exact Did.same
    | _ => exact Did.same.log _
  | case7 arg =>
    fun_cases editCmdDelete e arg with
    | case3 n hn hle =>
      have hrec : Records e line (.deleted n) := ⟨hwait, arg, hline, hn, Nat.le_of_not_lt hle⟩
      have hedit : texts (e.lines.eraseIdx (n - 1)) = (texts e.lines).eraseIdx (n - 1) := by
        simp [texts, eraseIdx_map, -map_subtype]
      exact ((Did.edited hrec trivial (hedit ▸ rfl)).log _).log _
    | _ => exact Did.same.log _
  | case8 =>
    have hwrote : ∀ {content} status, ¬ e.fileOpen = false → editJoinBuffer e = some content →
        Did e line { e.core with trace := e.trace ++ [.wrote e.fileName content status] } :=
      fun _ hopen hjoin => .wrote ⟨hwait, hline, rfl, hjoin⟩ (Bool.not_eq_false _ ▸ hopen)
    fun_cases editCmdWrite e with
    | case1 | case2 => exact Did.same.log _
    | case3 hopen _ hjoin | case4 hopen _ hjoin | case5 hopen _ hjoin =>
      exact (hwrote _ hopen hjoin).log _
  | case9 => exact ((Did.same.log _).log _).exited _

/-- **ONE ENTERED LINE**, wherever the program waits for it. -/
theorem enterLine_did (hnul : nul ∉ line) : Did e line (enterLine e line).core := by
  unfold enterLine
  split
  next hwait => exact (dispatch_did hwait line).prompt
  next hwait =>
    refine Did.prompt ?_
    fun_cases editCmdAppend e line with
    | case1 => exact (Did.same.log _).log _
    | case4 _ _ _ row =>
      have hrec : Records e line (.appended line) := ⟨hwait, rfl⟩
      have hrow : row.1 = line := texts_copy hnul (by omega) (by decide)
      have hedit : texts (e.lines ++ [row]) = texts e.lines ++ [line] := by simp [texts, hrow]
      exact Did.edited hrec trivial (hedit ▸ rfl)
    | _ => exact Did.same.log _
  next n hwait =>
    refine Did.prompt ?_
    fun_cases editCmdChangeLine { e with waiting := .command } n line with
    | case1 => exact Did.same.log _
    | case2 _ row =>
      have hrec : Records e line (.changed n line) := ⟨hwait, rfl⟩
      have hrow : row.1 = line := texts_copy hnul (by omega) (by decide)
      have hedit : texts (e.lines.set (n - 1) row) = (texts e.lines).set (n - 1) line := by
        simp [texts, map_set, hrow]
      exact (((Did.edited hrec trivial (hedit ▸ rfl)).log _).log _).log _
  next => exact Did.same

/-- **EVENTS ARE WHAT WAS ENTERED**: a line adds to the trace what it asked for and what the read
    answered. -/
theorem Did.records (h : Did e line c) :
    ∃ es, c.trace = e.trace ++ es ∧ ∀ ev ∈ es, Records e line ev := by
  induction h with
  | same | failed | closed => exact ⟨[], (append_nil _).symm, nofun⟩
  | opened hrec | edited hrec | wrote hrec => exact ⟨_, rfl, by simpa using hrec⟩
  | log _ _ ih | refused _ _ ih | exited _ _ ih =>
    obtain ⟨es, he, hes⟩ := ih
    refine ⟨es ++ [_], by rw [he, append_assoc], fun ev hmem => ?_⟩
    rcases mem_append.mp hmem with hold | hnew
    · exact hes ev hold
    · exact mem_singleton.mp hnew ▸ trivial

/-! ## The invariant -/

/-- While a file is open the globals are the document, and every save was of the document then. -/
structure Kept (c : Core) : Prop where
  agrees : c.fileOpen = true → document c.trace = some ⟨c.fileName, texts c.lines⟩
  saved : Justified c.trace

theorem Kept.note (h : Kept c) (htrace : c'.trace = c.trace ++ [ev])
    (hev : SavesDocument c.trace ev) (hdoc : c'.fileOpen →
      Document.next (document c.trace) ev = some ⟨c'.fileName, texts c'.lines⟩) : Kept c' := by
  constructor
  · intro hopen
    rw [htrace, document_snoc]
    exact hdoc hopen
  · rw [htrace]
    exact justified_snoc.mpr ⟨h.saved, hev⟩

/-- What must hold of an `o` for the editor to stay with its document: if the read fails, no file is
    open or it is the same one; otherwise the name fits and the file is text. -/
def SafeAnswer (e : Editor fs) (name : CStr) : ReadAnswer → Prop
  | .ok content => name.length < nameMax ∧ nul ∉ content
  | .notFound => name.length < nameMax
  | .denied | .error => e.fileOpen = false ∨ editStrCopy name nameMax = e.fileName

instance (e : Editor fs) (name : CStr) : ∀ a, Decidable (SafeAnswer e name a)
  | .ok content => inferInstanceAs (Decidable (name.length < nameMax ∧ nul ∉ content))
  | .notFound => inferInstanceAs (Decidable (name.length < nameMax))
  | .denied | .error =>
    inferInstanceAs (Decidable (e.fileOpen = false ∨ editStrCopy name nameMax = e.fileName))

theorem Did.kept (hd : Did e line c) (h : Kept e.core) (hnul : nul ∉ line)
    (hsafe : e.waiting = .command → ∀ name, parseCommand line = .open name → name ≠ [] →
      SafeAnswer e name (openAnswer e name)) : Kept c := by
  induction hd with
  | same => exact h
  | closed => exact ⟨nofun, h.saved⟩
  | @failed name hwait hline hname hans =>
    have hs := hsafe hwait name hline hname
    have hpath : e.fileOpen = false ∨ editStrCopy name nameMax = e.fileName := by
      rcases hans with ha | ha <;> exact (ha ▸ hs : SafeAnswer e name _)
    refine ⟨fun hopen => ?_, h.saved⟩
    rcases hpath with hclosed | hsame
    · exact absurd (hclosed.symm.trans hopen) Bool.false_ne_true
    · exact hsame ▸ h.agrees hopen
  | @opened name content lines hrec hload =>
    obtain ⟨hwait, hline, hname, hans⟩ := hrec
    have hs := hsafe hwait name hline hname
    have htext : name.length < nameMax ∧ nul ∉ content := by
      rcases hans with ha | ⟨ha, rfl⟩ <;> rw [ha] at hs
      · exact hs
      · exact ⟨hs, not_mem_nil⟩
    rw [editStrCopy_eq_self (nul_notMem_open hnul hline) htext.1]
    refine h.note rfl trivial (fun _ => ?_)
    exact congrArg (fun ls => some (Document.mk name ls)) (loadLoop_linesOf htext.2 hload).symm
  | edited _ hev hedit =>
    refine h.note rfl hev (fun hopen => ?_)
    rw [h.agrees hopen]
    exact hedit
  | wrote hrec hopen =>
    obtain ⟨-, -, rfl, hjoin⟩ := hrec
    exact h.note rfl ⟨texts e.lines, h.agrees hopen, joinLoop_eq hjoin⟩ h.agrees
  | log _ _ ih | refused _ _ ih | exited _ _ ih => exact ih.note rfl trivial ih.agrees

/-! ## Runs -/

/-- The command that a typed character completes. -/
def entered (e : Editor fs) (ch : Char) : Option Command :=
  if e.waiting = .command ∧ (ch = '\n' ∨ ch = '\r') ∧ e.overflow = false
  then some (parseCommand (cstr e.typed)) else none

/-- The command `o`, if that is what is entered, gets a safe answer. -/
def OpensSafely (e : Editor fs) (ch : Char) : Prop :=
  ∀ name, entered e ch = some (.open name) → name ≠ [] → SafeAnswer e name (openAnswer e name)

theorem kept_step (h : Kept e.core) (hsafe : OpensSafely e ch) : Kept (step e ch).core := by
  fun_cases Edit.step e ch with
  | case2 =>
    have hlong : Did e [] (lineTooLong { e with typed := [], overflow := false }).core :=
      Did.same.log _
    exact hlong.prompt.kept h not_mem_nil nofun
  | case3 _ hend _ hover =>
    have hnul := nul_notMem_cstr e.typed
    refine (enterLine_did hnul).kept h hnul (fun hwait name hname => hsafe name ?_)
    have hentered : e.waiting = .command ∧ (ch = '\n' ∨ ch = '\r') ∧ e.overflow = false :=
      ⟨hwait, hend, Bool.not_eq_true _ ▸ hover⟩
    rw [entered, if_pos hentered, hname]
  | _ => exact h

theorem kept_start (disk : fs.State) : Kept (start disk).core := by
  have hnone : Kept ⟨[], [], false, []⟩ := ⟨nofun, along_nil _ _ _⟩
  have hlog : ∀ {c} message, Kept c → Kept { c with trace := c.trace ++ [.log message] } :=
    fun _ h => h.note rfl trivial h.agrees
  exact hlog _ (hlog _ (hlog _ hnone))

/-- **A SAVE GOES TO THE OPENED FILE**: in every session in which each `o` gets a safe answer, each
    save writes to the last file opened the lines it had, as they were edited since. -/
theorem saves_opened_document (fs : FileSystem) (disk : fs.State) (typed : List Char)
    (hsafe : Along step OpensSafely (start disk) typed)
    (pre post : List Event) (path content : CStr) (status : OsStatus)
    (htrace : (run step (start disk) typed).trace = pre ++ .wrote path content status :: post) :
    ∃ lines, document pre = some ⟨path, lines⟩ ∧ content = joinLines lines := by
  have hkept : Kept (run step (start disk) typed).core :=
    run_inv (I := fun e : Editor fs => Kept e.core) (fun e ch h hs => kept_step h hs) typed
      (start disk) (kept_start disk) hsafe
  have hjust := (along_iff_splits _ _).mp hkept.saved pre _ post htrace
  rw [run_snoc] at hjust
  exact hjust

/-- A filesystem where one file can be read and every write succeeds. -/
def readableOnly (name content : CStr) : FileSystem where
  State := Unit
  read _ path := (if path = name then .ok content else .denied, ())
  write _ _ _ := (.ok, ())

instance decidableOpensSafely (e : Editor fs) (ch : Char) : Decidable (OpensSafely e ch) :=
  match hc : entered e ch with
  | some (.open name) =>
    decidable_of_iff (name ≠ [] → SafeAnswer e name (openAnswer e name))
      ⟨fun h n hn => by cases hc.symm.trans hn; exact h, fun h => h name hc⟩
  | some .help | some .print | some .append | some .write | some .quit | some .empty
  | some .unknown | some (.change _) | some (.delete _) | none =>
    .isTrue (fun n hn => by cases hc.symm.trans hn)

/-- What is typed, over a filesystem where one file can be read. -/
def session (name content : CStr) (typed : List Char) : Editor (readableOnly name content) :=
  run step (start ()) typed

/-- The session `o a`, `c 1`, `z`, `w` saves the changed line. -/
theorem saves_opened_document_change :
    ∃ lines, document ((session ['a'] ['x', '\n'] "o a\nc 1\nz\nw\n".toList).trace.take 11)
        = some ⟨['a'], lines⟩ ∧ ['z', '\n'] = joinLines lines :=
  saves_opened_document (readableOnly ['a'] ['x', '\n']) ()
    "o a\nc 1\nz\nw\n".toList (by decide +kernel) _
    [.log "EDIT:SAVE:OK\n".toList, .log "ed> ".toList] ['a'] ['z', '\n'] .ok (by decide +kernel)

/-- The session `o a`, `o b`, `w`, where `b` may not be read: the `o` that fails has taken the name,
    and the lines of `a` are written to `b`. -/
theorem refused_open_redirects_save :
    ∃ pre post, (session ['a'] ['x', '\n'] "o a\no b\nw\n".toList).trace
        = pre ++ .wrote ['b'] ['x', '\n'] .ok :: post ∧ document pre = some ⟨['a'], [['x']]⟩ :=
  ⟨(session ['a'] ['x', '\n'] "o a\no b\nw\n".toList).trace.take 9,
    [.log "EDIT:SAVE:OK\n".toList, .log "ed> ".toList], by decide +kernel, by decide +kernel⟩

end Edit
