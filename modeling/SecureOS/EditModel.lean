import SecureOS.CapabilityModel

/-! # The line editor

`user/apps/edit/main.c`: one file a session, edited by line commands typed at the console.  The
program waits for the keyboard in three places (the prompt, the loop of `a` and the line that
`c` asks for), so the model is a machine that takes one typed character a step and remembers
where it waits.

The filesystem is a parameter: a state of any type and what the two calls answer in it, so every
pattern of answers is one of its instances.  `trace` records what the editor did: its console
output, its calls of the filesystem, and the commands that took effect. -/

namespace Edit

open Capability

def nul : Char := '\x00'

/-- `EDIT_LINE_MAX`. -/
def lineMax : Nat := 64

/-- `EDIT_LINES_MAX`. -/
def linesMax : Nat := 32

/-- `EDIT_CMD_MAX`. -/
def cmdMax : Nat := 64

/-- `EDIT_FILE_MAX`. -/
def fileMax : Nat := 2048

/-- `sizeof(g_file_name)`. -/
def nameMax : Nat := 16

/-! ## Text -/

/-- The string at the start of a `char` array. -/
def cstr (s : CStr) : CStr := s.takeWhile (· ≠ nul)

/-- `edit_str_copy` into an array of `cap` bytes. -/
def editStrCopy (src : CStr) (cap : Nat) : CStr := (cstr src).take (cap - 1)

theorem nul_notMem_cstr (s : CStr) : nul ∉ cstr s := by
  intro h
  have hc := List.all_takeWhile (p := (· ≠ nul)) (l := s)
  exact of_decide_eq_true (List.all_eq_true.mp hc nul h) rfl

theorem nul_notMem_editStrCopy (src : CStr) (cap : Nat) : nul ∉ editStrCopy src cap :=
  fun h => nul_notMem_cstr src (List.mem_of_mem_take h)

theorem length_editStrCopy_lt (src : CStr) (h : 0 < cap) : (editStrCopy src cap).length < cap := by
  have hlen := List.length_take_le (cap - 1) (cstr src)
  unfold editStrCopy
  omega

/-- A row of `g_lines`: a string with its terminator. -/
abbrev Line := { s : CStr // nul ∉ s ∧ s.length < lineMax }

/-- `edit_str_copy` into a row of `g_lines`. -/
def Line.copy (src : CStr) (cap : Nat) (h : 0 < cap ∧ cap ≤ lineMax) : Line :=
  ⟨editStrCopy src cap, nul_notMem_editStrCopy src cap,
    Nat.lt_of_lt_of_le (length_editStrCopy_lt src h.1) h.2⟩

/-- The digits of a number, at most `room` of them. -/
def digits : Nat → Nat → CStr
  | 0, _ => []
  | room + 1, value =>
    if 0 < value then digits room (value / 10) ++ [Char.ofNat ('0'.toNat + value % 10)] else []

/-- `edit_append_u`: a decimal number behind `out`, in an array of `cap` bytes. -/
def editAppendU (out : CStr) (cap value : Nat) : CStr :=
  out ++ (if value = 0 then ['0'] else digits 10 value).take (cap - 1 - out.length)

/-- The loop of `edit_parse_u`. -/
def parseDigits (value : Nat) : CStr → Option Nat
  | [] => if value = 0 ∨ value > linesMax then none else some value
  | c :: s =>
    if c < '0' ∨ c > '9' then none
    else if value > linesMax then none
    else parseDigits (value * 10 + (c.toNat - '0'.toNat)) s

def editParseU (s : CStr) : Option Nat := if s = [] then none else parseDigits 0 s

def editTrimToken (token : CStr) : CStr :=
  (token.reverse.dropWhile (fun c => c = ' ' || c = '\t')).reverse

/-- The command word and the argument that `main` cuts out of an input line. -/
def splitCommand (line : CStr) : CStr × CStr :=
  let cmd := line.dropWhile (· = ' ')
  let arg := (cmd.dropWhile (· ≠ ' ')).dropWhile (· = ' ')
  (cmd.takeWhile (· ≠ ' '), editTrimToken arg)

/-! ## The filesystem -/

inductive OsStatus where
  | ok | notFound | denied | error
deriving DecidableEq, Repr

/-- The answer of a read: the content of the file, or what went wrong. -/
inductive ReadAnswer where
  | ok (content : CStr)
  | notFound
  | denied
  | error
deriving DecidableEq, Repr

/-- The filesystem behind the calls: what reads find, and what a write leaves and answers. -/
structure FileSystem where
  State : Type
  read : State → CStr → ReadAnswer × State
  write : State → CStr → CStr → OsStatus × State

/-- `os_fs_read_file_bytes` into a buffer of `size` bytes: a longer file is an error. -/
def osFsReadFileBytes (fs : FileSystem) (disk : fs.State) (path : CStr) (size : Nat) :
    ReadAnswer × fs.State :=
  match fs.read disk path with
  | (.ok content, disk') => (if content.length > size then .error else .ok content, disk')
  | (answer, disk') => (answer, disk')

/-! ## The state -/

/-- Console output, calls, and the commands that took effect; `opened` has the typed name and the
    content. -/
inductive Event where
  | log (message : CStr)
  | opened (name content : CStr)
  | refused (name : CStr)
  | appended (line : CStr)
  | changed (n : Nat) (line : CStr)
  | deleted (n : Nat)
  | wrote (path content : CStr) (status : OsStatus)
  | exited (status : Nat)
deriving DecidableEq, Repr

/-- Where the program waits for input. -/
inductive Waiting where
  | command
  | append
  | change (n : Nat)
  | finished
deriving DecidableEq, Repr

/-- The globals of the editor, the line being typed, and the disk. -/
structure Editor (fs : FileSystem) where
  lines : List Line
  fileName : CStr
  fileOpen : Bool
  dirty : Bool
  failures : Nat
  typed : CStr
  overflow : Bool
  waiting : Waiting
  disk : fs.State
  trace : List Event

variable {fs : FileSystem}

/-- Something done is recorded. -/
def Editor.note (e : Editor fs) (ev : Event) : Editor fs := { e with trace := e.trace ++ [ev] }

def editLog (e : Editor fs) (message : CStr) : Editor fs := e.note (.log message)

def editFail (e : Editor fs) (message : CStr) : Editor fs :=
  { editLog e message with failures := e.failures + 1 }

def editLogCount (e : Editor fs) (label : CStr) (value : Nat) : Editor fs :=
  editLog (editLog e (editAppendU (label.take 31) 32 value)) "\n".toList

/-- The marker that `edit_print_lines` puts before line `n`. -/
def bufMarker (n : Nat) : CStr :=
  let marker := editAppendU "EDIT:BUF:".toList 32 n
  if marker.length + 2 < 32 then marker ++ [':'] else marker

/-- The loop of `edit_print_lines`, at line `n`. -/
def printFrom (e : Editor fs) (n : Nat) : List Line → Editor fs
  | [] => e
  | l :: rest =>
    printFrom (editLog (editLog (editLog e (bufMarker n)) l.1) "\n".toList) (n + 1) rest

def editPrintLines (e : Editor fs) : Editor fs :=
  editLogCount (printFrom e 1 e.lines) "EDIT:PRINT:".toList e.lines.length

def editHelp (e : Editor fs) : Editor fs :=
  editLog e ("EDIT:HELP:o <file> open|create, p print, a append(.), c <n> " ++
    "change, d <n> delete, w save, q quit, ? help\n").toList

/-! ## The buffer and the file -/

/-- One line of the file goes into the buffer, or the message that says why not. -/
def loadLine (lines : List Line) (line : CStr) : Except CStr (List Line) :=
  if h : line.length + 1 > lineMax then .error "EDIT:ERR:LINE_FIT\n".toList
  else if lines.length ≥ linesMax then .error "EDIT:ERR:LINE_COUNT_FIT\n".toList
  else .ok (lines ++ [Line.copy line (line.length + 1) ⟨Nat.succ_pos _, Nat.le_of_not_lt h⟩])

/-- The loop of `edit_load_buffer`, with `line` since `start`; a failure leaves the lines before it.
    -/
def loadLoop (lines : List Line) (line : CStr) : CStr → List Line × Option CStr
  | [] =>
    if line = [] then (lines, none)
    else
      match loadLine lines line with
      | .error message => (lines, some message)
      | .ok lines' => (lines', none)
  | c :: rest =>
    if c = '\n' then
      match loadLine lines line with
      | .error message => (lines, some message)
      | .ok lines' => loadLoop lines' [] rest
    else loadLoop lines (line ++ [c]) rest

/-- `edit_load_buffer`; the flag says whether it returned 1. -/
def editLoadBuffer (e : Editor fs) (content : CStr) : Editor fs × Bool :=
  match loadLoop [] [] content with
  | (lines, some message) => (editFail { e with lines := lines, fileOpen := false } message, false)
  | (lines, none) => ({ e with lines := lines }, true)

/-- The loop of `edit_join_buffer`, behind the bytes already in the buffer. -/
def joinLoop (out : CStr) : List Line → Option CStr
  | [] => some out
  | l :: rest =>
    if out.length + l.1.length + 1 > fileMax then none
    else joinLoop (out ++ l.1 ++ ['\n']) rest

def editJoinBuffer (e : Editor fs) : Option CStr := joinLoop [] e.lines

/-! ## The commands -/

def editCmdOpen (e : Editor fs) (name : CStr) : Editor fs :=
  if name = [] then editFail e "EDIT:ERR:NO_NAME\n".toList
  else
    let e := { e with fileName := editStrCopy name nameMax }
    match osFsReadFileBytes fs e.disk e.fileName fileMax with
    | (.ok content, disk) =>
      match editLoadBuffer { e with disk := disk } content with
      | (e, false) => e.note (.refused name)
      | (e, true) =>
        editLog ({ e with fileOpen := true, dirty := false }.note (.opened name content))
          "EDIT:OPEN:EXISTING\n".toList
    | (.notFound, disk) =>
      editLog ({ e with disk := disk, lines := [], fileOpen := true, dirty := false }.note
        (.opened name [])) "EDIT:OPEN:NEW\n".toList
    | (.denied, disk) =>
      (editFail { e with disk := disk } "EDIT:ERR:OPEN_DENIED\n".toList).note (.refused name)
    | (.error, disk) =>
      (editFail { e with disk := disk } "EDIT:ERR:OPEN\n".toList).note (.refused name)

/-- The loop of `edit_cmd_append` at the next line; it goes on as long as it waits for `append`. -/
def editCmdAppend (e : Editor fs) (line : CStr) : Editor fs :=
  if line = ['.'] then
    { editLogCount e "EDIT:APPEND:".toList e.lines.length with waiting := .command }
  else if line.length + 1 > lineMax then
    { editFail e "EDIT:ERR:LINE_FIT\n".toList with waiting := .command }
  else if e.lines.length ≥ linesMax then
    { editFail e "EDIT:ERR:LINE_COUNT_FIT\n".toList with waiting := .command }
  else
    let row := Line.copy line lineMax (by decide)
    { e with lines := e.lines ++ [row], dirty := true }.note (.appended line)

/-- `edit_cmd_change` up to the input line it asks for. -/
def editCmdChange (e : Editor fs) (arg : CStr) : Editor fs :=
  match editParseU arg with
  | none => editFail e "EDIT:ERR:CHANGE_RANGE\n".toList
  | some n =>
    if n > e.lines.length then editFail e "EDIT:ERR:CHANGE_RANGE\n".toList
    else { e with waiting := .change n }

/-- `edit_cmd_change` with the input line. -/
def editCmdChangeLine (e : Editor fs) (n : Nat) (line : CStr) : Editor fs :=
  if line.length + 1 > lineMax then editFail e "EDIT:ERR:LINE_FIT\n".toList
  else
    let row := Line.copy line lineMax (by decide)
    let e := { e with lines := e.lines.set (n - 1) row, dirty := true }.note (.changed n line)
    editLog (editLog (editLog e "EDIT:CHANGE:".toList) row.1) "\n".toList

def editCmdDelete (e : Editor fs) (arg : CStr) : Editor fs :=
  match editParseU arg with
  | none => editFail e "EDIT:ERR:DELETE_RANGE\n".toList
  | some n =>
    if n > e.lines.length then editFail e "EDIT:ERR:DELETE_RANGE\n".toList
    else
      editLogCount ({ e with lines := e.lines.eraseIdx (n - 1), dirty := true }.note (.deleted n))
        "EDIT:DEL:".toList n

def editCmdWrite (e : Editor fs) : Editor fs :=
  if e.fileOpen = false then editFail e "EDIT:ERR:NO_FILE\n".toList
  else
    match editJoinBuffer e with
    | none => editFail e "EDIT:ERR:FILE_FIT\n".toList
    | some content =>
      match fs.write e.disk e.fileName content with
      | (status, disk) =>
        let e := { e with disk := disk }.note (.wrote e.fileName content status)
        match status with
        | .ok => editLog { e with dirty := false } "EDIT:SAVE:OK\n".toList
        | .denied => editLog e "EDIT:SAVE:DENIED\n".toList
        | _ => editFail e "EDIT:ERR:SAVE\n".toList

/-- The command `q` and what follows the loop of `main`. -/
def editQuit (e : Editor fs) : Editor fs :=
  let message := if e.dirty then "EDIT:QUIT:DISCARD\n" else "EDIT:QUIT:CLEAN\n"
  let e := editLog (editLog e message.toList) "EDIT:done\n".toList
  { e.note (.exited (if e.failures = 0 then 0 else 1)) with waiting := .finished }

/-- The commands of `main`. -/
inductive Command where
  | help | print | append | write | quit | empty | unknown
  | open (name : CStr)
  | change (arg : CStr)
  | delete (arg : CStr)
deriving DecidableEq, Repr

/-- Which command an input line is. -/
def parseCommand (line : CStr) : Command :=
  let (cmd, arg) := splitCommand line
  if cmd = ['?'] then .help
  else if cmd = ['o'] then .open arg
  else if cmd = ['p'] then .print
  else if cmd = ['a'] then .append
  else if cmd = ['c'] then .change arg
  else if cmd = ['d'] then .delete arg
  else if cmd = ['w'] then .write
  else if cmd = ['q'] then .quit
  else if cmd = [] then .empty
  else .unknown

/-- The body of the loop of `main` behind the prompt. -/
def dispatch (e : Editor fs) : Command → Editor fs
  | .help => editHelp e
  | .open name => editCmdOpen e name
  | .print => editPrintLines e
  | .append =>
    if e.fileOpen = false then editFail e "EDIT:ERR:NO_FILE\n".toList
    else { e with waiting := .append }
  | .change arg => editCmdChange e arg
  | .delete arg => editCmdDelete e arg
  | .write => editCmdWrite e
  | .quit => editQuit e
  | .empty => e
  | .unknown => editFail e "EDIT:ERR:UNKNOWN_CMD\n".toList

/-- The prompt is printed whenever the program is back at it. -/
def prompt (e : Editor fs) : Editor fs :=
  if e.waiting = .command then editLog e "ed> ".toList else e

/-- `edit_read_line` has returned -1. -/
def lineTooLong (e : Editor fs) : Editor fs :=
  { editFail e "EDIT:ERR:LINE_LONG\n".toList with waiting := .command }

/-- An input line is complete. -/
def enterLine (e : Editor fs) (line : CStr) : Editor fs :=
  match e.waiting with
  | .command => prompt (dispatch e (parseCommand line))
  | .append => prompt (editCmdAppend e line)
  | .change n => prompt (editCmdChangeLine { e with waiting := .command } n line)
  | .finished => e

/-- One turn of `edit_read_line`, into `EDIT_CMD_MAX` bytes, and what its return sets off. -/
def step (e : Editor fs) (ch : Char) : Editor fs :=
  if e.waiting = .finished then e
  else if ch = '\n' ∨ ch = '\r' then
    let typed := { e with typed := [], overflow := false }
    if e.overflow then prompt (lineTooLong typed) else enterLine typed (cstr e.typed)
  else if e.typed.length + 1 < cmdMax then { e with typed := e.typed ++ [ch] }
  else { e with overflow := true }

/-- The program at its first prompt. -/
def start (disk : fs.State) : Editor fs :=
  let e : Editor fs :=
    { lines := [], fileName := [], fileOpen := false, dirty := false, failures := 0
      typed := [], overflow := false, waiting := .command, disk := disk, trace := [] }
  prompt (editLog (editLog e "EDIT:start\n".toList) "EDIT:ready\n".toList)

end Edit
