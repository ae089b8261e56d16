import SecureOS.ConsoleAuthModel
import SecureOS.VfbFontModel
import Mathlib.Data.List.TakeWhile

/-! # What a session shows

`kernel/core/session_manager.c` keeps eight session records.  Two parts of a record can be read
from outside by the window manager: the screen history, the text `console_write` of
`kernel/core/console.c` has put out, read piece by piece with `session_manager_read_output`; and
the virtual framebuffer, one byte a pixel, which is allocated when it is first needed and read
with `session_manager_read_vfb`.

The console writes into the context it is bound to (`console`) and renders the text into the
framebuffer of the active session (`active`); a tick makes both another session for a while.
The heap is memory by address, and where `kmalloc` finds room is an input of the calls that
allocate, so nothing rests on how blocks are placed.

Three things are recorded that the code does not keep: which byte of the session's output a byte
of the history is, with all the output and all that was read of it; how many sessions a record
has had; and for which of them a pixel was drawn. -/

namespace SessionIo

open Capability CapTable ConsoleAuth Provenance VfbFont

/-! ## The screen history -/

/-- `CONSOLE_SCREEN_HISTORY_MAX`. -/
def screenHistoryMax : Nat := 4096

def nul : Char := '\x00'

/-- A byte of `screen_history`; `stamp` is its place in the output of the session, and a terminator
    or a byte of an earlier session has none. -/
structure Kept where
  char : Char
  stamp : Option Nat
deriving DecidableEq, Repr

/-- The screen history of a `console_context_t`, with the bytes it took (`accepted`) and what
    `session_manager_read_output` has copied out (`returned`), where `none` is a byte from beyond
    the array. -/
structure Screen where
  history : Fin 4096 → Kept
  len : Nat
  readCursor : Nat
  accepted : List Char
  returned : List (Option Kept)

/-- `screen_history[i] = k`. -/
def Screen.set (s : Screen) (i : Nat) (k : Kept) : Screen :=
  { s with history := fun j => if j.val = i then k else s.history j }

/-- `screen_history[len] = '\0'`. -/
def Screen.terminate (s : Screen) : Screen := s.set s.len ⟨nul, none⟩

/-- `screen_history[len++] = c`. -/
def Screen.push (s : Screen) (c : Char) : Screen :=
  { s.set s.len ⟨c, some s.accepted.length⟩ with
    len := s.len + 1, accepted := s.accepted ++ [c] }

/-- The loop of `console_write`: up to the end of the message or of the array. -/
def Screen.pushAll (s : Screen) : CStr → Screen
  | [] => s
  | c :: message =>
    if c = nul then s
    else if s.len + 1 ≥ screenHistoryMax then s
    else (s.push c).pushAll message

/-- What `console_write` does to the history. -/
def Screen.append (s : Screen) (message : CStr) : Screen := (s.pushAll message).terminate

/-- `screen_history_len = 0`, `screen_history[0] = '\0'`: in the command `clear` and in
    `console_init`.  Neither moves the read cursor. -/
def Screen.restart (s : Screen) : Screen := { s with len := 0 }.terminate

/-- What `session_init_context` makes of the last session's history: the bytes stay, as nobody's. -/
def Screen.renew (s : Screen) : Screen :=
  Screen.restart
    { history := fun i => ⟨(s.history i).char, none⟩
      len := 0, readCursor := 0, accepted := [], returned := [] }

/-- The byte at an index of the array, or beyond it. -/
def Screen.byteAt (s : Screen) (i : Nat) : Option Kept :=
  if h : i < 4096 then some (s.history ⟨i, h⟩) else none

/-- `session_manager_read_output` for a session in use: what is copied into a buffer of `size`
    bytes, which has room for a terminator.  The difference and the sums are of 64-bit numbers. -/
def Screen.readOutput (s : Screen) (size : Nat) : Screen × List (Option Kept) :=
  if size = 0 then (s, [])
  else
    let available := (s.len + 2 ^ 64 - s.readCursor) % 2 ^ 64
    if available = 0 then (s, [])
    else
      let toCopy := if available ≥ size then size - 1 else available
      let out := (List.range toCopy).map (fun i => s.byteAt ((s.readCursor + i) % 2 ^ 64))
      ({ s with readCursor := (s.readCursor + toCopy) % 2 ^ 64,
                returned := s.returned ++ out }, out)

/-! ## Records -/

/-- The text of a `char` array, up to its terminator. -/
abbrev Text := { s : CStr // nul ∉ s }

theorem nul_notMem_take (n : Nat) (src : CStr) : nul ∉ (src.takeWhile (· ≠ nul)).take n := by
  intro h
  have hc := List.mem_takeWhile_imp (List.mem_of_mem_take h)
  exact of_decide_eq_true hc rfl

/-- `copy_string` into an array of `size` bytes. -/
def copyString (size : Nat) (src : CStr) : Text :=
  ⟨(src.takeWhile (· ≠ nul)).take (size - 1), nul_notMem_take _ src⟩

/-- A block of the heap: where it is, and how many bytes were asked for. -/
structure Block where
  addr : Int
  size : Nat
deriving DecidableEq, Repr

/-- `vfb_cursor_col` and `vfb_cursor_row`. -/
structure Cursor where
  col : Nat
  row : Int
deriving DecidableEq, Repr

/-- A `session_record_t` with its console context, as far as the history and the framebuffer need
    it; `generation` counts the sessions the record has had. -/
structure Session where
  inUse : Bool
  subjectId : Nat
  cwd : Text
  wmManaged : Bool
  screen : Screen
  gfxMode : Bool
  vfb : Option Block
  vfbWidth : Nat
  vfbHeight : Nat
  vfbCursor : Cursor
  generation : Nat

/-- `SESSION_VFB_WIDTH` and `SESSION_VFB_HEIGHT`. -/
def sessionVfbWidth : Nat := 320
def sessionVfbHeight : Nat := 200

/-- The width and height the size query, the reader and the renderer go by: the record's, or the
    default. -/
def Session.usedWidth (s : Session) : Nat :=
  if s.vfbWidth = 0 then sessionVfbWidth else s.vfbWidth
def Session.usedHeight (s : Session) : Nat :=
  if s.vfbHeight = 0 then sessionVfbHeight else s.vfbHeight

/-- `g_sessions` with `g_active_session_id`, the session whose context `g_console_ctx` is, and the
    sessions that were active before the ticks that are running. -/
structure Machine where
  bits : Bits
  sessions : Fin 8 → Session
  active : Fin 8
  defaultSubjectId : Nat
  console : Fin 8
  ticks : List (Fin 8)
  memory : Pixels

def setSession (m : Machine) (i : Fin 8) (f : Session → Session) : Machine :=
  { m with sessions := Function.update m.sessions i (f (m.sessions i)) }

/-- The check every call by session id begins with. -/
def inUseSession (m : Machine) (sessionId : Nat) : Option (Fin 8) :=
  if h : sessionId < 8 then
    if (m.sessions ⟨sessionId, h⟩).inUse then some ⟨sessionId, h⟩ else none
  else none

/-! ## The framebuffer -/

/-- The `n` bytes from an address on become zero. -/
def zeroBytes (mem : Pixels) (addr : Int) (n : Nat) : Pixels :=
  wipe mem (fun a => decide (addr ≤ a ∧ a < addr + n)) 0

/-- `kmalloc`, where `room` is the result of its search; the payload, rounded up to 16 bytes, is
    zeroed. -/
def kmalloc (mem : Pixels) (size : Nat) (room : Option Int) : Option Block × Pixels :=
  if size = 0 then (none, mem)
  else
    match room with
    | none => (none, mem)
    | some addr => (some ⟨addr, size⟩, zeroBytes mem addr ((size + 15) / 16 * 16))

/-- `VFB_FG_COLOR` and `VFB_BG_COLOR`. -/
def vfbFgColor : Nat := 15
def vfbBgColor : Nat := 0

/-- `vfb_scroll_up`: the second loop starts below zero for a framebuffer lower than a line. -/
def vfbScrollUp (buffer : Int) (vfbW vfbH : Nat) (mem : Pixels) : Pixels :=
  let shiftBytes := (fontH + fontSpacing) * vfbW
  let totalBytes := vfbW * vfbH
  let mem := (List.range (totalBytes - shiftBytes)).foldl
    (fun mem (i : Nat) => copy mem (buffer + i) (buffer + i + shiftBytes)) mem
  wipe mem (fun a => decide (buffer + ((totalBytes : Int) - shiftBytes) ≤ a
    ∧ a < buffer + totalBytes)) vfbBgColor

/-- The first part of `session_manager_vfb_putchar`: the cursor moves, and a shape is drawn. -/
def placeChar (owner : Owner) (buffer : Int) (vfbW : Nat) (ch : Char)
    (pen : Cursor × Pixels) : Cursor × Pixels :=
  let cursor := pen.1
  let draw := fun (col : Nat) (c : Char) (color : Nat) =>
    vfbFontDrawChar owner buffer vfbW (col * (fontW + fontSpacing))
      (cursor.row * (fontH + fontSpacing)) c color pen.2
  if ch = '\n' then (⟨0, cursor.row + 1⟩, pen.2)
  else if ch = '\r' then (⟨0, cursor.row⟩, pen.2)
  else if ch = '\x08' ∨ ch = '\x7F' then
    if 0 < cursor.col then
      (⟨cursor.col - 1, cursor.row⟩, draw (cursor.col - 1) ' ' vfbBgColor)
    else pen
  else if ch = '\t' then (⟨(cursor.col + 4) / 4 * 4, cursor.row⟩, pen.2)
  else (⟨cursor.col + 1, cursor.row⟩, draw cursor.col ch vfbFgColor)

/-- The second part: wrap at the end of the line, scroll past the last one. -/
def settle (buffer : Int) (vfbW vfbH : Nat) (pen : Cursor × Pixels) : Cursor × Pixels :=
  let textCols := vfbW / (fontW + fontSpacing)
  let textRows := vfbH / (fontH + fontSpacing)
  let cursor := if pen.1.col ≥ textCols then ⟨0, pen.1.row + 1⟩ else pen.1
  if cursor.row ≥ textRows then
    (⟨cursor.col, (textRows : Int) - 1⟩, vfbScrollUp buffer vfbW vfbH pen.2)
  else (cursor, pen.2)

/-- `session_manager_vfb_putchar`, which does nothing without a framebuffer. -/
def sessionManagerVfbPutchar (m : Machine) (i : Fin 8) (ch : Char) : Machine :=
  let s := m.sessions i
  if s.inUse then
    match s.vfb with
    | none => m
    | some b =>
      let r := settle b.addr s.usedWidth s.usedHeight
        (placeChar (i, s.generation) b.addr s.usedWidth ch (s.vfbCursor, m.memory))
      { setSession m i (fun s => { s with vfbCursor := r.1 }) with memory := r.2 }
  else m

def sessionManagerVfbWrite (m : Machine) (i : Fin 8) : CStr → Machine
  | [] => m
  | c :: text =>
    if c = nul then m else sessionManagerVfbWrite (sessionManagerVfbPutchar m i c) i text

/-- What `session_manager_get_vfb` and `session_manager_set_wm_managed` do for a session without a
    framebuffer: the size is settled, and a block of it asked for. -/
def allocVfb (m : Machine) (i : Fin 8) (room : Option Int) : Machine :=
  let s := m.sessions i
  let r := kmalloc m.memory (s.usedWidth * s.usedHeight) room
  { setSession m i (fun s =>
      { s with vfbWidth := s.usedWidth, vfbHeight := s.usedHeight, vfb := r.1 }) with
    memory := r.2 }

/-- `session_manager_get_vfb` for a session in use. -/
def getVfb (m : Machine) (i : Fin 8) (room : Option Int) : Machine :=
  if (m.sessions i).vfb = none then allocVfb m i room else m

/-- `session_manager_get_vfb`, with the framebuffer it returns. -/
def sessionManagerGetVfb (m : Machine) (sessionId : Nat) (room : Option Int) :
    Machine × Option Block :=
  match inUseSession m sessionId with
  | none => (m, none)
  | some i => (getVfb m i room, ((getVfb m i room).sessions i).vfb)

/-- What `session_manager_set_wm_managed` does with a new framebuffer: it is zeroed, and shows a
    prompt. -/
def renderPrompt (m : Machine) (i : Fin 8) (b : Block) : Machine :=
  let m := { m with memory := zeroBytes m.memory b.addr b.size }
  let m := sessionManagerVfbWrite m i ['[', 's']
  let m := sessionManagerVfbPutchar m i (Char.ofNat (48 + i % 10))
  sessionManagerVfbWrite m i [' ', '/', ']', '>', ' ']

def sessionManagerSetWmManaged (m : Machine) (sessionId : Nat) (managed : Bool)
    (room : Option Int) : Machine :=
  match inUseSession m sessionId with
  | none => m
  | some i =>
    let m := setSession m i (fun s => { s with wmManaged := managed })
    if managed = true ∧ (m.sessions i).vfb = none then
      let m := setSession (allocVfb m i room) i (fun s => { s with vfbCursor := ⟨0, 0⟩ })
      match (m.sessions i).vfb with
      | none => m
      | some b => renderPrompt m i b
    else m

/-- `session_manager_clear_vfb`: as many bytes as the two fields of the record say. -/
def sessionManagerClearVfb (m : Machine) (sessionId : Nat) (room : Option Int) : Machine :=
  match inUseSession m sessionId with
  | none => m
  | some i =>
    let m := getVfb m i room
    match (m.sessions i).vfb with
    | none => m
    | some b =>
      { m with
        memory := zeroBytes m.memory b.addr
          ((m.sessions i).vfbWidth * (m.sessions i).vfbHeight) }

/-- `session_manager_set_vfb_size`: only before there is a framebuffer. -/
def sessionManagerSetVfbSize (m : Machine) (sessionId : Nat) (width height : BitVec 32) : Machine :=
  match inUseSession m sessionId with
  | none => m
  | some i =>
    if (m.sessions i).vfb ≠ none then m
    else if width = 0 ∨ height = 0 then m
    else setSession m i (fun s =>
      { s with vfbWidth := min width.toNat 320, vfbHeight := min height.toNat 200 })

def sessionManagerGetVfbSize (m : Machine) (sessionId : Nat) : Nat × Nat :=
  match inUseSession m sessionId with
  | none => (sessionVfbWidth, sessionVfbHeight)
  | some i => ((m.sessions i).usedWidth, (m.sessions i).usedHeight)

/-- The copying loops of `session_manager_read_vfb`, with the rectangle clipped. -/
def readRect (mem : Pixels) (buffer : Int) (vfbW vfbH : Nat) (x y w h : BitVec 32) :
    List (Cell Nat Owner) :=
  let w := if (x + w).toNat > vfbW then vfbW - x.toNat else w.toNat
  let h := if (y + h).toNat > vfbH then vfbH - y.toNat else h.toNat
  (List.range h).flatMap (fun row =>
    let srcOffset := (y + BitVec.ofNat 32 row) * BitVec.ofNat 32 vfbW + x
    (List.range w).map (fun col => mem (buffer + (srcOffset + BitVec.ofNat 32 col).toNat)))

/-- `session_manager_read_vfb`, with the pixels it copies out. -/
def sessionManagerReadVfb (m : Machine) (sessionId : Nat) (x y w h : BitVec 32)
    (room : Option Int) : Machine × List (Cell Nat Owner) :=
  if w = 0 ∨ h = 0 then (m, [])
  else
    match inUseSession m sessionId with
    | none => (m, [])
    | some i =>
      let vfbW := (m.sessions i).usedWidth
      let vfbH := (m.sessions i).usedHeight
      if x.toNat ≥ vfbW ∨ y.toNat ≥ vfbH then (m, [])
      else
        let m := getVfb m i room
        match (m.sessions i).vfb with
        | none => (m, [])
        | some b => (m, readRect m.memory b.addr vfbW vfbH x y w h)

def sessionManagerSetGfxMode (m : Machine) (sessionId : Nat) (gfxMode : Bool) : Machine :=
  match inUseSession m sessionId with
  | none => m
  | some i => setSession m i (fun s => { s with gfxMode := gfxMode })

/-- `app_native_video_put_pixel` of `kernel/user/launcher_exec.c` in a session under the window
    manager, as an application that runs in the active session calls it.  The rectangles and blits
    of the same file write the same pixels one by one. -/
def appNativeVideoPutPixel (m : Machine) (x y : Int) (color : Nat) (room : Option Int) : Machine :=
  let i := m.active
  if (m.sessions i).inUse = true ∧ (m.sessions i).wmManaged = true
      ∧ (m.sessions i).gfxMode = true then
    let m := getVfb m i room
    match (m.sessions i).vfb with
    | none => m
    | some b =>
      let vw := (m.sessions i).usedWidth
      let vh := (m.sessions i).usedHeight
      if 0 ≤ x ∧ x < vw ∧ 0 ≤ y ∧ y < vh then
        { m with
          memory := write m.memory (b.addr + (y * vw + x)) (i, (m.sessions i).generation) color }
      else m
  else m

/-! ## The console -/

/-- `console_write`; `restoring` is `g_console_restoring_history`. -/
def consoleWrite (m : Machine) (restoring : Bool) (message : CStr) : Machine :=
  let c := m.sessions m.console
  if capTableCheck m.bits c.subjectId capConsoleWrite ≠ .ok then m
  else
    let m := if restoring then m
      else setSession m m.console (fun s => { s with screen := s.screen.append message })
    if c.wmManaged then sessionManagerVfbWrite m m.active message else m

/-- The text of `console_write_prompt`, whose buffer has 64 bytes; a session id is one digit. -/
def promptText (sessionId : Fin 8) (cwd : CStr) : CStr :=
  let prompt := appendString 64 [] ['\n', '[', 's']
  let prompt := appendString 64 prompt [Char.ofNat (48 + sessionId)]
  let prompt := appendString 64 prompt [' ']
  let prompt := appendString 64 prompt cwd
  appendString 64 prompt [']', '>', ' ']

def consoleWritePrompt (m : Machine) : Machine :=
  consoleWrite m false (promptText m.active (m.sessions m.console).cwd.1)

/-- The command `clear`. -/
def consoleClear (m : Machine) : Machine :=
  consoleWritePrompt
    (setSession m m.console (fun s => { s with screen := s.screen.restart }))

/-- `console_restore_screen_history`: the history is written again up to its first terminator. -/
def consoleRestoreScreenHistory (m : Machine) : Machine :=
  let s := (m.sessions m.console).screen
  if s.len = 0 then m
  else consoleWrite m true (((List.finRange 4096).map (fun i => (s.history i).char)))

/-- A command that changes the working directory, which has room for 64 bytes. -/
def consoleChdir (m : Machine) (path : CStr) : Machine :=
  setSession m m.console (fun s => { s with cwd := copyString 64 path })

/-- What `console_init` writes first. -/
def banner : List CStr :=
  ["TEST:START:console\n".toList, "Welcome to SecureOS v0.1.0\n".toList,
    "Type 'help' for available commands.\n".toList, "TEST:PASS:console\n".toList]

def consoleInit (m : Machine) (i : Fin 8) (subject : Nat) : Machine :=
  let m := setSession { m with console := i } i (fun s =>
    { s with subjectId := subject, cwd := copyString 64 ['/'], screen := s.screen.restart })
  consoleWritePrompt (banner.foldl (fun m message => consoleWrite m false message) m)

/-! ## Sessions -/

/-- `session_manager_create_session_at`, and what `session_manager_create_session` does with the
    free record it finds.  The framebuffer fields stay as they are. -/
def createSessionAt (m : Machine) (i : Fin 8) (subject : Nat) : Machine :=
  setSession m i (fun s =>
    { s with inUse := true, subjectId := subject, cwd := copyString 64 ['/'], wmManaged := false,
             screen := s.screen.renew, generation := s.generation + 1 })

/-- The first record that is not in use. -/
def freeRecord (m : Machine) : Option (Fin 8) := Fin.find? (fun i => !(m.sessions i).inUse)

/-- `session_manager_create`: `console_init` binds the new session; the active one gets it back. -/
def sessionManagerCreate (m : Machine) (subject : Nat) : Machine :=
  match freeRecord m with
  | none => m
  | some i =>
    let created := createSessionAt m i subject
    let m := consoleInit created i subject
    if (created.sessions created.active).inUse then { m with console := m.active } else m

/-- `session_manager_destroy`: the framebuffer is not freed, and the record keeps it. -/
def sessionManagerDestroy (m : Machine) (sessionId : Nat) : Machine :=
  match inUseSession m sessionId with
  | none => m
  | some i =>
    if i = m.active then m
    else setSession m i (fun s =>
      { s with inUse := false, gfxMode := false, vfbCursor := ⟨0, 0⟩, vfbWidth := 0,
               vfbHeight := 0, wmManaged := false })

/-- The record `session_manager_switch` creates a session in: a free one of the first four. -/
def switchCreates (m : Machine) (sessionId : Nat) : Option (Fin 8) :=
  if h : sessionId < 4 then
    if (m.sessions ⟨sessionId, by omega⟩).inUse then none else some ⟨sessionId, by omega⟩
  else none

def createForSwitch (m : Machine) (sessionId : Nat) : Machine :=
  match switchCreates m sessionId with
  | none => m
  | some i => createSessionAt m i m.defaultSubjectId

def sessionManagerSwitch (m : Machine) (sessionId : Nat) : Machine :=
  let m := createForSwitch m sessionId
  match inUseSession m sessionId with
  | none => m
  | some i => { m with active := i, console := i }

/-- The way into `session_manager_tick`: the session becomes active and gets the console. -/
def tickBegin (m : Machine) (sessionId : Nat) : Machine :=
  match inUseSession m sessionId with
  | none => m
  | some i => { m with active := i, console := i, ticks := m.active :: m.ticks }

/-- The way out: what was active before is so again, and has the console if in use. -/
def tickEnd (m : Machine) : Machine :=
  match m.ticks with
  | [] => m
  | prev :: ticks =>
    { m with active := prev, ticks := ticks,
             console := if (m.sessions prev).inUse then prev else m.console }

/-- `session_manager_read_output`, with what it copies out. -/
def sessionManagerReadOutput (m : Machine) (sessionId : Nat) (size : Nat) :
    Machine × List (Option Kept) :=
  match inUseSession m sessionId with
  | none => (m, [])
  | some i =>
    let r := (m.sessions i).screen.readOutput size
    (setSession m i (fun s => { s with screen := r.1 }), r.2)

/-! ## The machine -/

/-- A step: the code that runs on the console writes, clears, changes directory, switches or creates
    sessions or draws; a tick of a session begins or ends; the window manager reads and arranges
    sessions; capabilities change. -/
inductive Op where
  | write (message : CStr)
  | clear
  | restoreScreenHistory
  | chdir (path : CStr)
  | putPixel (x y : Int) (color : Nat) (room : Option Int)
  | create (subject : Nat)
  | switch (sessionId : Nat)
  | destroy (sessionId : Nat)
  | tickBegin (sessionId : Nat)
  | tickEnd
  | readOutput (sessionId size : Nat)
  | setWmManaged (sessionId : Nat) (managed : Bool) (room : Option Int)
  | setGfxMode (sessionId : Nat) (gfxMode : Bool)
  | setVfbSize (sessionId : Nat) (width height : BitVec 32)
  | getVfb (sessionId : Nat) (room : Option Int)
  | clearVfb (sessionId : Nat) (room : Option Int)
  | readVfb (sessionId : Nat) (x y w h : BitVec 32) (room : Option Int)
  | tableGrant (subject cap : Nat)
  | tableRevoke (subject cap : Nat)

def step (m : Machine) : Op → Machine
  | .write message => consoleWrite m false message
  | .clear => consoleClear m
  | .restoreScreenHistory => consoleRestoreScreenHistory m
  | .chdir path => consoleChdir m path
  | .putPixel x y color room => appNativeVideoPutPixel m x y color room
  | .create subject => sessionManagerCreate m subject
  | .switch sessionId => sessionManagerSwitch m sessionId
  | .destroy sessionId => sessionManagerDestroy m sessionId
  | .tickBegin sessionId => tickBegin m sessionId
  | .tickEnd => tickEnd m
  | .readOutput sessionId size => (sessionManagerReadOutput m sessionId size).1
  | .setWmManaged sessionId managed room => sessionManagerSetWmManaged m sessionId managed room
  | .setGfxMode sessionId gfxMode => sessionManagerSetGfxMode m sessionId gfxMode
  | .setVfbSize sessionId width height => sessionManagerSetVfbSize m sessionId width height
  | .getVfb sessionId room => (sessionManagerGetVfb m sessionId room).1
  | .clearVfb sessionId room => sessionManagerClearVfb m sessionId room
  | .readVfb sessionId x y w h room => (sessionManagerReadVfb m sessionId x y w h room).1
  | .tableGrant subject cap => { m with bits := (capTableGrant m.bits subject cap).1 }
  | .tableRevoke subject cap => { m with bits := (capTableRevoke m.bits subject cap).1 }

/-- A record as `g_sessions` begins. -/
def emptySession : Session where
  inUse := false
  subjectId := 0
  cwd := copyString 64 ['/']
  wmManaged := false
  screen := ⟨fun _ => ⟨nul, none⟩, 0, 0, [], []⟩
  gfxMode := false
  vfb := none
  vfbWidth := 0
  vfbHeight := 0
  vfbCursor := ⟨0, 0⟩
  generation := 0

/-- `session_manager_start` up to the console's loop: session 0 is the bootstrap subject's, active,
    with the console. -/
def start (bits : Bits) (bootstrap : Nat) : Machine :=
  consoleInit
    (createSessionAt
      ⟨bits, fun _ => emptySession, 0, bootstrap, 0, [], fun _ => ⟨0, none⟩⟩ 0 bootstrap)
    0 bootstrap

end SessionIo
