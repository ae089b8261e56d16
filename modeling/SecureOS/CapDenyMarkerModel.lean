import SecureOS.CapabilityModel

/-! # The canonical deny marker

`kernel/cap/cap_deny_marker.c`: the line `CAP:DENY:<subject>:<capability>:<resource>` that every
deny path writes to the serial log, as the formatter builds it in a bounded buffer, and the
check of a line against this grammar. -/

namespace CapDenyMarker

open Capability

/-- `CAP_DENY_MARKER_MAX`. -/
def markerMax : Nat := 256

/-- `CAP_DENY_RESOURCE_MAX`. -/
def resourceMax : Nat := 192

def cdmCapNames : List (Nat × CStr) :=
  [(capConsoleWrite, "console_write".toList),
   (capSerialWrite, "serial_write".toList),
   (capDebugExit, "debug_exit".toList),
   (capCapabilityAdmin, "capability_admin".toList),
   (capDiskIoRequest, "disk_io_request".toList),
   (capFsRead, "fs_read".toList),
   (capFsWrite, "fs_write".toList),
   (capEventSubscribe, "event_subscribe".toList),
   (capEventPublish, "event_publish".toList),
   (capAppExec, "app_exec".toList),
   (capCodesignBypass, "codesign_bypass".toList),
   (capNetwork, "network".toList),
   (capIpcSend, "ipc_send".toList),
   (capIpcRecv, "ipc_recv".toList),
   (capSyscall, "syscall".toList),
   (capClockSet, "clock_set".toList),
   (capInputMouse, "input_mouse".toList),
   (capGfxFramebuffer, "gfx_framebuffer".toList),
   (capInputKeyboard, "input_keyboard".toList)]

def capDenyMarkerName (cap : Nat) : Option CStr :=
  (cdmCapNames.find? (fun e => e.1 == cap)).map Prod.snd

def cdmIsPrintableAscii (c : Char) : Bool := 0x20 ≤ c.toNat && c.toNat < 0x7F

/-- `cdm_append` and `cdm_append_u32`: the text behind the buffer so far, if it fits. -/
def cdmAppend (bufSize : Nat) (src : CStr) (buf : CStr) : Option CStr :=
  if buf.length + src.length ≤ bufSize then some (buf ++ src) else none

/-- `cap_deny_marker_format`: the line without its terminator, or nothing for the source's -1. -/
def capDenyMarkerFormat (actor cap : Nat) (resource : Option CStr) (bufSize : Nat) : Option CStr :=
  match resource, capDenyMarkerName cap with
  | some res, some name =>
    if bufSize = 0 then none
    else if res.length > resourceMax then none
    else if res.any (fun c => c == ':' || c == '\n' || !cdmIsPrintableAscii c) then none
    else if res.length = 0 then none
    else do
      let buf ← cdmAppend bufSize "CAP:DENY:".toList []
      let buf ← cdmAppend bufSize (Nat.toDigits 10 actor) buf
      let buf ← cdmAppend bufSize ":".toList buf
      let buf ← cdmAppend bufSize name buf
      let buf ← cdmAppend bufSize ":".toList buf
      let buf ← cdmAppend bufSize res buf
      if buf.length ≥ bufSize then none
      else if buf.length + 1 ≥ bufSize then none
      else some (buf ++ ['\n'])
  | _, _ => none

/-- Why `cap_deny_marker_validate` refuses a line of the log; nothing when it accepts it. -/
def cdmRefusal (line : Option CStr) : Option CStr :=
  match line with
  | none => some "null_line".toList
  | some line =>
    let body := (line.drop "CAP:DENY:".toList.length).dropLast
    if line.length > markerMax then some "line_too_long".toList
    else if !"CAP:DENY:".toList.isPrefixOf line then some "missing_prefix".toList
    else if line.getLast? ≠ some '\n' then some "missing_newline".toList
    else if '\n' ∈ body then some "trailing_garbage".toList
    else if body = [] then some "field_count".toList
    else match body.splitOn ':' with
      | [actor, name, resource] =>
        if actor = [] then some "actor_not_decimal".toList
        else if actor.any (fun c => c < '0' || c > '9') then some "actor_not_decimal".toList
        else if !cdmCapNames.any (fun e => e.2 == name) then some "cap_unknown".toList
        else if resource = [] then some "resource_empty".toList
        else if resource.any (fun c => c == ':' || c == '\n' || !cdmIsPrintableAscii c) then
          some "resource_bad_byte".toList
        else none
      | _ => some "field_count".toList

/-- `cdm_set_reason`: what a reason buffer of the given size receives. -/
def cdmSetReason (reasonSize : Nat) (src : CStr) : Option CStr :=
  if reasonSize = 0 then none else some (src.take (reasonSize - 1))

/-- `cap_deny_marker_validate`: the result, and what is written to the reason buffer. -/
def capDenyMarkerValidate (line : Option CStr) (reasonSize : Nat) : Int × Option CStr :=
  match cdmRefusal line with
  | some why => (-1, cdmSetReason reasonSize why)
  | none => (0, cdmSetReason reasonSize [])

/-- What a deny path writes to standard output: the marker, if it formats. -/
def emitMarker (actor cap : Nat) (resource : CStr) : List CStr :=
  (capDenyMarkerFormat actor cap (some resource) markerMax).toList

end CapDenyMarker
