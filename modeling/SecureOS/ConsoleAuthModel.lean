import SecureOS.CapTableProofs
import Mathlib.Data.Fin.Tuple.Basic

/-! # Authorization prompts of the console

`kernel/core/console.c` asks the user before a disk operation or an unsigned binary goes ahead,
and keeps the answers "always" in a cache of each session. A session on the screen asks at the
keyboard and waits there; a session under the window manager files a prompt in the pending table
of `kernel/event/event_bus.c`, gives up the processor and reads the answer when
`session_manager_tick` runs it again.

A session that waits is its saved frame: the slot of its prompt and the request it is about.
The event bus is the list of what was published, the screen the list of what was written.
Records keep the authorization cache and the correlation counter of their console context, and
nothing of the shell. -/

namespace ConsoleAuth

open Capability CapTable Function

/-! ## The cache -/

/-- `auth_cache_decision_t`, with the zero an unused entry holds. -/
inductive Decision where
  | unset
  | allow
  | deny
deriving DecidableEq, Repr

/-- `console_auth_cache_entry_t`. -/
structure Entry where
  used : Bool
  key : CStr
  decision : Decision
deriving DecidableEq, Repr

/-- `auth_cache`, with its `CONSOLE_AUTH_CACHE_MAX` entries. -/
abbrev Cache := Fin 32 → Entry

/-- `CONSOLE_AUTH_CACHE_KEY_MAX`. -/
def authCacheKeyMax : Nat := 128

/-- `EVENT_PAYLOAD_MAX`. -/
def eventPayloadMax : Nat := 96

/-- `append_string`: as much of the text as the buffer has room for. -/
def appendString (size : Nat) (dst src : CStr) : CStr := dst ++ src.take (size - 1 - dst.length)

def consoleAuthCacheReset : Cache := fun _ => ⟨false, [], .unset⟩

/-- The two categories, `"disk_io"` and `"unsigned"`, and the colon after each part. -/
def diskIoCategory : CStr := ['d', 'i', 's', 'k', '_', 'i', 'o']
def unsignedCategory : CStr := ['u', 'n', 's', 'i', 'g', 'n', 'e', 'd']
def colon : CStr := [':']

def consoleAuthCacheBuildKey (category : CStr) (operation path : Option CStr) : CStr :=
  let key := appendString authCacheKeyMax [] category
  let key := appendString authCacheKeyMax key colon
  let key :=
    match operation with
    | none => key
    | some operation =>
      if operation = [] then key
      else appendString authCacheKeyMax (appendString authCacheKeyMax key operation) colon
  appendString authCacheKeyMax key (path.getD [])

/-- The entry in use under a key. -/
def findKey (cache : Cache) (key : CStr) : Option (Fin 32) :=
  Fin.find? (fun i => (cache i).used && (cache i).key == key)

def consoleAuthCacheLookup (cache : Cache) (key : CStr) : Option Decision :=
  if key = [] then none else (findKey cache key).map (fun i => (cache i).decision)

/-- `console_auth_cache_store`: the cache, and whether the decision was kept. -/
def consoleAuthCacheStore (cache : Cache) (key : CStr) (decision : Decision) : Cache × Bool :=
  if key = [] then (cache, false)
  else
    match findKey cache key with
    | some i => (update cache i { cache i with decision := decision }, true)
    | none =>
      match Fin.find? (fun i => !(cache i).used) with
      | some i => (update cache i ⟨true, key.take (authCacheKeyMax - 1), decision⟩, true)
      | none => (cache, false)

/-! ## Prompts and sessions -/

/-- `auth_prompt_type_t`, as far as the console raises them. -/
inductive PromptType where
  | diskIo
  | unsignedBinary
deriving DecidableEq, Repr

/-- The byte of a prompt type. -/
def PromptType.code : PromptType → Nat
  | .diskIo => 1
  | .unsignedBinary => 2

/-- `auth_response_t`; the keys `n`, `y` and `a` at the keyboard. -/
inductive Response where
  | deny
  | allow
  | allowAlways
deriving DecidableEq, Repr

/-- `pending_auth_request_t`. -/
structure Pending where
  active : Bool
  correlationId : BitVec 64
  sessionId : Nat
  type : PromptType
  description : CStr
  response : Response
  responded : Bool
deriving DecidableEq, Repr

/-- `g_pending_auth`, with its `PENDING_AUTH_MAX` slots. -/
abbrev Pendings := Fin 4 → Pending

/-- A call of one of the two authorization functions. -/
inductive Request where
  | diskIo (operation path : CStr)
  | unsigned (path : Option CStr)
deriving DecidableEq, Repr

/-- The operations `launcher_exec.c` asks about: its callers of `authorize_disk_io` pass one of
    these words. -/
def launcherOperations : List CStr :=
  [['r', 'e', 'a', 'd'], ['a', 'p', 'p', 'e', 'n', 'd'], ['w', 'r', 'i', 't', 'e'], ['l', 's'],
    ['m', 'k', 'd', 'i', 'r'], ['c', 'a', 't'], ['r', 'm'], ['l', 'o', 'a', 'd', 'l', 'i', 'b'],
    ['a', 'b', 'o', 'u', 't']]

/-- `APP_TOKEN_MAX`, the size of the buffers `launcher_exec.c` passes a path from. -/
def appTokenMax : Nat := 64

/-- The calls `launcher_exec.c` makes: one of its words, and the text of a path buffer. -/
def Request.fromLauncher : Request → Bool
  | .diskIo operation path => launcherOperations.contains operation && path.length < appTokenMax
  | .unsigned (some path) => path.length < appTokenMax
  | .unsigned none => false

/-- The frame of a request that waits for its answer. -/
structure Waiting where
  slot : Fin 4
  request : Request
deriving DecidableEq, Repr

/-- A `session_record_t` with its console context; `waiting` is the frame saved when it yielded. -/
structure Session where
  inUse : Bool
  subjectId : Nat
  nextCorrelationId : BitVec 64
  wmManaged : Bool
  cache : Cache
  waiting : Option Waiting

/-- `event_topic_t`, as far as the console publishes. -/
inductive Topic where
  | diskIoRequest
  | diskIoDecision
  | authPrompt
deriving DecidableEq, Repr

/-- An `event_publish` call. -/
structure Published where
  topic : Topic
  subjectId : Nat
  correlationId : BitVec 64
  payload : CStr
deriving DecidableEq, Repr

structure System where
  bits : Bits
  sessions : Fin 8 → Session
  activeSessionId : Nat
  defaultSubjectId : Nat
  pendings : Pendings
  written : List CStr
  published : List Published

/-- `console_write`, which the subject needs `CAP_CONSOLE_WRITE` for. -/
def consoleWrite (s : Fin 8) (y : System) (message : CStr) : System :=
  if capTableCheck y.bits (y.sessions s).subjectId capConsoleWrite ≠ .ok then y
  else { y with written := y.written ++ [message] }

/-- Several writes. -/
def consoleWrites (s : Fin 8) (y : System) (messages : List CStr) : System :=
  messages.foldl (consoleWrite s) y

def eventPublish (s : Fin 8) (y : System) (topic : Topic) (correlationId : BitVec 64)
    (payload : CStr) : System :=
  { y with
    published := y.published ++ [⟨topic, (y.sessions s).subjectId, correlationId, payload⟩] }

/-- An update of one session. -/
def setSession (y : System) (s : Fin 8) (f : Session → Session) : System :=
  { y with sessions := update y.sessions s (f (y.sessions s)) }

/-- `console_next_correlation_id++`. -/
def bumpCorrelationId (y : System) (s : Fin 8) : System :=
  setSession y s (fun c => { c with nextCorrelationId := c.nextCorrelationId + 1 })

/-- `console_auth_cache_store` of an allow decision, with its result not looked at. -/
def storeAllow (y : System) (s : Fin 8) (key : CStr) : System :=
  setSession y s (fun c => { c with cache := (consoleAuthCacheStore c.cache key .allow).1 })

/-! ## Authorization -/

/-- `cap_access_state_t`. -/
inductive Access where
  | deny
  | allow
deriving DecidableEq, Repr

/-- The texts of one authorization function for one request. -/
structure Wording where
  type : PromptType
  key : CStr
  description : CStr
  /-- written when the decision is cached, and then which decision it is -/
  cached : List CStr
  cachedAllow : CStr
  cachedDeny : CStr
  /-- published and written when the user is asked at the keyboard -/
  request : CStr
  asks : List CStr
  allowPayload : CStr
  denyPayload : CStr
  allowed : CStr
  denied : CStr

/-- The texts of `console_authorize_disk_io`. -/
def diskIoWording (operation path : CStr) : Wording where
  type := .diskIo
  key := consoleAuthCacheBuildKey diskIoCategory (some operation) (some path)
  description :=
    let desc := appendString eventPayloadMax [] "Disk ".toList
    let desc := appendString eventPayloadMax desc operation
    let desc := appendString eventPayloadMax desc ": ".toList
    appendString eventPayloadMax desc path
  cached := ["\n[auth-session] Disk operation requested (cached)\n".toList,
    "[auth-session] operation=".toList, operation, " path=".toList, path, "\n".toList]
  cachedAllow := "[auth-session] decision=allow (cached)\n".toList
  cachedDeny := "[auth-session] decision=deny (cached)\n".toList
  request :=
    let payload := appendString eventPayloadMax [] operation
    let payload := appendString eventPayloadMax payload colon
    appendString eventPayloadMax payload path
  asks := ["\n[auth-session] Disk operation requested\n".toList,
    "[auth-session] operation=".toList, operation, " path=".toList, path, "\n".toList,
    "[auth-session] allow? (y/n/a=always): ".toList]
  allowPayload := "allow".toList
  denyPayload := "deny".toList
  allowed := "[auth-session] decision=allow".toList
  denied := "[auth-session] decision=deny\n".toList

/-- `(unknown)`, for a binary without a path. -/
def binaryName (path : Option CStr) : CStr := path.getD "(unknown)".toList

/-- The texts of `console_authorize_unsigned_binary`. -/
def unsignedWording (path : Option CStr) : Wording where
  type := .unsignedBinary
  key := consoleAuthCacheBuildKey unsignedCategory none (some (binaryName path))
  description :=
    let desc := appendString eventPayloadMax [] "Run unsigned: ".toList
    appendString eventPayloadMax desc (binaryName path)
  cached := ["\n[codesign] Unsigned binary check (cached)\n".toList,
    "[codesign] path=".toList, binaryName path, "\n".toList]
  cachedAllow := "[codesign] decision=allow (cached)\n".toList
  cachedDeny := "[codesign] decision=deny (cached)\n".toList
  request :=
    let payload := appendString eventPayloadMax [] "unsigned:".toList
    appendString eventPayloadMax payload (binaryName path)
  asks := ["\n[codesign] WARNING: unsigned binary detected\n".toList,
    "[codesign] path=".toList, binaryName path, "\n".toList,
    "[codesign] This binary has no code signature.\n".toList,
    "[codesign] Run anyway? (y/n/a=always): ".toList]
  allowPayload := "allow-unsigned".toList
  denyPayload := "deny-unsigned".toList
  allowed := "[codesign] decision=allow (user accepted risk)".toList
  denied := "[codesign] decision=deny\n".toList

def Request.wording : Request → Wording
  | .diskIo operation path => diskIoWording operation path
  | .unsigned path => unsignedWording path

/-- The key of the pressed key. -/
def Response.char : Response → CStr
  | .deny => "n".toList
  | .allow => "y".toList
  | .allowAlways => "a".toList

/-- `console_wait_for_yes_no`: the key the user presses is echoed. -/
def consoleWaitForYesNo (s : Fin 8) (y : System) (pressed : Response) : System :=
  consoleWrites s y [pressed.char, "\n".toList]

/-- `console_auth_via_event` up to its first yield: the prompt is filed and published (`none`), or
    refused for want of a slot. -/
def consoleAuthViaEvent (y : System) (s : Fin 8) (request : Request) : System × Option Access :=
  let correlationId := (y.sessions s).nextCorrelationId
  let y := bumpCorrelationId y s
  match Fin.find? (fun k => !(y.pendings k).active) with
  | none => (y, some .deny)
  | some slot =>
    let description := request.wording.description.take (eventPayloadMax - 1)
    let y :=
      { y with
        pendings := update y.pendings slot
          ⟨true, correlationId, s.val, request.wording.type, description, .deny, false⟩ }
    let y := eventPublish s y .authPrompt correlationId
      (Char.ofNat request.wording.type.code
        :: request.wording.description.take (eventPayloadMax - 2))
    let y := consoleWrites s y
      ["\n[auth] ".toList, request.wording.description, "\n[auth] waiting for response...\n".toList]
    (setSession y s (fun c => { c with waiting := some ⟨slot, request⟩ }), none)

/-- The prompt at the keyboard, with the key the user presses. -/
def askAtKeyboard (y : System) (s : Fin 8) (request : Request) (correlationId : BitVec 64)
    (pressed : Response) : System × Option Access :=
  let w := request.wording
  let y := eventPublish s y .diskIoRequest correlationId w.request
  let y := consoleWrites s y w.asks
  let y := consoleWaitForYesNo s y pressed
  if pressed = .deny then
    let y := eventPublish s y .diskIoDecision correlationId w.denyPayload
    (consoleWrite s y w.denied, some .deny)
  else
    let y := if pressed = .allowAlways then storeAllow y s w.key else y
    let y := eventPublish s y .diskIoDecision correlationId w.allowPayload
    let y := consoleWrite s y w.allowed
    let y := if pressed = .allowAlways then consoleWrite s y " (cached)".toList else y
    (consoleWrite s y "\n".toList, some .allow)

/-- What the two authorization functions share. -/
def authorize (y : System) (s : Fin 8) (request : Request) (correlationId : BitVec 64)
    (pressed : Response) : System × Option Access :=
  let w := request.wording
  match consoleAuthCacheLookup (y.sessions s).cache w.key with
  | some decision =>
    let y := consoleWrites s y w.cached
    if decision = .allow then (consoleWrite s y w.cachedAllow, some .allow)
    else (consoleWrite s y w.cachedDeny, some .deny)
  | none =>
    if (y.sessions s).wmManaged then consoleAuthViaEvent y s request
    else askAtKeyboard y s request correlationId pressed

def consoleAuthorizeDiskIo (y : System) (s : Fin 8) (operation path : CStr) (pressed : Response) :
    System × Option Access :=
  let correlationId := (y.sessions s).nextCorrelationId
  let y := bumpCorrelationId y s
  if capTableCheck y.bits (y.sessions s).subjectId capDiskIoRequest ≠ .ok then (y, some .deny)
  else authorize y s (.diskIo operation path) correlationId pressed

def consoleAuthorizeUnsignedBinary (y : System) (s : Fin 8) (path : Option CStr)
    (pressed : Response) : System × Option Access :=
  let correlationId := (y.sessions s).nextCorrelationId
  let y := bumpCorrelationId y s
  authorize y s (.unsigned path) correlationId pressed

/-- One of the two. -/
def authorizeRequest (y : System) (s : Fin 8) (request : Request) (pressed : Response) :
    System × Option Access :=
  match request with
  | .diskIo operation path => consoleAuthorizeDiskIo y s operation path pressed
  | .unsigned path => consoleAuthorizeUnsignedBinary y s path pressed

/-- The answer a waiting request finds when it runs again. -/
def answerIn (pendings : Pendings) (w : Waiting) : Option Response :=
  if (pendings w.slot).responded then some (pendings w.slot).response else none

/-- `session_manager_tick` of a session that yielded, and the rest of its request. -/
def resume (y : System) (s : Fin 8) : System × Option Access :=
  match (y.sessions s).waiting with
  | none => (y, none)
  | some w =>
    match answerIn y.pendings w with
    | none => (y, none)
    | some response =>
      let y :=
        { y with
          pendings := update y.pendings w.slot
            { y.pendings w.slot with active := false } }
      let y := setSession y s (fun c => { c with waiting := none })
      let y := if response = .allowAlways then storeAllow y s w.request.wording.key else y
      (y, some (if response = .deny then .deny else .allow))

/-! ## Answers -/

/-- The active slot a correlation id names first. -/
def findCorrelation (pendings : Pendings) (correlationId : BitVec 64) : Option (Fin 4) :=
  Fin.find? (fun k => (pendings k).active && (pendings k).correlationId == correlationId)

/-- The answer goes into a slot. -/
def answerSlot (pendings : Pendings) (k : Fin 4) (response : Response) : Pendings :=
  update pendings k { pendings k with response := response, responded := true }

def eventRespondAuth (pendings : Pendings) (correlationId : BitVec 64) (response : Response) :
    Pendings :=
  match findCorrelation pendings correlationId with
  | some k => answerSlot pendings k response
  | none => pendings

/-- The response of a window manager's number. -/
def responseOf (raw : Int) : Response :=
  if raw = 0 then .deny else if raw = 1 then .allow else if raw = 2 then .allowAlways else .deny

/-- The slot an index names, if it is active. -/
def activeSlot (pendings : Pendings) (slotIndex : Nat) : Option (Fin 4) :=
  if h : slotIndex < 4 then if (pendings ⟨slotIndex, h⟩).active then some ⟨slotIndex, h⟩ else none
  else none

def appNativeAuthRespond (pendings : Pendings) (slotIndex : Nat) (raw : Int) : Pendings :=
  match activeSlot pendings slotIndex with
  | some k => answerSlot pendings k (responseOf raw)
  | none => pendings

/-! ## Sessions -/

/-- `session_init_context`, which leaves the cache of an earlier session. -/
def sessionInitContext (c : Session) (subject : Nat) : Session :=
  { c with subjectId := subject, nextCorrelationId := 1, wmManaged := false }

/-- `console_init`, as far as authorization goes. -/
def consoleInit (c : Session) (subject : Nat) : Session :=
  { c with subjectId := subject, nextCorrelationId := 1, cache := consoleAuthCacheReset }

def sessionManagerCreate (y : System) (subject : Nat) : System × Option (Fin 8) :=
  match Fin.find? (fun s => !(y.sessions s).inUse) with
  | none => (y, none)
  | some s =>
    (setSession y s (fun c =>
      consoleInit (sessionInitContext { c with inUse := true } subject) subject), some s)

/-- `session_manager_destroy`, of no free or active session; a waiting request goes with its frame.
    -/
def sessionManagerDestroy (y : System) (sessionId : Nat) : System :=
  if h : sessionId < 8 then
    if !(y.sessions ⟨sessionId, h⟩).inUse then y
    else if sessionId = y.activeSessionId then y
    else setSession y ⟨sessionId, h⟩ (fun c =>
      { c with inUse := false, wmManaged := false, waiting := none })
  else y

/-- `session_manager_switch`, which creates the first four sessions on the way. -/
def sessionManagerSwitch (y : System) (sessionId : Nat) : System × Bool :=
  if h : sessionId < 8 then
    if (y.sessions ⟨sessionId, h⟩).inUse then ({ y with activeSessionId := sessionId }, true)
    else if sessionId ≥ 4 then (y, false)
    else
      ({ setSession y ⟨sessionId, h⟩ (fun c =>
          sessionInitContext { c with inUse := true } y.defaultSubjectId) with
          activeSessionId := sessionId }, true)
  else (y, false)

def sessionManagerSetWmManaged (y : System) (sessionId : Nat) (managed : Bool) : System :=
  if h : sessionId < 8 then
    if !(y.sessions ⟨sessionId, h⟩).inUse then y
    else setSession y ⟨sessionId, h⟩ (fun c => { c with wmManaged := managed })
  else y

/-! ## The system as a machine -/

/-- A step: a session asks or runs again, an answer arrives, or sessions and capabilities change. -/
inductive SysOp where
  | request (s : Fin 8) (request : Request) (pressed : Response)
  | tick (s : Fin 8)
  | respondAuth (correlationId : BitVec 64) (response : Response)
  | authRespond (slotIndex : Nat) (raw : Int)
  | create (subject : Nat)
  | destroy (sessionId : Nat)
  | switch (sessionId : Nat)
  | setWmManaged (sessionId : Nat) (managed : Bool)
  | authCacheReset (s : Fin 8)
  | tableGrant (subject cap : Nat)
  | tableRevoke (subject cap : Nat)

/-- A session under the window manager that waits runs nothing else. -/
def canAsk (c : Session) : Bool := c.inUse && !(c.wmManaged && c.waiting.isSome)

/-- A tick continues the saved frame of a session under the window manager. -/
def canResume (c : Session) : Bool := c.inUse && c.wmManaged

def sysStep (y : System) : SysOp → System
  | .request s request pressed =>
    if canAsk (y.sessions s) then (authorizeRequest y s request pressed).1 else y
  | .tick s => if canResume (y.sessions s) then (resume y s).1 else y
  | .respondAuth correlationId response =>
    { y with pendings := eventRespondAuth y.pendings correlationId response }
  | .authRespond slotIndex raw =>
    { y with pendings := appNativeAuthRespond y.pendings slotIndex raw }
  | .create subject => (sessionManagerCreate y subject).1
  | .destroy sessionId => sessionManagerDestroy y sessionId
  | .switch sessionId => (sessionManagerSwitch y sessionId).1
  | .setWmManaged sessionId managed => sessionManagerSetWmManaged y sessionId managed
  | .authCacheReset s =>
    if (y.sessions s).inUse then
      setSession y s (fun c => { c with cache := consoleAuthCacheReset })
    else y
  | .tableGrant subject cap => { y with bits := (capTableGrant y.bits subject cap).1 }
  | .tableRevoke subject cap => { y with bits := (capTableRevoke y.bits subject cap).1 }

/-- A record nobody uses. -/
def emptySession : Session := ⟨false, 0, 1, false, consoleAuthCacheReset, none⟩

/-- `session_manager_start`: session 0 of the bootstrap subject is active. -/
def start (bits : Bits) (bootstrap : Nat) : System where
  bits := bits
  sessions := update (fun _ => emptySession) 0
    { emptySession with inUse := true, subjectId := bootstrap }
  activeSessionId := 0
  defaultSubjectId := bootstrap
  pendings := fun _ => ⟨false, 0, 0, .diskIo, [], .deny, false⟩
  written := []
  published := []

end ConsoleAuth
