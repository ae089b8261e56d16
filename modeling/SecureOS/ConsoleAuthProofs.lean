import SecureOS.ConsoleAuthModel
import SecureOS.Lib.MachineRunProofs
import Mathlib.Data.List.TakeWhile

/-! # What an authorization request can do, and that consent is specific

A request is decided at once, asked at the keyboard, or left waiting for the window manager.  An
answer "always" is kept under a key made of the category, the operation and the path, cut to the
127 characters of an entry.

* `launcher_consent_specific` — over every run of the launcher's requests, what is allowed
  silently was answered "always" before, for the same request. -/

namespace ConsoleAuth

open Capability CapTable MachineRun Function List

/-! ## Apart from the logs -/

/-- The system without what was written and published. -/
def System.core (y : System) : System := { y with written := [], published := [] }

@[simp] theorem core_consoleWrite (s : Fin 8) (y : System) (message : CStr) :
    (consoleWrite s y message).core = y.core := by
  unfold consoleWrite
  split <;> rfl

@[simp] theorem core_consoleWrites (s : Fin 8) (messages : List CStr) :
    ∀ y : System, (consoleWrites s y messages).core = y.core := by
  induction messages with
  | nil => intro y; rfl
  | cons m messages ih =>
    intro y
    show (consoleWrites s (consoleWrite s y m) messages).core = y.core
    rw [ih, core_consoleWrite]

@[simp] theorem core_eventPublish (s : Fin 8) (y : System) (topic : Topic) (c : BitVec 64)
    (payload : CStr) : (eventPublish s y topic c payload).core = y.core := rfl

@[simp] theorem core_setSession (y : System) (s : Fin 8) (f : Session → Session) :
    (setSession y s f).core = setSession y.core s f := rfl

@[simp] theorem core_bumpCorrelationId (y : System) (s : Fin 8) :
    (bumpCorrelationId y s).core = bumpCorrelationId y.core s := rfl

@[simp] theorem core_storeAllow (y : System) (s : Fin 8) (key : CStr) :
    (storeAllow y s key).core = storeAllow y.core s key := rfl

/-- The system with other pending prompts. -/
def setPendings (y : System) (p : Pendings) : System := { y with pendings := p }

theorem setSession_setSession (y : System) (s : Fin 8) (f g : Session → Session) :
    setSession (setSession y s f) s g = setSession y s (fun c => g (f c)) := by
  unfold setSession
  simp

@[simp] theorem setSession_self (y : System) (s : Fin 8) (f : Session → Session) :
    (setSession y s f).sessions s = f (y.sessions s) := update_self ..

/-! ## The cases of a request -/

/-- The capability a request needs. -/
def capOk (y : System) (s : Fin 8) : Request → Bool
  | .diskIo _ _ => capTableCheck y.bits (y.sessions s).subjectId capDiskIoRequest = .ok
  | .unsigned _ => true

/-- What the cache of a session says about a request. -/
def cached (y : System) (s : Fin 8) (request : Request) : Option Decision :=
  consoleAuthCacheLookup (y.sessions s).cache request.wording.key

/-- **A REQUEST** is decided at once, allowed for good at the keyboard, or waits in a slot that was
    free. -/
inductive Asks (y : System) (s : Fin 8) (request : Request) (pressed : Response)
    (result : System × Option Access) : Prop where
  | decided (n : BitVec 64) (access : Access)
      (hcore : result.1.core = setSession y.core s (fun c => { c with nextCorrelationId := n }))
      (haccess : result.2 = some access)
      (hallow : access = .allow → cached y s request = some .allow ∨ pressed = .allow)
  | always (n : BitVec 64) (hpressed : pressed = .allowAlways)
      (hasked : capOk y s request = true ∧ cached y s request = none
        ∧ (y.sessions s).wmManaged = false)
      (hcore : result.1.core = setSession y.core s (fun c =>
        { c with
          nextCorrelationId := n
          cache := (consoleAuthCacheStore c.cache request.wording.key .allow).1 }))
      (haccess : result.2 = some .allow)
  | waits (n correlationId : BitVec 64) (slot : Fin 4) (description : CStr)
      (hmanaged : (y.sessions s).wmManaged = true) (hfree : (y.pendings slot).active = false)
      (hcore : result.1.core
        = setPendings (setSession y.core s (fun c =>
            { c with nextCorrelationId := n, waiting := some ⟨slot, request⟩ }))
          (update y.pendings slot
            ⟨true, correlationId, s.val, request.wording.type, description, .deny, false⟩))
      (haccess : result.2 = none)

section

variable (y : System) (s : Fin 8) (request : Request)

theorem askAtKeyboard_core (c : BitVec 64)
    (pressed : Response) : (askAtKeyboard y s request c pressed).1.core
        = (if pressed = .allowAlways then storeAllow y.core s request.wording.key else y.core)
      ∧ (askAtKeyboard y s request c pressed).2
        = some (if pressed = .deny then .deny else .allow) := by
  cases pressed with
  | _ => simp [askAtKeyboard, consoleWaitForYesNo]

theorem consoleAuthViaEvent_cases : (Fin.find? (fun k => !(y.pendings k).active) = none
        ∧ consoleAuthViaEvent y s request = (bumpCorrelationId y s, some .deny))
      ∨ ∃ slot description, (y.pendings slot).active = false
        ∧ (consoleAuthViaEvent y s request).1.core
          = setPendings (setSession (bumpCorrelationId y.core s) s (fun c =>
              { c with waiting := some ⟨slot, request⟩ }))
            (update y.pendings slot
              ⟨true, (y.sessions s).nextCorrelationId, s.val, request.wording.type, description,
                .deny, false⟩)
        ∧ (consoleAuthViaEvent y s request).2 = none := by
  have hp : (bumpCorrelationId y s).pendings = y.pendings := rfl
  unfold consoleAuthViaEvent
  dsimp only
  rw [hp]
  cases hf : Fin.find? (fun k => !(y.pendings k).active) with
  | none => exact Or.inl ⟨rfl, rfl⟩
  | some slot =>
    have hfree := (Fin.find?_eq_some_iff.mp hf).1
    refine Or.inr ⟨slot, request.wording.description.take (eventPayloadMax - 1),
      by simpa using hfree, ?_, rfl⟩
    simp only [core_setSession, core_consoleWrites]
    rfl

theorem authorize_asks (c n : BitVec 64) (pressed : Response) (y₀ : System)
    (hy : y = setSession y₀ s (fun c => { c with nextCorrelationId := n }))
    (hcap : capOk y₀ s request = true) :
    Asks y₀ s request pressed (authorize y s request c pressed) := by
  have hcache : (y.sessions s).cache = (y₀.sessions s).cache := by rw [hy, setSession_self]
  have hmanaged : (y.sessions s).wmManaged = (y₀.sessions s).wmManaged := by
    rw [hy, setSession_self]
  have hcore : y.core = setSession y₀.core s (fun c => { c with nextCorrelationId := n }) := by
    rw [hy]
    rfl
  have hpend : y.pendings = y₀.pendings := by rw [hy]; rfl
  unfold authorize
  dsimp only
  rw [hcache]
  cases hlook : consoleAuthCacheLookup (y₀.sessions s).cache request.wording.key with
  | some =>
    dsimp only
    split_ifs with hd
    · exact .decided n .allow (by simp [hcore]) rfl (fun _ => Or.inl (by rw [cached, hlook, hd]))
    · exact .decided n .deny (by simp [hcore]) rfl nofun
  | none =>
    rw [hmanaged]
    split_ifs with hm
    · obtain ⟨-, he⟩ | ⟨slot, description, hfree, he, hnone⟩ :=
        consoleAuthViaEvent_cases y s request
      · -- no slot is free: the second id is used up all the same
        rw [he]
        refine .decided (n + 1) .deny ?_ rfl nofun
        rw [core_bumpCorrelationId, hcore, bumpCorrelationId, setSession_setSession]
      · refine .waits (n + 1) (y.sessions s).nextCorrelationId slot description hm
          (hpend ▸ hfree) ?_ hnone
        rw [he, hcore, hpend, bumpCorrelationId, setSession_setSession, setSession_setSession]
    · obtain ⟨he, hacc⟩ := askAtKeyboard_core y s request c pressed
      cases pressed with
      | deny => exact .decided n .deny (by rw [he, hcore]; rfl) hacc nofun
      | allow => exact .decided n .allow (by rw [he, hcore]; rfl) hacc (fun _ => Or.inr rfl)
      | allowAlways =>
        refine .always n rfl ⟨hcap, hlook, by simpa using hm⟩ ?_ hacc
        rw [he, if_pos rfl, hcore, storeAllow, setSession_setSession]

theorem authorizeRequest_asks (pressed : Response) :
    Asks y s request pressed (authorizeRequest y s request pressed) := by
  cases request with
  | diskIo operation path =>
    show Asks y s _ pressed (consoleAuthorizeDiskIo y s operation path pressed)
    unfold consoleAuthorizeDiskIo
    dsimp only
    have hsub : ((bumpCorrelationId y s).sessions s).subjectId = (y.sessions s).subjectId := by
      rw [bumpCorrelationId, setSession_self]
    rw [hsub]
    split_ifs with hcap
    · exact .decided _ .deny rfl rfl nofun
    · exact authorize_asks _ s _ _ _ pressed y rfl (decide_eq_true (not_not.mp hcap))
  | unsigned => exact authorize_asks _ s _ _ _ pressed y rfl rfl

end

/-- **A TICK** finds no answer, or returns it and frees the slot. -/
inductive Resumes (y : System) (s : Fin 8) (result : System × Option Access) : Prop where
  | idle (hno : ∀ w, (y.sessions s).waiting = some w → answerIn y.pendings w = none)
      (hsys : result.1 = y)
  | returned (w : Waiting) (response : Response) (hw : (y.sessions s).waiting = some w)
      (hanswer : answerIn y.pendings w = some response)
      (hsys : result.1
        = setPendings (setSession y s (fun c =>
            { c with
              waiting := none
              cache :=
                if response = .allowAlways then
                  (consoleAuthCacheStore c.cache w.request.wording.key .allow).1
                else c.cache }))
          (update y.pendings w.slot { y.pendings w.slot with active := false }))

theorem resume_resumes (y : System) (s : Fin 8) : Resumes y s (resume y s) := by
  unfold resume
  cases hw : (y.sessions s).waiting with
  | none => exact .idle (fun w h => by rw [hw] at h; cases h) rfl
  | some w =>
    dsimp only
    cases ha : answerIn y.pendings w with
    | none =>
      refine .idle (fun w' h => ?_) rfl
      obtain rfl := Option.some.inj (hw.symm.trans h)
      exact ha
    | some response =>
      refine .returned w response hw ha ?_
      cases response with
      | deny => rfl
      | allow => rfl
      | allowAlways =>
        rw [storeAllow, setSession_setSession]
        rfl

/-! ## Managing sessions -/

/-- A step that is neither a request nor a tick nor an answer. -/
def SysOp.manages : SysOp → Bool
  | .request _ _ _ | .tick _ | .respondAuth _ _ | .authRespond _ _ => false
  | _ => true

/-- **MANAGING SESSIONS** leaves the prompts, and at most changes a record that keeps its frame or
    destroys one. -/
inductive Manages (y : System) (op : SysOp) (sessions : Fin 8 → Session) : Prop where
  | same (hsessions : sessions = y.sessions)
  | changed (s : Fin 8) (c : Session) (hsessions : sessions = update y.sessions s c)
      (hcache : c.cache = (y.sessions s).cache ∨ c.cache = consoleAuthCacheReset)
      (hwaiting : c.waiting = (y.sessions s).waiting)
      (hinUse : c.inUse = true ∨ c.inUse = (y.sessions s).inUse)
  | dropped (s : Fin 8) (c : Session) (hsessions : sessions = update y.sessions s c)
      (hop : op = .destroy s.val) (hactive : s.val ≠ y.activeSessionId)
      (hcache : c.cache = (y.sessions s).cache) (hwaiting : c.waiting = none)

variable {op : SysOp} {request : Request} {y : System} {s : Fin 8}
  {history : List (Fin 8 × Request)}

theorem sysStep_manages (y : System) (hop : op.manages) :
    (sysStep y op).pendings = y.pendings ∧ Manages y op (sysStep y op).sessions := by
  cases op with
  | create =>
    rw [sysStep, sessionManagerCreate]
    split
    · exact ⟨rfl, .same rfl⟩
    case h_2 s _ => exact ⟨rfl, .changed s _ rfl (.inr rfl) rfl (.inl rfl)⟩
  | destroy sessionId =>
    rw [sysStep, sessionManagerDestroy]
    split_ifs with hid _ hactive
    · exact ⟨rfl, .same rfl⟩
    · exact ⟨rfl, .same rfl⟩
    · exact ⟨rfl, .dropped ⟨sessionId, hid⟩ _ rfl rfl hactive rfl rfl⟩
    · exact ⟨rfl, .same rfl⟩
  | switch sessionId =>
    rw [sysStep, sessionManagerSwitch]
    split_ifs with hid
    · exact ⟨rfl, .same rfl⟩
    · exact ⟨rfl, .same rfl⟩
    · exact ⟨rfl, .changed ⟨sessionId, hid⟩ _ rfl (.inl rfl) rfl (.inl rfl)⟩
    · exact ⟨rfl, .same rfl⟩
  | setWmManaged sessionId =>
    rw [sysStep, sessionManagerSetWmManaged]
    split_ifs with hid
    · exact ⟨rfl, .same rfl⟩
    · exact ⟨rfl, .changed ⟨sessionId, hid⟩ _ rfl (.inl rfl) rfl (.inr rfl)⟩
    · exact ⟨rfl, .same rfl⟩
  | authCacheReset s =>
    rw [sysStep]
    split
    · exact ⟨rfl, .changed s _ rfl (.inr rfl) rfl (.inr rfl)⟩
    · exact ⟨rfl, .same rfl⟩
  | _ => first | exact ⟨rfl, .same rfl⟩ | cases hop

/-! ## Keys -/

/-- Appending to a cut text and cutting is cutting the whole. -/
theorem appendString_take (n : Nat) (x y : CStr) :
    appendString n (x.take (n - 1)) y = (x ++ y).take (n - 1) := by
  rw [appendString, take_append, length_take]
  congr 2
  omega

/-- The text a key is cut from. -/
def Request.fullKey : Request → CStr
  | .diskIo operation path =>
    diskIoCategory ++ colon ++ (if operation = [] then [] else operation ++ colon) ++ path
  | .unsigned path => unsignedCategory ++ colon ++ binaryName path

/-- **THE KEY** of a request is its full text, cut to 127 characters. -/
theorem key_eq (request : Request) :
    request.wording.key = request.fullKey.take (authCacheKeyMax - 1) := by
  have hstart : ∀ x : CStr, appendString authCacheKeyMax [] x = x.take (authCacheKeyMax - 1) := by
    intro _
    rfl
  cases request with
  | diskIo =>
    rw [Request.wording, diskIoWording]
    unfold consoleAuthCacheBuildKey Request.fullKey
    dsimp only [Option.getD]
    rw [hstart, appendString_take]
    split_ifs
    · rw [appendString_take, append_nil]
    · rw [appendString_take, appendString_take, appendString_take]
      simp only [append_assoc]
  | unsigned =>
    rw [Request.wording, unsignedWording]
    unfold consoleAuthCacheBuildKey Request.fullKey
    dsimp only [Option.getD]
    rw [hstart, appendString_take, appendString_take]

/-- The operation is a word without a colon, the path is there, and the key is not cut. -/
def Request.plain : Request → Bool
  | .diskIo operation path =>
    operation ≠ [] && !operation.contains ':' && operation.length + path.length ≤ 118
  | .unsigned (some path) => path.length ≤ 118
  | .unsigned none => false

theorem plain_length (h : request.plain) : request.fullKey.length ≤ authCacheKeyMax - 1 := by
  have h127 : authCacheKeyMax - 1 = 127 := rfl
  cases request with
  | diskIo operation path =>
    simp only [Request.plain, Bool.and_eq_true, decide_eq_true_eq] at h
    have hlen : ((diskIoCategory ++ colon) ++ (operation ++ colon) ++ path).length
        = 8 + (operation.length + 1) + path.length := by
      simp only [length_append]
      rfl
    rw [Request.fullKey, if_neg h.1.1]
    omega
  | unsigned path =>
    cases path with
    | none => exact absurd h Bool.false_ne_true
    | some path =>
      simp only [Request.plain, decide_eq_true_eq] at h
      have hlen : ((unsignedCategory ++ colon) ++ path).length = 9 + path.length := by
        rw [length_append]
        rfl
      rw [Request.fullKey, binaryName, Option.getD_some]
      omega

theorem plain_key (h : request.plain) : request.wording.key = request.fullKey := by
  rw [key_eq, take_of_length_le (plain_length h)]

/-- A word without a colon is what stands before the first colon. -/
theorem before_colon {x x' y y' : CStr} (hx : ':' ∉ x) (hx' : ':' ∉ x')
    (h : x ++ ':' :: y = x' ++ ':' :: y') : x = x' ∧ y = y' := by
  have hcut : ∀ {x y : CStr}, ':' ∉ x → (x ++ ':' :: y).takeWhile (· ≠ ':') = x := by
    intro x y hx
    rw [takeWhile_append_of_pos (fun c hc =>
      decide_eq_true (show c ≠ ':' from fun he => hx (he ▸ hc)))]
    simp
  have hxx : x = x' := by rw [← hcut hx (y := y), h, hcut hx']
  subst hxx
  exact ⟨rfl, (cons.inj (append_cancel_left h)).2⟩

theorem diskIo_ne_unsigned (operation path : CStr) (path' : Option CStr) :
    (Request.diskIo operation path).fullKey.head? ≠ (Request.unsigned path').fullKey.head? := by
  show some 'd' ≠ some 'u'
  decide

/-- **PLAIN KEYS** tell requests apart. -/
theorem plain_key_inj (h : request.plain) (h' : request'.plain)
    (hkey : request.wording.key = request'.wording.key) : request = request' := by
  rw [plain_key h, plain_key h'] at hkey
  cases request with
  | diskIo _ path =>
    cases request' with
    | diskIo _ path' =>
      simp only [Request.plain, Bool.and_eq_true, decide_eq_true_eq, Bool.not_eq_true',
        contains_eq_mem, decide_eq_false_iff_not] at h h'
      rw [Request.fullKey, Request.fullKey, if_neg h.1.1, if_neg h'.1.1, append_assoc,
        append_assoc _ _ path', append_assoc _ _ path, append_assoc _ _ path']
        at hkey
      -- the operations have no colon, so the next one ends both of them
      obtain ⟨rfl, rfl⟩ := before_colon h.1.2 h'.1.2 (append_cancel_left hkey)
      rfl
    | unsigned => exact absurd (congrArg List.head? hkey) (diskIo_ne_unsigned _ _ _)
  | unsigned path =>
    cases request' with
    | diskIo => exact absurd (congrArg List.head? hkey.symm) (diskIo_ne_unsigned _ _ _)
    | unsigned path' =>
      obtain _ | path := path
      · cases h
      obtain _ | path' := path'
      · cases h'
      have hp : path = path' := append_cancel_left hkey
      rw [hp]

/-! ## Consent -/

/-- The answers "always" a step takes, at the keyboard or by the request that waited for it. -/
def consents (y : System) : SysOp → List (Fin 8 × Request)
  | .request s request pressed =>
    if canAsk (y.sessions s) && capOk y s request && (cached y s request).isNone
        && !(y.sessions s).wmManaged && pressed = .allowAlways then [(s, request)]
    else []
  | .tick s =>
    match (y.sessions s).waiting with
    | some w =>
      if canResume (y.sessions s) && answerIn y.pendings w = some .allowAlways then
        [(s, w.request)]
      else []
    | none => []
  | _ => []

/-- The request is allowed although the user would say no. -/
def SilentlyAllowed (y : System) (s : Fin 8) (request : Request) : Prop :=
  canAsk (y.sessions s) ∧ (authorizeRequest y s request .deny).2 = some .allow

theorem cached_of_silentlyAllowed (h : SilentlyAllowed y s request) :
    cached y s request = some .allow := by
  cases authorizeRequest_asks y s request .deny with
  | decided _ _ _ haccess hallow =>
    exact (hallow (Option.some.inj (haccess.symm.trans h.2))).resolve_right nofun
  | always _ hpressed => cases hpressed
  | waits _ _ _ _ _ _ _ haccess => cases haccess.symm.trans h.2

/-- Every entry in use was consented to, and every request that waits is plain. -/
structure Backed (history : List (Fin 8 × Request)) (s : Fin 8) (c : Session) : Prop where
  entries : ∀ i, (c.cache i).used = true →
    ∃ request, request.plain = true ∧ (c.cache i).key = request.wording.key
      ∧ (s, request) ∈ history
  frame : ∀ w, c.waiting = some w → w.request.plain = true

theorem Backed.mono (h : Backed history s c) (hsub : history ⊆ history') : Backed history' s c where
  entries i hi := by
    obtain ⟨request, hp, hk, hm⟩ := h.entries i hi
    exact ⟨request, hp, hk, hsub hm⟩
  frame := h.frame

/-- Storing an answer keeps the cache backed. -/
theorem backed_store (h : Backed history s c) (hp : request.plain)
    (hm : (s, request) ∈ history) (i : Fin 32)
    (hi : ((consoleAuthCacheStore c.cache request.wording.key .allow).1 i).used) :
    ∃ request', request'.plain
      ∧ ((consoleAuthCacheStore c.cache request.wording.key .allow).1 i).key = request'.wording.key
      ∧ (s, request') ∈ history := by
  revert hi
  fun_cases consoleAuthCacheStore c.cache request.wording.key .allow with
  | case1 | case4 => exact h.entries i
  | case2 _ j =>
    dsimp only
    rw [update_apply]
    split_ifs with hij
    · -- only the decision of the entry is written
      exact hij ▸ h.entries j
    · exact h.entries i
  | case3 =>
    dsimp only
    rw [update_apply]
    split_ifs
    · refine fun _ => ⟨request, hp, ?_, hm⟩
      rw [plain_key hp]
      exact take_of_length_le (plain_length hp)
    · exact h.entries i

/-- A step that rewrites one session keeps the others backed. -/
theorem backed_set (hsub : history ⊆ history') (h : ∀ t, Backed history t (sessions t))
    (hs : sessions' = update sessions s c) (hc : Backed history' s c) (t : Fin 8) :
    Backed history' t (sessions' t) := by
  rw [hs, update_apply]
  split_ifs with ht
  · exact ht ▸ hc
  · exact (h t).mono hsub

/-- The requests of a step are plain. -/
def SysOp.plain : SysOp → Bool
  | .request _ r _ => r.plain
  | _ => true

section

variable (h : ∀ t, Backed history t (y.sessions t))
include h

theorem backed_request (s : Fin 8) (hplain : request.plain) (pressed : Response) (t : Fin 8) :
    Backed (history ++ consents y (.request s request pressed)) t
      ((sysStep y (.request s request pressed)).sessions t) := by
  have hsub := subset_append_left history (consents y (.request s request pressed))
  have hkeep := fun t => (h t).mono hsub
  cases hask : canAsk (y.sessions s) with
  | false =>
    rw [sysStep, hask]
    exact hkeep t
  | true =>
    rw [sysStep, hask]
    cases authorizeRequest_asks y s request pressed with
    | decided _ _ hcore =>
      have hs := congrArg System.sessions hcore
      exact backed_set hsub h hs ⟨(hkeep s).entries, (hkeep s).frame⟩ t
    | always _ hpressed hasked hcore =>
      have hm : (s, request) ∈ history ++ consents y (.request s request pressed) := by
        rw [consents, hask, hasked.1, hasked.2.1, hasked.2.2, hpressed]
        exact mem_append_right _ (mem_singleton.mpr rfl)
      have hs := congrArg System.sessions hcore
      exact backed_set hsub h hs ⟨backed_store (hkeep s) hplain hm, (hkeep s).frame⟩ t
    | waits _ _ _ _ _ _ hcore =>
      have hs := congrArg System.sessions hcore
      refine backed_set hsub h hs ⟨(hkeep s).entries, fun w hw => ?_⟩ t
      obtain rfl := Option.some.inj hw
      exact hplain

theorem backed_tick (s t : Fin 8) :
    Backed (history ++ consents y (.tick s)) t ((sysStep y (.tick s)).sessions t) := by
  have hsub := subset_append_left history (consents y (.tick s))
  have hkeep := fun t => (h t).mono hsub
  cases hres : canResume (y.sessions s) with
  | false =>
    rw [sysStep, hres]
    exact hkeep t
  | true =>
    rw [sysStep, hres]
    cases resume_resumes y s with
    | idle _ hsys =>
      rw [hsys]
      exact hkeep t
    | returned w response hw hanswer hsys =>
      have hs := congrArg System.sessions hsys
      refine backed_set hsub h hs ?_ t
      refine ⟨fun i hi => ?_, fun w' hw' => by cases hw'⟩
      by_cases hr : response = .allowAlways
      · -- the frame kept the request the answer is for
        have hm : (s, w.request) ∈ history ++ consents y (.tick s) := by
          rw [consents, hw]
          dsimp only
          rw [hres, hanswer, hr]
          exact mem_append_right _ (mem_singleton.mpr rfl)
        simp only [if_pos hr] at hi ⊢
        exact backed_store (hkeep s) ((h s).frame w hw) hm i hi
      · simp only [if_neg hr] at hi ⊢
        exact (hkeep s).entries i hi

theorem backed_manages (hop : op.manages)
    (t : Fin 8) : Backed history t ((sysStep y op).sessions t) := by
  have hself : history ⊆ history := List.Subset.refl _
  cases (sysStep_manages y hop).2 with
  | same hsessions =>
    rw [hsessions]
    exact h t
  | changed s _ hsessions hcache hwaiting =>
    refine backed_set hself h hsessions ⟨fun i hi => ?_, fun w hw => ?_⟩ t
    · obtain hcache | hcache := hcache
      · rw [hcache] at hi ⊢
        exact (h s).entries i hi
      · rw [hcache] at hi
        exact absurd hi Bool.false_ne_true
    · exact (h s).frame w (hwaiting ▸ hw)
  | dropped s _ hsessions _ _ hcache hwaiting =>
    refine backed_set hself h hsessions ⟨fun i hi => ?_, fun w hw => ?_⟩ t
    · rw [hcache] at hi ⊢
      exact (h s).entries i hi
    · rw [hwaiting] at hw
      cases hw

theorem backed_step (hop : op.plain) (t : Fin 8) :
    Backed (history ++ consents y op) t ((sysStep y op).sessions t) := by
  have hsub : history ⊆ history ++ consents y op := subset_append_left _ _
  cases op with
  | request s _ pressed => exact backed_request h s hop pressed t
  | tick s => exact backed_tick h s t
  | respondAuth | authRespond => exact (h t).mono hsub
  | _ => exact (backed_manages h rfl t).mono hsub

end

theorem backed_start (bits : Bits) (bootstrap : Nat) (t : Fin 8) :
    Backed [] t ((start bits bootstrap).sessions t) := by
  have hempty : ∀ c : Session, c.cache = consoleAuthCacheReset → c.waiting = none →
      Backed [] t c := by
    intro _ hc hw
    refine ⟨fun i hi => ?_, fun w hw' => ?_⟩
    · rw [hc] at hi
      exact absurd hi Bool.false_ne_true
    · cases hw.symm.trans hw'
  show Backed [] t (update (fun _ => emptySession) 0 _ t)
  rw [update_apply]
  split_ifs <;> exact hempty _ rfl rfl

theorem backed_run (bits : Bits) (bootstrap : Nat) (ops : List SysOp)
    (hops : ∀ op ∈ ops, op.plain) (t : Fin 8) :
    Backed (emitted sysStep consents (start bits bootstrap) ops) t
      ((run sysStep (start bits bootstrap) ops).sessions t) := by
  refine run_history consents (J := fun ops y history => (∀ op ∈ ops, op.plain = true) →
      ∀ t, Backed history t (y.sessions t))
    (fun _ t => backed_start bits bootstrap t) (fun ops y history op ih _ hops => ?_) ops hops t
  exact backed_step (ih fun op' hop' => hops op' (mem_append_left _ hop'))
    (hops op (mem_append_right _ (mem_singleton.mpr rfl)))

/-- A plain request that is allowed silently was answered "always" before in that session. -/
theorem consented_of_silentlyAllowed (hb : Backed history s (y.sessions s)) (hp : request.plain)
    (hsilent : SilentlyAllowed y s request) : (s, request) ∈ history := by
  have hcached := cached_of_silentlyAllowed hsilent
  unfold cached consoleAuthCacheLookup at hcached
  split at hcached
  · cases hcached
  · rw [Option.map_eq_some_iff] at hcached
    obtain ⟨i, hi, -⟩ := hcached
    -- the entry that is found is in use, so some request was consented to
    have hfound := (Fin.find?_eq_some_iff.mp hi).1
    rw [Bool.and_eq_true, beq_iff_eq] at hfound
    obtain ⟨_, hp', hkey, hm⟩ := hb.entries i hfound.1
    obtain rfl := plain_key_inj hp hp' (hfound.2.symm.trans hkey)
    exact hm

/-! ## The requests of the launcher -/

/-- **THE LAUNCHER'S REQUESTS** are plain: its words are short and have no colon, and its paths come
    out of small buffers. -/
theorem launcher_requests_plain (h : request.fromLauncher) : request.plain := by
  have hwords : ∀ w ∈ launcherOperations, w ≠ [] ∧ w.contains ':' = false ∧ w.length ≤ 7 := by
    decide
  have h64 : appTokenMax = 64 := rfl
  cases request with
  | diskIo operation path =>
    simp only [Request.fromLauncher, Bool.and_eq_true, contains_iff_mem, decide_eq_true_eq] at h
    obtain ⟨hne, hcolon, hlen⟩ := hwords operation h.1
    simp only [Request.plain, hcolon, Bool.not_false, Bool.and_true, Bool.and_eq_true,
      decide_eq_true_eq]
    exact ⟨hne, by omega⟩
  | unsigned path =>
    cases path with
    | none => exact absurd h Bool.false_ne_true
    | some path =>
      simp only [Request.fromLauncher, Request.plain, decide_eq_true_eq] at h ⊢
      omega

/-- The request of a step comes from the launcher. -/
def SysOp.fromLauncher : SysOp → Bool
  | .request _ r _ => r.fromLauncher
  | _ => true

theorem launcher_ops_plain (h : op.fromLauncher) : op.plain := by
  cases op with
  | request => exact launcher_requests_plain h
  | _ => rfl

/-- **CONSENT TO THE LAUNCHER** is specific: in every run of its requests, one that is allowed
    silently was answered "always" before in that session, for the same category, operation and
    path; and no cache entry stands for two of its requests. -/
theorem launcher_consent_specific (bits : Bits) (bootstrap : Nat) (ops : List SysOp)
    (hops : ∀ op ∈ ops, op.fromLauncher = true) :
    let y := run sysStep (start bits bootstrap) ops
    (∀ (s : Fin 8) (request : Request), request.fromLauncher = true →
        SilentlyAllowed y s request →
        (s, request) ∈ emitted sysStep consents (start bits bootstrap) ops)
      ∧ ∀ (s : Fin 8) (i : Fin 32) (request request' : Request),
        request.fromLauncher = true → request'.fromLauncher = true →
        ((y.sessions s).cache i).key = request.wording.key →
        ((y.sessions s).cache i).key = request'.wording.key → request = request' := by
  intro y
  refine ⟨fun s request h => ?_, fun s i request request' h h' hkey hkey' => ?_⟩
  · have hbacked := backed_run bits bootstrap ops (fun op hop => launcher_ops_plain (hops op hop)) s
    exact consented_of_silentlyAllowed hbacked (launcher_requests_plain h)
  · exact plain_key_inj (launcher_requests_plain h) (launcher_requests_plain h')
      (hkey.symm.trans hkey')

/-- Subject 0 may ask for disk operations. -/
def diskBits : Bits := (capTableGrant capTableReset 0 capDiskIoRequest).1

/-- To read, and to remove, the longest path that fits. -/
def readLong : Request := .diskIo ['r', 'e', 'a', 'd'] (List.replicate 63 'a')
def removeLong : Request := .diskIo ['r', 'm'] (List.replicate 63 'a')

/-- Session 0 is asked twice: always to read, and this once to remove. -/
def askedTwice : List SysOp := [.request 0 readLong .allowAlways, .request 0 removeLong .allow]

/-- After that the read is silent and the removal is asked about again. -/
theorem launcher_consent_specific_read :
    (0, readLong) ∈ emitted sysStep consents (start diskBits 0) askedTwice
      ∧ ¬ SilentlyAllowed (run sysStep (start diskBits 0) askedTwice) 0 removeLong := by
  have h := (launcher_consent_specific diskBits 0 askedTwice (by decide)).1
  refine ⟨h 0 readLong (by decide) ⟨by decide +kernel, by decide +kernel⟩, fun hs => ?_⟩
  have hm := h 0 removeLong (by decide) hs
  revert hm
  decide +kernel

end ConsoleAuth
