import Mathlib.Data.Fin.Tuple.Basic

/-! # Sessions, as the owner cascade uses them

`kernel/core/session_manager.c`: eight session records and the id of the active one.  Only the
fields that the cascade reads are kept; the console context and the framebuffer of a record are
not. -/

namespace SessionManager

/-- A `session_record_t`: its in-use flag and its owner. -/
structure Session where
  inUse : Bool
  subjectId : Nat
deriving DecidableEq, Repr

/-- `g_sessions` with `g_active_session_id`. -/
structure Sessions where
  records : Fin 8 → Session
  activeSessionId : Nat

/-- `session_manager_first_session_for_subject`: the lowest session in use by the subject. -/
def sessionManagerFirstSessionForSubject (g : Sessions) (subject : Nat) : Option (Fin 8) :=
  Fin.find? (fun i => (g.records i).inUse && (g.records i).subjectId == subject)

/-- `session_manager_destroy`: the active session is not destroyed. -/
def sessionManagerDestroy (g : Sessions) (sessionId : Nat) : Sessions :=
  if h : sessionId < 8 then
    if !(g.records ⟨sessionId, h⟩).inUse then g
    else if sessionId = g.activeSessionId then g
    else
      { g with
        records := Function.update g.records ⟨sessionId, h⟩
          { g.records ⟨sessionId, h⟩ with inUse := false } }
  else g

end SessionManager
