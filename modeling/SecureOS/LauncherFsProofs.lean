import Mathlib.Data.Fintype.EquivFin
import SecureOS.LauncherFsModel
import SecureOS.Lib.IsolationProofs
import SecureOS.Lib.KeyedTableProofs

/-! # Every app has its files for itself

The abstract machine of one app has its registration, its two capabilities and its files, and no
table of other apps.  The launcher's state gives every subject such a view, and a call changes
the view of its own subject as that machine does. -/

namespace LauncherFs

open Capability CapTable MachineRun Isolation KeyedTable Function Option

/-! ## The two tables -/

/-- The subject of a slot in use. -/
def App.key (app : App) : Option Nat := if app.used then some app.subjectId else none

/-- The path of a slot in use. -/
def File.key (file : File) : Option CStr := if file.used then some file.path else none

theorem launcherFsFind_eq (apps : Fin 8 → App) (u : Nat) :
    launcherFsFind apps u = find App.key apps u :=
  find?_eq_find (p := fun app : App => app.used && app.subjectId == u) fun app => by
    cases hused : app.used <;> simp [App.key, hused]

theorem launcherFsLookup_eq (app : App) (path : CStr) :
    launcherFsLookup app path = find File.key app.files path :=
  find?_eq_find (p := fun file : File => file.used && file.path == path) fun file => by
    cases hused : file.used <;> simp [File.key, hused]

/-- The app of a subject. -/
def appOf (apps : Fin 8 → App) (u : Nat) : Option App := (launcherFsFind apps u).map apps

theorem appOf_eq (apps : Fin 8 → App) (u : Nat) : appOf apps u = rowOf App.key apps u := by
  rw [appOf, launcherFsFind_eq]
  rfl

/-- The content under a path. -/
def contentAt (app : App) (path : CStr) : Option CStr :=
  (rowOf File.key app.files path).map File.content

/-- The invariant of the app table. -/
structure AppsOk (apps : Fin 8 → App) : Prop where
  distinct : Distinct App.key apps
  inRange : ∀ i u, (apps i).key = some u → u < 8

theorem key_emptyApp : emptyApp.key = none := rfl

theorem appsOk_noApps (caps : Caps) : AppsOk (noApps caps).apps where
  distinct _ _ _ h := absurd (key_emptyApp.symm.trans h) (by simp)
  inRange _ _ h := absurd (key_emptyApp.symm.trans h) (by simp)

theorem appOf_noApps (caps : Caps) (u : Nat) : appOf (noApps caps).apps u = none := by
  rw [appOf_eq, rowOf_eq_none_iff]
  intro _ h
  exact absurd (key_emptyApp.symm.trans h) (by simp)

variable {u cap : Nat} {i : Fin 8} {app : App} {s : State}

/-- A write into the table is found under its subject. -/
theorem appOf_put (h : Puts App.key apps i app u) (u' : Nat) :
    appOf (update apps i app) u' = if u' = u then some app else appOf apps u' := by
  rw [appOf_eq, appOf_eq, rowOf_put h]

theorem appsOk_put (h : AppsOk apps) (hp : Puts App.key apps i app u) (hu : u < 8) :
    AppsOk (update apps i app) where
  distinct := hp.distinct h.distinct
  inRange j u' hj := by
    rcases hp.key_cases hj with ⟨-, rfl⟩ | ⟨-, hj⟩
    · exact hu
    · exact h.inRange j u' hj

theorem puts_same (hi : launcherFsFind apps u = some i) (hkey : app.key = (apps i).key) :
    Puts App.key apps i app u := by
  rw [launcherFsFind_eq] at hi
  exact puts_found hi (hkey.trans (key_of_find hi))

theorem lt_of_find (h : AppsOk apps) (hi : launcherFsFind apps u = some i) : u < 8 := by
  rw [launcherFsFind_eq] at hi
  exact h.inRange i u (key_of_find hi)

/-- There are as many slots as subjects: a subject without an app finds a free one. -/
theorem exists_free (h : AppsOk apps) (hu : u < 8) (hnone : launcherFsFind apps u = none) :
    ∃ i, (apps i).used = false := by
  by_contra hfull
  have hused : ∀ i, (apps i).key = some (apps i).subjectId := by
    intro i
    have hi : (apps i).used := by
      by_contra hi
      exact hfull ⟨i, by simpa using hi⟩
    simp [App.key, hi]
  -- the subjects of the slots are all the subjects there are
  have hinj : Function.Injective
      (fun i => (⟨(apps i).subjectId, h.inRange i _ (hused i)⟩ : Fin 8)) := by
    intro i j hij
    have hsubj : (apps i).subjectId = (apps j).subjectId := congrArg Fin.val hij
    exact h.distinct i j _ (hused i) (hsubj ▸ hused j)
  obtain ⟨i, hi⟩ := Finite.surjective_of_injective hinj ⟨u, hu⟩
  rw [launcherFsFind_eq, find_eq_none_iff] at hnone
  exact hnone i ((hused i).trans (congrArg some (congrArg Fin.val hi)))

/-! ## Files -/

variable {path : CStr}

theorem contentAt_put (h : Puts File.key app.files f file path)
    (path' : CStr) : contentAt { app with files := update app.files f file } path'
      = if path' = path then some file.content else contentAt app path' := by
  rw [contentAt, contentAt, rowOf_put h, apply_ite (Option.map File.content), map_some]

/-- A write that succeeds answers for its path. -/
theorem writeFile_cases (app : App) (path content : CStr) :
    let w := writeFile app path content
    (w.2 ≠ .ok ∧ w.1 = app) ∨ (w.2 = .ok ∧ w.1.key = app.key
      ∧ ∀ path', contentAt w.1 path'
        = if path' = path then some content else contentAt app path') := by
  dsimp only
  fun_cases writeFile app path content with
  | case3 _ _ _ hfind =>
    rw [launcherFsLookup_eq] at hfind
    exact Or.inr ⟨rfl, rfl, contentAt_put (puts_found hfind (key_of_find hfind))⟩
  | case5 _ _ hfind f hfree =>
    rw [launcherFsLookup_eq] at hfind
    have hunused : (!(app.files f).used) := (Fin.find?_eq_some_iff.mp hfree).1
    have hslot : (app.files f).key = none := if_neg (by simpa using hunused)
    exact Or.inr ⟨rfl, rfl, contentAt_put (puts_free hfind hslot rfl)⟩
  | _ => exact Or.inl ⟨nofun, rfl⟩

theorem key_writeFile (app : App) (path content : CStr) :
    (writeFile app path content).1.key = app.key := by
  rcases writeFile_cases app path content with ⟨-, hw⟩ | ⟨-, hw, -⟩
  · rw [hw]
  · exact hw

/-- The answer to a read, by the content that is there. -/
def readAnswer (size : Nat) (found : Option CStr) : FsResult × Option CStr :=
  found.elim (.errNotFound, none) (fun content =>
    if content.length + 1 > size then (.errNoSpace, none) else (.ok, some content))

theorem readFile_eq (app : App) (path : CStr) (size : Nat) :
    readFile app path size = readAnswer size (contentAt app path) := by
  rw [readFile, contentAt, rowOf, ← launcherFsLookup_eq]
  cases launcherFsLookup app path <;> rfl

theorem contentAt_clear (app : App) (path : CStr) :
    contentAt (launcherFsClearFiles app) path = none := by
  have hnone : rowOf File.key (launcherFsClearFiles app).files path = none :=
    (rowOf_eq_none_iff path).mpr fun _ h => absurd h (by simp [launcherFsClearFiles, emptyFile,
      File.key])
  rw [contentAt, hnone, map_none]

/-! ## The machine of one app -/

/-- What one app is to itself. -/
@[ext] structure AppView where
  app : Option App
  canRead : Bool
  canWrite : Bool

/-- The view a state gives a subject. -/
def viewOf (s : State) (u : Nat) : AppView where
  app := appOf s.apps u
  canRead := capTableCheck s.caps.bits u capFsRead = .ok
  canWrite := capTableCheck s.caps.bits u capFsWrite = .ok

/-- A call that needs a registered app. -/
def soloCall (u : Nat) (v : AppView) (f : App → AppView × Reply) : AppView × Reply :=
  if !launcherFsSubjectInRange u then (v, .errInvalidApp, none)
  else v.app.elim (v, .errNotRegistered, none) f

/-- A call of one app's own machine. -/
def soloExec (u : Nat) (v : AppView) : Op → AppView × Reply
  | .register _ mode =>
    if !launcherFsSubjectInRange u then (v, .errInvalidApp, none)
    else if mode ≠ .persistent ∧ mode ≠ .ephemeral then (v, .errInvalidArg, none)
    else v.app.elim ({ v with app := some ⟨true, u, mode, fun _ => emptyFile⟩ }, .ok, none)
      (fun app => if app.mode ≠ mode then (v, .errInvalidArg, none) else (v, .ok, none))
  | .grantRead _ => soloCall u v (fun _ => ({ v with canRead := true }, .ok, none))
  | .grantWrite _ => soloCall u v (fun _ => ({ v with canWrite := true }, .ok, none))
  | .revokeRead _ => soloCall u v (fun _ => ({ v with canRead := false }, .ok, none))
  | .revokeWrite _ => soloCall u v (fun _ => ({ v with canWrite := false }, .ok, none))
  | .write _ path content =>
    if !launcherFsSubjectInRange u then (v, .errInvalidApp, none)
    else path.elim (v, .errInvalidArg, none) fun path =>
      content.elim (v, .errInvalidArg, none) fun content =>
        soloCall u v (fun app =>
          if !v.canWrite then (v, .errDenied, none)
          else ({ v with app := some (writeFile app path content).1 },
            (writeFile app path content).2, none))
  | .read _ path outBuffer =>
    if !launcherFsSubjectInRange u then (v, .errInvalidApp, none)
    else path.elim (v, .errInvalidArg, none) fun path =>
      outBuffer.elim (v, .errInvalidArg, none) fun size =>
        if size = 0 then (v, .errInvalidArg, none)
        else soloCall u v (fun app =>
          if !v.canRead then (v, .errDenied, none) else (v, readFile app path size))
  | .relaunch _ => soloCall u v (fun app => (⟨some (relaunchFiles app), false, false⟩, .ok, none))

/-! ## Capabilities in the view -/

/-- The view with one capability changed. -/
def AppView.setCap (v : AppView) (cap : Nat) (b : Bool) : AppView :=
  { v with
    canRead := if cap = capFsRead then b else v.canRead
    canWrite := if cap = capFsWrite then b else v.canWrite }

/-- One answer of the capability table was set. -/
def SetsBit (bits bits' : Bits) (u cap : Nat) (b : Bool) : Prop :=
  ∀ u' cap', capTableCheck bits' u' cap' = .ok
    ↔ if u' = u ∧ cap' = cap then b else capTableCheck bits u' cap' = .ok

theorem setsBit_grant (bits : Bits) (hv : ValidPair u cap) :
    SetsBit bits (capTableGrant bits u cap).1 u cap true := by
  intro _ _
  rw [capTableCheck_grant]
  split_ifs with h <;> simp [h, hv]

theorem setsBit_revoke (bits : Bits) (u cap : Nat) :
    SetsBit bits (capTableRevoke bits u cap).1 u cap false := by
  intro _ _
  rw [capTableCheck_revoke]
  split_ifs with h <;> simp [h]

/-- The answer of the changed table to one capability of one subject. -/
theorem decide_setsBit (h : SetsBit bits bits' u cap b) (u' cap' : Nat) :
    decide (capTableCheck bits' u' cap' = .ok)
      = if u' = u ∧ cap = cap' then b else decide (capTableCheck bits u' cap' = .ok) := by
  rw [Bool.eq_iff_iff, decide_eq_true_iff, h u' cap']
  by_cases hc : u' = u ∧ cap' = cap
  · rw [if_pos hc, if_pos ⟨hc.1, hc.2.symm⟩]
  · rw [if_neg hc, if_neg fun hn => hc ⟨hn.1, hn.2.symm⟩, decide_eq_true_iff]

theorem viewOf_setsBit (h : SetsBit s.caps.bits bits u cap b) (u' : Nat) :
    viewOf { s with caps := { s.caps with bits := bits } } u'
      = if u' = u then (viewOf s u').setCap cap b else viewOf s u' := by
  have hread := decide_setsBit h u' capFsRead
  have hwrite := decide_setsBit h u' capFsWrite
  split_ifs with hu <;> simp only [hu, true_and, false_and, if_false] at hread hwrite
  · subst hu
    exact AppView.ext rfl hread hwrite
  · exact AppView.ext rfl hread hwrite

/-! ## A call is a call of the app's own machine -/

/-- What a call leaves and returns, against the machine of its subject. -/
structure Agrees (s : State) (u : Nat) (r : State × Reply) (q : AppView × Reply) : Prop where
  ok : AppsOk r.1.apps
  own : viewOf r.1 u = q.1
  other : ∀ u', u' ≠ u → viewOf r.1 u' = viewOf s u'
  reply : r.2 = q.2

/-- A call that changes no view. -/
theorem agrees_same (hok : AppsOk s.apps) (u : Nat) (r : Reply) (happs : s'.apps = s.apps)
    (hbits : s'.caps.bits = s.caps.bits) : Agrees s u (s', r) (viewOf s u, r) := by
  have hview : ∀ u, viewOf s' u = viewOf s u := by
    intro u
    rw [viewOf, viewOf, happs, hbits]
  exact ⟨by rwa [happs], hview u, fun u' _ => hview u', rfl⟩

theorem agrees_refused (hok : AppsOk s.apps) (r : Reply) :
    Agrees s u (s, r) (viewOf s u, r) := agrees_same hok u r rfl rfl

/-- A call that changes the app of its subject. -/
theorem agrees_app (hok : AppsOk s.apps) (hu : u < 8) (hp : Puts App.key s.apps i app u)
    (r : Reply) : Agrees s u ({ s with apps := update s.apps i app }, r)
      ({ viewOf s u with app := some app }, r) where
  ok := appsOk_put hok hp hu
  own := AppView.ext ((appOf_put hp u).trans (if_pos rfl)) rfl rfl
  other u' hu' := AppView.ext ((appOf_put hp u').trans (if_neg hu')) rfl rfl
  reply := rfl

theorem app_viewOf (h : launcherFsFind s.apps u = some i) : (viewOf s u).app = some (s.apps i) :=
  congrArg (Option.map s.apps) h

theorem app_viewOf_none (h : launcherFsFind s.apps u = none) : (viewOf s u).app = none :=
  congrArg (Option.map s.apps) h

theorem inRange_iff (u : Nat) : launcherFsSubjectInRange u ↔ u < 8 := decide_eq_true_iff

section

variable (h : AppsOk s.apps)
include h

/-- The checks a call for a registered app begins with. -/
theorem agrees_call (hrange : launcherFsSubjectInRange u = false → r = (s, .errInvalidApp, none))
    (hnone : launcherFsSubjectInRange u → launcherFsFind s.apps u = none →
      r = (s, .errNotRegistered, none))
    (hsome : ∀ i, launcherFsSubjectInRange u → launcherFsFind s.apps u = some i →
      Agrees s u r (f (s.apps i))) : Agrees s u r (soloCall u (viewOf s u) f) := by
  unfold soloCall
  cases hr : launcherFsSubjectInRange u with
  | false => exact hrange hr ▸ agrees_refused h _
  | true =>
    cases hfind : launcherFsFind s.apps u with
    | none =>
      rw [hnone hr hfind, app_viewOf_none hfind]
      exact agrees_refused h _
    | some i =>
      rw [app_viewOf hfind]
      exact hsome i hr hfind

theorem register_agrees (u : Nat) (mode : Mode) :
    Agrees s u (exec s (.register u mode)) (soloExec u (viewOf s u) (.register u mode)) := by
  rw [exec, soloExec]
  fun_cases launcherFsRegisterApp s u mode with
  | case1 hrange =>
    rw [if_pos hrange]
    exact agrees_refused h _
  | case2 hrange hmode =>
    rw [if_neg hrange, if_pos hmode]
    exact agrees_refused h _
  | case3 hrange hmode _ hfind hsame =>
    rw [if_neg hrange, if_neg hmode, app_viewOf hfind, elim_some, if_pos hsame]
    exact agrees_refused h _
  | case4 hrange hmode _ hfind hsame =>
    rw [if_neg hrange, if_neg hmode, app_viewOf hfind, elim_some, if_neg hsame]
    exact agrees_refused h _
  | case5 hrange _ hfind hfull =>
    -- there are as many slots as subjects
    obtain ⟨i, hi⟩ := exists_free h ((inRange_iff u).mp (by simpa using hrange)) hfind
    exact absurd hi (by simpa using Fin.find?_eq_none_iff.mp hfull i)
  | case6 hrange hmode hfind i hfree =>
    rw [if_neg hrange, if_neg hmode, app_viewOf_none hfind]
    have hunused : (!(s.apps i).used) := (Fin.find?_eq_some_iff.mp hfree).1
    have hslot : (s.apps i).key = none := if_neg (by simpa using hunused)
    rw [launcherFsFind_eq] at hfind
    exact agrees_app h ((inRange_iff u).mp (by simpa using hrange)) (puts_free hfind hslot rfl) _

/-- The four calls on capabilities, over the call of the table. -/
theorem changeCap_agrees (hcall : u < 8 → (call s.caps.bits u cap).2 = .ok
      ∧ SetsBit s.caps.bits (call s.caps.bits u cap).1 u cap b) :
    Agrees s u (plain (changeCap call s u cap))
      (soloCall u (viewOf s u) (fun _ => ((viewOf s u).setCap cap b, .ok, none))) := by
  refine agrees_call h (fun hr => by simp [changeCap, hr, plain])
    (fun hr hfind => by simp [changeCap, hr, hfind, plain]) fun i hr hfind => ?_
  obtain ⟨hres, hset⟩ := hcall ((inRange_iff _).mp hr)
  have hview := viewOf_setsBit hset
  have hexec : plain (changeCap call s u cap)
      = ({ s with caps := { s.caps with bits := (call s.caps.bits u cap).1 } }, .ok, none) := by
    simp [changeCap, plain, hr, hfind, hres]
  rw [hexec]
  exact ⟨h, (hview u).trans (if_pos rfl), fun u' hu => (hview u').trans (if_neg hu), rfl⟩

theorem write_agrees (u : Nat) (path content : Option CStr) :
    Agrees s u (exec s (.write u path content))
      (soloExec u (viewOf s u) (.write u path content)) := by
  rw [exec, soloExec]
  fun_cases launcherFsAppWrite s u path content with
  | case1 _ _ hrange =>
    rw [if_pos hrange]
    exact agrees_refused h _
  | case2 _ hrange | case3 hrange =>
    rw [if_neg hrange]
    exact agrees_refused h _
  | case4 hrange _ _ hfind =>
    rw [if_neg hrange, elim_some, elim_some, soloCall, if_neg hrange, app_viewOf_none hfind]
    exact agrees_refused h _
  | case5 hrange _ _ _ hfind hcan =>
    rw [if_neg hrange, elim_some, elim_some, soloCall, if_neg hrange,
      app_viewOf hfind, elim_some, if_pos (by simpa [viewOf] using hcan)]
    exact agrees_same h u _ rfl rfl
  | case6 hrange _ _ _ hfind hcan =>
    rw [if_neg hrange, elim_some, elim_some, soloCall, if_neg hrange,
      app_viewOf hfind, elim_some, if_neg (by simpa [viewOf] using hcan)]
    exact agrees_app h (lt_of_find h hfind) (puts_same hfind (key_writeFile ..)) _

theorem read_agrees (u : Nat) (path : Option CStr) (outBuffer : Option Nat) :
    Agrees s u (exec s (.read u path outBuffer))
      (soloExec u (viewOf s u) (.read u path outBuffer)) := by
  suffices hsolo : soloExec u (viewOf s u) (.read u path outBuffer)
      = (viewOf s u, launcherFsAppRead s u path outBuffer) by
    rw [hsolo]
    exact agrees_refused h _
  rw [soloExec]
  fun_cases launcherFsAppRead s u path outBuffer with
  | case1 _ _ hrange => rw [if_pos hrange]
  | case2 _ hrange | case3 hrange => exact if_neg hrange
  | case4 hrange => rw [if_neg hrange, elim_some, elim_some, if_pos rfl]
  | case5 hrange _ _ hsize hfind =>
    rw [if_neg hrange, elim_some, elim_some, if_neg hsize, soloCall,
      if_neg hrange, app_viewOf_none hfind]
    rfl
  | case6 hrange _ _ hsize _ hfind hcan =>
    rw [if_neg hrange, elim_some, elim_some, if_neg hsize, soloCall,
      if_neg hrange, app_viewOf hfind, elim_some, if_pos (by simpa [viewOf] using hcan)]
  | case7 hrange _ _ hsize _ hfind hcan =>
    rw [if_neg hrange, elim_some, elim_some, if_neg hsize, soloCall,
      if_neg hrange, app_viewOf hfind, elim_some, if_neg (by simpa [viewOf] using hcan)]

end

/-- The view after both filesystem capabilities are dropped. -/
theorem viewOf_dropFsCaps (s : State) (u u' : Nat) :
    viewOf { s with caps := { s.caps with bits := dropFsCaps s.caps.bits u } } u'
      = if u' = u then ⟨(viewOf s u').app, false, false⟩ else viewOf s u' := by
  have hread := viewOf_setsBit (s := s) (setsBit_revoke s.caps.bits u capFsRead) u'
  have hwrite := viewOf_setsBit
    (s := { s with caps := { s.caps with bits := (capTableRevoke s.caps.bits u capFsRead).1 } })
    (setsBit_revoke (capTableRevoke s.caps.bits u capFsRead).1 u capFsWrite) u'
  rw [hread] at hwrite
  refine hwrite.trans ?_
  split_ifs <;> rfl

theorem key_relaunchFiles (app : App) : (relaunchFiles app).key = app.key := by
  rw [relaunchFiles]
  split <;> rfl

theorem relaunch_agrees (h : AppsOk s.apps) (u : Nat) :
    Agrees s u (exec s (.relaunch u)) (soloExec u (viewOf s u) (.relaunch u)) := by
  refine agrees_call h (fun hr => by simp [exec, plain, launcherFsAppRelaunch, hr])
    (fun hr hfind => by simp [exec, plain, launcherFsAppRelaunch, hr, hfind])
    fun i hr hfind => ?_
  have happ := agrees_app h (lt_of_find h hfind)
    (puts_same hfind (key_relaunchFiles (s.apps i))) (.ok, none)
  have hdrop := viewOf_dropFsCaps
    { s with apps := update s.apps i (relaunchFiles (s.apps i)) } u
  simp only [exec, plain, launcherFsAppRelaunch, hr, hfind, Bool.not_true, Bool.false_eq_true,
    if_false]
  refine ⟨happ.ok, (hdrop u).trans ((if_pos rfl).trans ?_), fun u' hu' => ?_, rfl⟩
  · rw [happ.own]
  · exact (hdrop u').trans ((if_neg hu').trans (happ.other u' hu'))

/-- The filesystem capabilities are in the range of the capability table. -/
theorem validPair_fs (hu : u < 8) (hcap : cap = capFsRead ∨ cap = capFsWrite) :
    ValidPair u cap := by
  rcases hcap with rfl | rfl <;> exact ⟨hu, by decide, by decide⟩

theorem grant_sets (hcap : cap = capFsRead ∨ cap = capFsWrite) (hu : u < 8) :
    (capTableGrant s.caps.bits u cap).2 = .ok
      ∧ SetsBit s.caps.bits (capTableGrant s.caps.bits u cap).1 u cap true :=
  ⟨(capTableGrant_ok_iff ..).mpr (validPair_fs hu hcap), setsBit_grant _ (validPair_fs hu hcap)⟩

theorem revoke_sets (hcap : cap = capFsRead ∨ cap = capFsWrite) (hu : u < 8) :
    (capTableRevoke s.caps.bits u cap).2 = .ok
      ∧ SetsBit s.caps.bits (capTableRevoke s.caps.bits u cap).1 u cap false :=
  ⟨(capTableRevoke_ok_iff ..).mpr (validPair_fs hu hcap), setsBit_revoke _ u cap⟩

/-- **ONE CALL** is a call of its subject's own machine. -/
theorem exec_agrees (h : AppsOk s.apps) (op : Op) :
    Agrees s op.subject (exec s op) (soloExec op.subject (viewOf s op.subject) op) := by
  cases op with
  | register u mode => exact register_agrees h u mode
  | grantRead => exact changeCap_agrees h (grant_sets (Or.inl rfl))
  | grantWrite => exact changeCap_agrees h (grant_sets (Or.inr rfl))
  | revokeRead => exact changeCap_agrees h (revoke_sets (Or.inl rfl))
  | revokeWrite => exact changeCap_agrees h (revoke_sets (Or.inr rfl))
  | write u path content => exact write_agrees h u path content
  | read u path outBuffer => exact read_agrees h u path outBuffer
  | relaunch u => exact relaunch_agrees h u

theorem appsOk_step (h : AppsOk s.apps) (op : Op) : AppsOk (step s op).apps := (exec_agrees h op).ok

theorem appsOk_run (caps : Caps) (ops : List Op) : AppsOk (run step (noApps caps) ops).apps :=
  run_inv_all (I := fun s => AppsOk s.apps) (fun _ op h => appsOk_step h op) ops (noApps caps)
    (appsOk_noApps caps)

/-! ## Content against the history -/

/-- The content an app has under a path. -/
def AppView.contentOf (v : AppView) (path : CStr) : Option CStr :=
  v.app.bind (fun app => contentAt app path)

/-- The mode a subject is registered in. -/
def registeredMode (s : State) (u : Nat) : Option Mode := (appOf s.apps u).map App.mode

/-- What is remembered of a subject's writes to a path after one more call: the content of a write
    that succeeds, nothing after a relaunch of an ephemeral app. -/
def noteWrite (u : Nat) (path : CStr) (s : State) (memory : Option CStr) : Op → Option CStr
  | .write u' path' content =>
    if u' = u ∧ path' = some path ∧ (reply s (.write u' path' content)).1 = .ok then content
    else memory
  | .relaunch u' => if u' = u ∧ registeredMode s u = some .ephemeral then none else memory
  | .register .. => memory
  | .grantRead .. => memory
  | .grantWrite .. => memory
  | .revokeRead .. => memory
  | .revokeWrite .. => memory
  | .read .. => memory

/-- The content of a subject's last successful write to a path since its last ephemeral relaunch. -/
def lastWrite (u : Nat) (path : CStr) : State → Option CStr → List Op → Option CStr
  | _, memory, [] => memory
  | s, memory, op :: ops => lastWrite u path (step s op) (noteWrite u path s memory op) ops

/-- A write that fails changes neither an app nor a capability. -/
theorem write_refused {path content : Option CStr}
    (hno : (reply s (.write u path content)).1 ≠ .ok) :
    (step s (.write u path content)).apps = s.apps
      ∧ (step s (.write u path content)).caps.bits = s.caps.bits := by
  rw [reply, exec, plain] at hno
  rw [step, exec, plain]
  revert hno
  fun_cases launcherFsAppWrite s u path content with
  | case6 _ path content i =>
    intro hno
    rcases writeFile_cases (s.apps i) path content with ⟨-, hw⟩ | ⟨hok, -⟩
    · exact ⟨by rw [hw, update_eq_self], rfl⟩
    · exact absurd hok hno
  | _ => exact fun _ => ⟨rfl, rfl⟩

/-- A relaunch of a subject that is not registered changes nothing. -/
theorem relaunch_unregistered (hnone : appOf s.apps u = none) : step s (.relaunch u) = s := by
  have hfind : launcherFsFind s.apps u = none := map_eq_none_iff.mp hnone
  rw [step, exec, launcherFsAppRelaunch, hfind]
  split <;> rfl

/-- A relaunch drops both capabilities and keeps the files of an app that is not ephemeral. -/
theorem relaunch_registered (h : AppsOk s.apps) (happ : appOf s.apps u = some app) :
    viewOf (step s (.relaunch u)) u
      = ⟨some (if app.mode = .ephemeral then launcherFsClearFiles app else app), false, false⟩ := by
  have hview : (viewOf s u).app = some app := happ
  obtain ⟨_, hi, -⟩ := map_eq_some_iff.mp happ
  have hrange := (inRange_iff u).mpr (lt_of_find h hi)
  have hs : soloExec u (viewOf s u) (.relaunch u)
      = (⟨some (relaunchFiles app), false, false⟩, .ok, none) := by
    simp [soloExec, soloCall, hrange, hview]
  exact (exec_agrees h (.relaunch u)).own.trans (congrArg Prod.fst hs)

section Solo

/-- A write of the app's own machine. -/
theorem solo_write (path' content : Option CStr) :
    (soloExec u v (.write u path' content)).1.contentOf path
      = if path' = some path ∧ (soloExec u v (.write u path' content)).2.1 = .ok then content
        else v.contentOf path := by
  cases hrange : launcherFsSubjectInRange u with
  | false => simp [soloExec, hrange]
  | true =>
    cases path' with
    | none => simp [soloExec, hrange]
    | some p =>
      cases content with
      | none => simp [soloExec, hrange]
      | some c =>
        cases happ : v.app with
        | none => simp [soloExec, soloCall, hrange, happ]
        | some app =>
          cases hcan : v.canWrite with
          | false => simp [soloExec, soloCall, hrange, happ, hcan]
          | true =>
            rcases writeFile_cases app p c with ⟨hno, hw⟩ | ⟨hok, -, hcontent⟩
            · simp [soloExec, soloCall, hrange, happ, hcan, hno, hw, AppView.contentOf]
            · simp [soloExec, soloCall, hrange, happ, hcan, hok, hcontent, AppView.contentOf,
                eq_comm]

/-- A new app has no files. -/
theorem solo_register (mode : Mode) :
    (soloExec u v (.register u mode)).1.contentOf path = v.contentOf path := by
  rw [soloExec]
  split_ifs
  · rfl
  · rfl
  cases happ : v.app with
  | none => exact (contentAt_clear emptyApp path).trans (by rw [AppView.contentOf, happ]; rfl)
  | some =>
    rw [elim_some]
    split_ifs <;> rfl

end Solo

/-- A relaunch clears the files of an ephemeral app. -/
theorem relaunch_content (h : AppsOk s.apps) (u : Nat) (path : CStr) :
    (viewOf (step s (.relaunch u)) u).contentOf path
      = if registeredMode s u = some .ephemeral then none else (viewOf s u).contentOf path := by
  rw [registeredMode]
  cases happ : appOf s.apps u with
  | none => rw [relaunch_unregistered happ, map_none, if_neg (by simp)]
  | some app =>
    rw [relaunch_registered h happ, AppView.contentOf, AppView.contentOf, map_some,
      show (viewOf s u).app = some app from happ]
    by_cases hmode : app.mode = .ephemeral <;> simp [hmode, contentAt_clear]

/-- **ONE CALL** changes what a subject has under a path as the memory of its writes. -/
theorem content_step (h : AppsOk s.apps) (u : Nat) (path : CStr) (op : Op) :
    (viewOf (step s op) u).contentOf path
      = noteWrite u path s ((viewOf s u).contentOf path) op := by
  have hagrees := exec_agrees h op
  by_cases hu : op.subject = u
  · subst hu
    cases op with
    | write u' p c =>
      rw [step, hagrees.own, noteWrite, reply, hagrees.reply]
      exact (solo_write p c).trans (if_congr (by simp [Op.subject]) rfl rfl)
    | relaunch u' =>
      exact (relaunch_content h u' path).trans (if_congr (by simp [Op.subject]) rfl rfl)
    | register u' mode =>
      rw [step, hagrees.own]
      exact solo_register mode
    | read => rfl
    | _ =>
      show (appOf (changeCap ..).1.apps _).bind _ = _
      simp only [changeCap]
      split_ifs <;> rfl
  · rw [step, hagrees.other u (Ne.symm hu)]
    cases op with
    | write | relaunch => exact (if_neg fun hc => hu hc.1).symm
    | _ => rfl

/-- **EVERY HISTORY**: what a subject has under a path is its last write there. -/
theorem content_run (u : Nat) (path : CStr) (ops : List Op) (s : State) (h : AppsOk s.apps) :
    (viewOf (run step s ops) u).contentOf path
      = lastWrite u path s ((viewOf s u).contentOf path) ops := by
  induction ops generalizing s with
  | nil => rfl
  | cons op _ ih => rw [run_cons, lastWrite, ih (step s op) (appsOk_step h op), content_step h]

theorem content_history (caps : Caps) (u : Nat) (path : CStr) (ops : List Op) :
    (viewOf (run step (noApps caps) ops) u).contentOf path
      = lastWrite u path (noApps caps) none ops := by
  have hnone : (viewOf (noApps caps) u).contentOf path = none := by
    show (appOf (noApps caps).apps u).bind _ = none
    rw [appOf_noApps, bind_none]
  rw [content_run u path ops (noApps caps) (appsOk_noApps caps), hnone]

/-! ## Reads, relaunches and failed writes -/

/-- A read past its checks returns the content, if it fits. -/
theorem read_permitted (h : AppsOk s.apps) (hsize : size ≠ 0)
    (hreg : (appOf s.apps u).isSome) (hcan : capTableCheck s.caps.bits u capFsRead = .ok) :
    launcherFsAppRead s u (some path) (some size)
      = readAnswer size ((viewOf s u).contentOf path) := by
  obtain ⟨_, happ⟩ := isSome_iff_exists.mp hreg
  obtain ⟨_, hi, rfl⟩ := map_eq_some_iff.mp happ
  have hrange := (inRange_iff u).mpr (lt_of_find h hi)
  rw [launcherFsAppRead, hrange, if_neg (by simp), if_neg hsize, hi]
  show (if _ then _ else _ : FsResult × Option CStr) = _
  rw [if_neg (not_not_intro hcan), readFile_eq, AppView.contentOf, app_viewOf hi, bind_some]

/-- A read that finds something out about a path is past its checks. -/
theorem read_checked (h : AppsOk s.apps)
    (hres : (launcherFsAppRead s u (some path) outBuffer).1 = .ok
      ∨ (launcherFsAppRead s u (some path) outBuffer).1 = .errNotFound) :
    ∃ size, outBuffer = some size ∧ launcherFsAppRead s u (some path) outBuffer
      = readAnswer size ((viewOf s u).contentOf path) := by
  by_cases hpast : ∃ size, outBuffer = some size ∧ size ≠ 0 ∧ (appOf s.apps u).isSome = true
      ∧ capTableCheck s.caps.bits u capFsRead = .ok
  · obtain ⟨size, rfl, hsize, hreg, hcan⟩ := hpast
    exact ⟨size, rfl, read_permitted h hsize hreg hcan⟩
  · refine absurd hres ?_
    fun_cases launcherFsAppRead s u (some path) outBuffer with
    | case7 _ _ size hsize _ hfind hcan =>
      exact absurd ⟨size, rfl, hsize, by rw [appOf, hfind]; rfl, not_not.mp hcan⟩ hpast
    | _ => simp

/-! ## One app among the others -/

/-- A subject: its calls, what they return, and its view. -/
def appPart (u : Nat) : Part State Op Op Reply AppView where
  own op := op.subject == u
  label _ op := op
  answer s op := reply s op
  view s := viewOf s u
  vstep v op := (soloExec u v op).1
  vanswer v op := (soloExec u v op).2

/-- **SEPARATION** of a subject from the others. -/
theorem app_separates (u : Nat) : (appPart u).Separates step (fun s => AppsOk s.apps) where
  kept _ op h := appsOk_step h op
  foreign s op h hown := by
    exact (exec_agrees h op).other u (Ne.symm (by simpa [appPart] using hown))
  view s op h hown := by
    obtain rfl : op.subject = u := by simpa [appPart] using hown
    exact (exec_agrees h op).own
  answer s op h hown := by
    obtain rfl : op.subject = u := by simpa [appPart] using hown
    exact (exec_agrees h op).reply

/-- **PER-APP FILES**, for every history: a read returns the subject's last write under the path; a
    relaunch drops both capabilities and clears the files exactly of an ephemeral app; a write that
    fails changes nothing; and what a subject's calls return depends on its own calls only. -/
theorem launcher_fs_isolates_apps (caps : Caps) (ops : List Op) (u : Nat) :
    let s := run step (noApps caps) ops
    let written := fun path => lastWrite u path (noApps caps) none ops
    (∀ path outBuffer,
        (∀ content, launcherFsAppRead s u (some path) outBuffer = (.ok, some content) →
          written path = some content)
        ∧ ((launcherFsAppRead s u (some path) outBuffer).1 = .errNotFound → written path = none))
      ∧ (∀ path size, size ≠ 0 → (appOf s.apps u).isSome = true →
        capTableCheck s.caps.bits u capFsRead = .ok →
        ((launcherFsAppRead s u (some path) (some size)).1 = .errNotFound ↔ written path = none)
          ∧ ∀ content, written path = some content → content.length < size →
            launcherFsAppRead s u (some path) (some size) = (.ok, some content))
      ∧ (appOf s.apps u = none → step s (.relaunch u) = s)
      ∧ (∀ app, appOf s.apps u = some app → viewOf (step s (.relaunch u)) u
          = ⟨some (if app.mode = .ephemeral then launcherFsClearFiles app else app), false, false⟩)
      ∧ (∀ path content, (reply s (.write u path content)).1 ≠ .ok →
        (step s (.write u path content)).apps = s.apps
          ∧ (step s (.write u path content)).caps.bits = s.caps.bits)
      ∧ ∀ ops', ops.filter (·.subject == u) = ops'.filter (·.subject == u) →
        (appPart u).answers step (noApps caps) ops
          = (appPart u).answers step (noApps caps) ops' := by
  intro s written
  have hok : AppsOk s.apps := appsOk_run caps ops
  have hlast := fun path => show _ = written path from content_history caps u path ops
  refine ⟨fun path outBuffer => ⟨fun content hread => ?_, fun hread => ?_⟩,
    fun path size hsize hreg hcan => ?_, relaunch_unregistered,
    fun app happ => relaunch_registered hok happ,
    fun path content hno => write_refused hno,
    fun ops' hfilter => ?_⟩
  · obtain ⟨_, -, hval⟩ := read_checked hok (Or.inl (congrArg Prod.fst hread))
    rw [hread, hlast path, readAnswer] at hval
    cases hw : written path with
    | none => simp [hw] at hval
    | some =>
      rw [hw, elim_some] at hval
      split_ifs at hval
      · cases hval
      · exact (Prod.mk.inj hval).2.symm
  · obtain ⟨_, -, hval⟩ := read_checked hok (Or.inr hread)
    rw [hval, hlast path, readAnswer] at hread
    cases hw : written path with
    | none => rfl
    | some =>
      rw [hw, elim_some] at hread
      split_ifs at hread
  · rw [read_permitted hok hsize hreg hcan, hlast path, readAnswer]
    cases hw : written path with
    | none => simp
    | some =>
      rw [elim_some]
      refine ⟨by split_ifs <;> simp, fun content hc hlen => ?_⟩
      obtain rfl := some.inj hc
      rw [if_neg (by omega)]
  · refine answers_eq (app_separates u) (appsOk_noApps caps) (appsOk_noApps caps) rfl ?_
    rw [labels_eq_filter step (fun _ _ => rfl), labels_eq_filter step (fun _ _ => rfl)]
    exact hfilter

end LauncherFs
