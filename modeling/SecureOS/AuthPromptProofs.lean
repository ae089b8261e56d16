import SecureOS.ConsoleAuthProofs
import SecureOS.Lib.SeatingProofs
import Mathlib.Data.Fintype.Basic

/-! # Answers reach the prompt they are meant for, or not

A prompt is answered through its slot or through its correlation id.  The ids are counted in
each session from one, so two sessions soon use the same, and the first active slot takes the
answer.  A session that is destroyed while it waits leaves its slot behind.

The prompts are numbered as they are raised, and every answer says which prompt it is meant for;
neither number is in the code. -/

namespace ConsoleAuth

open Capability CapTable MachineRun Seating Function Option

/-! ## Numbered prompts -/

/-- The sessions, the number of each waiting prompt, the last answer for each and those returned. -/
structure Traced where
  sys : System
  nextPrompt : Nat
  asker : Fin 8 → Nat
  given : Nat → Option Response
  returned : List (Nat × Response)

/-- A step, and the prompt an answer is meant for. -/
structure MeantOp where
  op : SysOp
  prompt : Nat

/-- Where a session waits. -/
def seats (y : System) (s : Fin 8) : Option (Fin 4) := (y.sessions s).waiting.map Waiting.slot

/-- Which slots are active. -/
def actives (y : System) (k : Fin 4) : Bool := (y.pendings k).active

/-- The prompt of that number waits in the slot. -/
def Holds (t : Traced) (prompt : Nat) (k : Fin 4) : Prop :=
  ∃ s, seats t.sys s = some k ∧ t.asker s = prompt

instance (t : Traced) (prompt : Nat) (k : Fin 4) : Decidable (Holds t prompt k) :=
  inferInstanceAs (Decidable (∃ _, _ ∧ _))

/-- The request has to wait. -/
def raises (y : System) (s : Fin 8) (request : Request) (pressed : Response) : Bool :=
  canAsk (y.sessions s) && (authorizeRequest y s request pressed).2.isNone

/-- The answer a tick returns. -/
def returns (y : System) (s : Fin 8) : Option Response :=
  if canResume (y.sessions s) then (y.sessions s).waiting.bind (answerIn y.pendings) else none

/-- The answer a step gives for the prompt it is meant for, by its correlation id or slot. -/
def gives (t : Traced) (a : MeantOp) : Option Response :=
  match a.op with
  | .respondAuth correlationId response =>
    if ∃ k, Holds t a.prompt k ∧ (t.sys.pendings k).correlationId = correlationId then
      some response
    else none
  | .authRespond slotIndex raw =>
    if ∃ k : Fin 4, Holds t a.prompt k ∧ k.val = slotIndex then some (responseOf raw) else none
  | _ => none

/-- One action of the system, with what it asks, gives and returns. -/
def tstep (t : Traced) (a : MeantOp) : Traced :=
  let t' :=
    match gives t a with
    | some response => { t with given := update t.given a.prompt (some response) }
    | none => t
  let t' :=
    match a.op with
    | .request s request pressed =>
      if raises t.sys s request pressed then
        { t' with
          asker := update t.asker s t.nextPrompt
          nextPrompt := t.nextPrompt + 1 }
      else t'
    | .tick s =>
      match returns t.sys s with
      | some response => { t' with returned := t.returned ++ [(t.asker s, response)] }
      | none => t'
    | _ => t'
  { t' with sys := sysStep t.sys a.op }

/-- Nothing was asked yet. -/
def tstart (bits : Bits) (bootstrap : Nat) : Traced where
  sys := start bits bootstrap
  nextPrompt := 0
  asker := fun _ => 0
  given := fun _ => none
  returned := []

/-- The lowest active slot under a correlation id. -/
def Lowest (pendings : Pendings) (correlationId : BitVec 64) (k : Fin 4) : Prop :=
  ((pendings k).active ∧ (pendings k).correlationId = correlationId)
    ∧ ∀ j < k, ¬ ((pendings j).active ∧ (pendings j).correlationId = correlationId)

instance (pendings : Pendings) (correlationId : BitVec 64) (k : Fin 4) :
    Decidable (Lowest pendings correlationId k) :=
  inferInstanceAs (Decidable (_ ∧ ∀ j, j < k → ¬ _))

/-- An answer names no active slot, or the lowest one under its id, or the one of its index, is that
    of its prompt; and a destroyed session does not wait. -/
def Addressed (t : Traced) (a : MeantOp) : Prop :=
  match a.op with
  | .respondAuth correlationId _ => ∀ k, Lowest t.sys.pendings correlationId k → Holds t a.prompt k
  | .authRespond slotIndex _ =>
    ∀ k : Fin 4, k.val = slotIndex → (t.sys.pendings k).active → Holds t a.prompt k
  | .destroy sessionId =>
    ∀ h : sessionId < 8, sessionId ≠ t.sys.activeSessionId →
      (t.sys.sessions ⟨sessionId, h⟩).waiting = none
  | _ => True

instance decidableAddressed (t : Traced) : (a : MeantOp) → Decidable (Addressed t a)
  | ⟨.respondAuth correlationId _, prompt⟩ =>
    inferInstanceAs (Decidable (∀ k, Lowest t.sys.pendings correlationId k → Holds t prompt k))
  | ⟨.authRespond slotIndex _, prompt⟩ =>
    inferInstanceAs (Decidable (∀ k : Fin 4, k.val = slotIndex →
      (t.sys.pendings k).active = true → Holds t prompt k))
  | ⟨.destroy sessionId, _⟩ =>
    inferInstanceAs (Decidable (∀ h : sessionId < 8, sessionId ≠ t.sys.activeSessionId →
      (t.sys.sessions ⟨sessionId, h⟩).waiting = none))
  | ⟨.request _ _ _, _⟩ => .isTrue trivial
  | ⟨.tick _, _⟩ => .isTrue trivial
  | ⟨.create _, _⟩ => .isTrue trivial
  | ⟨.switch _, _⟩ => .isTrue trivial
  | ⟨.setWmManaged _ _, _⟩ => .isTrue trivial
  | ⟨.authCacheReset _, _⟩ => .isTrue trivial
  | ⟨.tableGrant _ _, _⟩ => .isTrue trivial
  | ⟨.tableRevoke _ _, _⟩ => .isTrue trivial

/-- What the answers should come to. -/
structure Right (t : Traced) : Prop where
  /-- a waiting request sees the answer given for it, or none if none was given -/
  waiting : ∀ s w, (t.sys.sessions s).waiting = some w →
    answerIn t.sys.pendings w = t.given (t.asker s)
  /-- what a request returned was given for it -/
  returned : ∀ q response, (q, response) ∈ t.returned → t.given q = some response
  /-- the active slots are counted by the waiting requests -/
  count : (Finset.univ.filter (fun k => (t.sys.pendings k).active = true)).card
    = (Finset.univ.filter (fun s => (t.sys.sessions s).waiting.isSome = true)).card

/-! ## The invariant -/

/-- Waiting sessions sit in active slots of their own, under numbers of their own. -/
structure PromptsOk (t : Traced) : Prop where
  seated : Seated (seats t.sys) (actives t.sys)
  idle : ∀ s, (t.sys.sessions s).inUse = false → (t.sys.sessions s).waiting = none
  numbered : ∀ s k, seats t.sys s = some k → t.asker s < t.nextPrompt
  apart : ∀ s s' k k', seats t.sys s = some k → seats t.sys s' = some k' →
    t.asker s = t.asker s' → s = s'
  answers : ∀ s w, (t.sys.sessions s).waiting = some w →
    answerIn t.sys.pendings w = t.given (t.asker s)
  fresh : ∀ q, t.nextPrompt ≤ q → t.given q = none
  returned : ∀ q response, (q, response) ∈ t.returned →
    t.given q = some response ∧ q < t.nextPrompt ∧ ∀ s k, seats t.sys s = some k → t.asker s ≠ q

variable {t : Traced}
variable {y : System} {s : Fin 8}

theorem seats_eq_some (h : (y.sessions s).waiting = some w) : seats y s = some w.slot := by
  rw [seats, h]
  rfl

section Update

variable {x y : System} {s : Fin 8} {c : Session}

theorem seats_update (h : y.sessions = update x.sessions s c) :
    seats y = update (seats x) s (c.waiting.map Waiting.slot) := by
  show (fun r : Session => r.waiting.map Waiting.slot) ∘ y.sessions = _
  rw [h]
  exact Function.comp_update ..

theorem actives_update (h : y.pendings = update x.pendings k p) :
    actives y = update (actives x) k p.active := by
  show Pending.active ∘ y.pendings = _
  rw [h]
  exact Function.comp_update ..

/-- Only sessions in use wait, also after a change of one session. -/
theorem idle_update (h : y.sessions = update x.sessions s c)
    (hidle : ∀ r, (x.sessions r).inUse = false → (x.sessions r).waiting = none)
    (hc : c.inUse = false → c.waiting = none) :
    ∀ r, (y.sessions r).inUse = false → (y.sessions r).waiting = none := by
  intro r
  rw [h, update_apply]
  split_ifs
  · exact hc
  · exact hidle r

end Update

theorem PromptsOk.right (h : PromptsOk t) : Right t where
  waiting := h.answers
  returned q response hm := (h.returned q response hm).1
  count := by
    have hseats : ∀ s, (seats t.sys s).isSome = (t.sys.sessions s).waiting.isSome := fun s =>
      isSome_map
    have := h.seated.card_eq
    simp only [hseats] at this
    exact this

/-- Nothing that matters here has changed. -/
theorem PromptsOk.same (h : PromptsOk t)
    (hw : ∀ s, (y.sessions s).waiting = (t.sys.sessions s).waiting)
    (hp : y.pendings = t.sys.pendings)
    (hidle : ∀ s, (y.sessions s).inUse = false → (y.sessions s).waiting = none) :
    PromptsOk { t with sys := y } := by
  have hseats : seats y = seats t.sys := funext fun s => by rw [seats, seats, hw]
  have hact : actives y = actives t.sys := funext fun k => by rw [actives, actives, hp]
  obtain ⟨h1, -, h4, h5, h6, h7, h8⟩ := h
  rw [← hseats] at h1 h4 h5 h8
  rw [← hact] at h1
  rw [← hp] at h6
  simp only [← hw] at h6
  exact ⟨h1, hidle, h4, h5, h6, h7, h8⟩

/-! ## Answers -/

theorem answerIn_answerSlot_self (p : Pendings) (w : Waiting) (response : Response) :
    answerIn (answerSlot p w.slot response) w = some response := by
  rw [answerIn, answerSlot, update_self]
  rfl

/-- **AN ANSWER** into the slot of its prompt. -/
theorem PromptsOk.answer (h : PromptsOk t) (hold : Holds t prompt k) (response : Response) :
    PromptsOk { t with
      sys := setPendings t.sys (answerSlot t.sys.pendings k response)
      given := update t.given prompt (some response) } := by
  obtain ⟨s, hs, rfl⟩ := hold
  have hact : actives (setPendings t.sys (answerSlot t.sys.pendings k response))
      = actives t.sys := by
    rw [actives_update (x := t.sys) (k := k) rfl]
    exact update_eq_self k (actives t.sys)
  refine ⟨?_, h.idle, h.numbered, h.apart, ?_, ?_, ?_⟩
  · show Seated (seats t.sys) (actives _)
    rw [hact]
    exact h.seated
  · intro s' w hw
    by_cases hss : s' = s
    · subst hss
      have hslot : w.slot = k := some.inj ((seats_eq_some hw).symm.trans hs)
      show answerIn (answerSlot t.sys.pendings k response) w
        = update t.given (t.asker s') (some response) (t.asker s')
      rw [← hslot, answerIn_answerSlot_self, update_self]
    · -- another session waits in another slot under another number
      have hslot : w.slot ≠ k := fun he => hss (h.seated.apart s' s k (he ▸ seats_eq_some hw) hs)
      have hnum : t.asker s' ≠ t.asker s := fun he =>
        hss (h.apart s' s w.slot k (seats_eq_some hw) hs he)
      show answerIn (answerSlot t.sys.pendings k response) w
        = update t.given (t.asker s) (some response) (t.asker s')
      rw [answerIn, answerSlot, update_of_ne hslot, update_of_ne hnum]
      exact h.answers s' w hw
  · intro q hq
    have hne : q ≠ t.asker s := fun he => Nat.not_le_of_gt (h.numbered s k hs) (he ▸ hq)
    show update t.given (t.asker s) (some response) q = none
    rw [update_of_ne hne]
    exact h.fresh q hq
  · intro q r hm
    obtain ⟨hg, hq, hn⟩ := h.returned q r hm
    refine ⟨?_, hq, hn⟩
    show update t.given (t.asker s) (some response) q = some r
    rw [update_of_ne (fun he => hn s k hs he.symm)]
    exact hg

/-- **RAISING A PROMPT** in a free slot. -/
theorem PromptsOk.raise (h : PromptsOk t) (hnone : (t.sys.sessions s).waiting = none)
    (hinUse : (t.sys.sessions s).inUse) (hfree : (t.sys.pendings w.slot).active = false)
    (hp : p.active ∧ p.responded = false)
    (hc : c.waiting = some w) (hsessions : y.sessions = update t.sys.sessions s c)
    (hpend : y.pendings = update t.sys.pendings w.slot p)
    (hcUse : c.inUse = (t.sys.sessions s).inUse) : PromptsOk { t with
      sys := y
      asker := update t.asker s t.nextPrompt
      nextPrompt := t.nextPrompt + 1 } := by
  have hseats := seats_update hsessions
  have hact := actives_update hpend
  rw [hc] at hseats
  rw [hp.1] at hact
  have hseat : seats t.sys s = none := by rw [seats, hnone]; rfl
  -- a session that waits afterwards is the new one or waited before
  have hold : ∀ r k, seats y r = some k → r ≠ s → seats t.sys r = some k := by
    intro r k hr hrs
    rw [hseats, update_of_ne hrs] at hr
    exact hr
  refine ⟨?_, ?_, ?_, ?_, ?_, ?_, ?_⟩
  · show Seated (seats y) (actives y)
    rw [hseats, hact]
    exact h.seated.take hseat hfree
  · refine idle_update hsessions h.idle (fun hout => ?_)
    cases hout.symm.trans (hcUse.trans hinUse)
  · intro r k hr
    dsimp only
    rw [update_apply]
    split_ifs with hrs
    · exact Nat.lt_succ_self _
    · exact Nat.lt_succ_of_lt (h.numbered r k (hold r k hr hrs))
  · intro r r' k k' hr hr' hnum
    dsimp only at hnum
    rw [update_apply, update_apply] at hnum
    split_ifs at hnum with hrs hrs' hrs'
    · rw [hrs, hrs']
    · exact absurd hnum (Nat.ne_of_gt (h.numbered r' k' (hold r' k' hr' hrs')))
    · exact absurd hnum (Nat.ne_of_lt (h.numbered r k (hold r k hr hrs)))
    · exact h.apart r r' k k' (hold r k hr hrs) (hold r' k' hr' hrs') hnum
  · intro r v hr
    have hr' : (y.sessions r).waiting = some v := hr
    show answerIn y.pendings v = t.given (update t.asker s t.nextPrompt r)
    by_cases hrs : r = s
    · rw [hrs, hsessions, update_self, hc] at hr'
      obtain rfl := some.inj hr'
      rw [hrs, update_self, h.fresh _ (Nat.le_refl _), answerIn, hpend, update_self, hp.2]
      rfl
    · rw [hsessions, update_of_ne hrs] at hr'
      have hslot : v.slot ≠ w.slot := fun he => Bool.false_ne_true
        (hfree.symm.trans (he ▸ h.seated.occupied r v.slot (seats_eq_some hr')))
      rw [update_of_ne hrs, answerIn, hpend, update_of_ne hslot]
      exact h.answers r v hr'
  · intro q hq
    exact h.fresh q (Nat.le_of_succ_le hq)
  · intro q response hm
    obtain ⟨hg, hq, hn⟩ := h.returned q response hm
    refine ⟨hg, Nat.lt_succ_of_lt hq, fun r k hr => ?_⟩
    dsimp only
    rw [update_apply]
    split_ifs with hrs
    · exact Nat.ne_of_gt hq
    · exact hn r k (hold r k hr hrs)

/-- **RETURNING** an answer frees the slot. -/
theorem PromptsOk.return (h : PromptsOk t)
    (hw : (t.sys.sessions s).waiting = some w) (hanswer : answerIn t.sys.pendings w = some response)
    (hp : p.active = false) (hc : c.waiting = none)
    (hsessions : y.sessions = update t.sys.sessions s c)
    (hpend : y.pendings = update t.sys.pendings w.slot p) :
    PromptsOk { t with sys := y, returned := t.returned ++ [(t.asker s, response)] } := by
  have hseat := seats_eq_some hw
  have hseats := seats_update hsessions
  have hact := actives_update hpend
  rw [hc] at hseats
  rw [hp] at hact
  have hold : ∀ r k, seats y r = some k → r ≠ s ∧ seats t.sys r = some k := by
    intro r k hr
    rw [hseats, update_apply] at hr
    split_ifs at hr with hrs
    · cases hr
    · exact ⟨hrs, hr⟩
  refine ⟨?_, ?_, ?_, ?_, ?_, h.fresh, ?_⟩
  · show Seated (seats y) (actives y)
    rw [hseats, hact]
    exact h.seated.leave hseat
  · exact idle_update hsessions h.idle (fun _ => hc)
  · exact fun r k hr => h.numbered r k (hold r k hr).2
  · exact fun r r' k k' hr hr' => h.apart r r' k k' (hold r k hr).2 (hold r' k' hr').2
  · intro r v hr
    have hr' : (y.sessions r).waiting = some v := hr
    obtain ⟨hrs, hseat'⟩ := hold r v.slot (seats_eq_some hr')
    -- who still waits, waits elsewhere
    have hslot : v.slot ≠ w.slot := fun he => hrs (h.seated.apart r s w.slot (he ▸ hseat') hseat)
    rw [hsessions, update_of_ne hrs] at hr'
    rw [answerIn, hpend, update_of_ne hslot]
    exact h.answers r v hr'
  · intro q r hm
    rw [List.mem_append, List.mem_singleton] at hm
    obtain hm | hm := hm
    · obtain ⟨hg, hq, hn⟩ := h.returned q r hm
      exact ⟨hg, hq, fun r' k hr' => hn r' k (hold r' k hr').2⟩
    · -- the answer of this request, which nobody waits for any more
      obtain ⟨rfl, rfl⟩ := Prod.mk.inj hm
      refine ⟨(h.answers s w hw).symm.trans hanswer, h.numbered s w.slot hseat,
        fun r' k hr' he => ?_⟩
      obtain ⟨hrs, hseat'⟩ := hold r' k hr'
      exact hrs (h.apart r' s k w.slot hseat' hseat he)

/-! ## Steps and runs -/

variable {c : BitVec 64}

theorem findCorrelation_lowest {p : Pendings} (h : findCorrelation p c = some k) :
    Lowest p c k := by
  obtain ⟨hk, hlow⟩ := Fin.find?_eq_some_iff.mp h
  rw [Bool.and_eq_true, beq_iff_eq] at hk
  exact ⟨hk, fun j hj hboth => by simpa [hboth] using hlow j hj⟩

/-- A session's step that keeps every frame and the pending prompts. -/
theorem PromptsOk.frame (h : PromptsOk t) {c : Session}
    (hsessions : y.sessions = update t.sys.sessions s c) (hp : y.pendings = t.sys.pendings)
    (hc : c.waiting = (t.sys.sessions s).waiting) (hidle : c.inUse = false → c.waiting = none) :
    PromptsOk { t with sys := y } := by
  refine h.same (fun r => ?_) hp (idle_update hsessions h.idle hidle)
  rw [hsessions, update_apply]
  split_ifs with hrs
  · rw [hrs, hc]
  · rfl

/-- An answer reaches the slot that is looked up for it, if any. -/
theorem PromptsOk.responds (h : PromptsOk t) (prompt : Nat) (P : Fin 4 → Prop)
    [Decidable (∃ k, Holds t prompt k ∧ P k)] (pendings : Pendings) (response : Response)
    (hcases : (pendings = t.sys.pendings ∧ ∀ k, (t.sys.pendings k).active → ¬ P k)
      ∨ ∃ k, pendings = answerSlot t.sys.pendings k response ∧ Holds t prompt k ∧ P k) :
    PromptsOk { t with
      sys := setPendings t.sys pendings
      given := if ∃ k, Holds t prompt k ∧ P k then update t.given prompt (some response)
        else t.given } := by
  obtain ⟨rfl, hnone⟩ | ⟨k, rfl, hold, hk⟩ := hcases
  · rw [if_neg]
    · exact h.same (fun _ => rfl) rfl h.idle
    · rintro ⟨k, ⟨s, hs, -⟩, hk⟩
      exact hnone k (h.seated.occupied s k hs) hk
  · rw [if_pos ⟨k, hold, hk⟩]
    exact h.answer hold response

theorem promptsOk_respondAuth (h : PromptsOk t)
    (haddr : ∀ k, Lowest t.sys.pendings c k → Holds t prompt k) :
    PromptsOk (tstep t ⟨.respondAuth c response, prompt⟩) := by
  have hp := h.responds prompt (fun k => (t.sys.pendings k).correlationId = c)
    (eventRespondAuth t.sys.pendings c response) response (by
      rw [eventRespondAuth]
      cases hf : findCorrelation t.sys.pendings c with
      | none => exact Or.inl ⟨rfl, fun k hk => by simpa [hk] using Fin.find?_eq_none_iff.mp hf k⟩
      | some k =>
        have hlow := findCorrelation_lowest hf
        exact Or.inr ⟨k, rfl, haddr k hlow, hlow.1.2⟩)
  simp only [tstep, gives]
  split_ifs at hp ⊢ <;> exact hp

theorem activeSlot_eq_some_iff {p : Pendings} {i : Nat} :
    activeSlot p i = some k ↔ k.val = i ∧ (p k).active := by
  unfold activeSlot
  grind

section

variable (h : PromptsOk t)
include h

theorem promptsOk_authRespond
    (haddr : ∀ k : Fin 4, k.val = slotIndex → (t.sys.pendings k).active → Holds t prompt k) :
    PromptsOk (tstep t ⟨.authRespond slotIndex raw, prompt⟩) := by
  have hp := h.responds prompt (fun k => k.val = slotIndex)
    (appNativeAuthRespond t.sys.pendings slotIndex raw) (responseOf raw) (by
      rw [appNativeAuthRespond]
      cases hf : activeSlot t.sys.pendings slotIndex with
      | none =>
        refine Or.inl ⟨rfl, fun k hk hi => ?_⟩
        cases hf.symm.trans (activeSlot_eq_some_iff.mpr ⟨hi, hk⟩)
      | some k =>
        obtain ⟨hk, hactive⟩ := activeSlot_eq_some_iff.mp hf
        exact Or.inr ⟨k, rfl, haddr k hk hactive, hk⟩)
  simp only [tstep, gives]
  split_ifs at hp ⊢ <;> exact hp

theorem promptsOk_request (prompt : Nat) (s : Fin 8) (request : Request)
    (pressed : Response) : PromptsOk (tstep t ⟨.request s request pressed, prompt⟩) := by
  have he : tstep t ⟨.request s request pressed, prompt⟩
      = if raises t.sys s request pressed then
          { t with
            sys := sysStep t.sys (.request s request pressed)
            asker := update t.asker s t.nextPrompt
            nextPrompt := t.nextPrompt + 1 }
        else { t with sys := sysStep t.sys (.request s request pressed) } := by
    simp only [tstep]
    split <;> rfl
  rw [he]
  cases hask : canAsk (t.sys.sessions s) with
  | false =>
    have hstep : sysStep t.sys (.request s request pressed) = t.sys := by
      rw [sysStep, hask, if_neg Bool.false_ne_true]
    rw [raises, hask, hstep]
    exact h
  | true =>
    have hinUse : (t.sys.sessions s).inUse := (Bool.and_eq_true_iff.mp hask).1
    have hstep : sysStep t.sys (.request s request pressed)
        = (authorizeRequest t.sys s request pressed).1 := by
      rw [sysStep, hask, if_pos rfl]
    have hno : ∀ c : Session, c.inUse = (t.sys.sessions s).inUse →
        c.inUse = false → c.waiting = none := fun c hc hf =>
      absurd (hf.symm.trans (hc.trans hinUse)) Bool.false_ne_true
    rw [raises, hask, hstep]
    cases authorizeRequest_asks t.sys s request pressed with
    | decided _ _ hcore haccess | always _ _ _ hcore haccess =>
      rw [haccess]
      have hs := congrArg System.sessions hcore
      have hp := congrArg System.pendings hcore
      exact h.frame hs hp rfl (hno _ rfl)
    | waits _ _ slot _ hmanaged hfree hcore haccess =>
      rw [haccess]
      have hs := congrArg System.sessions hcore
      have hp := congrArg System.pendings hcore
      -- under the window manager a session asks only while it does not wait
      have hnone : (t.sys.sessions s).waiting = none := by
        rw [canAsk, hmanaged, hinUse] at hask
        simpa using hask
      exact h.raise (w := ⟨slot, request⟩) hnone hinUse hfree ⟨rfl, rfl⟩ rfl hs hp rfl

theorem promptsOk_tick (prompt : Nat) (s : Fin 8) : PromptsOk (tstep t ⟨.tick s, prompt⟩) := by
  have he : tstep t ⟨.tick s, prompt⟩
      = match returns t.sys s with
        | some response =>
          { t with
            sys := sysStep t.sys (.tick s)
            returned := t.returned ++ [(t.asker s, response)] }
        | none => { t with sys := sysStep t.sys (.tick s) } := by
    simp only [tstep]
    split <;> rfl
  rw [he]
  cases hres : canResume (t.sys.sessions s) with
  | false =>
    have hstep : sysStep t.sys (.tick s) = t.sys := by rw [sysStep, hres, if_neg Bool.false_ne_true]
    rw [returns, hres, hstep]
    exact h
  | true =>
    have hstep : sysStep t.sys (.tick s) = (resume t.sys s).1 := by rw [sysStep, hres, if_pos rfl]
    rw [returns, hres, hstep]
    cases resume_resumes t.sys s with
    | idle hno hsys =>
      rw [hsys]
      cases hw : (t.sys.sessions s).waiting with
      | none => exact h
      | some w =>
        rw [bind_some, hno w hw]
        exact h
    | returned _ _ hw hanswer hsys =>
      rw [hw, bind_some, hanswer]
      have hs := congrArg System.sessions hsys
      have hp := congrArg System.pendings hsys
      exact h.return hw hanswer rfl rfl hs hp

theorem promptsOk_manages (hop : op.manages)
    (haddr : Addressed t ⟨op, prompt⟩) : PromptsOk { t with sys := sysStep t.sys op } := by
  obtain ⟨hp, hmanages⟩ := sysStep_manages t.sys hop
  cases hmanages with
  | same hsessions => exact h.same (fun s => by rw [hsessions]) hp (hsessions ▸ h.idle)
  | changed s _ hsessions _ hwaiting hinUse =>
    refine h.frame hsessions hp hwaiting (fun hc => ?_)
    obtain hinUse | hinUse := hinUse
    · exact absurd (hc.symm.trans hinUse) Bool.false_ne_true
    · exact hwaiting.trans (h.idle s (hinUse.symm.trans hc))
  | dropped s _ hsessions hdestroy hactive _ hwaiting =>
    -- the session did not wait, so no frame is lost
    subst hdestroy
    have hnone : (t.sys.sessions s).waiting = none := haddr s.isLt hactive
    exact h.frame hsessions hp (hwaiting.trans hnone.symm) (fun _ => hwaiting)

theorem promptsOk_step (haddr : Addressed t a) : PromptsOk (tstep t a) := by
  obtain ⟨op, prompt⟩ := a
  cases op with
  | request s request pressed => exact promptsOk_request h prompt s request pressed
  | tick s => exact promptsOk_tick h prompt s
  | respondAuth => exact promptsOk_respondAuth h haddr
  | authRespond => exact promptsOk_authRespond h haddr
  | _ => exact promptsOk_manages h rfl haddr

end

theorem promptsOk_start (bits : Bits) (bootstrap : Nat) : PromptsOk (tstart bits bootstrap) := by
  have hnone : ∀ s, ((start bits bootstrap).sessions s).waiting = none := by
    intro s
    show (update (fun _ => emptySession) 0 _ s).waiting = none
    rw [update_apply]
    split_ifs <;> rfl
  have hseats : seats (start bits bootstrap) = fun _ => none :=
    funext fun s => by rw [seats, hnone]; rfl
  have hno : ∀ s k, seats (start bits bootstrap) s ≠ some k := by
    intro s k hk
    rw [hseats] at hk
    cases hk
  refine ⟨?_, fun s _ => hnone s, fun s k hk => absurd hk (hno s k),
    fun s _ k _ hk => absurd hk (hno s k), fun s w hw => ?_, fun _ _ => rfl, nofun⟩
  · show Seated (seats (start bits bootstrap)) _
    rw [hseats]
    exact seated_empty
  · cases (hnone s).symm.trans hw

theorem promptsOk_run (hops : Along tstep Addressed (tstart bits bootstrap) ops) :
    PromptsOk (run tstep (tstart bits bootstrap) ops) :=
  run_inv (I := PromptsOk) (fun _ _ h ha => promptsOk_step h ha) ops _
    (promptsOk_start bits bootstrap) hops

/-- **ANSWERS REACH THEIR PROMPTS** in every run whose answers hit no slot or that of their prompt,
    and in which no waiting session is destroyed: waiting requests see, and return, the answers
    given for them, and there are as many active slots as waiting requests. -/
theorem answers_reach_prompts (bits : Bits) (bootstrap : Nat) (ops : List MeantOp)
    (hops : Along tstep Addressed (tstart bits bootstrap) ops) :
    Right (run tstep (tstart bits bootstrap) ops) :=
  (promptsOk_run hops).right

/-- Sessions 1 and 2, under the window manager, each ask about a binary under one id. -/
def bothAsk : List MeantOp :=
  [⟨.create 1, 0⟩, ⟨.create 2, 0⟩, ⟨.setWmManaged 1 true, 0⟩, ⟨.setWmManaged 2 true, 0⟩,
    ⟨.request 1 (.unsigned none) .deny, 0⟩, ⟨.request 2 (.unsigned none) .deny, 0⟩]

/-- Answered through its slot, session 2 gets its own answer. -/
def bySlot : List MeantOp := bothAsk ++ [⟨.authRespond 1 1, 1⟩, ⟨.tick 1, 0⟩, ⟨.tick 2, 0⟩]

theorem answers_reach_prompts_by_slot :
    (run tstep (tstart capTableReset 0) bySlot).returned = [(1, .allow)]
      ∧ Right (run tstep (tstart capTableReset 0) bySlot) :=
  ⟨by decide +kernel, answers_reach_prompts capTableReset 0 bySlot (by decide +kernel)⟩

/-- Session 2's answer, sent under the id, goes to session 1, whose binary runs though nobody
    allowed it.  And a session destroyed while it waits leaves an active slot with no request. -/
theorem answers_go_astray :
    let crossed := run tstep (tstart capTableReset 0)
      (bothAsk ++ [⟨.respondAuth 2 .allow, 1⟩, ⟨.tick 1, 0⟩, ⟨.tick 2, 0⟩])
    let gone := run tstep (tstart capTableReset 0) (bothAsk ++ [⟨.destroy 1, 0⟩])
    (crossed.returned = [(0, .allow)] ∧ crossed.given 0 = none ∧ crossed.given 1 = some .allow
        ∧ (crossed.sys.sessions 2).waiting.map (answerIn crossed.sys.pendings) = some none)
      ∧ (Finset.univ.filter (fun k => (gone.sys.pendings k).active = true)).card = 2
      ∧ (Finset.univ.filter (fun s => (gone.sys.sessions s).waiting.isSome = true)).card = 1 := by
  decide +kernel

end ConsoleAuth
