import SecureOS.IpcStepProofs

/-! # Authority over transfers

A call shows its right once, when it is issued, and may block before its envelope moves.  So at
a transfer the subject held the capability of the port when its call was checked; it holds it
still unless the capability was revoked, or the port destroyed, in between. -/

namespace Ipc

open Capability CapTable Process ProcSched MachineRun Function List

/-- The subject has the capability in the table. -/
def Holds (k : Kernel) (s cap : Nat) : Prop := capTableCheck k.caps.bits s cap = .ok

/-- The action asks to revoke the capability of the subject. -/
def Action.revokes (s cap : Nat) : Action → Bool
  | .capRevoke s' cap' => s' == s && cap' == cap
  | .capRevokeAs _ s' cap' => s' == s && cap' == cap
  | _ => false

/-- The action takes away what a check has shown: the capability or the port. -/
def Action.disturbs (s cap : Nat) (h : BitVec 32) (a : Action) : Bool :=
  a.revokes s cap || a == .portDestroy h

variable {s : Nat} {k k0 : Kernel} {p : Pending} {a : Action} {f : PortSlot → Nat} {i : Fin 16}
  {h : BitVec 32} {as pre : List Action} {c : Call}

theorem holds_grant (h : capTableCheck t s cap = .ok) (s' cap' : Nat) :
    capTableCheck (capTableGrant t s' cap').1 s cap = .ok :=
  (capTableCheck_grant t s' cap' s cap).mpr (Or.inr h)

theorem holds_revoke (h : capTableCheck t s cap = .ok) (hne : (s' == s && cap' == cap) = false) :
    capTableCheck (capTableRevoke t s' cap').1 s cap = .ok := by
  refine (capTableCheck_revoke t s' cap' s cap).mpr ⟨?_, h⟩
  rintro ⟨rfl, rfl⟩
  simp at hne

/-- No call writes the capability table. -/
theorem does_bits (hd : Does caller k p events k') : k'.caps.bits = k.caps.bits := by
  induction hd with
  | sendsRefused _ _ hq => exact (quiet_sameTables hq).2.2.1
  | sendsOn _ _ hq _ _ _ _ ih => exact ih.trans (quiet_sameTables hq).2.2.1
  | _ => rfl

/-- **A CAPABILITY** is lost only to a revocation of it. -/
theorem holds_step (h : Holds k s cap) (ha : a.revokes s cap = false) : Holds (step k a) s cap := by
  rw [step]
  cases hen : enabled k a with
  | false =>
    rw [exec_of_disabled hen]
    exact h
  | true =>
    rw [exec_of_enabled hen]
    cases a with
    | ipc c =>
      show Holds (execCall k c).1 s cap
      obtain ⟨_, _, hq, hc⟩ | ⟨_, _, hq, -, hd⟩ := execCall_cases k c
      · rw [hc, Holds, (quiet_sameTables hq).2.2.1]
        exact h
      · rw [Holds, does_bits hd, (quiet_sameTables hq).2.2.1]
        exact h
    | turn ctxOk =>
      show Holds (execTurn k ctxOk).1 s cap
      obtain ⟨⟨-, -, hb, -⟩, -⟩ | ⟨_, _, _, -, -, hd⟩ := execTurn_cases k ctxOk
      · rw [Holds, hb]
        exact h
      · rw [Holds, does_bits hd]
        exact h
    | capGrant s' cap' => exact holds_grant h s' cap'
    | capRevoke => exact holds_revoke h ha
    | capGrantAs actor s' cap' =>
      show capTableCheck (capGrantAsForTests k.caps actor s' cap').1.bits s cap = .ok
      rw [capGrantAsForTests]
      split_ifs <;> first | exact h | exact holds_grant h s' cap'
    | capRevokeAs actor s' cap' =>
      show capTableCheck (capRevokeAsForTests k.caps actor s' cap').1.bits s cap = .ok
      rw [capRevokeAsForTests]
      split_ifs
      · exact h
      · exact holds_revoke h ha
    | _ => exact h

/-- A field of a port that transfers do not write. -/
def Fixed (f : PortSlot → Nat) : Prop := (∀ s env, f (s.stage env) = f s) ∧ ∀ s, f s.consume = f s

theorem fixed_sendCap : Fixed PortSlot.sendCap := ⟨fun _ _ => rfl, fun _ => rfl⟩

theorem fixed_recvCap : Fixed PortSlot.recvCap := ⟨fun _ _ => rfl, fun _ => rfl⟩

/-- The handle still names the slot, and the field is what it was. -/
def KeepsPort (f : PortSlot → Nat) (p q : Ports) : Prop :=
  ∀ h i, resolve p h = some i → resolve q h = some i ∧ f (q i) = f (p i)

theorem keepsPort_update {p : Ports} {s : PortSlot} (hl : s.live = (p i).live)
    (hg : s.generation = (p i).generation) (hf : f s = f (p i)) : KeepsPort f p (update p i s) := by
  intro h _ hj
  refine ⟨(resolve_update hl hg h).trans hj, ?_⟩
  rw [update_apply]
  split_ifs with hji
  · rw [hf, hji]
  · rfl

theorem keepsPort_does (hf : Fixed f) (hd : Does caller k p events k') :
    KeepsPort f k.ports k'.ports := by
  have hstage : ∀ (k : Kernel) (i : Fin 16) (env : Msg),
      KeepsPort f k.ports (update k.ports i ((k.ports i).stage env)) :=
    fun k i env => keepsPort_update rfl rfl (hf.1 (k.ports i) env)
  have hconsume : ∀ (k : Kernel) (i : Fin 16),
      KeepsPort f k.ports (update k.ports i (k.ports i).consume) :=
    fun k i => keepsPort_update rfl rfl (hf.2 (k.ports i))
  induction hd with
  | fails | blocks _ _ _ hi => exact fun h i hi => ⟨hi, rfl⟩
  | @sends k _ _ env i => exact hstage k i env
  | @sendsRefused k _ _ _ env _ i _ _ _ hq =>
    rw [(quiet_sameTables hq).1]
    exact hstage k i env
  | @sendsOn k _ _ _ _ env _ i _ _ _ _ hq _ _ _ _ ih =>
    intro h l hl
    obtain ⟨hl1, hv1⟩ := hstage k i env h l hl
    rw [(quiet_sameTables hq).1] at ih
    obtain ⟨hl2, hv2⟩ := ih h l hl1
    exact ⟨hl2, hv2.trans hv1⟩
  | @delivers k _ _ _ i
  | @mangles k _ _ _ i => exact hconsume k i

/-- **A PORT** keeps its handle and its capabilities until it is destroyed. -/
theorem port_step (hf : Fixed f) (hi : resolve k.ports h = some i) (ha : a ≠ .portDestroy h) :
    resolve (step k a).ports h = some i ∧ f ((step k a).ports i) = f (k.ports i) := by
  have hlive := ((resolve_eq_some_iff k.ports h i).mp hi).2
  have hother : ∀ {j s}, i ≠ j → (step k a).ports = update k.ports j s →
      resolve (step k a).ports h = some i ∧ f ((step k a).ports i) = f (k.ports i) := by
    intro _ _ hij hp
    rw [resolve_eq_some_iff, hp, update_of_ne hij]
    exact ⟨(resolve_eq_some_iff ..).mp hi, rfl⟩
  cases acts k a with
  | idles hp =>
    rw [hp]
    exact ⟨hi, rfl⟩
  | calls _ hq _ hd =>
    rw [← (quiet_sameTables hq).1] at hi ⊢
    exact keepsPort_does hf hd h i hi
  | resumes _ _ _ hd => exact keepsPort_does hf hd h i hi
  | creates _ hdead hp =>
    refine hother ?_ hp
    rintro rfl
    exact nomatch hdead.symm.trans hlive
  | @destroys h' _ hc hj hp =>
    refine hother ?_ hp
    rintro rfl
    have heq : h = h' := GenHandle.resolve_inj (fun i => (k.ports i).live)
      (fun i => (k.ports i).generation) hi hj
    exact ha (heq ▸ hc)

/-- At an action of the run that meets `Q` the subject held the capability `f` of the port the
    handle named; and unless an action since took it or the port away, it still does. -/
def Shown (k0 : Kernel) (as : List Action) (k : Kernel) (Q : List Action → Action → Prop) (s : Nat)
    (h : BitVec 32) (f : PortSlot → Nat) : Prop :=
  ∃ pre a post i, as = pre ++ a :: post ∧ Q pre a
    ∧ resolve (run step k0 pre).ports h = some i
    ∧ Holds (run step k0 pre) s (f ((run step k0 pre).ports i))
    ∧ ((∀ b ∈ post, b.disturbs s (f ((run step k0 pre).ports i)) h = false) →
      resolve k.ports h = some i ∧ f (k.ports i) = f ((run step k0 pre).ports i)
        ∧ Holds k s (f (k.ports i)))

/-- A right shown by the last action, and not disturbed by it. -/
theorem shown_now (hk : k = run step k0 as) (hQ : Q as a) (hi : resolve k.ports h = some i)
    (hs : Holds k s (f (k.ports i))) : Shown k0 (as ++ [a]) k Q s h f := by
  subst hk
  exact ⟨as, a, [], i, rfl, hQ, hi, hs, fun _ => ⟨hi, rfl, hs⟩⟩

/-- A right shown before, at one more action. -/
theorem shown_longer (hs : Shown k0 as k Q s h f) (a : Action) :
    Shown k0 (as ++ [a]) k Q s h f := by
  obtain ⟨pre, b, post, i, rfl, hQ, hi, hheld, hstill⟩ := hs
  refine ⟨pre, b, post ++ [a], i, by simp, hQ, hi, hheld, fun hpost => hstill fun c hc => ?_⟩
  exact hpost c (mem_append_left _ hc)

/-- What stood before an action stands after it, unless the action took it away. -/
theorem still_step (hf : Fixed f)
    (hk : resolve k.ports h = some i ∧ f (k.ports i) = cap ∧ Holds k s (f (k.ports i)))
    (ha : a.disturbs s cap h = false) :
    resolve (step k a).ports h = some i ∧ f ((step k a).ports i) = cap
      ∧ Holds (step k a) s (f ((step k a).ports i)) := by
  obtain ⟨hi, rfl, hs⟩ := hk
  rw [Action.disturbs, Bool.or_eq_false_iff, beq_eq_false_iff_ne] at ha
  obtain ⟨hi', hv⟩ := port_step hf hi ha.2
  exact ⟨hi', hv, hv.symm ▸ holds_step hs ha.1⟩

/-- **ONE ACTION** later. -/
theorem shown_snoc (hf : Fixed f) (hs : Shown k0 as k Q s h f) (a : Action) :
    Shown k0 (as ++ [a]) (step k a) Q s h f := by
  obtain ⟨pre, b, post, i, rfl, hQ, hi, hheld, hstill⟩ := hs
  refine ⟨pre, b, post ++ [a], i, by simp, hQ, hi, hheld, fun hpost => ?_⟩
  refine still_step hf (hstill fun c hc => hpost c (mem_append_left _ hc)) ?_
  exact hpost a (mem_append_right _ (mem_singleton_self a))

/-- Calls and turns of the loop take no right away. -/
theorem shown_calls (hf : Fixed f) (ha : ∀ cap, a.disturbs s cap h = false)
    (hs : Shown k0 (as ++ [a]) k Q s h f) : Shown k0 (as ++ [a]) (step k a) Q s h f := by
  obtain ⟨pre, b, post, i, heq, hQ, hi, hheld, hstill⟩ := hs
  exact ⟨pre, b, post, i, heq, hQ, hi, hheld, fun hpost => still_step hf (hstill hpost) (ha _)⟩

/-! ## The call a transfer is made by -/

/-- The entry issued the call after `pre`, and has been inside a call ever since. -/
def Inside (k0 : Kernel) (as : List Action) (e : Fin 16) (pre : List Action) (c : Call) : Prop :=
  ∃ post, as = pre ++ .ipc c :: post ∧ (run step k0 pre).tasks.current = some e
    ∧ ∀ mid, mid <+: post → (run step k0 (pre ++ .ipc c :: mid)).calls e ≠ none

/-- The call an action runs: the one it issues, or the one that the entry it resumes is inside. -/
def RunsCall (k0 : Kernel) (as : List Action) (a : Action) (pre : List Action) (c : Call) : Prop :=
  (a = .ipc c ∧ pre = as) ∨ ∃ ctxOk t e, a = .turn ctxOk
    ∧ dispatch (run step k0 as).tasks ctxOk = (t, .runs e) ∧ Inside k0 as e pre c

theorem inside_now (hc : (run step k0 as).tasks.current = some e)
    (hin : (step (run step k0 as) (.ipc c)).calls e ≠ none) :
    Inside k0 (as ++ [.ipc c]) e as c := by
  refine ⟨[], rfl, hc, fun mid hmid => ?_⟩
  rw [prefix_nil.mp hmid, run_append]
  exact hin

theorem inside_snoc (h : Inside k0 as e pre c) (hk : k = run step k0 as)
    (hin : (step k a).calls e ≠ none) : Inside k0 (as ++ [a]) e pre c := by
  obtain ⟨post, rfl, hc, hstay⟩ := h
  refine ⟨post ++ [a], by simp, hc, fun mid hmid => ?_⟩
  rcases prefix_concat_iff.mp hmid with rfl | hmid
  · rw [← cons_append, ← append_assoc, run_append, ← hk]
    exact hin
  · exact hstay mid hmid

/-- The action checked the receive of the call: where the call was issued, if it is a receive, and
    where its own request went through, if it is an `ipc_call`. -/
def ChecksRecv (k0 : Kernel) (h : BitVec 32) (s : Nat) (pre : List Action) (c : Call)
    (pre' : List Action) (a : Action) : Prop :=
  (pre' = pre ∧ a = .ipc c ∧ Enters (run step k0 pre) c (.consume .subject h s))
    ∨ ∃ target m out i, c = .call s target (some m) h (some out) ∧ RunsCall k0 pre' a pre c
      ∧ Event.sent i .subject { m.msg with senderSubject := s } ∈ report (run step k0 pre') a

/-- The call issued after `pre` has shown its right to what it still has to do. -/
def Pending.shown (k0 : Kernel) (as : List Action) (k : Kernel) (pre : List Action) (c : Call) :
    Pending → Prop
  | .stage via target env reply => Enters (run step k0 pre) c (.stage via target env reply)
    ∧ (via = .subject → Shown k0 as k (fun pre' a => pre' = pre ∧ a = .ipc c) env.senderSubject
      target PortSlot.sendCap)
  | .consume via selfPort receiver => via = .subject →
    Shown k0 as k (ChecksRecv k0 selfPort receiver pre c) receiver selfPort PortSlot.recvCap

theorem Pending.shown_snoc (h : p.shown k0 as k pre c) (a : Action) :
    p.shown k0 (as ++ [a]) (step k a) pre c := by
  cases p with
  | stage => exact ⟨h.1, fun hv => Ipc.shown_snoc fixed_sendCap (h.2 hv) a⟩
  | consume => exact fun hv => Ipc.shown_snoc fixed_recvCap (h hv) a

/-- A call that passes its checks shows its right at that moment. -/
theorem shown_enters (hk : k = run step k0 as) (h : Enters k c p) :
    p.shown k0 (as ++ [.ipc c]) k as c := by
  subst hk
  cases h with
  | send hok hi hright =>
    exact ⟨.send hok hi hright, fun _ => shown_now rfl ⟨rfl, rfl⟩ hi hright⟩
  | sendH hok hi hright => exact ⟨.sendH hok hi hright, fun hv => nomatch hv⟩
  | recv hi hown hright =>
    exact fun _ => shown_now rfl (Or.inl ⟨rfl, rfl, .recv hi hown hright⟩) hi hright
  | recvH => exact fun hv => nomatch hv
  | call hok hi hright =>
    exact ⟨.call hok hi hright, fun _ => shown_now rfl ⟨rfl, rfl⟩ hi hright⟩

/-- The receive of an `ipc_call` whose send goes through. -/
def Pending.replies (k : Kernel) (p : Pending) (events : List Event) (h : BitVec 32)
    (receiver : Nat) : Prop :=
  ∃ via target env rp i j, p = .stage via target env (some rp) ∧ h = rp.replyPort
    ∧ receiver = rp.caller ∧ Event.sent i via env ∈ events ∧ resolve k.ports h = some j
    ∧ Holds k receiver (k.ports j).recvCap

/-- A call found after one entry's call was written is that one or was there. -/
theorem calls_update {c e : Fin 16} {v : Option Pending}
    {q : Pending} (h : update calls c v e = some q) : calls e = some q ∨ e = c ∧ v = some q := by
  rw [update_apply] at h
  split_ifs at h with he
  · exact Or.inr ⟨he, h⟩
  · exact Or.inl h

section

variable (hd : Does caller k p events k')
include hd

/-- **WHO IS LEFT BLOCKED** by a call: who was, the call, or the receive of `ipc_call`. -/
theorem does_calls (hq : k'.calls e = some q) : k.calls e = some q ∨ caller = some e ∧ (q = p
      ∨ ∃ h receiver, q = .consume .subject h receiver ∧ p.replies k events h receiver) := by
  cases hd with
  | blocks _ _ hcaller =>
    obtain hold | ⟨rfl, hnew⟩ := calls_update hq
    · exact Or.inl hold
    · exact Or.inr ⟨hcaller, Or.inl (Option.some.inj hnew).symm⟩
  | sendsRefused _ _ hquiet =>
    rw [(quiet_sameTables hquiet).2.1] at hq
    exact Or.inl hq
  | @sendsOn _ k1 _ via target env rp i j events _ _ hquiet hj _ hright hon =>
    have hcalls : k1.calls = k.calls := (quiet_sameTables hquiet).2.1
    have hreply : (Pending.stage via target env (some rp)).replies k (.sent i via env :: events)
        rp.replyPort rp.caller :=
      ⟨via, target, env, rp, i, j, rfl, rfl, rfl, mem_cons_self, hj, hright⟩
    rw [← hcalls]
    cases hon with
    | blocks _ _ hcaller =>
      obtain hold | ⟨rfl, hnew⟩ := calls_update hq
      · exact Or.inl hold
      · exact Or.inr ⟨hcaller, Or.inr ⟨_, _, (Option.some.inj hnew).symm, hreply⟩⟩
    | _ => exact Or.inl hq
  | _ => exact Or.inl hq

/-- **WHAT GOES IN** is the envelope of the call, into the port it names. -/
theorem does_sent (hm : Event.sent i via env ∈ events) :
    ∃ target reply, p = .stage via target env reply ∧ resolve k.ports target = some i := by
  induction hd with
  | sends hi | sendsRefused hi =>
    simp only [mem_cons, reduceCtorEq, not_mem_nil, or_false] at hm
    obtain ⟨rfl, rfl, rfl⟩ := hm
    exact ⟨_, _, rfl, hi⟩
  | sendsOn hi _ _ _ _ _ _ ih =>
    rcases mem_cons.mp hm with hm | hm
    · obtain ⟨rfl, rfl, rfl⟩ := Event.sent.inj hm
      exact ⟨_, _, rfl, hi⟩
    · -- a receive sends nothing
      obtain ⟨_, _, hno, -⟩ := ih hm
      exact nomatch hno
  | _ => simp at hm

/-- **WHAT COMES OUT** goes to the call's receiver, or the caller of `ipc_call`, from its port. -/
theorem does_delivered (hm : Event.delivered i via receiver env ∈ events) :
    ∃ h, resolve k.ports h = some i
      ∧ (p = .consume via h receiver ∨ (via = .subject ∧ p.replies k events h receiver)) := by
  cases hd with
  | @sendsOn _ k1 _ via' target env' rp l j events _ _ hquiet hj _ hright hon =>
    have hreply : (Pending.stage via' target env' (some rp)).replies k
        (.sent l via' env' :: events) rp.replyPort rp.caller :=
      ⟨via', target, env', rp, l, j, rfl, rfl, rfl, mem_cons_self, hj, hright⟩
    -- the stage moved no handle
    have hkept : resolve k1.ports rp.replyPort = some j := by
      rw [(quiet_sameTables hquiet).1, ← hj]
      exact resolve_update (s := (k.ports l).stage env') rfl rfl rp.replyPort
    cases hon with
    | delivers hi' =>
      simp only [mem_cons, Event.delivered.injEq, reduceCtorEq, not_mem_nil,
        or_false, false_or] at hm
      obtain ⟨rfl, rfl, rfl, -⟩ := hm
      obtain rfl := Option.some.inj (hkept.symm.trans hi')
      exact ⟨rp.replyPort, hj, Or.inr ⟨rfl, hreply⟩⟩
    | _ => simp at hm
  | delivers hi =>
    simp only [mem_cons, reduceCtorEq, not_mem_nil, or_false] at hm
    obtain ⟨rfl, rfl, rfl, -⟩ := hm
    exact ⟨_, hi, Or.inl rfl⟩
  | _ => simp at hm

end

/-- The receive of `ipc_call` is checked where its send goes through. -/
theorem shown_reply (hk : k = run step k0 as)
    (hports : k1.ports = k.ports) (hbits : k1.caps.bits = k.caps.bits)
    (hp : p.shown k0 l kp pre c) (hruns : RunsCall k0 as a pre c)
    (hr : p.replies k1 (report k a) h receiver) :
    Shown k0 (as ++ [a]) k (ChecksRecv k0 h receiver pre c) receiver h PortSlot.recvCap := by
  obtain ⟨_, _, _, _, i, _, rfl, rfl, rfl, hsent, hj, hheld⟩ := hr
  rw [hports] at hj
  rw [Holds, hports, hbits] at hheld
  cases hp.1 with
  | call => exact shown_now hk (Or.inr ⟨_, _, _, i, rfl, hruns, hk ▸ hsent⟩) hj hheld

/-- Every blocked call has shown its right, where its entry issued it. -/
def Entitled (k0 : Kernel) (as : List Action) (k : Kernel) : Prop :=
  ∀ e p, k.calls e = some p → ∃ pre c, Inside k0 as e pre c ∧ p.shown k0 as k pre c

theorem entitled_step (h : Entitled k0 as k) (hk : k = run step k0 as) (a : Action) :
    Entitled k0 (as ++ [a]) (step k a) := by
  intro e q hq
  have hin : (step k a).calls e ≠ none := fun hno => nomatch hq.symm.trans hno
  have hsame : k.calls e = some q → ∃ pre c, Inside k0 (as ++ [a]) e pre c
      ∧ q.shown k0 (as ++ [a]) (step k a) pre c := by
    intro hq
    obtain ⟨pre, c, hinside, hshown⟩ := h e q hq
    exact ⟨pre, c, inside_snoc hinside hk hin, Pending.shown_snoc hshown a⟩
  cases acts k a with
  | idles _ hc => exact hsame (hc ▸ hq)
  | @calls c _ _ ha hquiet henters hd =>
    subst ha
    obtain ⟨hports, hcalls, hbits, -⟩ := quiet_sameTables hquiet
    have hpass := shown_enters hk henters
    rcases does_calls hd hq with hq | ⟨hcaller, rfl | ⟨_, _, rfl, hreply⟩⟩
    · exact hsame (hcalls ▸ hq)
    · refine ⟨as, c, inside_now (hk ▸ hcaller) (hk ▸ hin), ?_⟩
      cases q with
      | stage => exact ⟨hpass.1, fun hv => shown_calls fixed_sendCap (fun _ => rfl) (hpass.2 hv)⟩
      | consume => exact fun hv => shown_calls fixed_recvCap (fun _ => rfl) (hpass hv)
    · exact ⟨as, c, inside_now (hk ▸ hcaller) (hk ▸ hin), fun _ => shown_calls fixed_recvCap
        (fun _ => rfl) (shown_reply hk hports hbits hpass (Or.inl ⟨rfl, rfl⟩) hreply)⟩
  | @resumes ctxOk t i p ha ht hp hd =>
    subst ha
    obtain ⟨pre, c, hinside, hshown⟩ := h i p hp
    rcases does_calls hd hq with hq | ⟨hcaller, rfl | ⟨_, _, rfl, hreply⟩⟩
    · exact hsame ((calls_update hq).resolve_right nofun)
    · obtain rfl := Option.some.inj hcaller
      exact hsame hp
    · obtain rfl := Option.some.inj hcaller
      exact ⟨pre, c, inside_snoc hinside hk hin, fun _ => shown_calls fixed_recvCap (fun _ => rfl)
        (shown_reply hk rfl rfl hshown (Or.inr ⟨ctxOk, t, i, rfl, hk ▸ ht, hinside⟩) hreply)⟩
  | creates _ _ _ hc | destroys _ _ _ hc => exact hsame (hc ▸ hq)

theorem entitled_run (caps : Caps) (handles : CapHandle.Table) (hook : Bool) (as : List Action) :
    Entitled (boot caps handles hook) as (run step (boot caps handles hook) as) := by
  have hboot : Entitled (boot caps handles hook) [] (boot caps handles hook) :=
    fun e p h => nomatch h
  exact run_history report (J := fun as k _ => Entitled (boot caps handles hook) as k) hboot
    (fun _ _ _ a h hk => entitled_step h hk a) as

/-- **AUTHORITY**: the call that puts an envelope into a port or gets one out showed the port's
    capability when it was checked, and its subject holds it at the transfer unless since then it
    was revoked or the port destroyed; a call that does not block holds it at the transfer. -/
theorem ipc_authority (caps : Caps) (handles : CapHandle.Table) (hook : Bool)
    (as : List Action) (a : Action) :
    let k0 := boot caps handles hook
    let k := run step k0 as
    (∀ i env, Event.sent i .subject env ∈ report k a →
        ∃ pre c h reply, RunsCall k0 as a pre c
          ∧ Enters (run step k0 pre) c (.stage .subject h env reply) ∧ resolve k.ports h = some i
          ∧ Shown k0 (as ++ [a]) k (fun pre' b => pre' = pre ∧ b = .ipc c) env.senderSubject h
            PortSlot.sendCap
          ∧ (a = .ipc c → Holds k env.senderSubject (k.ports i).sendCap))
      ∧ ∀ i receiver env, Event.delivered i .subject receiver env ∈ report k a →
          ∃ pre c h, RunsCall k0 as a pre c ∧ resolve k.ports h = some i
            ∧ Shown k0 (as ++ [a]) k (ChecksRecv k0 h receiver pre c) receiver h PortSlot.recvCap
            ∧ (a = .ipc c → Holds k receiver (k.ports i).recvCap) := by
  intro k0 k
  have hent : Entitled k0 as k := entitled_run caps handles hook as
  refine ⟨fun i env hm => ?_, fun i receiver env hm => ?_⟩
  · cases acts k a with
    | idles _ _ he => exact nomatch he _ hm
    | @calls c _ _ ha hquiet hin hd =>
      subst ha
      obtain ⟨target, reply, rfl, hi⟩ := does_sent hd hm
      rw [(quiet_sameTables hquiet).1] at hi
      refine ⟨as, c, target, reply, Or.inl ⟨rfl, rfl⟩, hin, hi, (shown_enters rfl hin).2 rfl, ?_⟩
      intro _
      cases hin with
      | send _ hi' hright | call _ hi' hright => exact Option.some.inj (hi.symm.trans hi') ▸ hright
    | @resumes ctxOk t j _ ha ht hp hd =>
      subst ha
      obtain ⟨target, reply, rfl, hi⟩ := does_sent hd hm
      obtain ⟨pre, c, hinside, henters, hshown⟩ := hent j _ hp
      exact ⟨pre, c, target, reply, Or.inr ⟨ctxOk, t, j, rfl, ht, hinside⟩, henters, hi,
        shown_longer (hshown rfl) _, fun hno => nomatch hno⟩
    | creates _ _ _ _ he | destroys _ _ _ _ he => simp [he] at hm
  · cases acts k a with
    | idles _ _ he => exact nomatch he _ hm
    | @calls c _ _ ha hquiet hin hd =>
      subst ha
      obtain ⟨hports, -, hbits, -⟩ := quiet_sameTables hquiet
      obtain ⟨h, hi, hcase⟩ := does_delivered hd hm
      rw [hports] at hi
      rcases hcase with rfl | ⟨-, hreply⟩
      · refine ⟨as, c, h, Or.inl ⟨rfl, rfl⟩, hi, shown_enters rfl hin rfl, fun _ => ?_⟩
        cases hin with
        | recv hi' _ hright => exact Option.some.inj (hi.symm.trans hi') ▸ hright
      · refine ⟨as, c, h, Or.inl ⟨rfl, rfl⟩, hi, shown_reply rfl hports hbits
          (shown_enters rfl hin) (Or.inl ⟨rfl, rfl⟩) hreply, fun _ => ?_⟩
        obtain ⟨_, _, _, _, _, j, -, -, -, -, hj, hheld⟩ := hreply
        rw [hports] at hj
        rw [Holds, hports, hbits] at hheld
        exact Option.some.inj (hi.symm.trans hj) ▸ hheld
    | @resumes ctxOk t j p ha ht hp hd =>
      subst ha
      obtain ⟨pre, c, hinside, hshown⟩ := hent j p hp
      have hruns : RunsCall k0 as (.turn ctxOk) pre c :=
        Or.inr ⟨ctxOk, t, j, rfl, ht, hinside⟩
      obtain ⟨h, hi, rfl | ⟨-, hreply⟩⟩ := does_delivered hd hm
      · exact ⟨pre, c, h, hruns, hi, shown_longer (hshown rfl) _, fun hno => nomatch hno⟩
      · exact ⟨pre, c, h, hruns, hi, shown_reply rfl rfl rfl hshown hruns hreply,
          fun hno => nomatch hno⟩
    | creates _ _ _ _ he | destroys _ _ _ _ he => simp [he] at hm

/-- The second sender blocks on the full port and loses its capability; then a receive wakes it. -/
def revokedMeanwhile : List Action :=
  [.turn true, sendBy 1, .exit 0, .turn true, sendBy 2, .turn true, .capRevoke 2 capIpcSend,
    recvByOwner, .exit 0]

/-- Its envelope goes in when it resumes, and it holds the port's capability no more. -/
theorem sent_after_revoke : Event.sent 0 .subject { zeroMsg with senderSubject := 2 }
        ∈ report (run step coldBoot (parties ++ revokedMeanwhile)) (.turn true)
      ∧ capTableCheck (run step coldBoot (parties ++ revokedMeanwhile)).caps.bits 2
          ((run step coldBoot (parties ++ revokedMeanwhile)).ports 0).sendCap
        = .errMissing :=
  ⟨by decide +kernel, by decide +kernel⟩

end Ipc
