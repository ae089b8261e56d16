import SecureOS.Lib.IsolationProofs
import SecureOS.Lib.KeyedTableProofs
import SecureOS.WorkflowRuleModel

/-! # What a tenant's evaluations depend on

The table is used through one question, `lookup`: what the rule of a tenant under an id allows.
A registration that succeeds answers it for one new pair; nothing else changes it. -/

namespace WorkflowRule

open MachineRun Isolation KeyedTable Function List Option

/-- What a rule allows. -/
structure Rule where
  scope : Scope
  subjectId : Nat
  capabilityId : Nat
deriving DecidableEq, Repr

/-- The rule in a slot. -/
def Slot.rule (slot : Slot) : Rule := ⟨slot.scope, slot.subjectId, slot.capabilityId⟩

/-- The rule a registration asks for. -/
def Registration.rule (r : Registration) : Rule := ⟨r.scope, r.subjectId, r.capabilityId⟩

/-- The rule an evaluation needs. -/
def Query.rule (q : Query) : Rule := ⟨q.scope, q.subjectId, q.capabilityId⟩

/-- The pair a slot in use answers for. -/
def Slot.key (slot : Slot) : Option (Nat × Nat) :=
  if slot.inUse then some (slot.tenantId, slot.ruleId) else none

/-- The rule of a tenant under an id. -/
def lookup (rules : Fin 16 → Slot) (tenantId ruleId : Nat) : Option Rule :=
  (rowOf Slot.key rules (tenantId, ruleId)).map Slot.rule

/-- The argument checks shared by the two calls. -/
def Admitted (tenantId ruleId : Nat) (rule : Rule) : Prop :=
  tenantId ≠ 0 ∧ ruleId ≠ 0 ∧ scopeIsDirectional rule.scope ∧ rule.subjectId ≠ 0
    ∧ capabilityIsKnown rule.capabilityId

/-- The invariant of the rule table. -/
structure RulesOk (rules : Fin 16 → Slot) : Prop where
  distinct : Distinct Slot.key rules
  admitted : ∀ tenantId ruleId rule, lookup rules tenantId ruleId = some rule →
    Admitted tenantId ruleId rule

/-! ## The table -/

theorem names_iff (slot : Slot) (tenantId ruleId : Nat) :
    slot.names tenantId ruleId ↔ slot.key = some (tenantId, ruleId) := by
  rw [Slot.names, Slot.key]
  cases slot.inUse <;> simp

theorem findSlotForTenant_eq (rules : Fin 16 → Slot) (tenantId ruleId : Nat) :
    findSlotForTenant rules tenantId ruleId = find Slot.key rules (tenantId, ruleId) :=
  find?_eq_find fun slot => names_iff slot tenantId ruleId

theorem lookup_noRules (audit : Audit) (tenantId ruleId : Nat) :
    lookup (noRules audit).rules tenantId ruleId = none := by
  have hnone : rowOf Slot.key (noRules audit).rules (tenantId, ruleId) = none :=
    (rowOf_eq_none_iff _).mpr fun _ h => absurd h (by simp [noRules, zeroSlot, Slot.key])
  rw [lookup, hnone, map_none]

theorem rulesOk_noRules (audit : Audit) : RulesOk (noRules audit).rules where
  distinct _ _ _ h := absurd h (by simp [noRules, zeroSlot, Slot.key])
  admitted t r _ h := absurd h (by simp [lookup_noRules])

/-- A registration that fills a slot. -/
structure Fills (rules : Fin 16 → Slot) (r : Registration) (i : Fin 16) : Prop where
  free : (rules i).key = none
  fresh : find Slot.key rules (r.tenantId, r.ruleId) = none
  admitted : Admitted r.tenantId r.ruleId r.rule

variable {r : Registration} {s : State} {op : Op} {q : Query}

theorem Fills.puts (h : Fills rules r i) :
    Puts Slot.key rules i r.slot (r.tenantId, r.ruleId) := puts_free h.fresh h.free rfl

/-- A registration answers for its own pair. -/
theorem lookup_fills (h : Fills rules r i) (tenantId ruleId : Nat) :
    lookup (update rules i r.slot) tenantId ruleId
      = if r.tenantId = tenantId ∧ r.ruleId = ruleId then some r.rule
        else lookup rules tenantId ruleId := by
  rw [lookup, rowOf_put h.puts]
  split_ifs with hput hpair hpair
  · rfl
  · exact absurd ⟨(Prod.mk.inj hput).1.symm, (Prod.mk.inj hput).2.symm⟩ hpair
  · exact absurd (by rw [hpair.1, hpair.2]) hput
  · rfl

theorem rulesOk_fills (hok : RulesOk rules) (h : Fills rules r i) :
    RulesOk (update rules i r.slot) where
  distinct := h.puts.distinct hok.distinct
  admitted tenantId ruleId rule hl := by
    rw [lookup_fills h] at hl
    by_cases hpair : r.tenantId = tenantId ∧ r.ruleId = ruleId
    · rw [if_pos hpair] at hl
      obtain ⟨rfl, rfl⟩ := hpair
      exact some.inj hl ▸ h.admitted
    · rw [if_neg hpair] at hl
      exact hok.admitted tenantId ruleId rule hl

/-! ## The two calls -/

section

variable (s : State) (r : Registration)

/-- A registration is refused and changes no rule, or fills a slot. -/
theorem register_cases : let w := workflowRuleRegister s r
    (w.2 ≠ .ok ∧ w.1.rules = s.rules)
      ∨ ∃ i, Fills s.rules r i ∧ w.2 = .ok ∧ w.1.rules = update s.rules i r.slot := by
  rw [workflowRuleRegister]
  split_ifs with htenant hrule hscope hsubject hcap hreason hdup
  -- the seven refusals change no rule
  iterate 7 exact Or.inl ⟨nofun, rfl⟩
  cases hfree : findFreeSlot s.rules with
  | none => exact Or.inl ⟨nofun, rfl⟩
  | some i =>
    have hunused : (!(s.rules i).inUse) := (Fin.find?_eq_some_iff.mp hfree).1
    rw [Bool.not_eq_true, Bool.not_eq_false'] at hscope hcap
    refine Or.inr ⟨i, ⟨if_neg (by simpa using hunused), ?_, htenant, hrule, hscope, hsubject,
      hcap⟩, rfl, rfl⟩
    rw [← findSlotForTenant_eq]
    simpa using hdup

end

theorem eval_rules (s : State) (op : AuditOp) (q : Query) :
    (evalLocked s op q).1.rules = s.rules := by
  fun_cases evalLocked s op q <;> rfl

/-- An evaluation allows what the tenant's rule allows, and gives no reason for a refusal. -/
theorem eval_spec (h : RulesOk s.rules) (op : AuditOp) (q : Query) : (evalLocked s op q).2
      = if lookup s.rules q.tenantId q.ruleId = some q.rule then .ok else .errMissing := by
  -- a rule that the registration would not have admitted is in no slot
  have hnone : (q.tenantId = 0 ∨ q.ruleId = 0 ∨ (!scopeIsDirectional q.scope)
      ∨ q.subjectId = 0 ∨ (!capabilityIsKnown q.capabilityId) = true) →
      ¬ lookup s.rules q.tenantId q.ruleId = some q.rule := by
    intro hno hl
    obtain ⟨h1, h2, h3, h4, h5⟩ := h.admitted _ _ _ hl
    have h3' : scopeIsDirectional q.scope := h3
    have h4' : q.subjectId ≠ 0 := h4
    have h5' : capabilityIsKnown q.capabilityId := h5
    simp [h1, h2, h3', h4', h5'] at hno
  rw [evalLocked]
  split_ifs with hno hl hl
  · exact absurd hl (hnone hno)
  · rfl
  all_goals
    rw [lookup, rowOf, ← findSlotForTenant_eq] at hl
    cases hfind : findSlotForTenant s.rules q.tenantId q.ruleId with
    | none => first | rfl | simp [hfind] at hl
    | some =>
      simp only [hfind, map_some, Option.some.injEq, Slot.rule, Query.rule, Rule.mk.injEq] at hl ⊢
      split_ifs <;> first | rfl | tauto

/-! ## One call -/

/-- The rule a call registers. -/
def registers (s : State) : Op → List Registration
  | .register r => if result s (.register r) = .ok then [r] else []
  | .evalRead .. => []
  | .evalWrite .. => []

theorem rules_step_of_not_registers (h : registers s op = []) : (step s op).rules = s.rules := by
  cases op with
  | register r =>
    rcases register_cases s r with ⟨-, hr⟩ | ⟨_, -, hok, -⟩
    · exact hr
    · exact absurd h (by simp [registers, result, exec, hok])
  | evalRead => exact eval_rules s .evalRead _
  | evalWrite => exact eval_rules s .evalWrite _

/-- A call that registers a rule fills a slot with it. -/
theorem fills_of_registers (h : registers s op = [r]) :
    ∃ i, Fills s.rules r i ∧ (step s op).rules = update s.rules i r.slot := by
  cases op with
  | register r' =>
    rcases register_cases s r' with ⟨hno, -⟩ | ⟨i, hfills, hok, hrules⟩
    · exact absurd h (by simp [registers, result, exec, hno])
    · simp only [registers, result, exec, hok, if_true, List.cons.injEq, and_true] at h
      subst h
      exact ⟨i, hfills, hrules⟩
  | _ => exact absurd h (by simp [registers])

theorem registers_cases (s : State) (op : Op) :
    registers s op = [] ∨ ∃ r, registers s op = [r] := by
  cases op with
  | register r =>
    by_cases h : result s (.register r) = .ok
    · exact Or.inr ⟨r, if_pos h⟩
    · exact Or.inl (if_neg h)
  | _ => exact Or.inl rfl

theorem rulesOk_step (h : RulesOk s.rules) (op : Op) : RulesOk (step s op).rules := by
  rcases registers_cases s op with hnone | ⟨_, hr⟩
  · rw [rules_step_of_not_registers hnone]
    exact h
  · obtain ⟨_, hfills, hrules⟩ := fills_of_registers hr
    rw [hrules]
    exact rulesOk_fills h hfills

/-- **ONE CALL** answers the lookup of the pair it registers, and leaves the others. -/
theorem lookup_step (s : State) (op : Op) (tenantId ruleId : Nat) :
    (registers s op = [] ∧ lookup (step s op).rules tenantId ruleId
        = lookup s.rules tenantId ruleId)
      ∨ ∃ r, registers s op = [r] ∧ lookup s.rules r.tenantId r.ruleId = none
        ∧ lookup (step s op).rules tenantId ruleId
          = if r.tenantId = tenantId ∧ r.ruleId = ruleId then some r.rule
            else lookup s.rules tenantId ruleId := by
  rcases registers_cases s op with hnone | ⟨r, hr⟩
  · exact Or.inl ⟨hnone, by rw [rules_step_of_not_registers hnone]⟩
  · obtain ⟨_, hfills, hrules⟩ := fills_of_registers hr
    refine Or.inr ⟨r, hr, ?_, ?_⟩
    · rw [lookup, rowOf, hfills.fresh]
      rfl
    · rw [hrules]
      exact lookup_fills hfills tenantId ruleId

/-! ## Every history -/

/-- **EVERY HISTORY**: a pair has the rule that a registration gave it. -/
theorem lookup_history (audit : Audit) (ops : List Op) :
    RulesOk (run step (noRules audit) ops).rules ∧ ∀ tenantId ruleId rule,
        lookup (run step (noRules audit) ops).rules tenantId ruleId = some rule
          ↔ ∃ r ∈ emitted step registers (noRules audit) ops,
            r.tenantId = tenantId ∧ r.ruleId = ruleId ∧ r.rule = rule := by
  refine run_history registers (J := fun _ s rs => RulesOk s.rules ∧ ∀ tenantId ruleId rule,
      lookup s.rules tenantId ruleId = some rule
        ↔ ∃ r ∈ rs, r.tenantId = tenantId ∧ r.ruleId = ruleId ∧ r.rule = rule) ?_ ?_ ops
  · refine ⟨rulesOk_noRules audit, fun tenantId ruleId rule => ?_⟩
    rw [lookup_noRules]
    simp
  · rintro - s _ op ⟨hok, hall⟩ -
    refine ⟨rulesOk_step hok op, fun tenantId ruleId rule => ?_⟩
    rcases lookup_step s op tenantId ruleId with ⟨hnone, hl⟩ | ⟨r, hr, hfresh, hl⟩
    · rw [hl, hnone, append_nil]
      exact hall tenantId ruleId rule
    · rw [hl, hr]
      simp only [mem_append, mem_singleton]
      split_ifs with hpair
      · obtain ⟨rfl, rfl⟩ := hpair
        constructor
        · intro he
          exact ⟨r, Or.inr rfl, rfl, rfl, some.inj he⟩
        · rintro ⟨r', hr' | rfl, ht, hi, rfl⟩
          · -- an earlier registration of the pair would have been found
            have hold := (hall r.tenantId r.ruleId r'.rule).mpr ⟨r', hr', ht, hi, rfl⟩
            cases hfresh.symm.trans hold
          · rfl
      · rw [hall]
        constructor
        · rintro ⟨r', hr', hrest⟩
          exact ⟨r', Or.inl hr', hrest⟩
        · rintro ⟨r', hr' | rfl, ht, hi, hrule⟩
          · exact ⟨r', hr', ht, hi, hrule⟩
          · exact absurd ⟨ht, hi⟩ hpair

/-- The evaluation a registration answers for. -/
def Registration.query (r : Registration) : Query :=
  ⟨r.scope, r.tenantId, r.ruleId, r.subjectId, r.capabilityId⟩

theorem result_query (h : RulesOk s.rules) (hq : op.query = some q) :
    result s op = if lookup s.rules q.tenantId q.ruleId = some q.rule then .ok
      else .errMissing := by
  cases op with
  | register => exact absurd hq (by simp [Op.query])
  | evalRead =>
    obtain rfl := some.inj hq
    exact eval_spec h .evalRead _
  | evalWrite =>
    obtain rfl := some.inj hq
    exact eval_spec h .evalWrite _

theorem eval_ok_iff (audit : Audit) (ops : List Op) (hq : op.query = some q) :
    result (run step (noRules audit) ops) op = .ok ↔ ∃ pre r post, ops = pre ++ .register r :: post
        ∧ result (run step (noRules audit) pre) (.register r) = .ok ∧ r.query = q := by
  obtain ⟨hok, hlookup⟩ := lookup_history audit ops
  have hres : result (run step (noRules audit) ops) op = .ok
      ↔ lookup (run step (noRules audit) ops).rules q.tenantId q.ruleId = some q.rule := by
    rw [result_query hok hq]
    by_cases hl : lookup (run step (noRules audit) ops).rules q.tenantId q.ruleId = some q.rule
    · simp [hl]
    · simp [hl]
  rw [hres, hlookup]
  constructor
  · rintro ⟨r, hr, ht, hi, hrule⟩
    obtain ⟨pre, a, post, hsplit, ha⟩ := (mem_emitted_iff ops (noRules audit)).mp hr
    cases a with
    | register =>
      rw [registers] at ha
      split at ha
      case isTrue hgranted =>
        obtain rfl := mem_singleton.mp ha
        refine ⟨pre, r, post, hsplit, hgranted, ?_⟩
        obtain ⟨hs, hu, hc⟩ := Rule.mk.inj hrule
        rw [Registration.query, ht, hi, hs, hu, hc]
      case isFalse => exact absurd ha not_mem_nil
    | _ => exact absurd ha not_mem_nil
  · rintro ⟨pre, r, post, hsplit, hgranted, rfl⟩
    refine ⟨r, (mem_emitted_iff ops (noRules audit)).mpr
      ⟨pre, .register r, post, hsplit, ?_⟩, rfl, rfl, rfl⟩
    rw [registers, if_pos hgranted]
    exact mem_singleton_self r

/-! ## One tenant among the others -/

/-- A tenant's rules with what a call registers. -/
def learn (v : Nat → Option Rule) : List Registration → Nat → Option Rule
  | [], ruleId => v ruleId
  | r :: _, ruleId => if r.ruleId = ruleId then some r.rule else v ruleId

/-- A tenant: its calls, registrations labelled with success, its results and its rules. -/
def tenantPart (tenant : Nat) :
    Part State Op (Op × List Registration) (Option WorkflowResult) (Nat → Option Rule) where
  own op := op.tenant == tenant
  label s op := (op, registers s op)
  answer s op := op.query.map (fun _ => result s op)
  view s ruleId := lookup s.rules tenant ruleId
  vstep v l := learn v l.2
  vanswer v l := l.1.query.map (fun q => if v q.ruleId = some q.rule then .ok else .errMissing)

/-- What a call registers is a rule of its tenant. -/
theorem tenant_of_registers (h : registers s op = [r]) : op.tenant = r.tenantId := by
  cases op with
  | register =>
    rw [registers] at h
    split at h
    · obtain rfl := head_eq_of_cons_eq h
      rfl
    · exact absurd h (by simp)
  | _ => exact absurd h (by simp [registers])

theorem tenant_of_query (h : op.query = some q) : q.tenantId = op.tenant := by
  cases op with
  | register => exact absurd h (by simp [Op.query])
  | _ => exact congrArg Query.tenantId (some.inj h).symm

/-- **SEPARATION** of a tenant from the others. -/
theorem tenant_separates (tenant : Nat) :
    (tenantPart tenant).Separates step (fun s => RulesOk s.rules) where
  kept s op h := rulesOk_step h op
  foreign s op h hown := by
    funext ruleId
    show lookup (step s op).rules tenant ruleId = lookup s.rules tenant ruleId
    have hne : op.tenant ≠ tenant := by simpa [tenantPart] using hown
    rcases lookup_step s op tenant ruleId with ⟨-, hl⟩ | ⟨r, hr, -, hl⟩
    · exact hl
    · rw [hl, if_neg]
      rintro ⟨rfl, -⟩
      exact hne (tenant_of_registers hr)
  view s op h hown := by
    funext ruleId
    have heq : op.tenant = tenant := by simpa [tenantPart] using hown
    show lookup (step s op).rules tenant ruleId
      = learn (fun ruleId => lookup s.rules tenant ruleId) (registers s op) ruleId
    rcases lookup_step s op tenant ruleId with ⟨hnone, hl⟩ | ⟨r, hr, -, hl⟩
    · rw [hl, hnone, learn]
    · have ht : r.tenantId = tenant := (tenant_of_registers hr).symm.trans heq
      rw [hl, hr, learn]
      simp only [ht, true_and]
  answer s op h hown := by
    have heq : op.tenant = tenant := by simpa [tenantPart] using hown
    show op.query.map (fun _ => result s op) = op.query.map
      (fun q => if lookup s.rules tenant q.ruleId = some q.rule then .ok else .errMissing)
    cases hq : op.query with
    | none => rfl
    | some => rw [map_some, map_some, result_query h hq, tenant_of_query hq, heq]

/-- **WORKFLOW RULES AND TENANTS**, for every history: an evaluation is allowed exactly when an
    earlier registration of the same five values succeeded; a pair has one slot; what registers
    nothing changes no rule; and a tenant's results depend on its own calls and on which of its
    registrations succeed. -/
theorem workflow_rules_isolate_tenants (audit : Audit) (ops : List Op) :
    let s := run step (noRules audit) ops
    (∀ op q, op.query = some q → (result s op = .ok
          ↔ ∃ pre r post, ops = pre ++ .register r :: post
            ∧ result (run step (noRules audit) pre) (.register r) = .ok ∧ r.query = q))
      ∧ (∀ i j tenantId ruleId, (s.rules i).names tenantId ruleId = true →
        (s.rules j).names tenantId ruleId = true → i = j)
      ∧ (∀ op, (∀ r, op = .register r → result s op ≠ .ok) → (step s op).rules = s.rules)
      ∧ ∀ tenant audit' ops', (tenantPart tenant).labels step (noRules audit) ops
          = (tenantPart tenant).labels step (noRules audit') ops' →
        (tenantPart tenant).answers step (noRules audit) ops
          = (tenantPart tenant).answers step (noRules audit') ops' := by
  intro s
  have hok := (lookup_history audit ops).1
  refine ⟨fun op q hq => eval_ok_iff audit ops hq, fun i j t r hi hj => ?_,
    fun op hno => rules_step_of_not_registers ?_, fun tenant audit' ops' hlabels => ?_⟩
  · exact hok.distinct i j (t, r) ((names_iff ..).mp hi) ((names_iff ..).mp hj)
  · cases op with
    | register r => exact if_neg (hno r rfl)
    | _ => rfl
  · exact answers_eq (tenant_separates tenant) (rulesOk_noRules audit) (rulesOk_noRules audit')
      rfl hlabels

end WorkflowRule
