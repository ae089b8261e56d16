import SecureOS.SoshEvalModel
import SecureOS.Lib.MediationProofs

/-! # Capability mediation in sosh

Section 4 of the sosh capability contract lists what a script can make the embedder do, and the
capability each of these requires.  `Contract` is that table over the calls of the exec
callback; a log is mediated if every such call was checked, and allowed, in its own statement.

* `step_mediates`, `sosh_mediation` — a step, and a run.

A capture calls the exec callback without any check, and a script that names one of the
interpreter's own commands is checked for the wrong capability: `unchecked_calls`. -/

namespace Sosh

open Mediation List Option

/-! ## The contract -/

/-- The commands that read the file their argument names. -/
def readers : List Text := ["cat".toList, "ls".toList, "__cat_raw".toList, "exists".toList]

/-- The commands that write the file their first argument names. -/
def writers : List Text := ["write".toList, "append".toList]

/-- The capability and the resource the contract assigns to a command; of `env`, the variable that
    `export` builds the argument from, which may hold an equals sign of its own. -/
inductive Contract : Text → Text → SoshCap → Text → Prop where
  | read (command path : Text) (h : command ∈ readers) : Contract command path .fsRead path
  | write (command args : Text) (h : command ∈ writers) :
      Contract command args .fsWrite (args.takeWhile (· ≠ ' '))
  | env (var value : Text) : Contract "env".toList (var ++ '=' :: value) .envWrite var
  | app (command args : Text) (h : command ∉ "env".toList :: (readers ++ writers)) :
      Contract command args .appExec command

/-- The interpreter's own commands, for `source`, for `exists` in a condition and for `export`. -/
def ownCommands : List Text := ["__cat_raw".toList, "exists".toList, "env".toList]

/-- The contract with one more row: a command line that spells one of these is external. -/
def Surface (command args : Text) (cap : SoshCap) (resource : Text) : Prop :=
  Contract command args cap resource ∨
    (command ∈ ownCommands ∧ cap = .appExec ∧ resource = command)

/-- The acts are the calls of the exec callback, the boundaries the starts of lines, and a check
    that returned 0 licenses the calls `R` relates to it. -/
def monitor (R : Text → Text → SoshCap → Text → Prop) : Monitor Event where
  act e := ∃ command args outSize, e = .exec command args outSize
  boundary e := e = .statement
  licenses g a := ∃ command args outSize cap resource,
    g = .check cap (some resource) 0 ∧ a = .exec command args outSize ∧
      R command args cap resource

/-! ## Expressions without captures -/

/-- None of the tokens is a command capture. -/
def Quiet (ts : List Token) : Prop := ∀ t ∈ ts, t.type ≠ .capture

instance decidableQuiet (ts : List Token) : Decidable (Quiet ts) :=
  inferInstanceAs (Decidable (∀ t ∈ ts, t.type ≠ .capture))

variable {ts tokens : List Token} {tok : Token} {outSize : Nat} {st st' : State} {value : Text}
  {executing : Bool} {m : Machine} {f : Frame}

theorem Quiet.head (h : Quiet (t :: ts)) : t.type ≠ .capture := h t mem_cons_self

theorem Quiet.tail (h : Quiet (t :: ts)) : Quiet ts := fun u hu => h u (mem_cons_of_mem t hu)

theorem Quiet.suffix (h : Quiet ts) (hsuf : us <:+ ts) : Quiet us := fun u hu => h u (hsuf.mem hu)

theorem resolveToken_quiet (h : tok.type ≠ .capture) (outSize : Nat) (st : State) :
    resolveToken tok outSize st = (tokenText st.vars tok outSize, st) :=
  if_neg h

theorem resolveToken_state (h : tok.type ≠ .capture)
    (hr : resolveToken tok outSize st = (value, st')) : st' = st := by
  rw [resolveToken_quiet h] at hr
  exact (Prod.mk.inj hr).2.symm

theorem suffix_skip (h : rest <:+ ts) : rest <:+ op :: tok :: ts :=
  (h.trans (suffix_cons tok ts)).trans (suffix_cons op (tok :: ts))

theorem evalExprLoop_quiet (h : Quiet ts) :
    ∃ value rest, evalExprLoop outSize ts out st = (value, rest, st) ∧ rest <:+ ts := by
  fun_induction evalExprLoop outSize ts out st with
  | case1 out => exact ⟨out, [], rfl, suffix_rfl⟩
  | case2 _ out | case4 _ out => exact ⟨out, [], rfl, nil_suffix⟩
  | case3 _ _ _ _ _ _ _ _ hr _ ih | case5 _ _ _ _ _ _ _ _ _ hr _ ih =>
    obtain rfl := resolveToken_state h.tail.head hr
    obtain ⟨value, rest', heq, hsuf⟩ := ih h.tail.tail
    exact ⟨value, rest', heq, suffix_skip hsuf⟩
  | case6 _ out _ _ _ _ rest _ _ hr =>
    obtain rfl := resolveToken_state h.tail.head hr
    exact ⟨out, rest, rfl, suffix_skip suffix_rfl⟩
  | case7 op ts out => exact ⟨out, op :: ts, rfl, suffix_rfl⟩

/-- **NO CAPTURE, NO CALL**: an expression without captures leaves the state as it is. -/
theorem evalExpr_quiet (h : Quiet ts) (outSize : Nat) (st : State) :
    ∃ value rest, evalExpr ts outSize st = (value, rest, st) ∧ rest <:+ ts := by
  cases ts with
  | nil => exact ⟨[], [], rfl, suffix_rfl⟩
  | cons tok ts =>
    rw [evalExpr, resolveToken_quiet h.head]
    obtain ⟨value, rest, heq, hsuf⟩ := evalExprLoop_quiet h.tail
    exact ⟨value, rest, heq, hsuf.trans (suffix_cons tok ts)⟩

theorem joinTokens_quiet (h : Quiet ts) :
    ∀ (out : Text) (st : State), ∃ value, joinTokens ts out st = (value, st) := by
  induction ts with
  | nil => intro out st; exact ⟨out, rfl⟩
  | cons _ _ ih =>
    intro _ st
    rw [joinTokens, resolveToken_quiet h.head]
    exact ih h.tail _ st

theorem evalComparison_quiet (h : Quiet ts) (st : State) : (evalComparison ts st).2 = st := by
  obtain ⟨_, rest, hleft, hsuf⟩ := evalExpr_quiet h varValueMax st
  rw [evalComparison, hleft]
  cases rest with
  | nil => rfl
  | cons op =>
    cases hop : comparison op.type with
    | none => simp only [hop]
    | some =>
      obtain ⟨_, _, hright, -⟩ := evalExpr_quiet (h.suffix hsuf).tail varValueMax st
      simp only [hop, hright]

/-! ## Buffer sizes -/

theorem soshStrcat_length {max : Nat} (h : dst.length ≤ max - 1) :
    (soshStrcat dst src max).length ≤ max - 1 := by
  rw [soshStrcat, length_append, length_take]
  omega

theorem evalExprLoop_length (h : out.length ≤ outSize - 1) :
    (evalExprLoop outSize ts out st).1.length ≤ outSize - 1 := by
  fun_induction evalExprLoop outSize ts out st with
  | case1 | case2 => exact h
  | case3 _ _ _ _ _ _ _ _ _ _ ih =>
    refine ih ?_
    show (if _ then _ else _ : Text).length ≤ _
    split
    · exact length_take_le _ _
    · exact soshStrcat_length h
  | case4 => exact h
  | case5 _ _ _ _ _ _ _ _ _ _ _ ih => exact ih (length_take_le _ _)
  | case6 | case7 => exact h

theorem evalExpr_length (ts : List Token) (outSize : Nat) (st : State) :
    (evalExpr ts outSize st).1.length ≤ outSize - 1 := by
  cases ts with
  | nil => exact Nat.zero_le _
  | cons => exact evalExprLoop_length (length_take_le _ _)

theorem joinTokens_length (ts : List Token) :
    ∀ (out : Text) (st : State), out.length ≤ varValueMax - 1 →
      (joinTokens ts out st).1.length ≤ varValueMax - 1 := by
  induction ts with
  | nil => intro out st h; exact h
  | cons _ _ ih =>
    intro _ _ h
    refine ih _ _ (soshStrcat_length ?_)
    split
    · exact h
    · exact soshStrcat_length h

/-- The argument of `env` is never cut. -/
theorem envArg_eq (hname : varName.length ≤ varNameMax - 1)
    (hvalue : value.length ≤ varValueMax - 1) : envArg varName value = varName ++ '=' :: value := by
  have hname' : varName.length ≤ 31 := hname
  have hvalue' : value.length ≤ 255 := hvalue
  have h1 : soshStrcpy varName 290 = varName := take_of_length_le (by omega)
  have h2 : soshStrcat varName ['='] 290 = varName ++ ['='] := by
    rw [soshStrcat, take_of_length_le (by simp; omega)]
  rw [envArg, h1, h2, soshStrcat, take_of_length_le (by simp; omega),
    append_assoc, singleton_append]

/-! ## Operations on the state -/

section

variable {R : Text → Text → SoshCap → Text → Prop}

/-- The check stays, and the log grows by a mediated piece. -/
structure Mediates (R : Text → Text → SoshCap → Text → Prop) (st st' : State) : Prop where
  capCheck : st'.capCheck = st.capCheck
  log : Extends (monitor R) st.log st'.log

theorem Mediates.refl (st : State) : Mediates R st st := ⟨rfl, .refl st.log⟩

theorem Mediates.trans (h : Mediates R st st') (h' : Mediates R st' st'') : Mediates R st st'' :=
  ⟨h'.capCheck.trans h.capCheck, h.log.trans h'.log⟩

/-- An operation on the variables and the exit flag. -/
theorem mediates_silent (hcheck : st'.capCheck = st.capCheck) (hlog : st'.log = st.log) :
    Mediates R st st' :=
  ⟨hcheck, by rw [hlog]; exact .refl st.log⟩

/-- An event that is no call of the exec callback. -/
theorem extends_inert (l : List Event) (h : ¬ (monitor R).act e) :
    Extends (monitor R) l (l ++ [e]) :=
  ⟨[e], rfl, mediated_inert (fun _ ha => mem_singleton.mp ha ▸ h)⟩

theorem setExitCode_mediates (st : State) (rc : Int32) : Mediates R st (st.setExitCode rc) :=
  mediates_silent rfl rfl

theorem setVar_mediates (st : State) (name value : Text) : Mediates R st (st.setVar name value) :=
  mediates_silent rfl rfl

theorem print_mediates (st : State) (text : Text) : Mediates R st (st.print text) := by
  unfold State.print
  split
  · exact ⟨rfl, extends_inert st.log (fun ⟨_, _, _, h⟩ => nomatch h)⟩
  · exact .refl st

theorem gate_mediates (hg : st.gate cap resource = (rc, st')) : Mediates R st st' := by
  unfold State.gate at hg
  cases hc : st.capCheck with
  | none =>
    rw [hc] at hg
    exact (Prod.mk.inj hg).2 ▸ .refl st
  | some =>
    rw [hc] at hg
    obtain rfl := (Prod.mk.inj hg).2
    exact ⟨hc.symm, extends_inert st.log (fun ⟨_, _, _, h⟩ => nomatch h)⟩

/-- **A GATED CALL**: the check and the call it allowed are a mediated piece. -/
theorem call_mediates (hp : st.capCheck ≠ none)
    (hg : st.gate cap (some resource) = (0, st')) (hR : R command args cap resource)
    (exec : ExecFn) (outSize : Nat) : Mediates R st (st'.callExec exec command args outSize).2 := by
  have hpiece : Mediated (monitor R) [.check cap (some resource) 0, .exec command args outSize] :=
    mediated_licensed (fun ⟨_, _, _, h⟩ => nomatch h)
      ⟨command, args, outSize, cap, resource, rfl, rfl, hR⟩
  obtain ⟨check, hc⟩ := ne_none_iff_exists'.mp hp
  unfold State.gate at hg
  rw [hc] at hg
  obtain ⟨hrc, rfl⟩ := Prod.mk.inj hg
  refine ⟨hc.symm, _, ?_, hpiece⟩
  show (st.log ++ [.check cap (some resource) (check st.log cap (some resource))])
    ++ [.exec command args outSize] = _
  rw [hrc, append_assoc]
  rfl

/-! ## Statements -/

/-- An assignment without captures only sets the variable. -/
theorem evalAssignment_quiet (h : Quiet tokens)
    (ha : evalAssignment tokens st = some (varName, value, st')) :
    st' = st.setVar varName value ∧ varName.length ≤ varNameMax - 1 ∧
      value.length ≤ varValueMax - 1 := by
  match tokens, h, ha with
  | _ :: name :: assign :: ts, h, ha =>
    rw [evalAssignment] at ha
    obtain ⟨_, _, hv, -⟩ := evalExpr_quiet h.tail.tail.tail varValueMax st
    have hlen := evalExpr_length ts varValueMax st
    rw [hv] at ha hlen
    split at ha
    · obtain ⟨rfl, hrest⟩ := Prod.mk.inj (some.inj ha)
      obtain ⟨rfl, rfl⟩ := Prod.mk.inj hrest
      exact ⟨rfl, length_take_le _ _, hlen⟩
    · exact nomatch ha

section

variable (h : Quiet tokens) (st : State)
include h

theorem evalSet_mediates : Mediates R st (evalSet tokens st) := by
  rw [evalSet]
  rcases ha : evalAssignment tokens st with _ | ⟨varName, value, _⟩
  · exact .refl st
  · obtain ⟨rfl, -⟩ := evalAssignment_quiet h ha
    exact setVar_mediates st varName value

theorem evalEcho_mediates : Mediates R st (evalEcho tokens st) := by
  rw [evalEcho]
  rcases hg : st.gate .consoleWrite none with ⟨rc, st'⟩
  have hgate : Mediates R st st' := gate_mediates hg
  by_cases hrc : rc = 0
  · obtain ⟨_, _, hout, -⟩ := evalExpr_quiet (h.suffix (drop_suffix 1 tokens)) varValueMax st'
    simp only [hrc, hout]
    exact (hgate.trans (print_mediates st' _)).trans (setExitCode_mediates _ 0)
  · simp only [ne_eq, hrc, not_false_eq_true, if_true]
    exact hgate.trans (setExitCode_mediates st' rc)

theorem evalReturn_mediates : Mediates R st (evalReturn tokens st) := by
  match tokens, h with
  | [], _ => exact mediates_silent rfl rfl
  | [_], _ => exact mediates_silent rfl rfl
  | _ :: tok :: _, h =>
    rw [evalReturn, resolveToken_quiet h.tail.head]
    exact mediates_silent rfl rfl

end

/-- The relation has what the code checks for a command line of that name. -/
def Fits (R : Text → Text → SoshCap → Text → Prop) (cmd : Text) : Prop :=
  ∀ args, args.length ≤ varValueMax - 1 →
    R cmd args (commandGate cmd args).1 (commandGate cmd args).2

/-- A command line is mediated if the relation has what the code checks for its command. -/
theorem evalExternal_mediates (h : Quiet (tok :: ts)) (hp : st.capCheck ≠ none)
    (hR : Fits R (tokenText st.vars tok varValueMax)) :
    Mediates R st (evalExternal (tok :: ts) st) := by
  obtain ⟨args, hargs⟩ := joinTokens_quiet h.tail [] st
  have hlen := joinTokens_length ts [] st (Nat.zero_le _)
  rw [hargs] at hlen
  rw [evalExternal, resolveToken_quiet h.head]
  simp only [hargs]
  cases hexec : st.exec with
  | none => exact .refl st
  | some exec =>
    generalize tokenText st.vars tok varValueMax = cmd at hR
    rcases hg : st.gate (commandGate cmd args).1 (some (commandGate cmd args).2)
      with ⟨crc, st'⟩
    dsimp only
    by_cases hcrc : crc = 0
    · subst hcrc
      rw [if_neg (by simp)]
      have hcall := call_mediates hp hg (hR args hlen) exec varValueMax
      have hcode := hcall.trans (setExitCode_mediates _
        (st'.callExec exec cmd args varValueMax).1.1)
      split
      · exact hcode
      · exact hcode.trans (print_mediates _ _)
    · rw [if_pos hcrc]
      exact (gate_mediates hg).trans (setExitCode_mediates st' crc)

theorem evalElse_mediates (m : Machine) (f : Frame) : Mediates R m.state (evalElse m f).state := by
  unfold evalElse
  split
  · exact .refl m.state
  · split <;> exact .refl m.state

theorem bindNextItem_mediates (h : bindNextItem block st = some (st', block')) :
    Mediates R st st' := by
  obtain ⟨⟨item, _⟩, -, heq⟩ := map_eq_some_iff.mp h
  obtain ⟨rfl, -⟩ := Prod.mk.inj heq
  exact setVar_mediates st _ item

theorem evalFor_mediates (h : executing → Quiet tokens) (f : Frame) :
    Mediates R m.state (evalFor tokens executing m f).1.state := by
  unfold evalFor
  split
  · match executing, tokens, h with
    | true, _ :: name :: _ :: tok :: ts, h =>
      obtain ⟨_, hitems⟩ := joinTokens_quiet (h rfl).tail.tail.tail [] m.state
      simp only [hitems]
      split
      next _ _ hbind => exact bindNextItem_mediates hbind
      next _ => exact .refl m.state
    | true, [], _ | true, [_], _ | true, [_, _], _ | true, [_, _, _], _ | false, _, _ =>
      exact .refl m.state
  · exact .refl m.state

/-! ## Calls of the interpreter's own -/

/-- The calls the interpreter makes on its own are related to what it checks for them. -/
structure Covers (R : Text → Text → SoshCap → Text → Prop) : Prop where
  existence : ∀ path, R "exists".toList path .fsRead path
  content : ∀ path, R "__cat_raw".toList path .fsRead path
  env : ∀ var value, R "env".toList (var ++ '=' :: value) .envWrite var

variable (hcov : Covers R)

include hcov

theorem evalExists_mediates (h : Quiet ts) (hp : st.capCheck ≠ none) :
    Mediates R st (evalExists ts st).2 := by
  cases ts with
  | nil => exact .refl st
  | cons tok =>
    rw [evalExists, resolveToken_quiet h.head]
    rcases hg : st.gate .fsRead (some (tokenText st.vars tok varValueMax)) with ⟨crc, st'⟩
    simp only [hg]
    have hgate : Mediates R st st' := gate_mediates hg
    by_cases hcrc : crc = 0
    · subst hcrc
      cases hexec : st'.exec with
      | none => exact hgate
      | some exec => exact call_mediates hp hg (hcov.existence _) exec 64
    · rw [if_pos hcrc]
      exact hgate.trans (setExitCode_mediates st' crc)

theorem evalCondition_mediates (h : Quiet ts) (hp : st.capCheck ≠ none) :
    Mediates R st (evalCondition ts st).2 := by
  induction ts with
  | nil => exact .refl st
  | cons _ _ ih =>
    rw [evalCondition]
    split
    · exact ih h.tail
    · split
      · exact evalExists_mediates hcov h.tail hp
      · rw [evalComparison_quiet h st]
        exact .refl st

theorem evalExport_mediates (h : Quiet tokens) (hp : st.capCheck ≠ none) :
    Mediates R st (evalExport tokens st) := by
  rw [evalExport]
  rcases ha : evalAssignment tokens st with _ | ⟨varName, value, _⟩
  · exact .refl st
  · obtain ⟨rfl, hname, hvalue⟩ := evalAssignment_quiet h ha
    have hset : Mediates R st (st.setVar varName value) := setVar_mediates st varName value
    have hp' : (st.setVar varName value).capCheck ≠ none := hp
    cases hexec : (st.setVar varName value).exec with
    | none => simpa only [hexec] using hset
    | some exec =>
      rcases hg : (st.setVar varName value).gate .envWrite (some varName) with ⟨rc, st''⟩
      simp only [hexec, hg]
      by_cases hrc : rc = 0
      · subst hrc
        rw [envArg_eq hname hvalue]
        exact (hset.trans (call_mediates hp' hg (hcov.env varName value) exec 0)).trans
          (setExitCode_mediates _ 0)
      · rw [if_pos hrc]
        exact (hset.trans (gate_mediates hg)).trans (setExitCode_mediates st'' rc)

theorem evalIf_mediates (h : executing → Quiet tokens) (hp : m.state.capCheck ≠ none)
    (f : Frame) : Mediates R m.state (evalIf tokens executing m f).1.state := by
  unfold evalIf
  split
  · cases executing with
    | true => exact evalCondition_mediates hcov ((h rfl).suffix (drop_suffix 1 tokens)) hp
    | false => exact .refl m.state
  · exact .refl m.state

theorem evalElif_mediates (h : ∀ block, m.topIf f = some block → m.activeBelow (f.blockDepth - 1) →
      block.done = false → Quiet tokens) (hp : m.state.capCheck ≠ none) :
    Mediates R m.state (evalElif tokens m f).state := by
  unfold evalElif
  cases htop : m.topIf f with
  | none => exact .refl m.state
  | some block =>
    by_cases hrun : (m.activeBelow (f.blockDepth - 1) && !block.done) = true
    · have hquiet : Quiet tokens := by
        rw [Bool.and_eq_true, Bool.not_eq_true'] at hrun
        exact h block htop hrun.1 hrun.2
      simp only [hrun]
      exact evalCondition_mediates hcov (hquiet.suffix (drop_suffix 1 tokens)) hp
    · simp only [hrun]
      exact .refl m.state

theorem evalWhile_mediates (h : executing → Quiet tokens) (hp : m.state.capCheck ≠ none)
    (f : Frame) : Mediates R m.state (evalWhile tokens executing m f).1.state := by
  unfold evalWhile
  split
  · cases executing with
    | true => exact evalCondition_mediates hcov ((h rfl).suffix (drop_suffix 1 tokens)) hp
    | false => exact .refl m.state
  · exact .refl m.state

/-- The condition an `end` evaluates is the one of the loop's own line. -/
theorem evalEnd_mediates
    (h : ∀ loopTokens, 0 < f.blockDepth → (m.blocks (f.blockDepth - 1)).type = .whileBlock →
      (m.blocks (f.blockDepth - 1)).active →
      soshLexLine (m.lineText (m.blocks (f.blockDepth - 1)).loopStart) = some loopTokens →
      Quiet loopTokens) (hp : m.state.capCheck ≠ none) (he : evalEnd m f = some (m', f')) :
    Mediates R m.state m'.state := by
  revert he
  fun_cases evalEnd m f <;> intro he
  case case1 hdepth _ _ _ hwhile =>
    obtain ⟨loopTokens, hlex, heq⟩ := map_eq_some_iff.mp he
    obtain ⟨rfl, -⟩ := Prod.mk.inj heq
    have hquiet := h loopTokens hdepth hwhile.1 hwhile.2 hlex
    exact evalCondition_mediates hcov (hquiet.suffix (drop_suffix 1 loopTokens)) hp
  case case2 hbind =>
    obtain ⟨rfl, -⟩ := Prod.mk.inj (some.inj he)
    exact bindNextItem_mediates hbind
  all_goals
    obtain ⟨rfl, -⟩ := Prod.mk.inj (some.inj he)
    exact .refl m.state

theorem evalSource_mediates (h : Quiet tokens) (hp : m.state.capCheck ≠ none) (f : Frame)
    (rest : List Frame) : Mediates R m.state (evalSource tokens m f rest).state := by
  fun_cases evalSource tokens m f rest with
  | case1 _ _ _ _ _ _ _ hr crc _ hg =>
    obtain rfl := resolveToken_state h.tail.head hr
    exact (gate_mediates hg).trans (setExitCode_mediates _ crc)
  | case2 _ _ _ exec _ path _ hr crc _ hg hcrc _ _ _ hcall
  | case3 _ _ _ exec _ path _ hr crc _ hg hcrc _ _ _ hcall =>
    obtain rfl := resolveToken_state h.tail.head hr
    obtain rfl : crc = 0 := not_not.mp hcrc
    have hmed := call_mediates hp hg (hcov.content path) exec 4096
    rw [hcall] at hmed
    -- a sourced script starts with its own arguments and exit state
    exact hmed.trans (mediates_silent rfl rfl)
  | _ => exact .refl m.state

end

/-! ## Lines and steps -/

/-- The tokens a line hands to the evaluator: its own, where it is executed; for `elif`, where no
    branch was taken yet; for the `end` of a running `while`, those of the loop's first line. -/
def evaluated (kw : Keyword) (tokens : List Token) (m : Machine) (f : Frame) : List Token :=
  match kw with
  | .elifLine =>
    match m.topIf f with
    | none => []
    | some block => if m.activeBelow (f.blockDepth - 1) && !block.done then tokens else []
  | .elseLine => []
  | .endLine =>
    let block := m.blocks (f.blockDepth - 1)
    if 0 < f.blockDepth ∧ block.type = .whileBlock ∧ block.active = true then
      (soshLexLine (m.lineText block.loopStart)).getD []
    else []
  | _ => if m.activeBelow f.blockDepth then tokens else []

/-- The line the next step interprets, if it interprets one. -/
def Machine.current (m : Machine) : Option (Frame × Token × List Token) :=
  match m.frames with
  | [] => none
  | f :: _ =>
    if f.pc < f.numLines ∧ m.state.exitRequested = false ∧
        isSkipped (m.lineText f.pc) = false then
      match soshLexLine (m.lineText f.pc) with
      | some (tok :: ts) => some (f, tok, ts)
      | _ => none
    else none

/-- The tokens the next step evaluates. -/
def Machine.evaluates (m : Machine) : List Token :=
  m.current.elim [] fun (f, tok, ts) => evaluated (keyword tok) (tok :: ts) m f

/-- The name of the command line the next step dispatches, if it is one. -/
def Machine.dispatches (m : Machine) : Option Text :=
  m.current.bind fun (f, tok, _) =>
    if keyword tok = .external ∧ m.activeBelow f.blockDepth = true then
      some (tokenText m.state.vars tok varValueMax)
    else none

/-- **STEP CASES**: a step that changes the state interprets a line. -/
theorem step_cases (m : Machine) :
    (step m).state = m.state ∨ ∃ f rest tok ts, m.current = some (f, tok, ts) ∧
      evalTokens (keyword tok) (tok :: ts) m.mark f rest = some (step m) := by
  unfold step Machine.current
  rcases m.frames with _ | ⟨f, rest⟩
  · exact .inl rfl
  · dsimp only
    by_cases hrun : f.pc < f.numLines ∧ m.state.exitRequested = false
    · rw [if_pos hrun]
      unfold evalLine
      dsimp only
      cases hskip : isSkipped (m.lineText f.pc) with
      | true => exact .inl rfl
      | false =>
        rw [if_neg Bool.false_ne_true, if_pos ⟨hrun.1, hrun.2, rfl⟩]
        rcases hlex : soshLexLine (m.lineText f.pc) with _ | ⟨_ | ⟨tok, ts⟩⟩
        · exact .inl rfl
        · exact .inl rfl
        · cases hev : evalTokens (keyword tok) (tok :: ts) m.mark f rest with
          | none => left; simp [hev]
          | some => exact .inr ⟨f, rest, tok, ts, rfl, by simp [hev]⟩
    · rw [if_neg hrun]
      rcases rest with _ | ⟨_, _⟩ <;> exact .inl rfl

section

variable {R : Text → Text → SoshCap → Text → Prop}

theorem mark_mediates (m : Machine) : Mediates R m.state m.mark.state :=
  ⟨rfl, extends_inert m.state.log (fun ⟨_, _, _, h⟩ => nomatch h)⟩

theorem execute_mediates (h : executing → Mediates R m.state (statement m.state)) (f : Frame)
    (rest : List Frame) : Mediates R m.state (m.execute executing statement f rest).state := by
  cases executing with
  | true => exact h rfl
  | false => exact .refl m.state

variable (hcov : Covers R)

include hcov

theorem evalTokens_mediates
    (hq : Quiet (evaluated kw (tok :: ts) m f)) (hp : m.state.capCheck ≠ none)
    (hfits : kw = .external → m.activeBelow f.blockDepth →
      Fits R (tokenText m.state.vars tok varValueMax))
    (he : evalTokens kw (tok :: ts) m f rest = some m') : Mediates R m.state m'.state := by
  -- every line but `elif`, `else` and `end` evaluates its own tokens when executed
  have hown : kw ∉ [.elifLine, .elseLine, .endLine] → m.activeBelow f.blockDepth →
      Quiet (tok :: ts) := by
    intro _ hexec
    cases kw <;> simp_all [evaluated]
  cases kw
  case endLine =>
    obtain ⟨⟨m'', f'⟩, hend, hadv⟩ := map_eq_some_iff.mp he
    obtain rfl : m''.advance f' rest = m' := hadv
    have hmed : Mediates R m.state m''.state := by
      refine evalEnd_mediates hcov ?_ hp hend
      intro _ hdepth htype hactive hlex
      simpa [evaluated, hdepth, htype, hactive, hlex] using hq
    exact hmed
  all_goals obtain rfl := some.inj he
  case ifLine => exact evalIf_mediates hcov (hown (by decide)) hp f
  case elifLine =>
    refine evalElif_mediates hcov (fun block htop hactive hdone => ?_) hp
    simpa [evaluated, htop, hactive, hdone] using hq
  case elseLine => exact evalElse_mediates m f
  case whileLine => exact evalWhile_mediates hcov (hown (by decide)) hp f
  case forLine => exact evalFor_mediates (hown (by decide)) f
  case setLine =>
    exact execute_mediates (fun hexec => evalSet_mediates (hown (by decide) hexec) _) f rest
  case exportLine =>
    exact execute_mediates
      (fun hexec => evalExport_mediates hcov (hown (by decide) hexec) hp) f rest
  case echoLine =>
    exact execute_mediates (fun hexec => evalEcho_mediates (hown (by decide) hexec) _) f rest
  case returnLine =>
    exact execute_mediates (fun hexec => evalReturn_mediates (hown (by decide) hexec) _) f rest
  case sourceLine =>
    cases hexec : m.activeBelow f.blockDepth with
    | true => exact evalSource_mediates hcov (hown (by decide) hexec) hp f rest
    | false => exact .refl m.state
  case external =>
    exact execute_mediates
      (fun hexec => evalExternal_mediates (hown (by decide) hexec) hp (hfits rfl hexec)) f rest

/-- **STEP LEMMA**: a step that evaluates no capture adds a mediated piece to the log. -/
theorem step_mediates (hq : Quiet m.evaluates) (hp : m.state.capCheck ≠ none)
    (hfits : ∀ cmd ∈ m.dispatches, Fits R cmd) : Mediates R m.state (step m).state := by
  rcases step_cases m with hsame | ⟨f, _, tok, ts, hcur, heval⟩
  · rw [hsame]
    exact .refl m.state
  · have hq' : Quiet (evaluated (keyword tok) (tok :: ts) m f) := by
      simpa [Machine.evaluates, hcur] using hq
    refine (mark_mediates m).trans (evalTokens_mediates (m := m.mark) hcov hq' hp ?_ heval)
    intro hkw hexec
    refine hfits _ ?_
    rw [Machine.dispatches, hcur]
    exact if_pos ⟨hkw, hexec⟩

/-- **RUN LEMMA**: the same for any number of steps. -/
theorem run_mediates (n : Nat) (hp : m.state.capCheck ≠ none)
    (hq : ∀ i < n, Quiet (step^[i] m).evaluates)
    (hfits : ∀ i < n, ∀ cmd ∈ (step^[i] m).dispatches, Fits R cmd) :
    Mediates R m.state (step^[n] m).state := by
  induction n with
  | zero => exact .refl m.state
  | succ n ih =>
    have hn := ih (fun i hi => hq i (Nat.lt_succ_of_lt hi))
      (fun i hi => hfits i (Nat.lt_succ_of_lt hi))
    rw [Function.iterate_succ_apply']
    refine hn.trans (step_mediates hcov (hq n (Nat.lt_succ_self n)) ?_
      (hfits n (Nat.lt_succ_self n)))
    rw [hn.capCheck]
    exact hp

end

/-! ## Runs of a script -/

theorem contract_covers : Covers Contract where
  existence path := .read _ path (by decide)
  content path := .read _ path (by decide)
  env var value := .env var value

/-- What the code checks for an external command is what the contract asks, unless it is one of
    these. -/
theorem contract_fits (h : cmd ∉ ownCommands) : Fits Contract cmd := by
  intro args hlen
  unfold commandGate
  split
  next hread =>
    refine .read cmd args ?_
    rcases hread with rfl | rfl <;> decide
  next hread =>
    split
    next hwrite =>
      have hpath : (scanWhile (· ≠ ' ') (varValueMax - 1) args).1 = args.takeWhile (· ≠ ' ') :=
        take_of_length_le ((List.takeWhile_prefix _).length_le.trans hlen)
      rw [hpath]
      refine .write cmd args ?_
      rcases hwrite with rfl | rfl <;> decide
    next hwrite =>
      refine .app cmd args ?_
      simp only [ownCommands, readers, writers, mem_cons, mem_append, not_or] at h ⊢
      obtain ⟨hraw, hexists, henv, hnil⟩ := h
      obtain ⟨hcat, hls⟩ := not_or.mp hread
      obtain ⟨hwr, happend⟩ := not_or.mp hwrite
      exact ⟨henv, ⟨hcat, hls, hraw, hexists, hnil⟩, hwr, happend, hnil⟩

theorem surface_covers : Covers Surface where
  existence path := .inl (contract_covers.existence path)
  content path := .inl (contract_covers.content path)
  env var value := .inl (contract_covers.env var value)

theorem surface_fits (cmd : Text) : Fits Surface cmd := by
  by_cases h : cmd ∈ ownCommands
  · intro args _
    have hgate : commandGate cmd args = (.appExec, cmd) := by
      simp only [ownCommands, mem_cons, not_mem_nil, or_false] at h
      rcases h with rfl | rfl | rfl <;> rfl
    rw [hgate]
    exact .inr ⟨h, rfl, rfl⟩
  · exact fun args hlen => .inl (contract_fits h args hlen)

/-- The interpreter after so many steps of a script. -/
def soshRun (m : Machine) (script : Buf) (scriptName args : Option Text) (n : Nat) : Machine :=
  step^[n] (soshEvalScript m script scriptName args)

/-- **MEDIATION**: in every run under a capability check whose steps evaluate no command capture,
    every call of the exec callback was checked and allowed in its own statement; for what the
    contract assigns to its command, if no command line spells one of the interpreter's own. -/
theorem sosh_mediation (m : Machine) (script : Buf) (scriptName args : Option Text) (n : Nat)
    (hp : m.state.capCheck ≠ none) (hlog : m.state.log = [])
    (hquiet : ∀ i < n, Quiet (soshRun m script scriptName args i).evaluates) :
    Mediated (monitor Surface) (soshRun m script scriptName args n).state.log ∧
    ((∀ i < n, ∀ cmd ∈ (soshRun m script scriptName args i).dispatches, cmd ∉ ownCommands) →
      Mediated (monitor Contract) (soshRun m script scriptName args n).state.log) := by
  have hp' : (soshEvalScript m script scriptName args).state.capCheck ≠ none := hp
  have hstart : ∀ R, Mediated (monitor R) (soshEvalScript m script scriptName args).state.log := by
    intro _
    refine mediated_inert (fun e he => ?_)
    rw [show (soshEvalScript m script scriptName args).state.log = [] from hlog] at he
    exact nomatch he
  constructor
  · exact (hstart Surface).extends (run_mediates surface_covers n hp' hquiet
      (fun _ _ cmd _ => surface_fits cmd)).log
  · intro hown
    exact (hstart Contract).extends (run_mediates contract_covers n hp' hquiet
      (fun i hi cmd hcmd => contract_fits (hown i hi cmd hcmd))).log

/-- A fresh interpreter whose embedder runs every command, with a capability check. -/
def freshShell (check : CapCheckFn) : Machine where
  state := soshEvalSetCapCheck
    (soshEvalInit ⟨⟨fun _ => ⟨[], [], false⟩, fun _ => [], 0, [], []⟩, false, none, false, 0, none,
      []⟩ true (some fun _ _ _ _ => (0, []))) (some check)
  lines := []
  blocks := fun _ => ⟨.ifBlock, false, false, 0, [], [], 0⟩
  frames := []

/-- A loop over two files, each read, tested and logged. -/
def listing : Text :=
  "for f in a b\nif exists $f\ncat $f\nend\nend\nappend log done\nexport N = 1 + 1".toList

/-- The run of `listing` under a check that allows everything. -/
theorem sosh_mediation_listing :
    (soshRun (freshShell fun _ _ _ => 0) listing none none 20).frames = [] ∧
    (soshRun (freshShell fun _ _ _ => 0) listing none none 20).state.log.countP
      (fun e => e matches .exec _ _ _) = 6 ∧
    Mediated (monitor Contract)
      (soshRun (freshShell fun _ _ _ => 0) listing none none 20).state.log :=
  ⟨by decide +kernel, by decide +kernel,
    (sosh_mediation (freshShell fun _ _ _ => 0) listing none none 20 nofun rfl
      (by decide +kernel)).2 (by decide +kernel)⟩

/-- Lines that capture the output of `rm /etc`, in an expression, condition, `for` list and
    argument. -/
def captures : List Text :=
  ["set x = $(rm /etc)".toList, "if $(rm /etc) == ok".toList, "for f in $(rm /etc)".toList,
   "cat $(rm /etc)".toList]

/-- A call that no check in front of it allows. -/
theorem not_mediated_call
    (h : ∀ cap resource, .check cap (some resource) 0 ∈ front → ¬ R command args cap resource) :
    ¬ Mediated (monitor R) (front ++ .exec command args outSize :: back) := by
  refine not_mediated ⟨command, args, outSize, rfl⟩ ?_
  rintro _ hg ⟨_, _, _, cap, resource, rfl, hcall, hR⟩
  injection hcall with hcommand hargs
  subst hcommand hargs
  exact h cap resource hg hR

/-- **UNCHECKED CALLS**: a captured command runs under a check that denies everything; and a script
    that may only execute programs reads any file, by the name of the command behind `source`. -/
theorem unchecked_calls : (∀ script ∈ captures, ¬ Mediated (monitor Surface)
      (soshRun (freshShell fun _ _ _ => 1) script none none 1).state.log) ∧
    ¬ Mediated (monitor Contract)
      (soshRun (freshShell fun _ cap _ => if cap = .appExec then 0 else 1)
        "__cat_raw /secret".toList none none 1).state.log := by
  constructor
  · intro script _
    have hfront : (soshRun (freshShell fun _ _ _ => 1) script none none 1).state.log.take 2
        = [.statement] ++ [.exec "rm".toList "/etc".toList 256] := by
      revert script
      decide +kernel
    rw [← take_append_drop 2 (soshRun _ script none none 1).state.log, hfront, append_assoc]
    refine not_mediated_call (fun cap resource hmem => ?_)
    exact nomatch mem_singleton.mp hmem
  · have hlog : (soshRun (freshShell fun _ cap _ => if cap = .appExec then 0 else 1)
        "__cat_raw /secret".toList none none 1).state.log
        = [.statement, .check .appExec (some "__cat_raw".toList) 0]
          ++ [.exec "__cat_raw".toList "/secret".toList 256] := by
      decide +kernel
    rw [hlog]
    refine not_mediated_call (fun cap resource hmem hcontract => ?_)
    -- the one check in front is for the execution of a program
    have happ : cap = .appExec := by
      rcases mem_cons.mp hmem with h | h
      · exact nomatch h
      · injection mem_singleton.mp h
    subst happ
    cases hcontract with
    | app _ _ h => exact h (by decide)

end Sosh
