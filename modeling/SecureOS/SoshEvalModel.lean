import SecureOS.SoshVarsModel
import Mathlib.Data.List.DropRight

/-! # The sosh evaluator

`user/libs/soshlib/sosh_eval.c`: a line interpreter with a block stack.

The embedder's three callbacks live in the interpreter state.  They are arbitrary: each answers
from everything the interpreter has asked so far, which is the log of the state.  They do not
reach into the interpreter.

One step of the machine is one round of the loop of `sosh_eval_script`. Its line table and its
block stack have static storage and are shared by all activations; the other variables that
outlive a round are the frame of an activation.  `source` pushes a frame, the end of a script
pops one. -/

namespace Sosh

/-! ## Strings and numbers -/

/-- `sosh_strcpy` into a buffer of `max` cells. -/
def soshStrcpy (src : Text) (max : Nat) : Text := src.take (max - 1)

/-- `sosh_strcat` onto a string in a buffer of `max` cells. -/
def soshStrcat (dst src : Text) (max : Nat) : Text := dst ++ src.take (max - 1 - dst.length)

/-- A decimal digit. -/
def isDigit (c : Char) : Bool := '0' ≤ c && c ≤ '9'

/-- The number the digits in front of a text write, modulo the width of an `int`. -/
def digitsValue (s : Text) : Int32 :=
  (s.takeWhile isDigit).foldl (fun val c => val * 10 + Int32.ofNat (c.toNat - '0'.toNat)) 0

def soshAtoi : Text → Int32
  | '-' :: s => -digitsValue s
  | s => digitsValue s

def soshIsNumeric (s : Text) : Bool :=
  let digits := if s.head? = some '-' then s.tail else s
  !digits.isEmpty && digits.all isDigit

/-- `sosh_itoa`, the same code as `int_to_str`. -/
def soshItoa (val : Int32) (bufSize : Nat) : Text := intToStr val bufSize

/-! ## The interpreter state -/

/-- The abstract capability ids of `sosh_builtins.h`. -/
inductive SoshCap where
  | consoleWrite
  | fsRead
  | fsWrite
  | appExec
  | envWrite
deriving DecidableEq, Repr

/-- What the interpreter does that its embedder can see; `statement` stands for the start of a line.
    -/
inductive Event where
  | statement
  | check (cap : SoshCap) (resource : Option Text) (rc : Int32)
  | exec (command args : Text) (outSize : Nat)
  | output (text : Text)
deriving DecidableEq, Repr

/-- `sosh_exec_fn`: the result and the cells written to the output buffer. -/
abbrev ExecFn := List Event → Text → Text → Nat → Int32 × Buf

/-- `sosh_cap_check_fn`. -/
abbrev CapCheckFn := List Event → SoshCap → Option Text → Int32

/-- `sosh_state_t`; of the output callback, which answers nothing, only whether it is installed. -/
structure State where
  vars : VarTable
  output : Bool
  exec : Option ExecFn
  exitRequested : Bool
  exitCode : Int32
  capCheck : Option CapCheckFn
  log : List Event

def soshEvalInit (st : State) (output : Bool) (exec : Option ExecFn) : State :=
  { st with
    vars := soshVarsInit st.vars, output := output, exec := exec
    exitRequested := false, exitCode := 0, capCheck := none }

def soshEvalSetCapCheck (st : State) (capCheck : Option CapCheckFn) : State :=
  { st with capCheck := capCheck }

/-- A call of the exec callback: its result and the string in the output buffer. -/
def State.callExec (st : State) (exec : ExecFn) (command args : Text) (outSize : Nat) :
    (Int32 × Text) × State :=
  let answer := exec st.log command args outSize
  ((answer.1, (cstr answer.2).take (outSize - 1)),
    { st with log := st.log ++ [.exec command args outSize] })

/-- The gate in front of a side effect: without a capability check it is open. -/
def State.gate (st : State) (cap : SoshCap) (resource : Option Text) : Int32 × State :=
  match st.capCheck with
  | none => (0, st)
  | some check =>
    let rc := check st.log cap resource
    (rc, { st with log := st.log ++ [.check cap resource rc] })

/-- `sosh_vars_set_exit_code` on the state. -/
def State.setExitCode (st : State) (rc : Int32) : State :=
  { st with vars := soshVarsSetExitCode st.vars rc }

/-- `sosh_vars_set` on the state; the evaluator ignores a full table. -/
def State.setVar (st : State) (name value : Text) : State :=
  { st with vars := (soshVarsSet st.vars name value).2 }

/-- A call of the output callback, if one is installed. -/
def State.print (st : State) (text : Text) : State :=
  if st.output then { st with log := st.log ++ [.output text] } else st

/-! ## Expressions and conditions -/

/-- A bound of a substring expression: a number, or a variable that holds one. -/
def substrBound (vars : VarTable) : Text → Int32
  | '$' :: name => soshAtoi (cstr (soshVarsGet vars name))
  | s => soshAtoi s

/-- The `VARSUBSTR` case of `resolve_token`: `VAR:start:len` or `VAR:start`. -/
def resolveSubstr (vars : VarTable) (value : Text) (outSize : Nat) : Text :=
  let (varName, rest) := scanWhile (· ≠ ':') (varNameMax - 1) value
  let (start, rest) :=
    match rest with
    | ':' :: rest =>
      let (s, rest) := scanWhile (· ≠ ':') 15 rest
      (substrBound vars s, rest)
    | rest => (0, rest)
  let length :=
    match rest with
    | ':' :: rest => substrBound vars (scanWhile (· ≠ '}') 15 rest).1
    | _ => -1
  soshVarsSubstring vars varName start length outSize

/-- The cases of `resolve_token` that call nothing. -/
def tokenText (vars : VarTable) (tok : Token) (outSize : Nat) : Text :=
  match tok.type with
  | .var => soshStrcpy (cstr (soshVarsGet vars tok.value)) outSize
  | .varLen => soshItoa (soshVarsLength vars tok.value) outSize
  | .varSubstr => resolveSubstr vars tok.value outSize
  | _ => soshStrcpy tok.value outSize

/-- A captured command line, split into the command and its arguments. -/
def splitCommand (value : Text) : Text × Text :=
  let (cmd, rest) := scanWhile (· ≠ ' ') (varValueMax - 1) (value.dropWhile (· == ' '))
  (cmd, rest.dropWhile (· == ' '))

/-- `resolve_token` into a buffer of `outSize` cells. -/
def resolveToken (tok : Token) (outSize : Nat) (st : State) : Text × State :=
  if tok.type = .capture then
    match st.exec with
    | none => ([], st)
    | some exec =>
      let (cmd, args) := splitCommand tok.value
      let ((_, out), st) := st.callExec exec cmd args outSize
      (out.rdropWhile (fun c => c == '\n' || c == '\x0d'), st)
  else (tokenText st.vars tok outSize, st)

/-- The loop of `eval_expr` behind the first operand: the value, the tokens left and the state. -/
def evalExprLoop (outSize : Nat) : List Token → Text → State → Text × List Token × State
  | [], out, st => (out, [], st)
  | op :: ts, out, st =>
    if op.type = .opPlus then
      match ts with
      | [] => (out, [], st)
      | tok :: rest =>
        let (right, st) := resolveToken tok varValueMax st
        let out :=
          if soshIsNumeric out && soshIsNumeric right then
            soshItoa (soshAtoi out + soshAtoi right) outSize
          else soshStrcat out right outSize
        evalExprLoop outSize rest out st
    else if op.type = .opMinus then
      match ts with
      | [] => (out, [], st)
      | tok :: rest =>
        let (right, st) := resolveToken tok varValueMax st
        if soshIsNumeric out && soshIsNumeric right then
          evalExprLoop outSize rest (soshItoa (soshAtoi out - soshAtoi right) outSize) st
        else (out, rest, st)
    else (out, op :: ts, st)

/-- `eval_expr` on the tokens from its position on. -/
def evalExpr (ts : List Token) (outSize : Nat) (st : State) : Text × List Token × State :=
  match ts with
  | [] => ([], [], st)
  | tok :: rest =>
    let (left, st) := resolveToken tok varValueMax st
    evalExprLoop outSize rest (soshStrcpy left outSize) st

/-- The comparison an operator token stands for, if it is one. -/
def comparison : TokenType → Option (Text → Text → Bool)
  | .opEq => some fun left right => left == right
  | .opNeq => some fun left right => left != right
  | .opLt => some fun left right => soshAtoi left < soshAtoi right
  | .opGt => some fun left right => soshAtoi left > soshAtoi right
  | .opLte => some fun left right => soshAtoi left ≤ soshAtoi right
  | .opGte => some fun left right => soshAtoi left ≥ soshAtoi right
  | _ => none

/-- Non-empty and not `"0"`. -/
def truthy (s : Text) : Bool := !s.isEmpty && s != ['0']

/-- The `exists` case of `eval_condition`, behind the keyword. -/
def evalExists (ts : List Token) (st : State) : Bool × State :=
  match ts with
  | [] => (false, st)
  | tok :: _ =>
    let (path, st) := resolveToken tok varValueMax st
    let (crc, st) := st.gate .fsRead (some path)
    if crc ≠ 0 then (false, st.setExitCode crc)
    else
      match st.exec with
      | none => (false, st)
      | some exec =>
        let ((rc, _), st) := st.callExec exec "exists".toList path 64
        (rc == 0, st)

/-- The last case of `eval_condition`: an expression, alone or compared with another one. -/
def evalComparison (ts : List Token) (st : State) : Bool × State :=
  let (left, rest, st) := evalExpr ts varValueMax st
  match rest with
  | [] => (truthy left, st)
  | op :: ts =>
    match comparison op.type with
    | none => (truthy left, st)
    | some compare =>
      let (right, _, st) := evalExpr ts varValueMax st
      (compare left right, st)

/-- `eval_condition` on the tokens from its position on. -/
def evalCondition : List Token → State → Bool × State
  | [], st => (false, st)
  | tok :: ts, st =>
    if tok.type = .word ∧ tok.value = "not".toList then
      let (cond, st) := evalCondition ts st
      (!cond, st)
    else if tok.type = .word ∧ tok.value = "exists".toList then evalExists ts st
    else evalComparison (tok :: ts) st

/-- The tokens, resolved and joined with blanks, behind what is there. -/
def joinTokens : List Token → Text → State → Text × State
  | [], out, st => (out, st)
  | tok :: ts, out, st =>
    let (val, st) := resolveToken tok varValueMax st
    let out := if out.isEmpty then out else soshStrcat out [' '] varValueMax
    joinTokens ts (soshStrcat out val varValueMax) st

/-! ## Statements -/

/-- `VAR = expr`, as `set` and `export` have it: the variable, the value and the state. -/
def evalAssignment (tokens : List Token) (st : State) : Option (Text × Text × State) :=
  match tokens with
  | _ :: name :: assign :: ts =>
    if assign.type = .opAssign ∧ ts ≠ [] then
      let (value, _, st) := evalExpr ts varValueMax st
      let varName := soshStrcpy name.value varNameMax
      some (varName, value, st.setVar varName value)
    else none
  | _ => none

/-- `set VAR = expr`. -/
def evalSet (tokens : List Token) (st : State) : State :=
  match evalAssignment tokens st with
  | none => st
  | some (_, _, st) => st

/-- The argument of `env`: `VAR=value` in a buffer of 290 cells. -/
def envArg (varName value : Text) : Text :=
  soshStrcat (soshStrcat (soshStrcpy varName 290) ['='] 290) value 290

/-- `export VAR = expr`. -/
def evalExport (tokens : List Token) (st : State) : State :=
  match evalAssignment tokens st with
  | none => st
  | some (varName, value, st) =>
    match st.exec with
    | none => st
    | some exec =>
      let (rc, st) := st.gate .envWrite (some varName)
      if rc ≠ 0 then st.setExitCode rc
      else (st.callExec exec "env".toList (envArg varName value) 0).2.setExitCode 0

/-- `echo expr`. -/
def evalEcho (tokens : List Token) (st : State) : State :=
  let (rc, st) := st.gate .consoleWrite none
  if rc ≠ 0 then st.setExitCode rc
  else
    let (out, _, st) := evalExpr (tokens.drop 1) varValueMax st
    (st.print (soshStrcat out ['\n'] varValueMax)).setExitCode 0

/-- `return` and `exit`. -/
def evalReturn (tokens : List Token) (st : State) : State :=
  match tokens with
  | _ :: tok :: _ =>
    let (code, st) := resolveToken tok 16 st
    { st with exitCode := soshAtoi code, exitRequested := true }
  | _ => { st with exitRequested := true }

/-- The capability and the resource an external command is checked for. -/
def commandGate (cmd args : Text) : SoshCap × Text :=
  if cmd = "cat".toList ∨ cmd = "ls".toList then (.fsRead, args)
  else if cmd = "write".toList ∨ cmd = "append".toList then
    (.fsWrite, (scanWhile (· ≠ ' ') (varValueMax - 1) args).1)
  else (.appExec, cmd)

/-- Any other line: a command for the embedder. -/
def evalExternal (tokens : List Token) (st : State) : State :=
  match tokens with
  | [] => st
  | tok :: ts =>
    let (cmd, st) := resolveToken tok varValueMax st
    let (args, st) := joinTokens ts [] st
    match st.exec with
    | none => st
    | some exec =>
      let (crc, st) := st.gate (commandGate cmd args).1 (some (commandGate cmd args).2)
      if crc ≠ 0 then st.setExitCode crc
      else
        let ((rc, out), st) := st.callExec exec cmd args varValueMax
        let st := st.setExitCode rc
        if out.isEmpty then st else st.print out

/-! ## Blocks and activations -/

/-- `SOSH_LINE_MAX`. -/
def lineMax : Nat := 512

/-- `SOSH_NESTING_MAX`. -/
def nestingMax : Nat := 16

/-- `MAX_LINES`. -/
def maxLines : Nat := 512

/-- `sosh_block_type_t`. -/
inductive BlockType where
  | ifBlock
  | whileBlock
  | forBlock
deriving DecidableEq, Repr

/-- `sosh_block_t`. -/
structure Block where
  type : BlockType
  active : Bool
  done : Bool
  loopStart : Nat
  forVar : Text
  forItems : Text
  forPos : Nat
deriving DecidableEq, Repr

/-- The white space between the items of a `for` list. -/
def isItemSpace (c : Char) : Bool := c == ' ' || c == '\t' || c == '\n' || c == '\x0d'

/-- `for_next_item`: the item, cut to its buffer, and the block behind it. -/
def forNextItem (block : Block) (itemSize : Nat) : Option (Text × Block) :=
  let items := block.forItems.drop block.forPos
  let skipped := items.takeWhile isItemSpace
  let item := (items.dropWhile isItemSpace).takeWhile (fun c => !isItemSpace c)
  if item.isEmpty then none
  else
    some (item.take (itemSize - 1),
      { block with forPos := block.forPos + skipped.length + item.length })

/-- `parse_lines`: so many lines at most, without line feed and one trailing carriage return. -/
def parseLines : Nat → Buf → List Buf
  | 0, _ => []
  | _ + 1, [] => []
  | max + 1, c :: script =>
    let line := (c :: script).takeWhile (· ≠ '\n')
    let text := if line.getLast? = some '\x0d' then line.dropLast else line
    text :: parseLines max ((c :: script).drop (line.length + 1))

/-- The variables of one activation of `sosh_eval_script` that outlive a round of its loop. -/
structure Frame where
  numLines : Nat
  pc : Nat
  blockDepth : Nat
deriving DecidableEq, Repr

/-- The interpreter: state, static line table and block stack, and activations, the running one
    first. -/
structure Machine where
  state : State
  lines : List Buf
  blocks : Nat → Block
  frames : List Frame

/-- Write one block of the stack. -/
def Machine.setBlock (m : Machine) (i : Nat) (block : Block) : Machine :=
  { m with blocks := Function.update m.blocks i block }

/-- `sosh_eval_script` up to the top of its loop. -/
def soshEvalScript (m : Machine) (script : Buf) (scriptName args : Option Text) : Machine :=
  let parsed := parseLines maxLines script
  { m with
    state := { m.state with
      vars := soshVarsSetArgs m.state.vars (scriptName.getD "sosh".toList) args
      exitRequested := false
      exitCode := 0 }
    -- the table keeps what it held behind the lines of this script
    lines := parsed ++ m.lines.drop parsed.length
    frames := ⟨parsed.length, 0, 0⟩ :: m.frames }

/-- The line at an index, as it is copied to the line buffer. -/
def Machine.lineText (m : Machine) (i : Nat) : Text := cstr ((m.lines.getD i []).take (lineMax - 1))

/-- Every block below a depth is active. -/
def Machine.activeBelow (m : Machine) (depth : Nat) : Bool :=
  (List.range depth).all (fun i => (m.blocks i).active)

/-- `if`. -/
def evalIf (tokens : List Token) (executing : Bool) (m : Machine) (f : Frame) : Machine × Frame :=
  if f.blockDepth < nestingMax then
    let block := m.blocks f.blockDepth
    let opened := { f with blockDepth := f.blockDepth + 1 }
    if executing then
      let (cond, st) := evalCondition (tokens.drop 1) m.state
      ({ m with state := st }.setBlock f.blockDepth
        { block with type := .ifBlock, active := cond, done := cond }, opened)
    else
      (m.setBlock f.blockDepth { block with type := .ifBlock, active := false, done := true },
        opened)
  else (m, f)

/-- The `if` block on top of the stack, for `elif` and `else`. -/
def Machine.topIf (m : Machine) (f : Frame) : Option Block :=
  let block := m.blocks (f.blockDepth - 1)
  if 0 < f.blockDepth ∧ block.type = .ifBlock then some block else none

/-- `elif`. -/
def evalElif (tokens : List Token) (m : Machine) (f : Frame) : Machine :=
  match m.topIf f with
  | none => m
  | some block =>
    if m.activeBelow (f.blockDepth - 1) && !block.done then
      let (cond, st) := evalCondition (tokens.drop 1) m.state
      { m with state := st }.setBlock (f.blockDepth - 1)
        { block with active := cond, done := block.done || cond }
    else m.setBlock (f.blockDepth - 1) { block with active := false }

/-- `else`. -/
def evalElse (m : Machine) (f : Frame) : Machine :=
  match m.topIf f with
  | none => m
  | some block =>
    if m.activeBelow (f.blockDepth - 1) && !block.done then
      m.setBlock (f.blockDepth - 1) { block with active := true, done := true }
    else m.setBlock (f.blockDepth - 1) { block with active := false }

/-- `while`. -/
def evalWhile (tokens : List Token) (executing : Bool) (m : Machine) (f : Frame) :
    Machine × Frame :=
  if f.blockDepth < nestingMax then
    let (cond, st) :=
      if executing then evalCondition (tokens.drop 1) m.state else (false, m.state)
    ({ m with state := st }.setBlock f.blockDepth
      { m.blocks f.blockDepth with type := .whileBlock, active := cond, loopStart := f.pc },
      { f with blockDepth := f.blockDepth + 1 })
  else (m, f)

/-- The loop variable gets the next item of a `for` block; nothing when there is none. -/
def bindNextItem (block : Block) (st : State) : Option (State × Block) :=
  (forNextItem block varValueMax).map (fun (item, block) => (st.setVar block.forVar item, block))

/-- `for VAR in expr`. -/
def evalFor (tokens : List Token) (executing : Bool) (m : Machine) (f : Frame) : Machine × Frame :=
  if f.blockDepth < nestingMax then
    let block := { m.blocks f.blockDepth with type := .forBlock, loopStart := f.pc }
    let opened := { f with blockDepth := f.blockDepth + 1 }
    match executing, tokens with
    | true, _ :: name :: _ :: tok :: ts =>
      let (items, st) := joinTokens (tok :: ts) [] m.state
      let block := { block with
        forVar := soshStrcpy name.value varNameMax, forItems := items, forPos := 0 }
      match bindNextItem block st with
      | some (st, block) =>
        ({ m with state := st }.setBlock f.blockDepth { block with active := true }, opened)
      | none =>
        ({ m with state := st }.setBlock f.blockDepth { block with active := false }, opened)
    | _, _ =>
      (m.setBlock f.blockDepth
        { block with active := false, forVar := [], forItems := [], forPos := 0 }, opened)
  else (m, f)

/-- `end`: nothing when the condition of a loop is lexed again and the lexer does not return. -/
def evalEnd (m : Machine) (f : Frame) : Option (Machine × Frame) :=
  if 0 < f.blockDepth then
    let block := m.blocks (f.blockDepth - 1)
    let closed := { f with blockDepth := f.blockDepth - 1 }
    let again := { f with pc := block.loopStart }
    if block.type = .whileBlock ∧ block.active = true then
      (soshLexLine (m.lineText block.loopStart)).map fun loopTokens =>
        let (cond, st) := evalCondition (loopTokens.drop 1) m.state
        ({ m with state := st }, if cond then again else closed)
    else if block.type = .forBlock ∧ block.active = true then
      match bindNextItem block m.state with
      | some (st, block) => some ({ m with state := st }.setBlock (f.blockDepth - 1) block, again)
      | none => some (m, closed)
    else some (m, closed)
  else some (m, f)

/-- The next round of a frame's loop. -/
def Machine.advance (m : Machine) (f : Frame) (rest : List Frame) : Machine :=
  { m with frames := { f with pc := f.pc + 1 } :: rest }

/-- `source filename` starts an activation; the suspended one goes on with its next line afterwards.
    -/
def evalSource (tokens : List Token) (m : Machine) (f : Frame) (rest : List Frame) : Machine :=
  match tokens, m.state.exec with
  | _ :: tok :: _, some exec =>
    let (path, st) := resolveToken tok varValueMax m.state
    let (crc, st) := st.gate .fsRead (some path)
    if crc ≠ 0 then { m with state := st.setExitCode crc }.advance f rest
    else
      let ((rc, content), st) := st.callExec exec "__cat_raw".toList path 4096
      if rc = 0 ∧ content ≠ [] then
        soshEvalScript { m with state := st, frames := f :: rest } content (some path) (some [])
      else { m with state := st }.advance f rest
  | _, _ => m.advance f rest

/-- What the first token makes of a line. -/
inductive Keyword where
  | ifLine
  | elifLine
  | elseLine
  | whileLine
  | forLine
  | endLine
  | setLine
  | exportLine
  | echoLine
  | returnLine
  | sourceLine
  | external
deriving DecidableEq, Repr

/-- The words the evaluator knows. -/
def keywords : List (Text × Keyword) :=
  [("if".toList, .ifLine), ("elif".toList, .elifLine), ("else".toList, .elseLine),
   ("while".toList, .whileLine), ("for".toList, .forLine), ("end".toList, .endLine),
   ("set".toList, .setLine), ("export".toList, .exportLine), ("echo".toList, .echoLine),
   ("return".toList, .returnLine), ("exit".toList, .returnLine), ("source".toList, .sourceLine)]

/-- The keyword of a line, by its first token. -/
def keyword (tok : Token) : Keyword :=
  if tok.type = .word then (keywords.lookup tok.value).getD .external else .external

/-- A statement that works on the state, skipped where the line is not executed. -/
def Machine.execute (m : Machine) (executing : Bool) (statement : State → State) (f : Frame)
    (rest : List Frame) : Machine :=
  if executing then { m with state := statement m.state }.advance f rest else m.advance f rest

/-- A line of tokens in the running activation: nothing when the round does not end. -/
def evalTokens (kw : Keyword) (tokens : List Token) (m : Machine) (f : Frame)
    (rest : List Frame) : Option Machine :=
  let executing := m.activeBelow f.blockDepth
  match kw with
  | .ifLine => let (m, f) := evalIf tokens executing m f; some (m.advance f rest)
  | .elifLine => some ((evalElif tokens m f).advance f rest)
  | .elseLine => some ((evalElse m f).advance f rest)
  | .whileLine => let (m, f) := evalWhile tokens executing m f; some (m.advance f rest)
  | .forLine => let (m, f) := evalFor tokens executing m f; some (m.advance f rest)
  | .endLine => (evalEnd m f).map fun (m, f) => m.advance f rest
  | .setLine => some (m.execute executing (evalSet tokens) f rest)
  | .exportLine => some (m.execute executing (evalExport tokens) f rest)
  | .echoLine => some (m.execute executing (evalEcho tokens) f rest)
  | .returnLine => some (m.execute executing (evalReturn tokens) f rest)
  | .sourceLine => some (if executing then evalSource tokens m f rest else m.advance f rest)
  | .external => some (m.execute executing (evalExternal tokens) f rest)

/-- A line that is skipped before it is lexed: blank, or a comment. -/
def isSkipped (line : Text) : Bool :=
  match line.dropWhile isSpace with
  | [] => true
  | c :: _ => c == '#'

/-- The start of a line, in the log. -/
def Machine.mark (m : Machine) : Machine :=
  { m with state := { m.state with log := m.state.log ++ [.statement] } }

/-- One round of the running activation's loop: nothing when the lexer does not return. -/
def evalLine (m : Machine) (f : Frame) (rest : List Frame) : Option Machine :=
  let line := m.lineText f.pc
  if isSkipped line then some (m.advance f rest)
  else
    match soshLexLine line with
    | none => none
    | some [] => some (m.advance f rest)
    | some (tok :: ts) => evalTokens (keyword tok) (tok :: ts) m.mark f rest

/-- One step: a round of the running loop, or its end, which lets the caller go on behind its
    `source` line.  In a round that does not end the machine stays where it is. -/
def step (m : Machine) : Machine :=
  match m.frames with
  | [] => m
  | f :: rest =>
    if f.pc < f.numLines ∧ m.state.exitRequested = false then (evalLine m f rest).getD m
    else
      match rest with
      | [] => { m with frames := [] }
      | g :: rest => m.advance g rest

end Sosh
