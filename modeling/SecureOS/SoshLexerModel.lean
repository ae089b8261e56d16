import Mathlib.Data.List.Basic

/-! # The sosh lexer

`user/libs/soshlib/sosh_lexer.c`: one line of script text becomes a list of at most 32 tokens,
each with a value of at most 255 characters.

A C string is the list of its characters before the terminator, so the end of the list is where
the source reads `'\0'`; a scanner takes the text from its position on and returns the text it
stopped at. -/

namespace Sosh

/-- A NUL-terminated string: its characters before the terminator. -/
abbrev Text := List Char

/-- `SOSH_TOKEN_MAX`. -/
def tokenMax : Nat := 32

/-- `SOSH_TOKEN_LEN_MAX`. -/
def tokenLenMax : Nat := 256

/-- `sosh_token_type_t`; the lexer never makes an `eof` or a `newline`. -/
inductive TokenType where
  | eof
  | word
  | string
  | var
  | varSubstr
  | varLen
  | capture
  | opPlus
  | opMinus
  | opEq
  | opNeq
  | opLt
  | opGt
  | opLte
  | opGte
  | opAssign
  | newline
deriving DecidableEq, Repr

/-- `sosh_token_t`. -/
structure Token where
  type : TokenType
  value : Text
deriving DecidableEq, Repr

def isSpace (c : Char) : Bool := c == ' ' || c == '\t'

def isVarChar (c : Char) : Bool :=
  ('a' ≤ c && c ≤ 'z') || ('A' ≤ c && c ≤ 'Z') || ('0' ≤ c && c ≤ '9') || c == '_'

def isWordChar (c : Char) : Bool := isVarChar c || c == '/' || c == '.' || c == '-'

def addToken (list : List Token) (type : TokenType) (value : Text) : List Token :=
  if list.length ≥ tokenMax then list
  else list ++ [⟨type, value.take (tokenLenMax - 1)⟩]

/-- `buf[buf_len++] = c`, when the buffer has room before its terminator. -/
def pushChar (buf : Text) (c : Char) : Text :=
  if buf.length < tokenLenMax - 1 then buf ++ [c] else buf

/-- The character an escape stands for. -/
def unescape (c : Char) : Char :=
  if c = 'n' then '\n' else if c = 't' then '\t' else c

/-- The loop of `lex_string`, behind the opening quote; what is left starts behind the closing
    quote. -/
def lexStringLoop : Text → Text → Text × Text
  | [], buf => (buf, [])
  | c :: rest, buf =>
    if c = '"' then (buf, rest)
    else if c = '\\' then
      match rest with
      -- a backslash before the terminator stands for itself
      | [] => (pushChar buf c, [])
      | escaped :: rest => lexStringLoop rest (pushChar buf (unescape escaped))
    else lexStringLoop rest (pushChar buf c)

/-- `lex_string`, behind the opening quote. -/
def lexString (line : Text) (out : List Token) : Text × List Token :=
  let (buf, rest) := lexStringLoop line []
  (rest, addToken out .string buf)

/-- The loop of a command capture, behind `$(`, at a nesting depth. -/
def lexCaptureLoop : Text → Nat → Text → Text × Text
  | [], _, buf => (buf, [])
  | c :: rest, depth, buf =>
    if c = '(' then lexCaptureLoop rest (depth + 1) (pushChar buf c)
    else if c = ')' then
      if depth = 1 then (buf, rest)
      else lexCaptureLoop rest (depth - 1) (pushChar buf c)
    else lexCaptureLoop rest depth (pushChar buf c)

/-- The loop of `${...}`, up to the closing brace or the end of the line. -/
def lexBraceLoop : Text → Text → Text × Text
  | [], buf => (buf, [])
  | c :: rest, buf =>
    if c = '}' then (buf, rest) else lexBraceLoop rest (pushChar buf c)

/-- The longest front of the text that meets a test and fits a buffer, and the text behind it. -/
def scanWhile (p : Char → Bool) (room : Nat) (line : Text) : Text × Text :=
  let buf := (line.takeWhile p).take room
  (buf, line.drop buf.length)

/-- `lex_dollar`, behind the dollar sign. -/
def lexDollar (line : Text) (out : List Token) : Text × List Token :=
  match line with
  | '(' :: rest =>
    let (buf, rest) := lexCaptureLoop rest 1 []
    (rest, addToken out .capture buf)
  | '{' :: '#' :: rest =>
    let (buf, rest) := lexBraceLoop rest []
    (rest, addToken out .varLen buf)
  | '{' :: rest =>
    let (buf, rest) := lexBraceLoop rest []
    (rest, addToken out .varSubstr buf)
  | '@' :: rest => (rest, addToken out .var ['@'])
  | '?' :: rest => (rest, addToken out .var ['?'])
  | line =>
    let (buf, rest) := scanWhile isVarChar (tokenLenMax - 1) line
    (rest, if buf.length > 0 then addToken out .var buf else out)

/-- The characters a bare word goes over. -/
def isBareChar (c : Char) : Bool :=
  !(isSpace c || c == '"' || c == '$' || c == '+' || c == '=' || c == '<' ||
    c == '>' || c == '!')

/-- A bare word, which may be empty: then no token is made and nothing is consumed. -/
def lexWord (line : Text) (out : List Token) : Text × List Token :=
  let (buf, rest) := scanWhile isBareChar (tokenLenMax - 1) line
  (rest, if buf.length > 0 then addToken out .word buf else out)

/-- One round of the loop of `sosh_lex_line`: nothing when the round breaks out of the loop. -/
def lexRound (line : Text) (out : List Token) : Option (Text × List Token) :=
  match line.dropWhile isSpace with
  | [] => none
  | c :: rest =>
    if c = '#' then none
    else if c = '"' then some (lexString rest out)
    else if c = '$' then some (lexDollar rest out)
    else if c = '=' && rest.head? == some '=' then some (rest.tail, addToken out .opEq "==".toList)
    else if c = '!' && rest.head? == some '=' then some (rest.tail, addToken out .opNeq "!=".toList)
    else if c = '<' && rest.head? == some '=' then some (rest.tail, addToken out .opLte "<=".toList)
    else if c = '>' && rest.head? == some '=' then some (rest.tail, addToken out .opGte ">=".toList)
    else if c = '<' then some (rest, addToken out .opLt "<".toList)
    else if c = '>' then some (rest, addToken out .opGt ">".toList)
    else if c = '=' then some (rest, addToken out .opAssign "=".toList)
    else if c = '+' then some (rest, addToken out .opPlus "+".toList)
    else if c = '-' && !(rest.head?.any isWordChar) then
      some (rest, addToken out .opMinus "-".toList)
    else some (lexWord (c :: rest) out)

/-- At most so many rounds of `sosh_lex_line`; nothing when the line goes on behind them. -/
def lexLoop : Nat → Text → List Token → Option (List Token)
  | _, [], out => some out
  | 0, _ :: _, _ => none
  | rounds + 1, c :: line, out =>
    match lexRound (c :: line) out with
    | none => some out
    | some (rest, out) => lexLoop rounds rest out

/-- `sosh_lex_line`: the tokens, or nothing when the loop does not end.

    A round that consumes nothing is repeated forever, so a line of `n` characters is done after `n`
    rounds or never. -/
def soshLexLine (line : Text) : Option (List Token) := lexLoop line.length line []

end Sosh
