import SecureOS.ConsolePathModel

/-! # The cc driver

`user/apps/cc/main.c`: the argument line, the checks of the paths, and the order in which a
compilation writes files.  TinyCC, the manifest resolver and the packager are answers
(`Toolchain`); what the driver does with each, and which file it may have written, is the
code's.

A path of an application reaches the filesystem through `resolve_path` of
`kernel/core/console.c`, into a buffer of `APP_TOKEN_MAX` bytes
(`kernel/user/launcher_exec.c`); the name service behind it is the one of `FsModel`. -/

namespace Cc

open ConsolePath
open Sof (Byte)
open Fs (Device Name83 FsError fsPathIsSeparator fsResolveParentAndLeaf)

/-! ## How a path reaches the filesystem -/

/-- `resolve_path` of the console, with its effective current directory. -/
def resolvePath (cwd path : Path) (size : Nat) : Path :=
  match path with
  | [] => cwd.take (size - 1)
  | c :: _ =>
    if fsPathIsSeparator c then normalizeAbsolutePath size (path.take 127)
    else
      let raw := cwd.take 127
      let raw := if raw.length + 1 < 128 ∧ raw.getLast? ≠ some (byte '/')
        then raw ++ [byte '/'] else raw
      normalizeAbsolutePath size (appendString raw 128 path)

/-- `APP_TOKEN_MAX`. -/
def appTokenMax : Nat := 64

/-- The directory entry an application's path stands for: its directory and its name there. -/
def entryOf (dev : Device) (cwd path : Path) : Except FsError (Nat × Name83) :=
  fsResolveParentAndLeaf dev (resolvePath cwd path appTokenMax)

/-! ## Paths of the driver -/

/-- `CC_PATH_MAX`. -/
def ccPathMax : Nat := 128

/-- The loop of `cc_stem_len` at index `i`. -/
def stemLoop (len : Nat) : (i dot : Nat) → Path → Nat
  | _, dot, [] => dot
  | i, dot, c :: rest =>
    if c = byte '/' ∨ c = byte '\\' then stemLoop len (i + 1) len rest
    else if c = byte '.' then stemLoop len (i + 1) i rest
    else stemLoop len (i + 1) dot rest

def ccStemLen (path : Path) : Nat := stemLoop path.length 0 path.length path

/-- `cc_swap_ext` into a buffer of `cap` bytes. -/
def ccSwapExt (cap : Nat) (path ext : Path) : Option Path :=
  let stem := ccStemLen path
  if stem + ext.length + 2 > cap then none else some (path.take stem ++ byte '.' :: ext)

def isLower (c : Byte) : Bool := 0x61 ≤ c && c ≤ 0x7A

def isUpper (c : Byte) : Bool := 0x41 ≤ c && c ≤ 0x5A

def isDigit (c : Byte) : Bool := 0x30 ≤ c && c ≤ 0x39

/-- The last three bytes, the last one first, spell `bin`. -/
def endsInBin : Path → Bool
  | n :: i :: b :: _ =>
    (b == byte 'b' || b == byte 'B') && (i == byte 'i' || i == byte 'I')
      && (n == byte 'n' || n == byte 'N')
  | _ => false

/-- The loop of `cc_valid_output_path`; `back` is what has been passed, backwards. -/
def validLoop (stem ext : Nat) (dot : Bool) (back : Path) : Path → Bool
  | [] => !(stem == 0 || stem > 8 || ext > 3) && dot && ext == 3 && endsInBin back
  | c :: rest =>
    if c = byte '/' then
      if stem = 0 ∨ stem > 8 ∨ ext > 3 then false else validLoop 0 0 false (c :: back) rest
    else if c = byte '.' then
      if dot then false else validLoop stem ext true (c :: back) rest
    else if isLower c || isUpper c || isDigit c || c == byte '_' || c == byte '-' then
      if dot then validLoop stem (ext + 1) dot (c :: back) rest
      else validLoop (stem + 1) ext dot (c :: back) rest
    else false

def ccValidOutputPath : Path → Bool
  | [] => false
  | c :: rest => if c ≠ byte '/' then false else validLoop 0 0 false [c] rest

/-- The upper case that `cc_same_path` compares. -/
def upper (c : Byte) : Byte := if isLower c then c - 0x61 + 0x41 else c

def ccSamePath : Path → Path → Bool
  | a :: left, b :: right => if upper a ≠ upper b then false else ccSamePath left right
  | [], [] => true
  | _, _ => false

/-- A compilation the driver accepted. -/
structure Job where
  input : Path
  output : Path
  manifest : Option Path
deriving DecidableEq

def ccPathsCollide (job : Job) : Bool :=
  match ccSwapExt ccPathMax job.output (text "elf") with
  | none => true
  | some elf =>
    ccSamePath job.input job.output || ccSamePath job.input elf
      || job.manifest.any (fun m => ccSamePath m job.output || ccSamePath m elf)

/-! ## The compilation -/

/-- The `CC_EXIT_*` classes. -/
inductive ExitCode where
  | ok | usage | compile | link | io | arena | internal
deriving DecidableEq

/-- The calls of `cc_compile` that are not modelled, in their order. -/
inductive Call where
  | tccNew | setNostdlib | setOutputType | setLinkOptions | addInput | addArchives | outputFile
  | elfBuffer | readStagedElf | manifestBuffer | resolveManifest | sofSize | sofBuffer | sofWrap
  | writeOutput

/-- What these calls answer.  A call that failed may still have written its file. -/
structure Toolchain where
  succeeds : Call → Bool
  inputUnreadable : Bool
  outputSawError : Bool
  sidecarWritten : Bool

/-- A call with the exit code and text of its failure, and the files it writes. -/
structure Stage where
  call : Call
  exit : ExitCode
  message : String
  writes : List Path

/-- How a run ends: exit code, console text without audit lines, and files written, in order. -/
structure Outcome where
  exit : ExitCode
  console : List String
  written : List Path
deriving DecidableEq

/-- `CC_MANIFEST_SIDECAR_SUFFIX`. -/
def sidecarPath (output : Path) : Path := output ++ text ".manifest.json"

/-- The calls of `cc_compile` behind the preflight, with the staging path. -/
def stages (t : Toolchain) (job : Job) (elf : Path) : List Stage :=
  [⟨.tccNew, .arena, "cc: compiler initialization failed (arena exhausted)\n", []⟩,
   ⟨.setNostdlib, .internal, "", []⟩,
   ⟨.setOutputType, .internal, "", []⟩,
   ⟨.setLinkOptions, .internal, "", []⟩,
   ⟨.addInput, if t.inputUnreadable then .io else .compile, "cc: compilation failed\n", []⟩,
   ⟨.addArchives, .link, "cc: required runtime archive unavailable\n", []⟩,
   ⟨.outputFile, if t.outputSawError then .compile else .link,
     "cc: output generation failed\n", [elf]⟩,
   ⟨.elfBuffer, .arena, "", []⟩,
   ⟨.readStagedElf, .io, "cc: staged ELF unreadable or exceeds size limit\n", []⟩,
   ⟨.manifestBuffer, .arena, "", []⟩,
   ⟨.resolveManifest, .io, "cc: manifest resolution failed\n",
     if t.sidecarWritten ∧ job.manifest = none then [sidecarPath job.output] else []⟩,
   ⟨.sofSize, .internal, "", []⟩,
   ⟨.sofBuffer, .arena, "", []⟩,
   ⟨.sofWrap, .internal, "cc: SOF packaging failed\n", []⟩,
   ⟨.writeOutput, .io, "cc: could not write output SOF\n", [job.output]⟩]

/-- The calls in order, up to the first that fails; at the end the staging file is emptied
    by `unlink`. -/
def runStages (t : Toolchain) (elf : Path) : List Stage → List Path → Outcome
  | [], written => ⟨.ok, [], written ++ [elf]⟩
  | s :: rest, written =>
    if t.succeeds s.call then runStages t elf rest (written ++ s.writes)
    else ⟨s.exit, [s.message], written ++ s.writes⟩

def ccCompile (t : Toolchain) (job : Job) : Outcome :=
  if ccPathsCollide job then ⟨.usage, ["cc: output collides with source or manifest\n"], []⟩
  else
    match ccSwapExt ccPathMax job.output (text "elf") with
    | none => ⟨.usage, ["cc: output path too long\n"], []⟩
    | some elf => runStages t elf (stages t job elf) []

/-! ## The argument line -/

def ccIsSpace (c : Byte) : Bool :=
  c == byte ' ' || c == byte '\t' || c == byte '\n' || c == byte '\r'

/-- `cc_tokenize` with `CC_ARGV_MAX` slots: the runs of bytes between spaces. -/
def ccTokenize (line : Path) : Option (List Path) :=
  let argv := (line.splitOnP ccIsSpace).filter (· ≠ [])
  if argv.length > 16 then none else some argv

/-- What the argument loop of `main` has seen so far. -/
structure Args where
  input : Option Path
  output : Path
  manifest : Path
  includes : List Path

/-- The argument loop of `main`; an error is the text it prints before it exits. -/
def argsLoop : Args → List Path → Except String Args
  | a, [] => .ok a
  | a, tok :: rest =>
    if tok = text "-o" then
      match rest with
      | [] => .error "cc: -o requires a path\n"
      | value :: rest =>
        if value.length ≥ ccPathMax then .error "cc: output path too long\n"
        else argsLoop { a with output := value } rest
    else if tok = text "-I" then
      match rest with
      | [] => .error "cc: -I requires a path\n"
      | value :: rest =>
        if a.includes.length ≥ 8 then .error "cc: too many -I paths\n"
        else argsLoop { a with includes := a.includes ++ [value] } rest
    else if tok = text "--manifest" then
      match rest with
      | [] => .error "cc: --manifest requires a path\n"
      | value :: rest =>
        if value.length ≥ ccPathMax then .error "cc: manifest path too long\n"
        else argsLoop { a with manifest := value } rest
    else if tok.head? = some (byte '-') then .error "cc: unknown flag\n"
    else
      match a.input with
      | some _ => .error "cc: unexpected extra argument\n"
      | none =>
        if tok.length ≥ ccPathMax then .error "cc: input path too long\n"
        else argsLoop { a with input := some tok } rest

/-- `cc_print_help`. -/
def helpText : List String :=
  ["usage: cc <input.c> -o <output.bin> [-I <dir>]... [--manifest <path>]\n",
   "       cc --help\n", "       cc --version\n", "\n",
   "compiles <input.c> inside SecureOS with TinyCC and writes an\n",
   "unsigned SOF container to <output.bin>; run the result once\n",
   "after granting the unsigned-execution prompt.\n"]

/-- The first token that asks for the help or the version. -/
def earlyExit : List Path → Option Outcome
  | [] => none
  | tok :: rest =>
    if tok = text "--help" ∨ tok = text "-h" then some ⟨.ok, helpText, []⟩
    else if tok = text "--version" then some ⟨.ok, ["cc 0.1.0\n"], []⟩
    else earlyExit rest

/-- The checks of `main` in front of `cc_compile`: a job, or how the driver ends. -/
def parseArgs (line : Path) : Except Outcome Job :=
  match ccTokenize line with
  | none => .error ⟨.usage, ["cc: too many arguments\n"], []⟩
  | some [] => .error ⟨.usage, helpText, []⟩
  | some argv =>
    match earlyExit argv with
    | some outcome => .error outcome
    | none =>
      match argsLoop ⟨none, [], [], []⟩ argv with
      | .error message => .error ⟨.usage, [message], []⟩
      | .ok a =>
        match a.input with
        | none => .error ⟨.usage, helpText, []⟩
        | some input =>
          if a.output = [] then .error ⟨.usage, helpText, []⟩
          else if !ccValidOutputPath a.output then
            .error ⟨.usage, ["cc: output path must be an absolute 8.3 .bin path\n"], []⟩
          else
            .ok ⟨input, a.output, if a.manifest = [] then none else some a.manifest⟩

/-- `main` on an argument line. -/
def ccMain (t : Toolchain) (line : Path) : Outcome :=
  match parseArgs line with
  | .error outcome => outcome
  | .ok job => ccCompile t job

end Cc
