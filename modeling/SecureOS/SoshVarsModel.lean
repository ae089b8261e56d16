import Mathlib.Algebra.Ring.Nat
import SecureOS.SoshLexerModel
import Mathlib.Data.Fin.Tuple.Basic

/-! # The sosh variable table

`user/libs/soshlib/sosh_vars.c`: 64 named variables, the positional arguments, `$@` and `$?`.

Names are kept as strings.  Values are kept as the cells of their buffers, with what an earlier,
longer value left behind the terminator: a substring is copied cell by cell.  An `int` is 32
bits wide and wraps. -/

namespace Sosh

/-- `SOSH_VAR_MAX`. -/
def varMax : Nat := 64

/-- `SOSH_VAR_NAME_MAX`. -/
def varNameMax : Nat := 32

/-- `SOSH_VAR_VALUE_MAX`. -/
def varValueMax : Nat := 256

/-- The cells of a character buffer. -/
abbrev Buf := List Char

/-- The string a buffer holds: the cells before the first terminator. -/
def cstr (buf : Buf) : Text := buf.takeWhile (· ≠ '\x00')

/-- `str_copy` into a buffer of `max` cells; the cells behind the terminator stay. -/
def strCopy (dst : Buf) (src : Text) (max : Nat) : Buf :=
  let text := src.take (max - 1)
  text ++ '\x00' :: dst.drop (text.length + 1)

/-- The decimal digits of a positive number, the lowest `room` of them, in reading order. -/
def decimalDigits : Nat → Int32 → Text
  | 0, _ => []
  | room + 1, val =>
    if 0 < val then decimalDigits room (val / 10) ++ [Char.ofNat (48 + (val % 10).toNatClampNeg)]
    else []

/-- `int_to_str` into a buffer of `bufSize` cells. -/
def intToStr (val : Int32) (bufSize : Nat) : Text :=
  let magnitude := if val < 0 then -val else val
  let digits := if magnitude = 0 then ['0'] else decimalDigits 15 magnitude
  (if val < 0 then '-' :: digits else digits).take (bufSize - 1)

/-- `sosh_var_entry_t`. -/
structure VarEntry where
  name : Text
  value : Buf
  used : Bool
deriving DecidableEq, Repr

/-- `sosh_var_table_t`. -/
structure VarTable where
  entries : Fin varMax → VarEntry
  args : Fin 10 → Buf
  argCount : Nat
  allArgs : Buf
  lastExit : Buf

/-- `sosh_vars_init`: only the first cell of each buffer is written. -/
def soshVarsInit (tbl : VarTable) : VarTable where
  entries := fun i => ⟨[], strCopy (tbl.entries i).value [] 1, false⟩
  args := fun i => strCopy (tbl.args i) [] 1
  argCount := 0
  allArgs := strCopy tbl.allArgs [] 1
  lastExit := strCopy tbl.lastExit ['0'] 2

/-- The first used entry of that name. -/
def findVar (tbl : VarTable) (name : Text) : Option (Fin varMax) :=
  Fin.find? (fun i => (tbl.entries i).used && (tbl.entries i).name == name)

/-- Write one entry. -/
def VarTable.setEntry (tbl : VarTable) (i : Fin varMax) (e : VarEntry) : VarTable :=
  { tbl with entries := Function.update tbl.entries i e }

/-- `sosh_vars_set`: the table, and whether there was room; a name is cut when stored, compared in
    full. -/
def soshVarsSet (tbl : VarTable) (name value : Text) : Bool × VarTable :=
  match findVar tbl name with
  | some i =>
    let e := tbl.entries i
    (true, tbl.setEntry i { e with value := strCopy e.value value varValueMax })
  | none =>
    match Fin.find? (fun i => !(tbl.entries i).used) with
    | none => (false, tbl)
    | some i =>
      (true, tbl.setEntry i
        ⟨name.take (varNameMax - 1), strCopy (tbl.entries i).value value varValueMax, true⟩)

/-- `sosh_vars_get`: the cells from the returned pointer on; an empty literal has none. -/
def soshVarsGet (tbl : VarTable) (name : Text) : Buf :=
  if name = ['?'] then tbl.lastExit
  else if name = ['@'] then tbl.allArgs
  else
    match name with
    | [c] =>
      if '0' ≤ c ∧ c ≤ '9' then
        let idx := c.toNat - '0'.toNat
        if idx < tbl.argCount then tbl.args (Fin.ofNat 10 idx) else []
      else (findVar tbl name).elim [] (fun i => (tbl.entries i).value)
    | _ => (findVar tbl name).elim [] (fun i => (tbl.entries i).value)

/-- The words of a text, separated by blanks and tabs. -/
def words (s : Text) : List Text := (s.splitOnP isSpace).filter (· ≠ [])

/-- `sosh_vars_set_args`: `$0` is the script, `$1` to `$9` the words; without arguments `$@` stays.
    -/
def soshVarsSetArgs (tbl : VarTable) (scriptName : Text) (argsStr : Option Text) : VarTable :=
  let argv := scriptName :: (argsStr.elim [] words).take 9
  { tbl with
    args := fun i => (argv[i]?).elim (tbl.args i) (fun a => strCopy (tbl.args i) a varValueMax)
    argCount := argv.length
    allArgs := argsStr.elim tbl.allArgs (fun s => strCopy tbl.allArgs s varValueMax) }

def soshVarsSetExitCode (tbl : VarTable) (exitCode : Int32) : VarTable :=
  { tbl with lastExit := strCopy tbl.lastExit (intToStr exitCode 16) 16 }

/-- `sosh_vars_substring` into a buffer of `outSize` cells: the string the buffer then holds. -/
def soshVarsSubstring (tbl : VarTable) (name : Text) (start length : Int32) (outSize : Nat) :
    Text :=
  let val := soshVarsGet tbl name
  let valLen := Int32.ofNat (cstr val).length
  let start := if start < 0 then 0 else start
  if valLen ≤ start then []
  else
    let copyLen :=
      if length < 0 then valLen - start
      -- the sum of two numbers the script chose may wrap
      else if valLen < start + length then valLen - start
      else length
    let copyLen := if Int32.ofNat outSize ≤ copyLen then Int32.ofNat outSize - 1 else copyLen
    cstr ((val.drop start.toNatClampNeg).take copyLen.toNatClampNeg)

def soshVarsLength (tbl : VarTable) (name : Text) : Int32 :=
  Int32.ofNat (cstr (soshVarsGet tbl name)).length

end Sosh
