import SecureOS.FsModel

/-! # Paths of the console

`normalize_absolute_path` of `kernel/core/console.c`: the components of a path are put into a
buffer of fixed size one by one, and `..` takes the last one out again. -/

namespace ConsolePath

open Sof (Byte)
open Fs (fsPathIsSeparator)

/-- A C string, without its terminator. -/
abbrev Path := List Byte

def byte (c : Char) : Byte := BitVec.ofNat 8 c.toNat

def text (s : String) : Path := s.toList.map byte

/-- `append_string` of the console, into a buffer of `size` bytes. -/
def appendString (out : Path) (size : Nat) (src : Path) : Path :=
  out ++ src.take (size - 1 - out.length)

/-- The runs of bytes between separators; each takes at least one byte of the path. -/
def pathWords : (fuel : Nat) → Path → List Path
  | 0, _ => []
  | fuel + 1, cursor =>
    let cursor := cursor.dropWhile fsPathIsSeparator
    if cursor = [] then []
    else cursor.takeWhile (fun c => !fsPathIsSeparator c)
      :: pathWords fuel (cursor.dropWhile (fun c => !fsPathIsSeparator c))

/-- The case `..` of `normalize_absolute_path`: `out` without its last component. -/
def popComponent (out : Path) : Path :=
  let rest := (out.drop 1).reverse.dropWhile (· ≠ byte '/')
  out.take 1 ++ (rest.drop 1).reverse

/-- A component is put behind `out`, in a buffer of `size` bytes. -/
def pushComponent (size : Nat) (out component : Path) : Path :=
  let out :=
    if out.length + 1 < size ∧ out.getLast? ≠ some (byte '/') then out ++ [byte '/'] else out
  appendString out size component

/-- One turn of the loop of `normalize_absolute_path`; a component has 31 bytes at most. -/
def normalizeStep (size : Nat) (out word : Path) : Path :=
  let component := word.take 31
  if component = text "." then out
  else if component = text ".." then popComponent out
  else pushComponent size out component

/-- `normalize_absolute_path` into a buffer of `size` bytes. -/
def normalizeAbsolutePath (size : Nat) (input : Path) : Path :=
  (pathWords input.length input).foldl (normalizeStep size) (text "/")

end ConsolePath
