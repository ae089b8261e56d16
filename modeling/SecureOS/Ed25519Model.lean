import Mathlib.Data.ZMod.Basic

/-! # Ed25519

`ed25519_verify` of `kernel/crypto/ed25519.c`.  A `gf` is the residue its sixteen limbs stand
for, and 32 bytes are the number they write, the lowest first. -/

namespace Ed25519

def fieldSize : Nat := 2 ^ 255 - 19

abbrev Gf := ZMod fieldSize

def d : Gf := 0x52036cee2b6ffe738cc740797779e89800700a4d4141d8ab75eb4dca135978a3

def d2 : Gf := 0x2406d9dc56dffce7198e80f2eef3d13000e0149a8283b156ebd69b9426b2f159

def x : Gf := 0x216936d3cd6e53fec0a4e231fdd6dc5c692cc7609525a7b2c9562d608f25d51a

def y : Gf := 0x6666666666666666666666666666666666666666666666666666666666666658

def iElem : Gf := 0x2b8324804fc1df0b2b4d00993dfbd7a72f431806ad2fe478c4ee1b274a0ea0b0

/-- The loop of `inv25519` and `pow2523`: `n` squarings, with a product by the base after each but
    those that `skip` counts from the end. -/
def powLoop (n : Nat) (skip : List Nat) (a : Gf) : Gf :=
  (List.range n).reverse.foldl (fun c i => if i ∈ skip then c * c else c * c * a) a

def inv25519 : Gf → Gf := powLoop 254 [2, 4]

def pow2523 : Gf → Gf := powLoop 251 [1]

def par25519 (a : Gf) : Bool := a.val % 2 = 1

def unpack25519 (p : BitVec 256) : Gf := (p.toNat % 2 ^ 255 : Nat)

/-- `ge_p3`: an extended point. -/
structure Point where
  x : Gf
  y : Gf
  z : Gf
  t : Gf

def addPoints (p q : Point) : Point :=
  let a := (p.y - p.x) * (q.y - q.x)
  let b := (p.x + p.y) * (q.x + q.y)
  let c := p.t * q.t * d2
  let d := p.z * q.z + p.z * q.z
  let e := b - a
  let f := d - c
  let g := d + c
  let h := b + a
  ⟨e * f, h * g, g * f, e * h⟩

def packPoint (p : Point) : BitVec 256 :=
  let zi := inv25519 p.z
  BitVec.ofNat 256 (p.y * zi).val ^^^ (if par25519 (p.x * zi) then 1#256 <<< 255 else 0#256)

def unpackneg (p : BitVec 256) : Option Point :=
  let y := unpack25519 p
  let num := y * y - 1
  let den := 1 + y * y * d
  let den2 := den * den
  let t := pow2523 (den2 * den2 * den2 * num * den) * num * den * den * den
  let root := if t * t * den ≠ num then t * iElem else t
  if root * root * den ≠ num then none
  else
    let x := if par25519 root = p.msb then 0 - root else root
    some ⟨x, y, 1, x * y⟩

def neutral : Point := ⟨0, 1, 1, 0⟩

/-- Double and add, from the highest bit. -/
def scalarmult (s : BitVec 256) (q : Point) : Point :=
  (List.range 256).reverse.foldl (fun p i =>
    let p := addPoints p p
    if s.getLsbD i then addPoints p q else p) neutral

def scalarmultBase (s : BitVec 256) : Point := scalarmult s ⟨x, y, 1, x * y⟩

inductive Result
  | ok
  | errInvalidKey
  | errInvalidSignature
  | errVerifyFailed
deriving DecidableEq

structure Signature where
  r : BitVec 256
  s : BitVec 256

/-- The signature is checked with any hash of R, the key and the message, reduced to 32 bytes. -/
def ed25519Verify (hash : BitVec 256 → BitVec 256 → List (BitVec 8) → BitVec 256)
    (signature : Option Signature) (message : List (BitVec 8)) (publicKey : Option (BitVec 256)) :
    Result :=
  match signature, publicKey with
  | some ⟨r, s⟩, some publicKey =>
    if s.extractLsb' 248 8 &&& 0xE0#8 ≠ 0#8 then .errInvalidSignature
    else
      match unpackneg publicKey with
      | none => .errInvalidKey
      | some aNeg =>
        let h := hash r publicKey message
        let check := packPoint (addPoints (scalarmultBase s) (scalarmult h aNeg))
        if check ≠ r then .errVerifyFailed else .ok
  | _, _ => .errInvalidSignature

end Ed25519
