import SecureOS.SofModel

/-! # The name server client

`dns_build_query` writes the labels of a host one after the other, each behind a byte with its
length.  A host is the list of its bytes. -/

namespace Dns

open Sof (Byte)
open List

/-- `DNS_QUERY_MAX`. -/
def dnsQueryMax : Nat := 256

def dot : Byte := 0x2E

/-- The loop of `dns_build_query` over the labels; each round takes at least one byte. -/
def dnsLabels (bufSize : Nat) :
    (fuel : Nat) → (cursor : List Byte) → (pos : Nat) → Option (List Byte)
  | 0, _, _ => some []
  | fuel + 1, cursor, pos =>
    if cursor ≠ [] ∧ pos + 2 < bufSize then
      let label := cursor.takeWhile (· != dot)
      if bufSize < pos + 1 + label.length then none
      else
        (dnsLabels bufSize fuel (cursor.drop (label.length + 1)) (pos + 1 + label.length)).map
          (BitVec.ofNat 8 label.length :: label ++ ·)
    else some []

/-- The flags ask for recursion, and there is one question. -/
def dnsHeader (txid : BitVec 16) : List Byte :=
  [(txid >>> 8).setWidth 8, txid.setWidth 8, 0x01, 0, 0, 1, 0, 0, 0, 0, 0, 0]

/-- `dns_build_query`; without a value it returns 0. -/
def dnsBuildQuery (hostname : List Byte) (bufSize : Nat) (txid : BitVec 16) : Option (List Byte) :=
  if bufSize < 12 then none
  else
    match dnsLabels bufSize hostname.length hostname 12 with
    | none => none
    | some name =>
      if bufSize < 12 + name.length + 5 then none
      else some (dnsHeader txid ++ (name ++ [0, 0, 1, 0, 1]))

end Dns
