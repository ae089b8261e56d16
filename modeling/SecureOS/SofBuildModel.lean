import Mathlib.Algebra.Ring.Nat
import SecureOS.SofModel
import SecureOS.Lib.ByteStoreProofs

/-! # Building a container

`sof_build` of `kernel/format/sof.c` writes a container into a buffer: it adds up the sizes,
clears that many bytes, writes the header, one entry per given string, and the payload.
`sof_build_signed` appends a certificate of `kernel/crypto/cert.c` and a signature over the
payload.  `sofpack_wrap` of `user/libs/sofpack` is the builder for programs outside the kernel.

A buffer is a memory and a size.  Sizes are `size_t`, and what is written into the header is cut
to the width of its field.  Strings are the bytes in front of their NUL, an absent one is a null
pointer; a payload without bytes and a null payload are one.  Output pointers are given. -/

namespace Sof

open ByteStore

def sofWriteU16 (buf : Memory) (off : Nat) (val : BitVec 16) : Memory :=
  store buf off [val.setWidth 8, (val >>> 8).setWidth 8]

def sofWriteU32 (buf : Memory) (off : Nat) (val : BitVec 32) : Memory :=
  store buf off [val.setWidth 8, (val >>> 8).setWidth 8, (val >>> 16).setWidth 8,
    (val >>> 24).setWidth 8]

/-- `sof_build_params_t`, and `sofpack_build_params_t`, which has the same fields. -/
structure BuildParams where
  fileType : Nat
  name : Option (List Byte)
  description : Option (List Byte)
  author : Option (List Byte)
  version : Option (List Byte)
  date : Option (List Byte)
  icon : Option (List Byte)
  syscallId : Option (List Byte)
  elfPayload : List Byte
deriving DecidableEq, Repr

/-- The metadata keys with their strings, in the order both builders take them. -/
def BuildParams.items (params : BuildParams) : List (Byte × Option (List Byte)) :=
  [(0x01, params.name), (0x02, params.description), (0x03, params.author),
   (0x04, params.version), (0x05, params.date), (0x06, params.icon), (0x20, params.syscallId)]

/-- The strings that are given, with their keys. -/
def given (items : List (Byte × Option (List Byte))) : List (Byte × List Byte) :=
  items.filterMap (fun item => item.2.map (Prod.mk item.1))

def BuildParams.strings (params : BuildParams) : List (Byte × List Byte) := given params.items

/-- The dry run of `sof_build`: the size of the metadata. -/
def dryMetaSize (strings : List (Byte × List Byte)) : Nat :=
  (strings.map (fun s => 2 + s.2.length)).sum

/-- The header both builders write, without a signature. -/
def writeHeader (buf : Memory)
    (fileType totalSize metaStart metaCount metaSize payloadStart payloadSize : Nat) : Memory :=
  let buf := store buf 0 sofMagic
  let buf := store buf 4 [1]
  let buf := store buf 5 [BitVec.ofNat 8 fileType]
  let buf := sofWriteU16 buf 6 0
  let buf := sofWriteU32 buf 8 (BitVec.ofNat 32 totalSize)
  let buf := sofWriteU32 buf 12 (BitVec.ofNat 32 metaStart)
  let buf := sofWriteU16 buf 16 (BitVec.ofNat 16 metaCount)
  let buf := sofWriteU16 buf 18 (BitVec.ofNat 16 metaSize)
  let buf := sofWriteU32 buf 20 (BitVec.ofNat 32 payloadStart)
  let buf := sofWriteU32 buf 24 (BitVec.ofNat 32 payloadSize)
  let buf := sofWriteU32 buf 28 0
  sofWriteU32 buf 32 0

/-- `sof_write_meta_entry`: the buffer after it and the number of bytes written. -/
def sofWriteMetaEntry (buf : Memory) (bufSize cursor : Nat) (key : Byte) (value : List Byte) :
    Memory × Nat :=
  let valueLen := min value.length 255
  if cursor + 2 + valueLen > bufSize then (buf, 0)
  else
    (store buf cursor (key :: BitVec.ofNat 8 valueLen :: value.take valueLen), 2 + valueLen)

/-- The entries of the given strings, one behind the other. -/
def sofWriteMeta (bufSize : Nat) : (buf : Memory) → (strings : List (Byte × List Byte)) →
    (cursor : Nat) → Memory
  | buf, [], _ => buf
  | buf, s :: strings, cursor =>
    let written := sofWriteMetaEntry buf bufSize cursor s.1 s.2
    sofWriteMeta bufSize written.1 strings (cursor + written.2)

/-- `sof_build`: the buffer after it and the total size. -/
def sofBuild (params : BuildParams) (outBuffer : Memory) (outBufferSize : Nat) :
    Except SofResult (Memory × Nat) :=
  if params.elfPayload = [] then .error .noPayload
  else if params.fileType ≠ 1 ∧ params.fileType ≠ 2 then .error .invalidType
  else
    let metaStart := headerSize
    let metaWritten := dryMetaSize params.strings
    let payloadStart := metaStart + metaWritten
    let totalSize := payloadStart + params.elfPayload.length
    if totalSize > outBufferSize then .error .bufferTooSmall
    else
      let buf := store outBuffer 0 (List.replicate totalSize 0)
      let buf := writeHeader buf params.fileType totalSize metaStart params.strings.length
        metaWritten payloadStart params.elfPayload.length
      let buf := sofWriteMeta outBufferSize buf params.strings metaStart
      .ok (store buf payloadStart params.elfPayload, totalSize)

/-- The checks, and what signing adds to them: the public part `ed25519_create_keypair` gives a
    seed, and `ed25519_sign` of a message with a public and a private key.  Keys, key hashes and
    signatures have the lengths of their arrays. -/
structure SigningCrypto extends Crypto where
  createPublicKey : List Byte → List Byte
  ed25519Sign : (message publicKey privateKey : List Byte) → List Byte
  publicKey_length : ∀ seed, (createPublicKey seed).length = 32
  signature_length : ∀ message publicKey privateKey,
    (ed25519Sign message publicKey privateKey).length = signatureSize
  hash_length : ∀ publicKey, (publicKeyHash publicKey).length = 32

/-- The private part `ed25519_create_keypair` gives a seed. -/
def SigningCrypto.createPrivateKey (crypto : SigningCrypto) (seed : List Byte) : List Byte :=
  seed ++ crypto.createPublicKey seed

def certBuild (crypto : SigningCrypto)
    (issuerPublicKey issuerPrivateKey subjectPublicKey : List Byte) : Cert where
  magic := certMagic
  issuerKeyHash := crypto.publicKeyHash issuerPublicKey
  subjectPublicKey := subjectPublicKey
  signature := crypto.ed25519Sign
    (certMagic ++ crypto.publicKeyHash issuerPublicKey ++ subjectPublicKey)
    issuerPublicKey issuerPrivateKey

def certSerialize (cert : Cert) : List Byte :=
  cert.magic ++ cert.issuerKeyHash ++ cert.subjectPublicKey ++ cert.signature

def sofBuildSigned (crypto : SigningCrypto) (params : BuildParams)
    (signingPrivateKey signingPublicKey certData : List Byte) (outBuffer : Memory)
    (outBufferSize : Nat) : Except SofResult (Memory × Nat) :=
  if certData.length < certTotalSize then .error .invalidSize
  else
    match sofBuild params outBuffer outBufferSize with
    | .error e => .error e
    | .ok (buf, unsignedSize) =>
      let sigSectionSize := certTotalSize + signatureSize
      let totalSignedSize := unsignedSize + sigSectionSize
      if totalSignedSize > outBufferSize then .error .bufferTooSmall
      else
        let payloadHash := crypto.sha512Hash
          (bytesAt buf (sofReadU32 buf 20).toNat (sofReadU32 buf 24).toNat)
        let privKey := signingPrivateKey.take 32 ++ signingPublicKey.take 32
        let signature := crypto.ed25519Sign payloadHash signingPublicKey privKey
        let buf := store buf unsignedSize (certData.take certTotalSize)
        let buf := store buf (unsignedSize + certTotalSize) signature
        let buf := sofWriteU32 buf 8 (BitVec.ofNat 32 totalSignedSize)
        let buf := sofWriteU32 buf 28 (BitVec.ofNat 32 unsignedSize)
        let buf := sofWriteU32 buf 32 (BitVec.ofNat 32 sigSectionSize)
        .ok (buf, totalSignedSize)

/-- `sofpack_result_t`, without OK. -/
inductive SofpackError where
  | invalidArg
  | noPayload
  | invalidType
  | bufferTooSmall
  | metaTooLong
deriving DecidableEq, Repr

def sofpackTlvLen : Option (List Byte) → Nat
  | none => 0
  | some value => 2 + min value.length 255

/-- `sofpack_write_tlv`: the buffer after it and the number of bytes written. -/
def sofpackWriteTlv (buf : Memory) (cursor : Nat) (key : Byte) : Option (List Byte) → Memory × Nat
  | none => (buf, 0)
  | some value =>
    let vlen := min value.length 255
    (store buf cursor (key :: BitVec.ofNat 8 vlen :: value.take vlen), 2 + vlen)

/-- The entries of all strings, one behind the other. -/
def sofpackWriteMeta : (buf : Memory) → (items : List (Byte × Option (List Byte))) →
    (cursor : Nat) → Memory
  | buf, [], _ => buf
  | buf, item :: items, cursor =>
    let written := sofpackWriteTlv buf cursor item.1 item.2
    sofpackWriteMeta written.1 items (cursor + written.2)

/-- `sofpack_layout`: the total size, the size of the metadata and the number of entries. -/
def sofpackLayout (params : BuildParams) : Except SofpackError (Nat × Nat × Nat) :=
  if params.elfPayload = [] then .error .noPayload
  else if params.fileType ≠ 1 ∧ params.fileType ≠ 2 then .error .invalidType
  else
    let lengths := params.items.map (fun item => sofpackTlvLen item.2)
    let metaSize := lengths.sum
    let metaCount := lengths.countP (fun add => 0 < add)
    .ok (headerSize + metaSize + params.elfPayload.length, metaSize, metaCount)

def sofpackWrapSize (params : BuildParams) : Except SofpackError Nat :=
  match sofpackLayout params with
  | .error e => .error e
  | .ok (total, _, _) => .ok total

/-- `sofpack_wrap`: the buffer after it and the total size. -/
def sofpackWrap (params : BuildParams) (outBuffer : Memory) (outBufferSize : Nat) :
    Except SofpackError (Memory × Nat) :=
  match sofpackLayout params with
  | .error e => .error e
  | .ok (total, metaSize, metaCount) =>
    if total > outBufferSize then .error .bufferTooSmall
    else
      let payloadOff := headerSize + metaSize
      let buf := store outBuffer 0 (List.replicate total 0)
      let buf := writeHeader buf params.fileType total headerSize metaCount metaSize payloadOff
        params.elfPayload.length
      let buf := sofpackWriteMeta buf params.items headerSize
      .ok (store buf payloadOff params.elfPayload, total)

end Sof
