import Mathlib.Data.List.Basic

/-! # The SecureOS file format and its signature

`kernel/format/sof.c` reads a container: a header of 36 bytes, entries of
metadata, the payload and, at the end, a certificate and a signature over the
payload.  `kernel/crypto/cert.c` reads and checks the certificate.

A buffer is the memory from its first byte on, and its length is a number of
its own: an index past the length reads what lies behind the buffer, as it
does in the code.  Sums of header fields are sums of 32-bit words.  The hash
and the signature check of `kernel/crypto` are parameters. -/

namespace Sof

abbrev Byte := BitVec 8

/-- The memory from a pointer on. -/
abbrev Memory := Nat → Byte

/-- Some bytes of it. -/
def bytesAt (data : Memory) (offset len : Nat) : List Byte :=
  (List.range len).map (fun i => data (offset + i))

def sofReadU16 (buf : Memory) (off : Nat) : BitVec 16 := buf (off + 1) ++ buf off

def sofReadU32 (buf : Memory) (off : Nat) : BitVec 32 :=
  buf (off + 3) ++ buf (off + 2) ++ buf (off + 1) ++ buf off

/-- `sof_result_t`. -/
inductive SofResult where
  | ok
  | invalidMagic
  | invalidVersion
  | invalidType
  | invalidSize
  | invalidMeta
  | bufferTooSmall
  | noPayload
  | signatureRequired
  | signatureInvalid
deriving DecidableEq, Repr

/-- `sof_file_type_t`, without its invalid value. -/
inductive FileType where
  | bin
  | lib
  | app
deriving DecidableEq, Repr

/-- The byte of a file type. -/
def FileType.ofByte (b : Byte) : Option FileType :=
  if b = 1 then some .bin else if b = 2 then some .lib else if b = 3 then some .app else none

/-- `sof_header_t`, after its magic and its version. -/
structure Header where
  fileType : FileType
  flags : BitVec 16
  totalSize : BitVec 32
  metaOffset : BitVec 32
  metaCount : BitVec 16
  metaSize : BitVec 16
  payloadOffset : BitVec 32
  payloadSize : BitVec 32
  sigOffset : BitVec 32
  sigSize : BitVec 32
deriving DecidableEq, Repr

/-- `sizeof(sof_header_t)`. -/
def headerSize : Nat := 36

/-- `SOF_MAGIC`. -/
def sofMagic : List Byte := [0x53, 0x45, 0x4F, 0x53]

def sofMagicMatches (data : Memory) : Bool := bytesAt data 0 4 == sofMagic

/-- `sof_validate_header`: the file type of an acceptable header. -/
def sofValidateHeader (data : Memory) (dataLen : Nat) : Except SofResult FileType :=
  if dataLen < headerSize then .error .invalidSize
  else if !sofMagicMatches data then .error .invalidMagic
  else if data 4 ≠ 1 then .error .invalidVersion
  else
    match FileType.ofByte (data 5) with
    | none => .error .invalidType
    | some fileType =>
      if (sofReadU32 data 8).toNat > dataLen then .error .invalidSize else .ok fileType

/-- The header fields as they stand in the file. -/
def decodeHeader (data : Memory) (fileType : FileType) : Header where
  fileType := fileType
  flags := sofReadU16 data 6
  totalSize := sofReadU32 data 8
  metaOffset := sofReadU32 data 12
  metaCount := sofReadU16 data 16
  metaSize := sofReadU16 data 18
  payloadOffset := sofReadU32 data 20
  payloadSize := sofReadU32 data 24
  sigOffset := sofReadU32 data 28
  sigSize := sofReadU32 data 32

/-- `sof_meta_entry_t`: the length is the one in the file, the value what was copied. -/
structure MetaEntry where
  key : Byte
  valueLen : Byte
  value : List Byte
deriving DecidableEq, Repr

/-- `SOF_META_VALUE_MAX`. -/
def metaValueMax : Nat := 64

/-- `SOF_META_MAX_ENTRIES`. -/
def metaMaxEntries : Nat := 12

/-- The loop of `sof_parse` over the metadata. -/
def parseMeta (data : Memory) (dataLen : Nat) : (entries cursor : Nat) →
    Except SofResult (List MetaEntry)
  | 0, _ => .ok []
  | entries + 1, cursor =>
    if cursor + 2 > dataLen then .error .invalidMeta
    else
      let key := data cursor
      let valueLen := data (cursor + 1)
      let cursor := cursor + 2
      if cursor + valueLen.toNat > dataLen then .error .invalidMeta
      else
        let value := bytesAt data cursor (min valueLen.toNat (metaValueMax - 1))
        match parseMeta data dataLen entries (cursor + valueLen.toNat) with
        | .error e => .error e
        | .ok rest => .ok (⟨key, valueLen, value⟩ :: rest)

/-- `sof_parsed_file_t`; the payload is where it begins in the buffer. -/
structure Parsed where
  header : Header
  entries : List MetaEntry
  payload : Nat
  payloadSize : Nat
  hasSignature : Bool
deriving DecidableEq, Repr

def sofSignaturePresent (h : Header) : Bool := h.sigOffset != 0 && h.sigSize != 0

def sofParse (data : Memory) (dataLen : Nat) : Except SofResult Parsed :=
  match sofValidateHeader data dataLen with
  | .error e => .error e
  | .ok fileType =>
    let h := decodeHeader data fileType
    if (h.payloadOffset + h.payloadSize).toNat > dataLen then .error .invalidSize
    else if h.payloadSize = 0 then .error .noPayload
    else if (h.metaOffset + h.metaSize.setWidth 32).toNat > dataLen then .error .invalidSize
    else
      match parseMeta data dataLen (min h.metaCount.toNat metaMaxEntries)
          h.metaOffset.toNat with
      | .error e => .error e
      | .ok entries =>
        .ok ⟨h, entries, h.payloadOffset.toNat, h.payloadSize.toNat, sofSignaturePresent h⟩

/-- `sof_get_meta`: the value and the length of the first entry with the key. -/
def sofGetMeta (parsed : Parsed) (key : Byte) : Except SofResult (List Byte × Nat) :=
  match parsed.entries.find? (fun e => e.key == key) with
  | none => .error .invalidMeta
  | some e => .ok (e.value, e.valueLen.toNat)

/-- What the checks rest on: `sha512_hash`, `ed25519_verify` of a signature, a message
    and a key, `ed25519_public_key_hash`, and the key `cert_get_root_public_key` gives. -/
structure Crypto where
  sha512Hash : List Byte → List Byte
  ed25519Verify : (signature message publicKey : List Byte) → Bool
  publicKeyHash : List Byte → List Byte
  rootPublicKey : List Byte

/-- `secureos_cert_t`. -/
structure Cert where
  magic : List Byte
  issuerKeyHash : List Byte
  subjectPublicKey : List Byte
  signature : List Byte
deriving DecidableEq, Repr

/-- `cert_result_t`, as far as it is returned. -/
inductive CertResult where
  | ok
  | invalidMagic
  | invalidFormat
  | signatureInvalid
deriving DecidableEq, Repr

/-- `SECUREOS_CERT_TOTAL_SIZE` and `ED25519_SIGNATURE_SIZE`. -/
def certTotalSize : Nat := 132
def signatureSize : Nat := 64

/-- `CERT_MAGIC`. -/
def certMagic : List Byte := [0x53, 0x43, 0x52, 0x54]

def certParse (data : Memory) (dataLen : Nat) : Except CertResult Cert :=
  if dataLen < certTotalSize then .error .invalidFormat
  else if bytesAt data 0 4 ≠ certMagic then .error .invalidMagic
  else .ok ⟨bytesAt data 0 4, bytesAt data 4 32, bytesAt data 36 32, bytesAt data 68 signatureSize⟩

def certVerify (crypto : Crypto) (cert : Cert) (issuerPublicKey : List Byte) : CertResult :=
  let signedData := cert.magic ++ cert.issuerKeyHash ++ cert.subjectPublicKey
  if crypto.ed25519Verify cert.signature signedData issuerPublicKey then .ok
  else .signatureInvalid

/-- The last part of `sof_verify_signature`: the signature behind the certificate. -/
def verifyPayload (crypto : Crypto) (data : Memory) (parsed : Parsed) (cert : Cert) : SofResult :=
  let sigBytes := bytesAt data (parsed.header.sigOffset.toNat + certTotalSize) signatureSize
  let payloadHash := crypto.sha512Hash (bytesAt data parsed.payload parsed.payloadSize)
  if crypto.ed25519Verify sigBytes payloadHash cert.subjectPublicKey then .ok
  else .signatureInvalid

def sofVerifySignature (crypto : Crypto) (data : Memory) (dataLen : Nat) (parsed : Parsed) :
    SofResult :=
  let h := parsed.header
  if !sofSignaturePresent h then .ok
  else if h.sigSize.toNat < certTotalSize + signatureSize then .signatureInvalid
  else if (h.sigOffset + h.sigSize).toNat > dataLen then .signatureInvalid
  else
    match certParse (fun i => data (h.sigOffset.toNat + i)) certTotalSize with
    | .error _ => .signatureInvalid
    | .ok cert =>
      if cert.issuerKeyHash ≠ crypto.publicKeyHash crypto.rootPublicKey then .signatureInvalid
      else if certVerify crypto cert crypto.rootPublicKey ≠ .ok then .signatureInvalid
      else verifyPayload crypto data parsed cert

end Sof
