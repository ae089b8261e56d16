import SecureOS.SofBuildProofs

/-! # Signed containers

`sof_build_signed` builds a container, appends a certificate and a signature over the payload,
and writes their place into the header, as a 32-bit word. The verifier finds them again while
that word holds the whole size. -/

namespace Sof

open ByteStore List

/-! ## The image of a signed container -/

section Image

variable {fileType : Byte} {metaCount metaSize : BitVec 16}
  {totalSize payloadOffset payloadSize sigOffset sigSize : BitVec 32}
  {buf : Memory} {tail : List Byte}

theorem patch_word (pre post : List Byte) (hoff : off = 0 + pre.length)
    (old word : BitVec 32) : sofWriteU32 (store buf 0 (pre ++ (u32Bytes old ++ post))) off word
      = store buf 0 (pre ++ (u32Bytes word ++ post)) := by
  rw [hoff, ← append_assoc, ← append_assoc]
  exact store_patch buf 0 pre post rfl

/-- The three words of the header that are written after the signature. -/
theorem patch_header (total offset size : BitVec 32) :
    sofWriteU32 (sofWriteU32 (sofWriteU32 (store buf 0 (headerBytes fileType metaCount metaSize
        totalSize payloadOffset payloadSize sigOffset sigSize ++ tail)) 8 total) 28 offset) 32 size
      = store buf 0 (headerBytes fileType metaCount metaSize total payloadOffset payloadSize
        offset size ++ tail) := by
  let front := sofMagic ++ [1, fileType] ++ u16Bytes 0
  let middle := u32Bytes 36 ++ u16Bytes metaCount ++ u16Bytes metaSize ++ u32Bytes payloadOffset
    ++ u32Bytes payloadSize
  have hsplit (t o z : BitVec 32) :
      headerBytes fileType metaCount metaSize t payloadOffset payloadSize o z ++ tail
        = front ++ (u32Bytes t ++ (middle ++ (u32Bytes o ++ (u32Bytes z ++ tail)))) := by
    simp only [headerBytes, front, middle, append_assoc]
  have h8 : 8 = 0 + front.length := rfl
  have h28 : 28 = 0 + (front ++ u32Bytes total ++ middle).length := rfl
  have h32 : 32 = 0 + (front ++ u32Bytes total ++ middle ++ u32Bytes offset).length := rfl
  rw [hsplit, hsplit, patch_word front _ h8, ← append_assoc, ← append_assoc,
    patch_word _ _ h28, ← append_assoc, patch_word _ _ h32]
  simp only [append_assoc]

end Image

/-- The container with its final header, and what follows it. -/
def signedImage (params : BuildParams) (tail : List Byte) : List Byte :=
  container params (BitVec.ofNat 32 (unsignedSize params + (certTotalSize + signatureSize)))
    (BitVec.ofNat 32 (unsignedSize params)) (BitVec.ofNat 32 (certTotalSize + signatureSize)) tail

theorem signedImage_append (params : BuildParams) (tail : List Byte) :
    signedImage params [] ++ tail = signedImage params tail := by
  simp only [signedImage, container, append_assoc, append_nil]

theorem signedImage_length (params : BuildParams) :
    (signedImage params []).length = unsignedSize params := by
  have hle := metaBytes_length_le params.strings
  rw [signedImage, container, append_nil, length_append, length_append, length_append,
    length_replicate, unsignedSize, show (builtHeader params _ _ _).length = headerSize from rfl]
  omega

/-- The hash `sof_build_signed` signs. -/
def signedHash (crypto : SigningCrypto) (params : BuildParams) (buf : Memory) : List Byte :=
  let built := store buf 0 (image params (dryMetaSize params.strings))
  crypto.sha512Hash (bytesAt built (sofReadU32 built 20).toNat (sofReadU32 built 24).toNat)

/-- The stores behind `sof_build` in `sof_build_signed`. -/
theorem append_signature (buf : Memory) (params : BuildParams)
    (hcert : certData.length = certTotalSize) : sofWriteU32 (sofWriteU32 (sofWriteU32
        (store (store (store buf 0 (image params (dryMetaSize params.strings)))
            (unsignedSize params) certData) (unsignedSize params + certTotalSize) signature)
        8 (BitVec.ofNat 32 (unsignedSize params + (certTotalSize + signatureSize))))
        28 (BitVec.ofNat 32 (unsignedSize params)))
        32 (BitVec.ofNat 32 (certTotalSize + signatureSize))
      = store buf 0 (signedImage params (certData ++ signature)) := by
  have hlen : unsignedSize params = 0 + (image params (dryMetaSize params.strings)).length := by
    rw [image_length params (metaBytes_length_le _), unsignedSize, Nat.zero_add]
  have hjoin : store (store (store buf 0 (image params (dryMetaSize params.strings)))
        (unsignedSize params) certData) (unsignedSize params + certTotalSize) signature
      = store buf 0 (image params (dryMetaSize params.strings) ++ (certData ++ signature)) := by
    rw [← hcert, store_append, hlen, store_append]
  rw [hjoin, image_eq, container, builtHeader, append_assoc, patch_header, signedImage, container,
    builtHeader]
  simp only [append_assoc, nil_append]

variable {crypto : SigningCrypto} {params : BuildParams} {buf out : Memory} {size total : Nat}

/-- **`sof_build_signed` IN CLOSED FORM**, for a certificate of the right size. -/
theorem sofBuildSigned_ok_iff (hcert : certData.length = certTotalSize) :
    sofBuildSigned crypto params privateKey publicKey certData buf size = .ok (out, total)
      ↔ params.elfPayload ≠ [] ∧ (params.fileType = 1 ∨ params.fileType = 2)
        ∧ unsignedSize params + (certTotalSize + signatureSize) ≤ size
        ∧ out = store buf 0 (signedImage params (certData
            ++ crypto.ed25519Sign (signedHash crypto params buf) publicKey
              (privateKey.take 32 ++ publicKey.take 32)))
        ∧ total = unsignedSize params + (certTotalSize + signatureSize) := by
  have htake : certData.take certTotalSize = certData := take_of_length_le (Nat.le_of_eq hcert)
  rw [sofBuildSigned, if_neg (by omega), htake]
  constructor
  · intro h
    cases hb : sofBuild params buf size with
    | error =>
      rw [hb] at h
      cases h
    | ok built =>
      obtain ⟨built, _⟩ := built
      obtain ⟨hpayload, htype, -, rfl, rfl⟩ := sofBuild_ok_iff.mp hb
      rw [hb] at h
      dsimp only at h
      split at h
      · cases h
      rename_i hroom
      rw [append_signature buf params hcert] at h
      cases h
      exact ⟨hpayload, htype, Nat.le_of_not_lt hroom, rfl, rfl⟩
  · rintro ⟨hpayload, htype, hroom, rfl, rfl⟩
    have hbuild : sofBuild params buf size
        = .ok (store buf 0 (image params (dryMetaSize params.strings)), unsignedSize params) :=
      sofBuild_ok_iff.mpr ⟨hpayload, htype, by omega, rfl, rfl⟩
    rw [hbuild]
    dsimp only
    rw [if_neg (Nat.not_lt.mpr hroom), append_signature buf params hcert]
    rfl

/-! ## Keys and certificates -/

/-- `ed25519_verify` accepts what `ed25519_sign` produces for a pair of `ed25519_create_keypair`. -/
def SigningCrypto.Accepts (crypto : SigningCrypto) : Prop :=
  ∀ seed message, seed.length = 32 →
    crypto.ed25519Verify (crypto.ed25519Sign message (crypto.createPublicKey seed)
      (crypto.createPrivateKey seed)) message (crypto.createPublicKey seed)

/-- The certificate of an intermediate key, issued with the root key. -/
def issuedCert (crypto : SigningCrypto) (rootSeed seed : List Byte) : Cert :=
  certBuild crypto (crypto.createPublicKey rootSeed) (crypto.createPrivateKey rootSeed)
    (crypto.createPublicKey seed)

theorem issuedCert_length (crypto : SigningCrypto) (rootSeed seed : List Byte) :
    (certSerialize (issuedCert crypto rootSeed seed)).length = certTotalSize := by
  rw [certSerialize, length_append, length_append, length_append, issuedCert, certBuild]
  rw [crypto.hash_length, crypto.publicKey_length, crypto.signature_length]
  rfl

/-- `sof_build_signed` with an intermediate key certified by the root key. -/
def signedBuild (crypto : SigningCrypto) (rootSeed seed : List Byte) (params : BuildParams)
    (buf : Memory) (size : Nat) : Except SofResult (Memory × Nat) :=
  sofBuildSigned crypto params (crypto.createPrivateKey seed) (crypto.createPublicKey seed)
    (certSerialize (issuedCert crypto rootSeed seed)) buf size

/-- A certificate that lies in the buffer is read back. -/
theorem certParse_serialize (hmagic : cert.magic = certMagic)
    (hhash : cert.issuerKeyHash.length = 32) (hsubject : cert.subjectPublicKey.length = 32)
    (hsig : cert.signature.length = signatureSize)
    (hload : load data offset certTotalSize = certSerialize cert) :
    certParse (fun i => data (offset + i)) certTotalSize = .ok cert := by
  obtain ⟨magic, hash, subject, signature⟩ := cert
  dsimp only at hmagic hhash hsubject hsig
  have hparts : load data offset 4 ++ load data (offset + 4) 32 ++ load data (offset + 36) 32
      ++ load data (offset + 68) signatureSize = magic ++ hash ++ subject ++ signature := by
    rw [← load_add, ← load_add, ← load_add]
    exact hload
  have hmlen : magic.length = 4 := by rw [hmagic]; rfl
  obtain ⟨hfront, hsigBytes⟩ := append_inj hparts (by simp [hmlen, hhash, hsubject])
  obtain ⟨hfront, hsubjectBytes⟩ := append_inj hfront (by simp [hmlen, hhash])
  obtain ⟨hmagicBytes, hhashBytes⟩ := append_inj hfront (by simp [hmlen])
  rw [certParse_shift]
  show (if load data offset 4 ≠ certMagic then _ else _) = _
  rw [if_neg (not_not.mpr (hmagicBytes.trans hmagic))]
  exact congrArg Except.ok (Cert.mk.injEq .. ▸ ⟨hmagicBytes, hhashBytes, hsubjectBytes, hsigBytes⟩)

/-! ## Below 4 GiB -/

/-- Parser and verifier accept a container as signed. -/
def AcceptedAsSigned (crypto : SigningCrypto) (out : Memory) (total : Nat) : Prop :=
  ∃ parsed, sofParse out total = .ok parsed ∧ parsed.hasSignature
    ∧ sofVerifySignature crypto.toCrypto out total parsed = .ok

theorem signedHash_eq (crypto : SigningCrypto) (params : BuildParams) (buf : Memory)
    (hsmall : unsignedSize params < 2 ^ 32) :
    signedHash crypto params buf = crypto.sha512Hash params.elfPayload := by
  rw [signedHash, image_eq]
  refine congrArg crypto.sha512Hash ?_
  generalize hm : store buf 0 (container params _ 0 0 []) = m
  have hoffset : sofReadU32 m 20 = BitVec.ofNat 32 (headerSize + dryMetaSize params.strings) := by
    rw [← hm]
    exact sofReadU32_of_load (load_header rfl (by decide))
  have hsize : sofReadU32 m 24 = BitVec.ofNat 32 params.elfPayload.length := by
    rw [← hm]
    exact sofReadU32_of_load (load_header rfl (by decide))
  rw [hoffset, hsize, ← hm]
  exact bytesAt_payload buf params [] hsmall

/-- The private key `sof_build_signed` puts together is the one of the pair. -/
theorem privateKey_assemble (crypto : SigningCrypto) (hseed : seed.length = 32) :
    (crypto.createPrivateKey seed).take 32 ++ (crypto.createPublicKey seed).take 32
      = crypto.createPrivateKey seed := by
  rw [SigningCrypto.createPrivateKey, ← hseed, take_left, hseed,
    take_of_length_le (Nat.le_of_eq (crypto.publicKey_length seed))]

/-- The certificate and the signature stand behind the container. -/
theorem load_signature (buf : Memory) (params : BuildParams)
    (hcert : cert.length = certTotalSize) (hsig : signature.length = signatureSize) :
    load (store buf 0 (signedImage params (cert ++ signature))) (unsignedSize params)
        certTotalSize = cert ∧ load (store buf 0 (signedImage params (cert ++ signature)))
        (unsignedSize params + certTotalSize) signatureSize = signature := by
  have hfirst := load_store_part buf 0 (signedImage params []) cert signature
  have hsecond := load_store_part buf 0 (signedImage params [] ++ cert) signature []
  rw [append_assoc, Nat.zero_add, signedImage_length, signedImage_append, hcert] at hfirst
  rw [append_nil, append_assoc, length_append, Nat.zero_add, signedImage_length,
    signedImage_append, hcert, hsig] at hsecond
  exact ⟨hfirst, hsecond⟩

theorem signed_present (hlow : 0 < n) (hhigh : n < 2 ^ 32) :
    (BitVec.ofNat 32 n != 0 && BitVec.ofNat 32 (certTotalSize + signatureSize) != 0) := by
  rw [Bool.and_eq_true, bne_iff_ne]
  refine ⟨fun hzero => ?_, by decide⟩
  have hn := congrArg BitVec.toNat hzero
  rw [BitVec.toNat_ofNat, Nat.mod_eq_of_lt hhigh] at hn
  exact Nat.ne_of_gt hlow hn

/-- What `sof_parse` makes of a signed container. -/
def signedParsed (params : BuildParams) : Parsed :=
  builtParsed params (BitVec.ofNat 32 (unsignedSize params + (certTotalSize + signatureSize)))
    (BitVec.ofNat 32 (unsignedSize params)) (BitVec.ofNat 32 (certTotalSize + signatureSize))

/-- The verifier's checks, one by one. -/
theorem sofVerifySignature_ok {keys : Crypto} (hpresent : sofSignaturePresent parsed.header)
    (hsize : certTotalSize + signatureSize ≤ parsed.header.sigSize.toNat)
    (hsum : (parsed.header.sigOffset + parsed.header.sigSize).toNat ≤ len)
    (hcert : certParse (fun i => data (parsed.header.sigOffset.toNat + i)) certTotalSize = .ok cert)
    (hissuer : cert.issuerKeyHash = keys.publicKeyHash keys.rootPublicKey)
    (hverify : certVerify keys cert keys.rootPublicKey = .ok)
    (hpayload : verifyPayload keys data parsed cert = .ok) :
    sofVerifySignature keys data len parsed = .ok := by
  rw [sofVerifySignature, hpresent, if_neg (by decide), if_neg (Nat.not_lt.mpr hsize),
    if_neg (Nat.not_lt.mpr hsum), hcert]
  dsimp only
  rw [if_neg (not_not.mpr hissuer), if_neg (not_not.mpr hverify), hpayload]

/-- **SIGNED BELOW 4 GIB**: parser and verifier accept what the builder wrote. -/
theorem verify_signed (haccepts : crypto.Accepts)
    (hroot : crypto.rootPublicKey = crypto.createPublicKey rootSeed)
    (hrootSeed : rootSeed.length = 32) (hseed : seed.length = 32)
    (hsmall : unsignedSize params < 2 ^ 32)
    (h : signedBuild crypto rootSeed seed params buf size = .ok (out, total)) :
    AcceptedAsSigned crypto out total := by
  have hcertLen := issuedCert_length crypto rootSeed seed
  obtain ⟨hpayload, htype, -, hout, rfl⟩ := (sofBuildSigned_ok_iff hcertLen).mp h
  rw [privateKey_assemble crypto hseed, signedHash_eq crypto params buf hsmall] at hout
  obtain ⟨hcert, hsig⟩ := load_signature buf params hcertLen (crypto.signature_length
    (crypto.sha512Hash params.elfPayload) (crypto.createPublicKey seed)
    (crypto.createPrivateKey seed))
  rw [← hout] at hcert hsig
  have hpos : 0 < params.elfPayload.length := length_pos_iff.mpr hpayload
  have hlow : 0 < unsignedSize params := by rw [unsignedSize]; omega
  have hsome : params.elfPayload.length % 2 ^ 32 ≠ 0 := by
    rw [unsignedSize] at hsmall
    omega
  -- below 4 GiB the word of the header is the place itself
  have hplace : (BitVec.ofNat 32 (unsignedSize params)).toNat = unsignedSize params := by
    rw [BitVec.toNat_ofNat, Nat.mod_eq_of_lt hsmall]
  have hbytes : bytesAt out (signedParsed params).payload (signedParsed params).payloadSize
      = params.elfPayload := by
    rw [hout]
    exact bytesAt_payload buf params _ hsmall
  have hcertParse : certParse
      (fun i => out ((signedParsed params).header.sigOffset.toNat + i)) certTotalSize
      = .ok (issuedCert crypto rootSeed seed) := by
    show certParse (fun i => out ((BitVec.ofNat 32 (unsignedSize params)).toNat + i)) _ = _
    rw [hplace]
    exact certParse_serialize rfl (crypto.hash_length _) (crypto.publicKey_length seed)
      (crypto.signature_length _ _ _) hcert
  have hsigBytes : bytesAt out
      ((signedParsed params).header.sigOffset.toNat + certTotalSize) signatureSize
      = crypto.ed25519Sign (crypto.sha512Hash params.elfPayload) (crypto.createPublicKey seed)
        (crypto.createPrivateKey seed) := by
    show bytesAt out ((BitVec.ofNat 32 (unsignedSize params)).toNat + certTotalSize) _ = _
    rw [hplace]
    exact hsig
  have hchain : certVerify crypto.toCrypto (issuedCert crypto rootSeed seed)
      (crypto.createPublicKey rootSeed) = .ok := if_pos (haccepts rootSeed _ hrootSeed)
  refine ⟨signedParsed params, ?_, signed_present hlow hsmall,
    sofVerifySignature_ok (signed_present hlow hsmall) (Nat.le_refl _) (ofNat_add_le ..)
      hcertParse ?_ ?_ ?_⟩
  · rw [hout]
    exact sofParse_built _ htype hsome (by omega) (toNat_ofNat_le ..)
  · rw [hroot]
    rfl
  · rw [hroot]
    exact hchain
  · rw [verifyPayload, hsigBytes, hbytes]
    exact if_pos (haccepts seed _ hseed)

/-! ## Beyond 4 GiB -/

/-- What the verifier has found when it accepts a container that carries a signature. -/
theorem issuer_of_verify {keys : Crypto} (hpresent : sofSignaturePresent parsed.header)
    (h : sofVerifySignature keys data len parsed = .ok) :
    bytesAt data (parsed.header.sigOffset.toNat + 4) 32
      = keys.publicKeyHash keys.rootPublicKey := by
  rw [sofVerifySignature, hpresent, if_neg (by decide), certParse_shift] at h
  split at h
  · cases h
  split at h
  · cases h
  by_cases hmagic : bytesAt data parsed.header.sigOffset.toNat 4 = certMagic
  · rw [if_neg (not_not.mpr hmagic)] at h
    dsimp only at h
    split at h
    · cases h
    rename_i hissuer
    exact not_not.mp hissuer
  · rw [if_pos hmagic] at h
    cases h

/-- The verifier looks for the certificate where the 32-bit word says. -/
theorem issuer_of_accepted {tail : List Byte}
    (h : AcceptedAsSigned crypto (store buf 0 (signedImage params tail)) len) :
    load (store buf 0 (signedImage params tail)) (unsignedSize params % 2 ^ 32 + 4) 32
      = crypto.publicKeyHash crypto.rootPublicKey := by
  obtain ⟨_, hparsed, hsigned, hverify⟩ := h
  obtain ⟨-, -, -, hoffset, -, hpresent, -⟩ := sofParse_ok hparsed
  have hword : sofReadU32 (store buf 0 (signedImage params tail)) 28
      = BitVec.ofNat 32 (unsignedSize params) :=
    sofReadU32_of_load (load_header rfl (by decide))
  have hissuer := issuer_of_verify (hpresent.symm.trans hsigned) hverify
  rw [hoffset, hword] at hissuer
  exact hissuer

/-- What stands in front of the certificate does not depend on the keys. -/
theorem load_signedImage (buf : Memory) (params : BuildParams) (tail : List Byte)
    (hle : off + len ≤ unsignedSize params) : load (store buf 0 (signedImage params tail)) off len
      = load (store buf 0 (signedImage params [])) off len := by
  rw [← signedImage_append, ← store_append]
  refine load_store_of_disjoint (Or.inl ?_)
  rw [signedImage_length]
  omega

/-- Keys that accept every signature, with one hash for every key. -/
def flatCrypto (b : Byte) : SigningCrypto where
  sha512Hash := id
  ed25519Verify := fun _ _ _ => true
  publicKeyHash := fun _ => List.replicate 32 b
  rootPublicKey := List.replicate 32 0
  createPublicKey := fun _ => List.replicate 32 0
  ed25519Sign := fun _ _ _ => List.replicate signatureSize 0
  publicKey_length := fun _ => length_replicate ..
  signature_length := fun _ _ _ => length_replicate ..
  hash_length := fun _ => length_replicate ..

/-- What is assumed of keys: what is signed verifies, and the root key is the cached one. -/
structure Keyed (crypto : SigningCrypto) (rootSeed seed : List Byte) : Prop where
  accepts : crypto.Accepts
  root : crypto.rootPublicKey = crypto.createPublicKey rootSeed
  rootSeed : rootSeed.length = 32
  seed : seed.length = 32

theorem flatCrypto_keyed (b : Byte) :
    Keyed (flatCrypto b) (List.replicate 32 0) (List.replicate 32 0) :=
  ⟨fun _ _ _ => rfl, rfl, length_replicate .., length_replicate ..⟩

/-- **BEYOND 4 GIB**: under some keys the verifier refuses what the builder wrote. -/
theorem verify_fails_beyond (hpayload : params.elfPayload ≠ [])
    (htype : params.fileType = 1 ∨ params.fileType = 2)
    (hroom : unsignedSize params + (certTotalSize + signatureSize) ≤ size)
    (hlarge : 2 ^ 32 ≤ unsignedSize params) :
    ∃ crypto rootSeed seed out total, Keyed crypto rootSeed seed
      ∧ signedBuild crypto rootSeed seed params buf size = .ok (out, total)
      ∧ ¬ AcceptedAsSigned crypto out total := by
  by_contra hnone
  -- the bytes at the truncated place are the same under both keys, their hashes are not
  have hfront (b : Byte) :
      load (store buf 0 (signedImage params [])) (unsignedSize params % 2 ^ 32 + 4) 32
        = List.replicate 32 b := by
    have hbuild : signedBuild (flatCrypto b) (List.replicate 32 0) (List.replicate 32 0) params buf
        size = .ok (_, _) :=
      (sofBuildSigned_ok_iff (issuedCert_length ..)).mpr ⟨hpayload, htype, hroom, rfl, rfl⟩
    have haccepted := not_not.mp (fun hbad =>
      hnone ⟨flatCrypto b, _, _, _, _, flatCrypto_keyed b, hbuild, hbad⟩)
    have hissuer := issuer_of_accepted haccepted
    rw [load_signedImage buf params _ (by omega)] at hissuer
    exact hissuer
  have hsame := (hfront 0).symm.trans (hfront 1)
  exact absurd hsame (by decide)

/-- **SIGNED ROUND TRIP**: whatever the builder wrote is accepted as signed, exactly if it refuses
    the parameters or the buffer, or the container without its signature is smaller than 4 GiB. -/
theorem sof_signed_round_trip_iff (params : BuildParams) (buf : Memory) (size : Nat) :
    (∀ crypto rootSeed seed out total, Keyed crypto rootSeed seed →
      signedBuild crypto rootSeed seed params buf size = .ok (out, total) →
      AcceptedAsSigned crypto out total)
    ↔ params.elfPayload = [] ∨ (params.fileType ≠ 1 ∧ params.fileType ≠ 2)
      ∨ size < unsignedSize params + (certTotalSize + signatureSize)
      ∨ unsignedSize params < 2 ^ 32 := by
  constructor
  · intro h
    by_contra hcond
    rw [not_or, not_or, not_or] at hcond
    obtain ⟨hpayload, _, hroom, hlarge⟩ := hcond
    obtain ⟨crypto, rootSeed, seed, out, total, hkeyed, hbuild, hbad⟩ :=
      verify_fails_beyond hpayload (by omega) (Nat.le_of_not_lt hroom) (Nat.le_of_not_lt hlarge)
    exact hbad (h crypto rootSeed seed out total hkeyed hbuild)
  · intro hcond crypto rootSeed seed _ _ hkeyed hbuild
    obtain ⟨hpayload, _, _, -, -⟩ :=
      (sofBuildSigned_ok_iff (issuedCert_length crypto rootSeed seed)).mp hbuild
    rcases hcond with hnone | _ | hsmall | hsmall
    · exact absurd hnone hpayload
    · omega
    · omega
    · exact verify_signed hkeyed.accepts hkeyed.root hkeyed.rootSeed hkeyed.seed hsmall hbuild

/-- A binary of 2^32 bytes. -/
def hugePayload : List Byte := List.replicate (2 ^ 32) 0

def hugeParams : BuildParams := ⟨1, none, none, none, none, none, none, none, hugePayload⟩

theorem hugePayload_length : hugeParams.elfPayload.length = 2 ^ 32 := length_replicate ..

/-- **A SIGNED FILE THAT DOES NOT PARSE**: the word of its payload size is zero. -/
theorem huge_file_refused : Keyed (flatCrypto 0) (List.replicate 32 0) (List.replicate 32 0)
      ∧ ∃ out total, signedBuild (flatCrypto 0) (List.replicate 32 0) (List.replicate 32 0)
          hugeParams (fun _ => 0) (2 ^ 33) = .ok (out, total)
        ∧ sofParse out total = .error .noPayload := by
  have hsize : unsignedSize hugeParams = 36 + 2 ^ 32 := by
    rw [unsignedSize, hugePayload_length]
    rfl
  have hpayload : hugeParams.elfPayload ≠ [] := by
    apply ne_nil_of_length_pos
    rw [hugePayload_length]
    decide
  have hroom : unsignedSize hugeParams + (certTotalSize + signatureSize) ≤ 2 ^ 33 := by
    rw [hsize]
    decide
  refine ⟨flatCrypto_keyed 0, _, _,
    (sofBuildSigned_ok_iff (issuedCert_length ..)).mpr ⟨hpayload, Or.inl rfl, hroom, rfl, rfl⟩, ?_⟩
  have hzero : BitVec.ofNat 32 hugeParams.elfPayload.length = 0 := by
    rw [hugePayload_length]
    rfl
  have hlen : headerSize ≤ unsignedSize hugeParams + (certTotalSize + signatureSize) := by
    rw [unsignedSize]
    omega
  have hsum := ofNat_add_le (headerSize + dryMetaSize hugeParams.strings) 0
  rw [signedImage, container, builtHeader, hzero]
  refine sofParse_noPayload (ofByte_kindOf (Or.inl rfl)) hlen (toNat_ofNat_le ..) ?_
  refine Nat.le_trans hsum ?_
  rw [unsignedSize]
  omega

end Sof
