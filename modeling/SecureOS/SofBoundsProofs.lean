import Mathlib.Algebra.Ring.Nat
import SecureOS.SofModel

/-! # The indexes parsing and verification read

The loop of `sof_parse` over the metadata compares its cursor with the length of the buffer
before each read, in `size_t`.  The payload and the signature are checked by sums of 32-bit
header words, and those wrap. -/

namespace Sof

open List

/-- The indexes the metadata loop of `sof_parse` reads. -/
def parseMetaReads (data : Memory) (dataLen : Nat) : (entries cursor : Nat) → List Nat
  | 0, _ => []
  | entries + 1, cursor =>
    if cursor + 2 > dataLen then []
    else
      let valueLen := (data (cursor + 1)).toNat
      cursor :: (cursor + 1) ::
        if cursor + 2 + valueLen > dataLen then []
        else
          (List.range (min valueLen (metaValueMax - 1))).map (fun j => cursor + 2 + j)
            ++ parseMetaReads data dataLen entries (cursor + 2 + valueLen)

variable {data data' : Memory} {len : Nat}
variable {offset : Nat}

theorem bytesAt_of_reads {count : Nat}
    (h : ∀ i ∈ (List.range count).map (fun j => offset + j), data i = data' i) :
    bytesAt data offset count = bytesAt data' offset count := by
  refine map_congr_left (fun j hj => ?_)
  exact h (offset + j) (mem_map_of_mem hj)

/-- **NO READ IS MISSING** from the list of the metadata loop. -/
theorem parseMeta_of_reads (entries cursor : Nat)
    (h : ∀ i ∈ parseMetaReads data len entries cursor, data i = data' i) :
    parseMeta data len entries cursor = parseMeta data' len entries cursor := by
  induction entries generalizing cursor with
  | zero => rfl
  | succ _ ih =>
    rw [parseMetaReads] at h
    rw [parseMeta, parseMeta]
    split_ifs at h ⊢ with hkey
    · rfl
    · have hfst : data cursor = data' cursor := h cursor (by simp)
      have hsnd : data (cursor + 1) = data' (cursor + 1) := h (cursor + 1) (by simp)
      dsimp only at h ⊢
      rw [← hfst, ← hsnd]
      split_ifs at h ⊢
      · rfl
      · have hbehind := fun i hi => h i (mem_cons_of_mem _ (mem_cons_of_mem _ hi))
        rw [bytesAt_of_reads fun i hi => hbehind i (mem_append_left _ hi),
          ih _ fun i hi => hbehind i (mem_append_right _ hi)]

/-- The metadata loop reads below the length, whatever the header says. -/
theorem parseMetaReads_lt (entries : Nat) : ∀ cursor,
    ∀ i ∈ parseMetaReads data len entries cursor, i < len := by
  induction entries with
  | zero =>
    intro _ i hi
    cases hi
  | succ _ ih =>
    intro _ i hi
    rw [parseMetaReads] at hi
    split_ifs at hi with hkey
    · cases hi
    · rcases mem_cons.mp hi with rfl | hi
      · omega
      rcases mem_cons.mp hi with rfl | hi
      · omega
      split_ifs at hi
      · cases hi
      · rcases mem_append.mp hi with hi | hi
        · obtain ⟨_, hj, rfl⟩ := mem_map.mp hi
          have hj := mem_range.mp hj
          omega
        · exact ih _ i hi

/-- The indexes `sof_parse` reads in the metadata of a file with a valid header. -/
def sofParseMetaReads (data : Memory) (dataLen : Nat) : List Nat :=
  parseMetaReads data dataLen (min (sofReadU16 data 16).toNat metaMaxEntries)
    (sofReadU32 data 12).toNat

/-- The indexes the comparison with `CERT_MAGIC` reads: it ends at the first difference. -/
def magicReads (data : Memory) : (magic : List Byte) → (offset : Nat) → List Nat
  | [], _ => []
  | b :: magic, offset =>
    offset :: if data offset ≠ b then [] else magicReads data magic (offset + 1)

/-- The indexes `cert_parse` reads at an offset: the magic and, if it is right, the four parts. -/
def certParseReads (data : Memory) (offset : Nat) : List Nat :=
  magicReads data certMagic offset ++ if bytesAt data offset 4 ≠ certMagic then []
       else (List.range certTotalSize).map (fun j => offset + j)

/-- The indexes `sof_verify_signature` reads behind its checks of the sizes. -/
def signatureReads (crypto : Crypto) (data : Memory) (parsed : Parsed) : List Nat :=
  let offset := parsed.header.sigOffset.toNat
  certParseReads data offset ++
    match certParse (fun i => data (offset + i)) certTotalSize with
    | .error _ => []
    | .ok cert =>
      if cert.issuerKeyHash ≠ crypto.publicKeyHash crypto.rootPublicKey then []
      else if certVerify crypto cert crypto.rootPublicKey ≠ .ok then []
      else
        (List.range parsed.payloadSize).map (fun j => parsed.payload + j)
          ++ (List.range signatureSize).map (fun j => offset + certTotalSize + j)

/-- The indexes `sof_verify_signature` reads. -/
def sofVerifyReads (crypto : Crypto) (data : Memory) (dataLen : Nat) (parsed : Parsed) : List Nat :=
  let h := parsed.header
  if !sofSignaturePresent h then []
  else if h.sigSize.toNat < certTotalSize + signatureSize then []
  else if (h.sigOffset + h.sigSize).toNat > dataLen then []
  else signatureReads crypto data parsed

theorem bytesAt_shift (data : Memory) (base offset count : Nat) :
    bytesAt (fun i => data (base + i)) offset count = bytesAt data (base + offset) count := by
  refine map_congr_left (fun j _ => ?_)
  exact congrArg data (Nat.add_assoc base offset j).symm

theorem bytesAt_succ (data : Memory) (offset count : Nat) :
    bytesAt data offset (count + 1) = data offset :: bytesAt data (offset + 1) count := by
  rw [bytesAt, range_succ_eq_map, map_cons, map_map]
  refine congrArg (data offset :: ·) (map_congr_left (fun j _ => ?_))
  exact congrArg data (by simp only [Nat.succ_eq_add_one]; omega)

theorem bytesAt_eq_cons : bytesAt data offset (b :: bs).length = b :: bs
      ↔ data offset = b ∧ bytesAt data (offset + 1) bs.length = bs := by
  rw [length_cons, bytesAt_succ, List.cons.injEq]

/-- A byte of the buffer differs from the magic expected at an offset. -/
def Mismatch (data : Memory) (magic : List Byte) (offset len : Nat) : Prop :=
  ∃ i b, magic[i]? = some b ∧ offset + i < len ∧ data (offset + i) ≠ b

theorem mismatch_succ (hb : data offset = b) :
    Mismatch data (b :: magic) offset len ↔ Mismatch data magic (offset + 1) len := by
  constructor
  · rintro ⟨i, c, hc, _, hne⟩
    cases i with
    | zero => exact absurd (hb.trans (Option.some.inj hc)) hne
    | succ i => exact ⟨i, c, hc, by omega, by rwa [Nat.add_right_comm, Nat.add_assoc]⟩
  · rintro ⟨i, c, hc, _, _⟩
    exact ⟨i + 1, c, hc, by omega, by rwa [← Nat.add_assoc, Nat.add_right_comm]⟩

theorem not_mismatch (h : bytesAt data offset magic.length = magic) :
    ¬ Mismatch data magic offset len := by
  rintro ⟨j, _, hb, _, hne⟩
  have hj : j < magic.length := (List.getElem?_eq_some_iff.mp hb).1
  have hget := congrArg (fun l => l[j]?) h
  rw [hb, bytesAt, List.getElem?_map, List.getElem?_range hj] at hget
  exact hne (Option.some.inj hget)

theorem bytesAt_eq_of_magicReads (magic : List Byte) : ∀ offset,
    (∀ i ∈ magicReads data magic offset, data i = data' i) →
    (bytesAt data offset magic.length = magic ↔ bytesAt data' offset magic.length = magic) := by
  induction magic with
  | nil => exact fun _ _ => Iff.rfl
  | cons b _ ih =>
    intro offset h
    rw [magicReads] at h
    have hfst : data offset = data' offset := h offset (mem_cons_self ..)
    rw [bytesAt_eq_cons, bytesAt_eq_cons, ← hfst]
    by_cases hb : data offset = b
    · rw [if_neg (not_not.mpr hb)] at h
      rw [ih _ (fun i hi => h i (mem_cons_of_mem _ hi))]
    · exact iff_of_false (fun hc => hb hc.1) (fun hc => hb hc.1)

/-- A comparison that differs reads inside the buffer exactly when a byte of the buffer differs. -/
theorem magicReads_lt_iff (magic : List Byte) (offset : Nat)
    (h : bytesAt data offset magic.length ≠ magic) :
    (∀ i ∈ magicReads data magic offset, i < len) ↔ Mismatch data magic offset len := by
  induction magic generalizing offset with
  | nil => exact absurd rfl h
  | cons b magic ih =>
    rw [magicReads]
    by_cases hb : data offset = b
    · have hrest : bytesAt data (offset + 1) magic.length ≠ magic :=
        fun hc => h (bytesAt_eq_cons.mpr ⟨hb, hc⟩)
      rw [if_neg (not_not.mpr hb), mismatch_succ hb, ← ih _ hrest]
      refine ⟨fun hr i hi => hr i (mem_cons_of_mem _ hi), fun hr i hi => ?_⟩
      rcases mem_cons.mp hi with rfl | hi
      · -- the comparison goes on behind this byte, and the next read is inside
        cases magic with
        | nil => exact absurd rfl hrest
        | cons => exact Nat.lt_of_succ_lt (hr (i + 1) (mem_cons_self ..))
      · exact hr i hi
    · rw [if_pos hb]
      constructor
      · intro hr
        exact ⟨0, b, rfl, hr offset (mem_cons_self ..), hb⟩
      · rintro ⟨_, _, _, _, _⟩ _ hi
        rw [mem_singleton.mp hi]
        omega

theorem magicReads_lt_of_le (magic : List Byte) (offset : Nat) (hle : offset + magic.length ≤ len) :
    ∀ i ∈ magicReads data magic offset, i < len := by
  fun_induction magicReads data magic offset with
  | case1 => exact forall_mem_nil _
  | case2 b magic offset ih =>
    rw [length_cons] at hle
    refine forall_mem_cons.mpr ⟨by omega, ?_⟩
    split_ifs with hb
    · exact forall_mem_nil _
    · exact ih (by omega)

theorem certParse_shift (data : Memory) (offset : Nat) :
    certParse (fun i => data (offset + i)) certTotalSize
      = if bytesAt data offset 4 ≠ certMagic then .error .invalidMagic
        else .ok ⟨bytesAt data offset 4, bytesAt data (offset + 4) 32,
          bytesAt data (offset + 36) 32, bytesAt data (offset + 68) signatureSize⟩ := by
  rw [certParse, if_neg (by decide), bytesAt_shift, bytesAt_shift, bytesAt_shift, bytesAt_shift,
    Nat.add_zero]

theorem certParse_of_reads (h : ∀ i ∈ certParseReads data offset, data i = data' i) :
    certParse (fun i => data (offset + i)) certTotalSize
      = certParse (fun i => data' (offset + i)) certTotalSize := by
  have hmagic : bytesAt data offset 4 = certMagic ↔ bytesAt data' offset 4 = certMagic :=
    bytesAt_eq_of_magicReads certMagic offset (fun i hi => h i (mem_append_left _ hi))
  rw [certParse_shift, certParse_shift]
  by_cases hm : bytesAt data offset 4 = certMagic
  · have hpart {at' count : Nat} (hle : at' + count ≤ certTotalSize) :
        bytesAt data (offset + at') count = bytesAt data' (offset + at') count := by
      refine bytesAt_of_reads (fun i hi => h i (mem_append_right _ ?_))
      obtain ⟨_, hj, rfl⟩ := mem_map.mp hi
      have hj := mem_range.mp hj
      rw [if_neg (not_not.mpr hm), Nat.add_assoc]
      exact mem_map_of_mem (mem_range.mpr (by omega))
    rw [if_neg (not_not.mpr hm), if_neg (not_not.mpr (hmagic.mp hm)), hm, hmagic.mp hm,
      hpart (by decide), hpart (by decide), hpart (by decide)]
  · rw [if_pos hm, if_pos (fun hc => hm (hmagic.mpr hc))]

variable {parsed : Parsed}

/-- **NO READ IS MISSING** from the list of `sof_verify_signature`. -/
theorem sofVerifySignature_of_reads (crypto : Crypto)
    (h : ∀ i ∈ sofVerifyReads crypto data len parsed, data i = data' i) :
    sofVerifySignature crypto data len parsed = sofVerifySignature crypto data' len parsed := by
  rw [sofVerifyReads] at h
  rw [sofVerifySignature, sofVerifySignature]
  split_ifs at h ⊢
  · rfl
  · rfl
  · rfl
  rw [signatureReads] at h
  rw [← certParse_of_reads (fun i hi => h i (mem_append_left _ hi))]
  cases hcert : certParse (fun i => data (parsed.header.sigOffset.toNat + i)) certTotalSize with
  | error => rfl
  | ok =>
    rw [hcert] at h
    dsimp only at h ⊢
    split_ifs at h ⊢
    · rfl
    · rfl
    have hlast := fun i hi => h i (mem_append_right _ hi)
    rw [verifyPayload, verifyPayload, bytesAt_of_reads (fun i hi => hlast i (mem_append_left _ hi)),
      bytesAt_of_reads (fun i hi => hlast i (mem_append_right _ hi))]

/-- The header words of the payload and of the signature fit the buffer: their sum does not wrap, or
    the buffer is long enough all the same.  A certificate whose magic differs is not read on. -/
structure FieldsFit (data : Memory) (len : Nat) : Prop where
  payload : (sofReadU32 data 20).toNat + (sofReadU32 data 24).toNat < 2 ^ 32
    ∨ (sofReadU32 data 20).toNat + (sofReadU32 data 24).toNat ≤ len
  signature : sofReadU32 data 28 ≠ 0 → certTotalSize + signatureSize ≤ (sofReadU32 data 32).toNat →
    (sofReadU32 data 28 + sofReadU32 data 32).toNat ≤ len →
    (sofReadU32 data 28).toNat + (sofReadU32 data 32).toNat < 2 ^ 32
      ∨ (sofReadU32 data 28).toNat + (certTotalSize + signatureSize) ≤ len
      ∨ Mismatch data certMagic (sofReadU32 data 28).toNat len

/-- What `sof_parse` has checked when it answers OK, and what it returns. -/
theorem sofParse_ok (h : sofParse data len = .ok parsed) :
    (sofReadU32 data 20 + sofReadU32 data 24).toNat ≤ len
      ∧ parsed.payload = (sofReadU32 data 20).toNat
      ∧ parsed.payloadSize = (sofReadU32 data 24).toNat
      ∧ parsed.header.sigOffset = sofReadU32 data 28 ∧ parsed.header.sigSize = sofReadU32 data 32
      ∧ parsed.hasSignature = sofSignaturePresent parsed.header
      ∧ parseMeta data len (min (sofReadU16 data 16).toNat metaMaxEntries)
        (sofReadU32 data 12).toNat = .ok parsed.entries := by
  revert h
  fun_cases sofParse data len with
  | case6 _ _ _ hsum _ _ _ hm =>
    rintro ⟨⟩
    exact ⟨Nat.le_of_not_lt hsum, rfl, rfl, rfl, rfl, rfl, hm⟩
  | _ => rintro ⟨⟩

/-- A sum of words that passed the check is inside, unless it wrapped. -/
theorem toNat_add_le_of_not_wrap {x y : BitVec 32} (hle : (x + y).toNat ≤ len)
    (h : x.toNat + y.toNat < 2 ^ 32) : x.toNat + y.toNat ≤ len := by
  rwa [BitVec.toNat_add, Nat.mod_eq_of_lt h] at hle

theorem certParseReads_lt (h : offset + certTotalSize ≤ len ∨ Mismatch data certMagic offset len) :
    ∀ i ∈ certParseReads data offset, i < len := by
  have hlen : certMagic.length ≤ certTotalSize := by decide
  intro i hi
  by_cases hm : bytesAt data offset 4 = certMagic
  · have hle : offset + certTotalSize ≤ len := h.resolve_right (not_mismatch hm)
    rcases mem_append.mp hi with hi | hi
    · exact magicReads_lt_of_le certMagic offset (by omega) i hi
    · rw [if_neg (not_not.mpr hm)] at hi
      obtain ⟨_, hj, rfl⟩ := mem_map.mp hi
      have hj := mem_range.mp hj
      omega
  · rcases mem_append.mp hi with hi | hi
    · rcases h with _ | hmis
      · exact magicReads_lt_of_le certMagic offset (by omega) i hi
      · exact (magicReads_lt_iff certMagic offset hm).mpr hmis i hi
    · rw [if_pos hm] at hi
      cases hi

/-- The file passes the three checks in front of the certificate. -/
def SignatureChecked (h : Header) (len : Nat) : Prop :=
  sofSignaturePresent h ∧ certTotalSize + signatureSize ≤ h.sigSize.toNat
    ∧ (h.sigOffset + h.sigSize).toNat ≤ len

theorem sofVerifyReads_unchecked (crypto : Crypto) (h : ¬ SignatureChecked parsed.header len) :
    sofVerifyReads crypto data len parsed = [] := by
  fun_cases sofVerifyReads crypto data len parsed with
  | case4 _ hpresent hsize hsum =>
    refine absurd ⟨?_, Nat.le_of_not_lt hsize, Nat.le_of_not_lt hsum⟩ h
    simpa using hpresent
  | _ => rfl

theorem sofVerifyReads_checked (crypto : Crypto) (h : SignatureChecked parsed.header len) :
    sofVerifyReads crypto data len parsed = signatureReads crypto data parsed := by
  obtain ⟨hpresent, hsize, hsum⟩ := h
  rw [sofVerifyReads, hpresent, if_neg (by decide), if_neg (Nat.not_lt.mpr hsize),
    if_neg (Nat.not_lt.mpr hsum)]

/-- A signature section and a payload inside the buffer are read inside the buffer. -/
theorem signatureReads_lt (crypto : Crypto) (hpayload : parsed.payload + parsed.payloadSize ≤ len)
    (h : parsed.header.sigOffset.toNat + (certTotalSize + signatureSize) ≤ len
      ∨ Mismatch data certMagic parsed.header.sigOffset.toNat len) :
    ∀ i ∈ signatureReads crypto data parsed, i < len := by
  have hcert : parsed.header.sigOffset.toNat + certTotalSize ≤ len
      ∨ Mismatch data certMagic parsed.header.sigOffset.toNat len :=
    h.imp_left (fun hle => by omega)
  intro i hi
  rw [signatureReads, certParse_shift] at hi
  rcases mem_append.mp hi with hi | hi
  · exact certParseReads_lt hcert i hi
  by_cases hm : bytesAt data parsed.header.sigOffset.toNat 4 = certMagic
  · have hle := h.resolve_right (not_mismatch hm)
    rw [if_neg (not_not.mpr hm)] at hi
    dsimp only at hi
    split at hi
    · cases hi
    split at hi
    · cases hi
    rcases mem_append.mp hi with hi | hi
    all_goals
      obtain ⟨_, hj, rfl⟩ := mem_map.mp hi
      have hj := mem_range.mp hj
      omega
  · rw [if_pos hm] at hi
    cases hi

theorem sofVerifyReads_lt (crypto : Crypto) (hpayload : parsed.payload + parsed.payloadSize ≤ len)
    (h : SignatureChecked parsed.header len →
      parsed.header.sigOffset.toNat + (certTotalSize + signatureSize) ≤ len
        ∨ Mismatch data certMagic parsed.header.sigOffset.toNat len) :
    ∀ i ∈ sofVerifyReads crypto data len parsed, i < len := by
  by_cases hchecked : SignatureChecked parsed.header len
  · rw [sofVerifyReads_checked crypto hchecked]
    exact signatureReads_lt crypto hpayload (h hchecked)
  · rw [sofVerifyReads_unchecked crypto hchecked]
    exact fun _ hi => absurd hi not_mem_nil

/-- Checks that accept whatever issuer hash stands behind an offset. -/
def acceptingCrypto (data : Memory) (offset : Nat) : Crypto where
  sha512Hash := id
  ed25519Verify := fun _ _ _ => true
  publicKeyHash := fun _ => bytesAt data (offset + 4) 32
  rootPublicKey := []

/-- Under accepting checks the last byte of the signature is read, if the magic is right. -/
theorem signatureReads_accepting (hm : bytesAt data parsed.header.sigOffset.toNat 4 = certMagic) :
    parsed.header.sigOffset.toNat + (certTotalSize + 63)
      ∈ signatureReads (acceptingCrypto data parsed.header.sigOffset.toNat) data parsed := by
  have hissuer (key : List Byte) : bytesAt data (parsed.header.sigOffset.toNat + 4) 32
      = (acceptingCrypto data parsed.header.sigOffset.toNat).publicKeyHash key := rfl
  rw [signatureReads, certParse_shift, if_neg (not_not.mpr hm)]
  dsimp only
  rw [if_neg (not_not.mpr (hissuer _)), ← Nat.add_assoc]
  refine mem_append_right _ (mem_append_right _ ?_)
  exact mem_map_of_mem (mem_range.mpr (by decide))

/-- **WHEN A PARSED FILE IS READ INSIDE ITS BUFFER**: payload, metadata and a signature check under
    any keys stay below the length of a file `sof_parse` accepts, exactly when the header words fit.
    -/
theorem sofParse_bounded_iff {parsed : Parsed} (h : sofParse data len = .ok parsed) :
    (parsed.payload + parsed.payloadSize ≤ len ∧ (∀ i ∈ sofParseMetaReads data len, i < len)
      ∧ ∀ crypto, ∀ i ∈ sofVerifyReads crypto data len parsed, i < len) ↔ FieldsFit data len := by
  obtain ⟨hsum, hpayload, hsize, hsigOffset, hsigSize, -⟩ := sofParse_ok h
  rw [hpayload, hsize]
  constructor
  · rintro ⟨hin, -, hverify⟩
    refine ⟨Or.inr hin, fun hoff hlong hsig => ?_⟩
    have hchecked : SignatureChecked parsed.header len := by
      refine ⟨?_, by rwa [hsigSize], by rwa [hsigOffset, hsigSize]⟩
      have hpos : sofReadU32 data 32 ≠ 0 := by
        intro hzero
        rw [hzero] at hlong
        exact absurd hlong (by decide)
      rw [sofSignaturePresent, hsigOffset, hsigSize, bne_iff_ne.mpr hoff, bne_iff_ne.mpr hpos]
      rfl
    have hreads := hverify (acceptingCrypto data parsed.header.sigOffset.toNat)
    rw [sofVerifyReads_checked _ hchecked] at hreads
    rw [← hsigOffset]
    by_cases hm : bytesAt data parsed.header.sigOffset.toNat 4 = certMagic
    · have hlast := hreads _ (signatureReads_accepting hm)
      exact Or.inr (Or.inl (by rw [signatureSize]; omega))
    · have hmagic := fun i hi => hreads i (mem_append_left _ (mem_append_left _ hi))
      exact Or.inr (Or.inr ((magicReads_lt_iff certMagic _ hm).mp hmagic))
  · intro hfit
    have hin : (sofReadU32 data 20).toNat + (sofReadU32 data 24).toNat ≤ len :=
      hfit.payload.elim (toNat_add_le_of_not_wrap hsum) id
    refine ⟨hin, parseMetaReads_lt _ _, fun crypto =>
      sofVerifyReads_lt crypto (by rw [hpayload, hsize]; exact hin) ?_⟩
    rintro ⟨hpresent, hlong, hsig⟩
    rw [sofSignaturePresent, Bool.and_eq_true, bne_iff_ne] at hpresent
    rw [hsigOffset] at hpresent ⊢
    rw [hsigSize] at hlong
    rw [hsigOffset, hsigSize] at hsig
    rcases hfit.signature hpresent.1 hlong hsig with hsmall | hsig'
    · have hle := toNat_add_le_of_not_wrap hsig hsmall
      exact Or.inl (by omega)
    · exact hsig'

/-- The bytes of a header with a payload and a signature section, without metadata. -/
def bareFile (payloadOffset payloadSize sigOffset sigSize : List Byte) : Memory := fun i =>
  (sofMagic ++ [1, 1, 0, 0, 37, 0, 0, 0, 36, 0, 0, 0, 0, 0, 0, 0] ++ payloadOffset ++ payloadSize
    ++ sigOffset ++ sigSize).getD i 0

/-- What `sof_parse` returns for it. -/
def bareParsed (payloadOffset payloadSize sigOffset sigSize : BitVec 32) : Parsed where
  header := ⟨.bin, 0, 37, 36, 0, 0, payloadOffset, payloadSize, sigOffset, sigSize⟩
  entries := []
  payload := payloadOffset.toNat
  payloadSize := payloadSize.toNat
  hasSignature := sigOffset != 0 && sigSize != 0

/-- A file of 37 bytes whose payload is its last byte. -/
def lastByteFile : Memory := bareFile [36, 0, 0, 0] [1, 0, 0, 0] [0, 0, 0, 0] [0, 0, 0, 0]

theorem sofParse_bounded_iff_lastByte : sofParse lastByteFile 37 = .ok (bareParsed 36 1 0 0)
      ∧ 36 + 1 ≤ 37 ∧ (∀ i ∈ sofParseMetaReads lastByteFile 37, i < 37)
      ∧ ∀ crypto, ∀ i ∈ sofVerifyReads crypto lastByteFile 37 (bareParsed 36 1 0 0), i < 37 :=
  have h : sofParse lastByteFile 37 = .ok (bareParsed 36 1 0 0) := by decide +kernel
  have hfit : FieldsFit lastByteFile 37 :=
    ⟨Or.inl (by decide +kernel), fun hoff => absurd (by decide +kernel) hoff⟩
  ⟨h, (sofParse_bounded_iff h).mpr hfit⟩

/-- A file of 37 bytes with a payload of 16 bytes at 0xFFFFFFF0 and a signature section of 256 bytes
    at 0xFFFFFF00: both sums wrap to zero. -/
def wrappedFile : Memory :=
  bareFile [0xF0, 0xFF, 0xFF, 0xFF] [0x10, 0, 0, 0] [0, 0xFF, 0xFF, 0xFF] [0, 1, 0, 0]

/-- **RANGES THAT WRAP ARE ACCEPTED**: the payload ends far behind the buffer, and a signature check
    under any keys reads far behind it. -/
theorem wrapped_ranges_accepted :
    sofParse wrappedFile 37 = .ok (bareParsed 0xFFFFFFF0 16 0xFFFFFF00 256)
      ∧ 37 < (bareParsed 0xFFFFFFF0 16 0xFFFFFF00 256).payload + 16
      ∧ ∀ crypto, 0xFFFFFF00 ∈ sofVerifyReads crypto wrappedFile 37
          (bareParsed 0xFFFFFFF0 16 0xFFFFFF00 256) := by
  refine ⟨by decide +kernel, by decide +kernel, fun crypto => ?_⟩
  exact mem_append_left _ (mem_append_left _ (mem_cons_self ..))

end Sof
