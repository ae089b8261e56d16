import SecureOS.SofBoundsProofs

/-! # What parsing and verification read

Two memories that agree below the length of a buffer parse alike.  They verify alike if the
payload and the signature lie inside the buffer; the checks of `sof_parse` and
`sof_verify_signature` do not ensure that, since the sums they test are sums of 32-bit words. -/

namespace Sof

/-- Two memories agree below a length. -/
def Agree (data data' : Memory) (len : Nat) : Prop := ∀ i, i < len → data i = data' i

/-- The payload and the signature end below the length. -/
structure Contained (parsed : Parsed) (dataLen : Nat) : Prop where
  payload : parsed.payload + parsed.payloadSize ≤ dataLen
  signature : parsed.header.sigOffset.toNat + parsed.header.sigSize.toNat ≤ dataLen

variable {data data' : Memory} {len : Nat}

theorem bytesAt_congr (h : Agree data data' len)
    (hle : offset + count ≤ len) : bytesAt data offset count = bytesAt data' offset count := by
  refine List.map_congr_left (fun i hi => ?_)
  have hi := List.mem_range.mp hi
  exact h (offset + i) (by omega)

theorem sofReadU16_congr (h : Agree data data' len) (hle : off + 2 ≤ len) :
    sofReadU16 data off = sofReadU16 data' off := by
  rw [sofReadU16, sofReadU16, h off (by omega), h (off + 1) (by omega)]

theorem sofReadU32_congr (h : Agree data data' len) (hle : off + 4 ≤ len) :
    sofReadU32 data off = sofReadU32 data' off := by
  rw [sofReadU32, sofReadU32, h off (by omega), h (off + 1) (by omega), h (off + 2) (by omega),
    h (off + 3) (by omega)]

theorem sofValidateHeader_congr (h : Agree data data' len) :
    sofValidateHeader data len = sofValidateHeader data' len := by
  by_cases hlen : len < headerSize
  · rw [sofValidateHeader, sofValidateHeader, if_pos hlen, if_pos hlen]
  · have hle : 36 ≤ len := Nat.le_of_not_lt hlen
    have hmagic : sofMagicMatches data = sofMagicMatches data' := by
      rw [sofMagicMatches, sofMagicMatches, bytesAt_congr h (by omega)]
    rw [sofValidateHeader, sofValidateHeader, hmagic, h 4 (by omega), h 5 (by omega),
      sofReadU32_congr h (by omega)]

theorem decodeHeader_congr (h : Agree data data' len) (hle : headerSize ≤ len)
    (fileType : FileType) : decodeHeader data fileType = decodeHeader data' fileType := by
  have h16 (off : Nat) (hoff : off + 2 ≤ 36) := sofReadU16_congr h (Nat.le_trans hoff hle)
  have h32 (off : Nat) (hoff : off + 4 ≤ 36) := sofReadU32_congr h (Nat.le_trans hoff hle)
  rw [decodeHeader, decodeHeader, h16 6 (by decide), h16 16 (by decide), h16 18 (by decide),
    h32 8 (by decide), h32 12 (by decide), h32 20 (by decide), h32 24 (by decide),
    h32 28 (by decide), h32 32 (by decide)]

theorem headerSize_le_of_validate (h : sofValidateHeader data len = .ok fileType) :
    headerSize ≤ len := by
  by_contra hlt
  rw [sofValidateHeader, if_pos (Nat.lt_of_not_le hlt)] at h
  cases h

/-- **PARSING READS THE FILE**: `sof_parse` depends on nothing behind the buffer. -/
theorem sofParse_congr (h : Agree data data' len) : sofParse data len = sofParse data' len := by
  rw [sofParse, sofParse, ← sofValidateHeader_congr h]
  cases hv : sofValidateHeader data len with
  | error => rfl
  | ok =>
    dsimp only
    rw [decodeHeader_congr h (headerSize_le_of_validate hv),
      parseMeta_of_reads _ _ fun i hi => h i (parseMetaReads_lt _ _ i hi)]

/-- **VERIFICATION READS THE FILE**, if the payload and the signature lie inside it. -/
theorem sofVerifySignature_congr (h : Agree data data' len) (crypto : Crypto)
    (hin : Contained parsed len) :
    sofVerifySignature crypto data len parsed = sofVerifySignature crypto data' len parsed := by
  refine sofVerifySignature_of_reads crypto fun i hi =>
    h i (sofVerifyReads_lt crypto hin.payload (fun hchecked => Or.inl ?_) i hi)
  exact Nat.le_trans (Nat.add_le_add_left hchecked.2.1 _) hin.signature

end Sof
