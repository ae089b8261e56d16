import Mathlib.Algebra.Order.BigOperators.Group.List
import Mathlib.Algebra.Order.Ring.Nat
import SecureOS.SofBoundsProofs
import SecureOS.SofBuildModel

/-! # What the builders write, and how it parses

Both builders store a header, the entries of the given strings and the payload
into a cleared run of their buffer.  The result is one list of bytes. -/

namespace Sof

open ByteStore List

/-! ## Words -/

/-- The bytes of a word, as `sof_write_u16` and `sof_write_u32` store them. -/
def u16Bytes (v : BitVec 16) : List Byte := [v.setWidth 8, (v >>> 8).setWidth 8]
def u32Bytes (v : BitVec 32) : List Byte :=
  [v.setWidth 8, (v >>> 8).setWidth 8, (v >>> 16).setWidth 8, (v >>> 24).setWidth 8]

theorem u16_assemble (v : BitVec 16) : ((v >>> 8).setWidth 8 ++ v.setWidth 8 : BitVec 16) = v := by
  ext i hi
  simp only [BitVec.getElem_append, BitVec.getElem_setWidth, BitVec.getLsbD_ushiftRight]
  rw [← BitVec.getLsbD_eq_getElem hi]
  split
  · rfl
  · exact congrArg v.getLsbD (by omega)

theorem u32_assemble (v : BitVec 32) :
    ((v >>> 24).setWidth 8 ++ (v >>> 16).setWidth 8 ++ (v >>> 8).setWidth 8 ++ v.setWidth 8
      : BitVec 32) = v := by
  ext i hi
  simp only [BitVec.getElem_append, BitVec.getElem_setWidth, BitVec.getLsbD_ushiftRight]
  rw [← BitVec.getLsbD_eq_getElem hi]
  split
  · rfl
  split
  · exact congrArg v.getLsbD (by omega)
  split <;> exact congrArg v.getLsbD (by omega)

variable {data : Memory} {len : Nat} {strings : List (Byte × List Byte)} {kind : FileType}

/-- A word whose bytes lie in the buffer. -/
theorem sofReadU16_of_load (h : load data off 2 = u16Bytes v) : sofReadU16 data off = v := by
  obtain ⟨h0, h⟩ := cons.inj h
  obtain ⟨h1, -⟩ := cons.inj h
  replace h0 : data off = v.setWidth 8 := h0
  replace h1 : data (off + 1) = (v >>> 8).setWidth 8 := h1
  rw [sofReadU16, h0, h1]
  exact u16_assemble v

theorem sofReadU32_of_load (h : load data off 4 = u32Bytes v) : sofReadU32 data off = v := by
  obtain ⟨h0, h⟩ := cons.inj h
  obtain ⟨h1, h⟩ := cons.inj h
  obtain ⟨h2, h⟩ := cons.inj h
  obtain ⟨h3, -⟩ := cons.inj h
  replace h0 : data off = v.setWidth 8 := h0
  replace h1 : data (off + 1) = (v >>> 8).setWidth 8 := h1
  replace h2 : data (off + 2) = (v >>> 16).setWidth 8 := h2
  replace h3 : data (off + 3) = (v >>> 24).setWidth 8 := h3
  rw [sofReadU32, h0, h1, h2, h3]
  exact u32_assemble v

/-! ## The image of a container -/

/-- The header as bytes. -/
def headerBytes (fileType : Byte) (metaCount metaSize : BitVec 16)
    (totalSize payloadOffset payloadSize sigOffset sigSize : BitVec 32) : List Byte :=
  sofMagic ++ ([1, fileType] ++ u16Bytes 0 ++ u32Bytes totalSize ++ u32Bytes 36 ++
    u16Bytes metaCount ++ u16Bytes metaSize ++ u32Bytes payloadOffset ++ u32Bytes payloadSize ++
    u32Bytes sigOffset ++ u32Bytes sigSize)

/-- The entry of a string as bytes. -/
def entryBytes (s : Byte × List Byte) : List Byte :=
  s.1 :: BitVec.ofNat 8 (min s.2.length 255) :: s.2.take (min s.2.length 255)

/-- The entries of the given strings. -/
def metaBytes (strings : List (Byte × List Byte)) : List Byte := (strings.map entryBytes).flatten

theorem entryBytes_length (s : Byte × List Byte) :
    (entryBytes s).length = 2 + min s.2.length 255 := by
  rw [entryBytes, length_cons, length_cons, length_take]
  omega

theorem metaBytes_cons (s : Byte × List Byte) (strings : List (Byte × List Byte)) :
    metaBytes (s :: strings) = entryBytes s ++ metaBytes strings := rfl

/-- The size of the metadata with every string cut to 255 bytes. -/
def cutMetaSize (strings : List (Byte × List Byte)) : Nat :=
  (strings.map (fun s => 2 + min s.2.length 255)).sum

theorem metaBytes_length (strings : List (Byte × List Byte)) :
    (metaBytes strings).length = cutMetaSize strings := by
  rw [metaBytes, length_flatten, map_map]
  exact congrArg List.sum (map_congr_left fun s _ => entryBytes_length s)

theorem metaBytes_length_le (strings : List (Byte × List Byte)) :
    (metaBytes strings).length ≤ dryMetaSize strings := by
  rw [metaBytes_length]
  exact sum_le_sum fun s _ => Nat.add_le_add_left (Nat.min_le_left ..) 2

/-- A longer string takes fewer. -/
theorem metaBytes_length_of_long (h : ∃ s ∈ strings, 255 < s.2.length) :
    (metaBytes strings).length < dryMetaSize strings := by
  obtain ⟨s, hs, _⟩ := h
  rw [metaBytes_length]
  exact sum_lt_sum _ _ (fun s _ => Nat.add_le_add_left (Nat.min_le_left ..) 2) ⟨s, hs, by omega⟩

/-! ## The builders in closed form -/

theorem writeHeader_eq (buf : Memory)
    (fileType totalSize metaCount metaSize payloadStart payloadSize k : Nat) :
    writeHeader (store buf 0 (List.replicate (headerSize + k) 0)) fileType totalSize headerSize
        metaCount metaSize payloadStart payloadSize
      = store buf 0 (headerBytes (BitVec.ofNat 8 fileType) (BitVec.ofNat 16 metaCount)
          (BitVec.ofNat 16 metaSize) (BitVec.ofNat 32 totalSize) (BitVec.ofNat 32 payloadStart)
          (BitVec.ofNat 32 payloadSize) 0 0 ++ List.replicate k 0) :=
  -- the stores of the header follow each other without a gap
  storeRuns_cleared buf 0 0 k
    [sofMagic, [1], [BitVec.ofNat 8 fileType], u16Bytes 0, u32Bytes (BitVec.ofNat 32 totalSize),
     u32Bytes 36, u16Bytes (BitVec.ofNat 16 metaCount), u16Bytes (BitVec.ofNat 16 metaSize),
     u32Bytes (BitVec.ofNat 32 payloadStart), u32Bytes (BitVec.ofNat 32 payloadSize), u32Bytes 0,
     u32Bytes 0] []

theorem sofWriteMeta_eq (bufSize : Nat) (strings : List (Byte × List Byte)) :
    ∀ (buf : Memory) (cursor : Nat), cursor + (metaBytes strings).length ≤ bufSize →
      sofWriteMeta bufSize buf strings cursor = storeRuns buf cursor (strings.map entryBytes) := by
  induction strings with
  | nil =>
    intro _ cursor _
    rfl
  | cons s _ ih =>
    intro _ cursor hle
    rw [metaBytes_cons, length_append, entryBytes_length] at hle
    have hroom : ¬ cursor + 2 + min s.2.length 255 > bufSize := by omega
    rw [sofWriteMeta, sofWriteMetaEntry, if_neg hroom]
    rw [ih _ _ (by omega), map_cons, storeRuns, entryBytes_length]
    rfl

theorem given_some (key : Byte) (value : List Byte) (items : List (Byte × Option (List Byte))) :
    given ((key, some value) :: items) = (key, value) :: given items := rfl

theorem sofpackWriteMeta_eq (items : List (Byte × Option (List Byte))) :
    ∀ (buf : Memory) (cursor : Nat), sofpackWriteMeta buf items cursor
        = storeRuns buf cursor ((given items).map entryBytes) := by
  induction items with
  | nil =>
    intro buf cursor
    rfl
  | cons item _ ih =>
    intro buf cursor
    obtain ⟨_, value⟩ := item
    cases value with
    | none => exact ih buf cursor
    | some =>
      rw [sofpackWriteMeta, sofpackWriteTlv, given_some, map_cons, storeRuns, entryBytes_length]
      exact ih _ _

/-- The image without a signature; before the payload lies what the dry run counted too much. -/
def image (params : BuildParams) (metaSize : Nat) : List Byte :=
  let payloadStart := headerSize + metaSize
  headerBytes (BitVec.ofNat 8 params.fileType) (BitVec.ofNat 16 params.strings.length)
      (BitVec.ofNat 16 metaSize) (BitVec.ofNat 32 (payloadStart + params.elfPayload.length))
      (BitVec.ofNat 32 payloadStart) (BitVec.ofNat 32 params.elfPayload.length) 0 0
    ++ metaBytes params.strings
    ++ List.replicate (metaSize - (metaBytes params.strings).length) 0
    ++ params.elfPayload

variable {metaSize : Nat}

theorem image_length (params : BuildParams) (hle : (metaBytes params.strings).length ≤ metaSize) :
    (image params metaSize).length = headerSize + metaSize + params.elfPayload.length := by
  rw [image, length_append, length_append, length_append, length_replicate,
    show (headerBytes _ _ _ _ _ _ _ _).length = headerSize from rfl]
  omega

/-- Header, entries and payload stored into a cleared run. -/
theorem build_image (buf : Memory) (params : BuildParams)
    (hle : (metaBytes params.strings).length ≤ metaSize) : store (storeRuns (writeHeader
            (store buf 0 (List.replicate (headerSize + metaSize + params.elfPayload.length) 0))
            params.fileType (headerSize + metaSize + params.elfPayload.length) headerSize
            params.strings.length metaSize (headerSize + metaSize) params.elfPayload.length)
          headerSize (params.strings.map entryBytes)) (headerSize + metaSize) params.elfPayload
      = store buf 0 (image params metaSize) := by
  have hgap : metaSize + params.elfPayload.length
      = (params.strings.map entryBytes).flatten.length
        + (metaSize - (metaBytes params.strings).length + params.elfPayload.length) := by
    rw [metaBytes] at hle ⊢
    omega
  rw [Nat.add_assoc headerSize, writeHeader_eq, image, Nat.add_assoc headerSize metaSize]
  -- from here on the header is a list of 36 bytes
  generalize hheader : headerBytes _ _ _ _ _ _ _ _ = header
  have hlen : 0 + header.length = headerSize := by rw [← hheader]; rfl
  have hstart : headerSize + metaSize
      = 0 + (header ++ metaBytes params.strings ++
          List.replicate (metaSize - (metaBytes params.strings).length) 0).length := by
    simp only [length_append, length_replicate]
    omega
  have hruns := storeRuns_cleared buf 0 (0 : Byte)
    (metaSize - (metaBytes params.strings).length + params.elfPayload.length)
    (params.strings.map entryBytes) header
  rw [hlen, ← hgap] at hruns
  have hpayload := store_next buf 0 (0 : Byte) (header ++ metaBytes params.strings ++
    List.replicate (metaSize - (metaBytes params.strings).length) 0) params.elfPayload 0
  rw [replicate_zero, append_nil, ← hstart] at hpayload
  rw [hruns, replicate_add, ← append_assoc, ← hpayload]
  rfl

/-- What both builders do, by the size of the metadata they count, each with errors of its own. -/
def built {E : Type} (noPayload invalidType tooSmall : E) (params : BuildParams) (metaSize : Nat)
    (buf : Memory) (size : Nat) : Except E (Memory × Nat) :=
  if params.elfPayload = [] then .error noPayload
  else if params.fileType ≠ 1 ∧ params.fileType ≠ 2 then .error invalidType
  else if headerSize + metaSize + params.elfPayload.length > size then .error tooSmall
  else .ok (store buf 0 (image params metaSize), headerSize + metaSize + params.elfPayload.length)

/-- What a builder has checked when it succeeds, and what it wrote. -/
theorem built_ok_iff : built e₁ e₂ e₃ params metaSize buf size = .ok (out, total)
      ↔ params.elfPayload ≠ [] ∧ (params.fileType = 1 ∨ params.fileType = 2)
        ∧ headerSize + metaSize + params.elfPayload.length ≤ size
        ∧ out = store buf 0 (image params metaSize)
        ∧ total = headerSize + metaSize + params.elfPayload.length := by
  rw [built]
  split_ifs <;> grind

/-- **`sof_build` IN CLOSED FORM**. -/
theorem sofBuild_eq (params : BuildParams) (buf : Memory) (size : Nat) :
    sofBuild params buf size = built .noPayload .invalidType .bufferTooSmall params
      (dryMetaSize params.strings) buf size := by
  rw [sofBuild, built]
  dsimp only
  split
  · rfl
  split
  · rfl
  split
  · rfl
  have hle := metaBytes_length_le params.strings
  rw [sofWriteMeta_eq size params.strings _ _ (by omega), build_image buf params hle]

/-- The size `sofpack_layout` counts: the entries with their strings cut. -/
theorem sofpackLayout_sizes (items : List (Byte × Option (List Byte))) :
    (items.map (fun item => sofpackTlvLen item.2)).sum = (metaBytes (given items)).length
      ∧ (items.map (fun item => sofpackTlvLen item.2)).countP (fun add => 0 < add)
        = (given items).length := by
  induction items with
  | nil => exact ⟨rfl, rfl⟩
  | cons item _ ih =>
    obtain ⟨_, value⟩ := item
    rw [map_cons, sum_cons, countP_cons, ih.1, ih.2]
    cases value with
    | none => exact ⟨Nat.zero_add _, rfl⟩
    | some =>
      rw [given_some, metaBytes_cons, length_append, entryBytes_length, length_cons,
        sofpackTlvLen, if_pos (decide_eq_true (by omega))]
      exact ⟨rfl, rfl⟩

theorem sofpackLayout_eq (params : BuildParams) : sofpackLayout params =
      if params.elfPayload = [] then .error .noPayload
      else if params.fileType ≠ 1 ∧ params.fileType ≠ 2 then .error .invalidType else
        .ok (headerSize + (metaBytes params.strings).length + params.elfPayload.length,
          (metaBytes params.strings).length, params.strings.length) := by
  obtain ⟨hsize, hcount⟩ := sofpackLayout_sizes params.items
  rw [sofpackLayout]
  dsimp only
  rw [hsize, hcount]
  rfl

/-- **`sofpack_wrap` IN CLOSED FORM**. -/
theorem sofpackWrap_eq (params : BuildParams) (buf : Memory) (size : Nat) :
    sofpackWrap params buf size = built .noPayload .invalidType .bufferTooSmall params
      (metaBytes params.strings).length buf size := by
  rw [sofpackWrap, sofpackLayout_eq, built]
  split_ifs with _ _ hroom
  · rfl
  · rfl
  · exact if_pos hroom
  · dsimp only
    rw [if_neg hroom, sofpackWriteMeta_eq]
    exact congrArg (fun out => Except.ok (out, _)) (build_image buf params (Nat.le_refl _))

/-! ## Parsing an image -/

section Parse

variable {fileType : Byte} {metaCount metaSize : BitVec 16}
  {totalSize payloadOffset payloadSize sigOffset sigSize : BitVec 32}
  {buf : Memory} {tail : List Byte}

/-- The bytes of a header that lies in front of a buffer. -/
theorem load_header (hheader : header.length = headerSize) (h : off + n ≤ headerSize) :
    load (store buf 0 (header ++ tail)) off n = (header.drop off).take n := by
  have hfront := load_store_front buf 0 tail (Nat.le_trans h (Nat.le_of_eq hheader.symm))
  rw [Nat.zero_add] at hfront
  exact hfront

/-- The memory a builder leaves: a header and what follows it. -/
theorem decodeHeader_image (kind : FileType) :
    decodeHeader (store buf 0 (headerBytes fileType metaCount metaSize totalSize payloadOffset
        payloadSize sigOffset sigSize ++ tail)) kind
      = ⟨kind, 0, totalSize, 36, metaCount, metaSize, payloadOffset, payloadSize, sigOffset,
          sigSize⟩ := by
  rw [Header.mk.injEq]
  refine ⟨rfl, sofReadU16_of_load ?_, sofReadU32_of_load ?_, sofReadU32_of_load ?_,
    sofReadU16_of_load ?_, sofReadU16_of_load ?_, sofReadU32_of_load ?_, sofReadU32_of_load ?_,
    sofReadU32_of_load ?_, sofReadU32_of_load ?_⟩
  -- every word of the header lies in its 36 bytes
  all_goals exact load_header rfl (by decide)

section

variable (hkind : FileType.ofByte fileType = some kind) (hlen : headerSize ≤ len)
  (htotal : totalSize.toNat ≤ len)
include hkind hlen htotal

theorem sofValidateHeader_image :
    sofValidateHeader (store buf 0 (headerBytes fileType metaCount metaSize totalSize payloadOffset
        payloadSize sigOffset sigSize ++ tail)) len = .ok kind := by
  generalize hm : store buf 0 (headerBytes fileType metaCount metaSize totalSize payloadOffset
    payloadSize sigOffset sigSize ++ tail) = m
  have hmagic : sofMagicMatches m := by rw [← hm]; rfl
  have hversion : m 4 = 1 := by rw [← hm]; rfl
  have htype : m 5 = fileType := by rw [← hm]; rfl
  have hsize : sofReadU32 m 8 = totalSize := by
    rw [← hm]
    exact sofReadU32_of_load (load_header rfl (by decide))
  rw [sofValidateHeader, if_neg (Nat.not_lt.mpr hlen), hmagic, if_neg (by decide), hversion,
    if_neg (not_not.mpr rfl), htype, hkind, hsize]
  exact if_neg (Nat.not_lt.mpr htotal)

/-- A header whose word of the payload size is zero is refused. -/
theorem sofParse_noPayload (hpayload : (payloadOffset + 0).toNat ≤ len) :
    sofParse (store buf 0 (headerBytes fileType metaCount metaSize totalSize payloadOffset 0
        sigOffset sigSize ++ tail)) len = .error .noPayload := by
  rw [sofParse, sofValidateHeader_image hkind hlen htotal]
  dsimp only
  rw [decodeHeader_image, if_neg (Nat.not_lt.mpr hpayload), if_pos rfl]

end

/-- The entry `sof_parse` makes of a string. -/
def metaEntryOf (s : Byte × List Byte) : MetaEntry :=
  ⟨s.1, BitVec.ofNat 8 (min s.2.length 255), s.2.take (min (min s.2.length 255) (metaValueMax - 1))⟩

/-- The loop of `sof_parse` over entries that lie in the buffer. -/
theorem parseMeta_entries (strings : List (Byte × List Byte)) :
    ∀ cursor, load data cursor (metaBytes strings).length = metaBytes strings →
      cursor + (metaBytes strings).length ≤ len →
      parseMeta data len strings.length cursor = .ok (strings.map metaEntryOf) := by
  induction strings with
  | nil =>
    intro cursor _ _
    rfl
  | cons s _ ih =>
    intro cursor hload hle
    have hmin : min s.2.length 255 < 2 ^ 8 := by omega
    rw [metaBytes_cons, length_append, load_add] at hload
    rw [metaBytes_cons, length_append] at hle
    have hentry := append_inj_left hload (by simp)
    have hrest := append_inj_right hload (by simp)
    rw [entryBytes_length] at hentry hrest hle
    -- the key, the length and the value of the first entry
    rw [load_add, entryBytes] at hentry
    obtain ⟨hkey, hentry⟩ := cons.inj hentry
    obtain ⟨hlen, hvalue⟩ := cons.inj hentry
    replace hkey : data cursor = s.1 := hkey
    replace hlen : data (cursor + 1) = BitVec.ofNat 8 (min s.2.length 255) := hlen
    replace hvalue : load data (cursor + 2) (min s.2.length 255)
      = s.2.take (min s.2.length 255) := hvalue
    have hcopy : bytesAt data (cursor + 2) (min (min s.2.length 255) (metaValueMax - 1))
        = s.2.take (min (min s.2.length 255) (metaValueMax - 1)) := by
      have htake := congrArg (List.take (metaValueMax - 1)) hvalue
      rw [take_load, take_take, Nat.min_comm (metaValueMax - 1)] at htake
      exact htake
    rw [length_cons, parseMeta, if_neg (by omega), hlen, hkey]
    dsimp only
    rw [BitVec.toNat_ofNat, Nat.mod_eq_of_lt hmin, if_neg (by omega), hcopy]
    rw [Nat.add_assoc cursor, ih _ hrest (by omega)]
    rfl

/-- **HOW AN IMAGE PARSES**: a header, at most twelve entries and a rest, by the header words
    only. -/
theorem sofParse_image (hkind : FileType.ofByte fileType = some kind)
    (htotal : totalSize.toNat ≤ len) (hpayload : (payloadOffset + payloadSize).toNat ≤ len)
    (hsome : payloadSize ≠ 0) (hmeta : (36 + metaSize.setWidth 32 : BitVec 32).toNat ≤ len)
    (hcount : metaCount.toNat = strings.length) (hmax : strings.length ≤ metaMaxEntries)
    (hlen : headerSize + (metaBytes strings).length ≤ len) :
    sofParse (store buf 0 (headerBytes fileType metaCount metaSize totalSize payloadOffset
        payloadSize sigOffset sigSize ++ (metaBytes strings ++ tail))) len
      = .ok ⟨⟨kind, 0, totalSize, 36, metaCount, metaSize, payloadOffset, payloadSize, sigOffset,
          sigSize⟩, strings.map metaEntryOf, payloadOffset.toNat, payloadSize.toNat,
          sigOffset != 0 && sigSize != 0⟩ := by
  have hload := load_store_part buf 0 (headerBytes fileType metaCount metaSize totalSize
    payloadOffset payloadSize sigOffset sigSize) (metaBytes strings) tail
  rw [append_assoc] at hload
  have hentries := parseMeta_entries strings headerSize hload hlen
  rw [sofParse, sofValidateHeader_image hkind (by omega) htotal]
  dsimp only
  rw [decodeHeader_image, if_neg (Nat.not_lt.mpr hpayload), if_neg hsome,
    if_neg (Nat.not_lt.mpr hmeta), hcount, Nat.min_eq_left hmax]
  rw [show (36 : BitVec 32).toNat = headerSize from rfl, hentries]
  rfl

end Parse

/-! ## The round trip -/

section RoundTrip

variable {params : BuildParams} {buf : Memory}

/-- The sizes `sof_build` computes. -/
def unsignedSize (params : BuildParams) : Nat :=
  headerSize + dryMetaSize params.strings + params.elfPayload.length

/-- What `sof_build` has checked when it succeeds, and what it wrote. -/
theorem sofBuild_ok_iff : sofBuild params buf size = .ok (out, total)
      ↔ params.elfPayload ≠ [] ∧ (params.fileType = 1 ∨ params.fileType = 2)
        ∧ unsignedSize params ≤ size ∧ out = store buf 0 (image params (dryMetaSize params.strings))
        ∧ total = unsignedSize params := by
  rw [sofBuild_eq]
  exact built_ok_iff

/-- The file type both builders accept, as `sof_parse` reads it back. -/
def kindOf (fileType : Nat) : FileType := if fileType = 1 then .bin else .lib

theorem ofByte_kindOf (h : fileType = 1 ∨ fileType = 2) :
    FileType.ofByte (BitVec.ofNat 8 fileType) = some (kindOf fileType) := by
  rcases h with rfl | rfl <;> rfl

theorem toNat_ofNat_le (w n : Nat) : (BitVec.ofNat w n).toNat ≤ n := by exact Nat.mod_le ..

/-- The header word of the metadata never fails its check. -/
theorem metaSize_check (metaSize : Nat) :
    (36 + (BitVec.ofNat 16 metaSize).setWidth 32 : BitVec 32).toNat ≤ headerSize + metaSize := by
  have h := toNat_ofNat_le 16 metaSize
  rw [BitVec.toNat_add, BitVec.toNat_setWidth]
  calc ((36 : BitVec 32).toNat + (BitVec.ofNat 16 metaSize).toNat % 2 ^ 32) % 2 ^ 32
      ≤ 36 + (BitVec.ofNat 16 metaSize).toNat % 2 ^ 32 := Nat.mod_le ..
    _ ≤ headerSize + metaSize := by rw [headerSize]; omega

theorem ofNat_add_le (a b : Nat) : (BitVec.ofNat 32 a + BitVec.ofNat 32 b).toNat ≤ a + b := by
  rw [BitVec.toNat_add, BitVec.toNat_ofNat, BitVec.toNat_ofNat, ← Nat.add_mod]
  exact Nat.mod_le ..

/-- The header of a container of the parameters. -/
def builtHeader (params : BuildParams) (totalSize sigOffset sigSize : BitVec 32) : List Byte :=
  headerBytes (BitVec.ofNat 8 params.fileType) (BitVec.ofNat 16 params.strings.length)
    (BitVec.ofNat 16 (dryMetaSize params.strings)) totalSize
    (BitVec.ofNat 32 (headerSize + dryMetaSize params.strings))
    (BitVec.ofNat 32 params.elfPayload.length) sigOffset sigSize

/-- What `sof_parse` makes of such a container. -/
def builtParsed (params : BuildParams) (totalSize sigOffset sigSize : BitVec 32) : Parsed where
  header := ⟨kindOf params.fileType, 0, totalSize, 36, BitVec.ofNat 16 params.strings.length,
    BitVec.ofNat 16 (dryMetaSize params.strings),
    BitVec.ofNat 32 (headerSize + dryMetaSize params.strings),
    BitVec.ofNat 32 params.elfPayload.length, sigOffset, sigSize⟩
  entries := params.strings.map metaEntryOf
  payload := (BitVec.ofNat 32 (headerSize + dryMetaSize params.strings)).toNat
  payloadSize := (BitVec.ofNat 32 params.elfPayload.length).toNat
  hasSignature := sigOffset != 0 && sigSize != 0

/-- A container of the parameters, and what follows it. -/
def container (params : BuildParams) (totalSize sigOffset sigSize : BitVec 32) (tail : List Byte) :
    List Byte :=
  builtHeader params totalSize sigOffset sigSize ++ (metaBytes params.strings
    ++ (List.replicate (dryMetaSize params.strings - (metaBytes params.strings).length) 0
      ++ params.elfPayload ++ tail))

theorem image_eq (params : BuildParams) : image params (dryMetaSize params.strings)
      = container params (BitVec.ofNat 32 (unsignedSize params)) 0 0 [] := by
  rw [image, container, builtHeader, unsignedSize, append_assoc, append_assoc, append_nil]

variable {totalSize sigOffset sigSize : BitVec 32}

/-- The payload of a container is read back while its header words hold its place and its size. -/
theorem bytesAt_payload (buf : Memory) (params : BuildParams) (tail : List Byte)
    (hsmall : unsignedSize params < 2 ^ 32) :
    bytesAt (store buf 0 (container params totalSize sigOffset sigSize tail))
        (BitVec.ofNat 32 (headerSize + dryMetaSize params.strings)).toNat
        (BitVec.ofNat 32 params.elfPayload.length).toNat = params.elfPayload := by
  have hle := metaBytes_length_le params.strings
  rw [unsignedSize] at hsmall
  rw [BitVec.toNat_ofNat, BitVec.toNat_ofNat, Nat.mod_eq_of_lt (by omega),
    Nat.mod_eq_of_lt (by omega)]
  have hpart := load_store_part buf 0 (builtHeader params totalSize sigOffset sigSize
    ++ metaBytes params.strings
    ++ List.replicate (dryMetaSize params.strings - (metaBytes params.strings).length) 0)
    params.elfPayload tail
  rw [length_append, length_append, length_replicate, Nat.zero_add,
    show (builtHeader params totalSize sigOffset sigSize).length = headerSize from rfl,
    Nat.add_assoc, Nat.add_sub_cancel' hle] at hpart
  rw [container]
  simp only [append_assoc] at hpart ⊢
  exact hpart

/-- A container parses, unless the word of its payload size is zero. -/
theorem sofParse_built (tail : List Byte) (htype : params.fileType = 1 ∨ params.fileType = 2)
    (hsome : params.elfPayload.length % 2 ^ 32 ≠ 0) (hlen : unsignedSize params ≤ len)
    (htotal : totalSize.toNat ≤ len) :
    sofParse (store buf 0 (container params totalSize sigOffset sigSize tail)) len
      = .ok (builtParsed params totalSize sigOffset sigSize) := by
  have hcount : params.strings.length ≤ 7 := length_filterMap_le ..
  have hmeta := metaBytes_length_le params.strings
  have hcheck := metaSize_check (dryMetaSize params.strings)
  have hsum := ofNat_add_le (headerSize + dryMetaSize params.strings) params.elfPayload.length
  rw [unsignedSize] at hlen
  refine sofParse_image (ofByte_kindOf htype) htotal (by omega) ?_ (by omega) ?_ ?_ (by omega)
  · intro hzero
    exact hsome (by rw [← BitVec.toNat_ofNat, hzero]; rfl)
  · rw [BitVec.toNat_ofNat]
    omega
  · rw [metaMaxEntries]
    omega

/-- The lookup of a key among the given strings. -/
theorem given_find (hkeys : (items.map Prod.fst).Nodup) (hitem : item ∈ items) :
    (given items).find? (fun s => s.1 == item.1) = item.2.map (Prod.mk item.1) := by
  induction items with
  | nil => cases hitem
  | cons head items ih =>
    obtain ⟨key, value⟩ := head
    obtain ⟨hnew, hrest⟩ := nodup_cons.mp hkeys
    -- no later item has the key of the head
    have hlater : (given items).find? (fun s => s.1 == key) = none := by
      rw [List.find?_eq_none]
      intro _ hs heq
      obtain ⟨other, hmem, hother⟩ := mem_filterMap.mp hs
      obtain ⟨_, -, rfl⟩ := Option.map_eq_some_iff.mp hother
      have hkey : other.1 = key := beq_iff_eq.mp heq
      have hin : other.1 ∈ items.map Prod.fst := mem_map_of_mem hmem
      exact hnew (hkey ▸ hin)
    rcases mem_cons.mp hitem with rfl | hmem
    · cases value with
      | none => exact hlater
      | some => rw [given_some, List.find?_cons_of_pos (by simp)]; rfl
    · have hin : item.1 ∈ items.map Prod.fst := mem_map_of_mem hmem
      have hne : key ≠ item.1 := fun h => hnew (h ▸ hin)
      cases value with
      | none => exact ih hrest hmem
      | some =>
        rw [given_some, List.find?_cons_of_neg (by simpa using hne)]
        exact ih hrest hmem

/-- The metadata of a container, read back: strings of at most 63 bytes are whole. -/
theorem sofGetMeta_built (hitem : item ∈ params.items)
    (hshort : ∀ value ∈ item.2, value.length ≤ 63) :
    sofGetMeta (builtParsed params totalSize sigOffset sigSize) item.1
      = item.2.elim (.error .invalidMeta) (fun value => .ok (value, value.length)) := by
  have hkeys : (params.items.map Prod.fst).Nodup := by
    show ([0x01, 0x02, 0x03, 0x04, 0x05, 0x06, 0x20] : List Byte).Nodup
    decide
  have hfind : (params.strings.map metaEntryOf).find? (fun e => e.key == item.1)
      = (item.2.map (Prod.mk item.1)).map metaEntryOf := by
    rw [List.find?_map, ← given_find hkeys hitem]
    rfl
  rw [sofGetMeta]
  dsimp only [builtParsed]
  rw [hfind]
  cases hvalue : item.2 with
  | none => rfl
  | some value =>
    have hle := hshort value hvalue
    have hmin : min (min value.length 255) (metaValueMax - 1) = value.length := by
      rw [metaValueMax]
      omega
    simp only [Option.map_some, metaEntryOf, Option.elim_some]
    rw [hmin, take_length, BitVec.toNat_ofNat, Nat.min_eq_left (by omega),
      Nat.mod_eq_of_lt (by omega)]

/-- **ROUND TRIP**: what `sof_build` wrote for strings of at most 63 bytes, below 4 GiB,
    parses to the same type, payload and metadata, and without a signature. -/
theorem sof_round_trip (htype : params.fileType = 1 ∨ params.fileType = 2)
    (hpayload : params.elfPayload ≠ [])
    (hshort : ∀ item ∈ params.items, ∀ value ∈ item.2, value.length ≤ 63)
    (htotal : total < 2 ^ 32) (h : sofBuild params buf size = .ok (out, total)) :
    ∃ parsed, sofParse out total = .ok parsed ∧ parsed.header.fileType = kindOf params.fileType
      ∧ bytesAt out parsed.payload parsed.payloadSize = params.elfPayload
      ∧ parsed.hasSignature = false ∧ ∀ item ∈ params.items, sofGetMeta parsed item.1
          = item.2.elim (.error .invalidMeta) (fun value => .ok (value, value.length)) := by
  obtain ⟨-, -, -, rfl, rfl⟩ := sofBuild_ok_iff.mp h
  have hpos : 0 < params.elfPayload.length := length_pos_iff.mpr hpayload
  have hsome : params.elfPayload.length % 2 ^ 32 ≠ 0 := by
    rw [unsignedSize] at htotal
    omega
  rw [image_eq]
  exact ⟨builtParsed params (BitVec.ofNat 32 (unsignedSize params)) 0 0,
    sofParse_built [] htype hsome (Nat.le_refl _) (toNat_ofNat_le ..), rfl,
    bytesAt_payload buf params [] htotal, rfl,
    fun item hitem => sofGetMeta_built hitem (hshort item hitem)⟩

/-- A binary with a name and an empty version. -/
def smallParams : BuildParams := ⟨1, some [0x61], none, none, some [], none, none, none, [0x7F]⟩

theorem sof_round_trip_small :
    ∃ parsed, sofParse (store (fun _ => 0) 0 (image smallParams 5)) 42 = .ok parsed
      ∧ sofGetMeta parsed 1 = .ok ([0x61], 1) ∧ sofGetMeta parsed 4 = .ok ([], 0)
      ∧ sofGetMeta parsed 2 = .error .invalidMeta := by
  have h : sofBuild smallParams (fun _ => 0) 64
      = .ok (store (fun _ => 0) 0 (image smallParams 5), 42) :=
    sofBuild_ok_iff.mpr ⟨by decide, Or.inl rfl, by decide, rfl, rfl⟩
  obtain ⟨parsed, hparsed, -, -, -, hmeta⟩ :=
    sof_round_trip (Or.inl rfl) (by decide) (by decide) (by decide) h
  exact ⟨parsed, hparsed, hmeta (1, some [0x61]) (by decide), hmeta (4, some []) (by decide),
    hmeta (2, none) (by decide)⟩

end RoundTrip

/-! ## Metadata values -/

/-- The entries of the metadata as the file has them. -/
def tlvEntries (data : Memory) : (entries cursor : Nat) → List (Byte × List Byte)
  | 0, _ => []
  | entries + 1, cursor =>
    (data cursor, bytesAt data (cursor + 2) (data (cursor + 1)).toNat)
      :: tlvEntries data entries (cursor + 2 + (data (cursor + 1)).toNat)

/-- The entry `sof_parse` makes of an entry of the file. -/
theorem metaEntryOf_tlv (data : Memory) (key valueLen : Byte) (cursor : Nat) :
    metaEntryOf (key, bytesAt data cursor valueLen.toNat)
      = ⟨key, valueLen, bytesAt data cursor (min valueLen.toNat (metaValueMax - 1))⟩ := by
  have hlt := valueLen.isLt
  have hlen : (bytesAt data cursor valueLen.toNat).length = valueLen.toNat := by
    rw [bytesAt, length_map, length_range]
  have htake := take_load data cursor valueLen.toNat (min valueLen.toNat (metaValueMax - 1))
  rw [Nat.min_eq_left (Nat.min_le_left ..)] at htake
  rw [metaEntryOf, hlen, Nat.min_eq_left (by omega), BitVec.ofNat_toNat, BitVec.setWidth_eq]
  exact congrArg _ htake

theorem parseMeta_ok (entries cursor : Nat) (h : parseMeta data len entries cursor = .ok es) :
    es = (tlvEntries data entries cursor).map metaEntryOf := by
  fun_induction parseMeta data len entries cursor generalizing es <;> cases h
  case case1 => rfl
  case case5 hrest ih => rw [tlvEntries, map_cons, metaEntryOf_tlv, ← ih hrest]

theorem length_tlvEntries_lt (entries : Nat) :
    ∀ cursor, ∀ e ∈ tlvEntries data entries cursor, e.2.length < 256 := by
  induction entries with
  | zero => exact fun _ _ he => absurd he not_mem_nil
  | succ _ ih =>
    intro cursor e he
    rcases mem_cons.mp he with rfl | he
    · rw [bytesAt, length_map, length_range]
      exact (data (cursor + 1)).isLt
    · exact ih _ e he

/-- **METADATA VALUES**: the lookup reports the length of the first entry of the file with the
    key, and has all its bytes exactly if they are at most 63. -/
theorem sofGetMeta_whole_iff {parsed : Parsed} {key : Byte} {value : List Byte} {n : Nat}
    (h : sofParse data len = .ok parsed) (hget : sofGetMeta parsed key = .ok (value, n)) :
    ∃ bytes, (tlvEntries data (min (sofReadU16 data 16).toNat metaMaxEntries)
          (sofReadU32 data 12).toNat).find? (fun e => e.1 == key) = some (key, bytes)
      ∧ ((n ≤ value.length ∧ value.take n = bytes) ↔ bytes.length ≤ 63) := by
  have hentries := parseMeta_ok _ _ (sofParse_ok h).2.2.2.2.2.2
  rw [sofGetMeta, hentries, List.find?_map] at hget
  split at hget
  · cases hget
  · next _ hfind =>
      cases hget
      obtain ⟨⟨key', bytes⟩, hfile, rfl⟩ := Option.map_eq_some_iff.mp hfind
      have hkey := List.find?_some hfile
      obtain rfl : key' = key := by simpa [metaEntryOf] using hkey
      have hlt := length_tlvEntries_lt _ _ _ (mem_of_find?_eq_some hfile)
      refine ⟨bytes, hfile, ?_⟩
      dsimp only [metaEntryOf, metaValueMax] at hlt ⊢
      rw [Nat.min_eq_left (by omega), BitVec.toNat_ofNat, Nat.mod_eq_of_lt (by omega),
        length_take, take_take]
      constructor
      · rintro ⟨_, -⟩
        omega
      · intro _
        exact ⟨by omega, take_of_length_le (by omega)⟩

/-- A binary whose name has the given number of bytes. -/
def namedParams (n : Nat) : BuildParams :=
  ⟨1, some (List.replicate n 0x61), none, none, none, none, none, none, [0x7F]⟩

/-- The file `sof_build` makes of it. -/
def namedFile (n : Nat) : Memory := store (fun _ => 0) 0 (image (namedParams n) (2 + n))

theorem sofParse_namedFile (n : Nat) : sofParse (namedFile n) (39 + n)
    = .ok (builtParsed (namedParams n) (BitVec.ofNat 32 (unsignedSize (namedParams n))) 0 0) := by
  have hdry : dryMetaSize (namedParams n).strings = 2 + n := by
    simp [dryMetaSize, namedParams, BuildParams.strings, BuildParams.items, given]
  have hsize : unsignedSize (namedParams n) = 39 + n := by
    rw [unsignedSize, hdry, headerSize, namedParams, length_singleton]
    omega
  rw [namedFile, ← hdry, image_eq, hsize]
  exact sofParse_built [] (.inl rfl) (by simp [namedParams]) hsize.le (toNat_ofNat_le ..)

theorem sofGetMeta_whole_one :
    ∃ bytes, (tlvEntries (namedFile 1) (min (sofReadU16 (namedFile 1) 16).toNat metaMaxEntries)
          (sofReadU32 (namedFile 1) 12).toNat).find? (fun e => e.1 == 1) = some (1, bytes)
      ∧ ((1 ≤ ([0x61] : List Byte).length ∧ ([0x61] : List Byte).take 1 = bytes)
        ↔ bytes.length ≤ 63) :=
  sofGetMeta_whole_iff (sofParse_namedFile 1) rfl

/-- **A LONG VALUE** is cut, but its length is not. -/
theorem long_value_cut : ∃ parsed value, sofParse (namedFile 64) 103 = .ok parsed
    ∧ sofGetMeta parsed 1 = .ok (value, 64) ∧ value.length = 63 :=
  ⟨_, _, sofParse_namedFile 64, rfl, rfl⟩

/-! ## The two builders -/

theorem sofpackWrapSize_eq (params : BuildParams) : sofpackWrapSize params =
      if params.elfPayload = [] then .error .noPayload
      else if params.fileType ≠ 1 ∧ params.fileType ≠ 2 then .error .invalidType
      else .ok (headerSize + (metaBytes params.strings).length + params.elfPayload.length) := by
  rw [sofpackWrapSize, sofpackLayout_eq]
  split_ifs <;> rfl

theorem bytesAt_image (buf : Memory) (params : BuildParams)
    (hle : (metaBytes params.strings).length ≤ metaSize) :
    bytesAt (store buf 0 (image params metaSize)) 0
        (headerSize + metaSize + params.elfPayload.length) = image params metaSize := by
  rw [← image_length params hle]
  exact load_store buf 0 (image params metaSize)

/-- The packer and the kernel's builder, on one parameter set and two buffers of one size:
    they succeed alike, report one size, which `sofpack_wrap_size` gives too, and write the
    same bytes. -/
def SameContainer (params : BuildParams) (size : Nat) : Prop :=
  ∀ buf buf' : Memory, (∀ out total, sofpackWrap params buf size = .ok (out, total) →
      ∃ out', sofBuild params buf' size = .ok (out', total)
        ∧ bytesAt out 0 total = bytesAt out' 0 total
        ∧ sofpackWrapSize params = .ok total)
    ∧ (∀ out' total, sofBuild params buf' size = .ok (out', total) →
      ∃ out, sofpackWrap params buf size = .ok (out, total))

/-- **WHEN THE BUILDERS AGREE**: exactly if no given string has more than 255 bytes, or the
    packer refuses the parameters or the buffer. -/
theorem sofpack_agrees_iff (params : BuildParams) (size : Nat) : SameContainer params size
      ↔ (∀ s ∈ params.strings, s.2.length ≤ 255)
        ∨ params.elfPayload = [] ∨ (params.fileType ≠ 1 ∧ params.fileType ≠ 2)
        ∨ size < headerSize + cutMetaSize params.strings + params.elfPayload.length := by
  have hcut := metaBytes_length params.strings
  have hle := metaBytes_length_le params.strings
  constructor
  · intro h
    by_contra hcond
    rw [not_or, not_or, not_or] at hcond
    obtain ⟨hlong, hpayload, htype, hsize⟩ := hcond
    -- the packer succeeds, and reports less than the kernel's builder counts
    have hpack : sofpackWrap params (fun _ => 0) size = .ok (_, _) :=
      (sofpackWrap_eq ..).trans (built_ok_iff.mpr ⟨hpayload, by omega, by omega, rfl, rfl⟩)
    obtain ⟨_, hbuild, -, -⟩ := (h _ (fun _ => 0)).1 _ _ hpack
    obtain ⟨-, -, -, -, htotal⟩ := sofBuild_ok_iff.mp hbuild
    have hlt : (metaBytes params.strings).length < dryMetaSize params.strings := by
      refine metaBytes_length_of_long ?_
      simpa only [not_forall, Nat.not_le, exists_prop] using hlong
    rw [unsignedSize] at htotal
    omega
  · intro hcond buf buf'
    have hshort : params.elfPayload ≠ [] → (params.fileType = 1 ∨ params.fileType = 2) →
        headerSize + (metaBytes params.strings).length + params.elfPayload.length ≤ size →
        (metaBytes params.strings).length = dryMetaSize params.strings := by
      intro hpayload htype hsize
      rcases hcond with hshort | hnone | _ | _
      · rw [metaBytes_length]
        exact congrArg List.sum (map_congr_left fun s hs => by rw [Nat.min_eq_left (hshort s hs)])
      · exact absurd hnone hpayload
      · omega
      · omega
    constructor
    · intro _ _ hpack
      rw [sofpackWrap_eq, built_ok_iff] at hpack
      obtain ⟨hpayload, htype, hsize, rfl, rfl⟩ := hpack
      have hsame := hshort hpayload htype hsize
      refine ⟨_, sofBuild_ok_iff.mpr ⟨hpayload, htype, by rw [unsignedSize]; omega, rfl,
        by rw [unsignedSize, hsame]⟩, ?_, ?_⟩
      · rw [bytesAt_image buf params (Nat.le_refl _), hsame,
          bytesAt_image buf' params (Nat.le_of_eq hsame)]
      · rw [sofpackWrapSize_eq, if_neg hpayload, if_neg (by omega)]
    · intro _ _ hbuild
      obtain ⟨hpayload, htype, hsize, -, rfl⟩ := sofBuild_ok_iff.mp hbuild
      rw [unsignedSize] at hsize
      have hsame := hshort hpayload htype (by omega)
      exact ⟨_, (sofpackWrap_eq ..).trans (built_ok_iff.mpr ⟨hpayload, htype, by omega, rfl,
        by rw [unsignedSize, hsame]⟩)⟩

/-- A binary whose name has 256 bytes. -/
def longNameParams : BuildParams :=
  ⟨1, some (List.replicate 256 0x61), none, none, none, none, none, none, [0x7F]⟩

/-- **A LONG NAME TELLS THEM APART**: with 294 bytes of room only the packer succeeds, one byte
    shorter. -/
theorem long_name_differs : (∃ out, sofpackWrap longNameParams (fun _ => 0) 295 = .ok (out, 294))
      ∧ (∃ out, sofBuild longNameParams (fun _ => 0) 295 = .ok (out, 295))
      ∧ (∃ out, sofpackWrap longNameParams (fun _ => 0) 294 = .ok (out, 294))
      ∧ sofBuild longNameParams (fun _ => 0) 294 = .error .bufferTooSmall := by
  have hpack : headerSize + (metaBytes longNameParams.strings).length
      + longNameParams.elfPayload.length = 294 := by decide +kernel
  have hbuild : unsignedSize longNameParams = 295 := by decide +kernel
  have hok : ∀ size, 294 ≤ size →
      ∃ out, sofpackWrap longNameParams (fun _ => 0) size = .ok (out, 294) := fun size hle =>
    ⟨_, (sofpackWrap_eq ..).trans (built_ok_iff.mpr ⟨by decide, .inl rfl, by omega, rfl,
      hpack.symm⟩)⟩
  refine ⟨hok 295 (by omega), ⟨_, sofBuild_ok_iff.mpr ⟨by decide, .inl rfl, by omega, rfl,
    hbuild.symm⟩⟩, hok 294 (by omega), ?_⟩
  rw [sofBuild_eq, built, if_neg (by decide), if_neg (by decide)]
  rw [unsignedSize] at hbuild
  exact if_pos (by omega)

end Sof
