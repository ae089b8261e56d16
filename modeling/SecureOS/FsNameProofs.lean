import SecureOS.FsSlotProofs

/-! # Names in the 8.3 form

A name is accepted when it is a base of at most eight bytes and, behind one dot, an extension of
at most three; the stored name is both in upper case, filled up with blanks.  A listing shows it
in lower case, up to the first blank of each part. -/

namespace Fs

open List hiding beq_eq_decide

open Sof (Byte)

/-- The bytes of a part of a name. -/
def PartOk (part : List Byte) : Prop := ∀ c ∈ part, fsPathIsSeparator c = false ∧ c ≠ 0x2E

theorem partOk_cons : PartOk (c :: part) ↔ (fsPathIsSeparator c = false ∧ c ≠ 0x2E) ∧ PartOk part :=
  forall_mem_cons

theorem fsParse83Loop_ext (name : List Byte) {cs ext : List Byte} {r : List Byte × List Byte} :
    ext.length ≤ 3 → (fsParse83Loop cs name ext true = some r
      ↔ PartOk cs ∧ ext.length + cs.length ≤ 3 ∧ (name, ext ++ cs.map fsCharUpper) = r) := by
  induction cs generalizing ext with
  | nil =>
    intro hext
    simp [fsParse83Loop, PartOk, hext]
  | cons c cs ih =>
    intro _
    have hroom : ext.length + (c :: cs).length = (ext ++ [fsCharUpper c]).length + cs.length := by
      simp
      omega
    rw [fsParse83Loop, partOk_cons, hroom]
    simp only [Bool.not_true, Bool.false_eq_true, if_false, if_true]
    split_ifs with hsep hdot hfull
    · simp [hsep]
    · simp [hdot]
    · simp
      omega
    · have hc : fsPathIsSeparator c = false ∧ c ≠ 0x2E := ⟨Bool.eq_false_iff.mpr hsep, hdot⟩
      rw [ih (by simp; omega), and_iff_right hc, append_assoc]
      rfl

theorem fsParse83Loop_base {base tail name : List Byte} :
    PartOk base → name.length ≤ 8 → fsParse83Loop (base ++ tail) name [] false
      = if name.length + base.length ≤ 8
        then fsParse83Loop tail (name ++ base.map fsCharUpper) [] false else none := by
  induction base generalizing name with
  | nil =>
    intro _ hname
    simp [hname]
  | cons c _ ih =>
    intro hpart _
    obtain ⟨⟨hsep, hdot⟩, hpart⟩ := partOk_cons.mp hpart
    rw [cons_append, fsParse83Loop, hsep, if_neg Bool.false_ne_true, if_neg hdot]
    by_cases hfull : 8 ≤ name.length
    · simp [hfull]
      omega
    · simp only [Bool.not_false, if_true, if_neg hfull, ih hpart (by simp; omega : (name
        ++ [fsCharUpper c]).length ≤ 8), length_append, length_cons, length_nil,
        map_cons, append_assoc, cons_append, nil_append, Nat.add_assoc,
        Nat.add_comm 1]

/-- A text that is a base, or a base, a dot and an extension. -/
structure Parts (w base ext : List Byte) : Prop where
  text : w = base ∧ ext = [] ∨ w = base ++ 0x2E :: ext
  baseOk : PartOk base
  extOk : PartOk ext
  filled : base ≠ []
  baseShort : base.length ≤ 8
  extShort : ext.length ≤ 3

/-- The eleven bytes stored for a base and an extension. -/
def stored (base ext : List Byte) : List Byte :=
  padded 8 (base.map fsCharUpper) ++ padded 3 (ext.map fsCharUpper)

theorem fsParse83Name_of_loop {w name ext : List Byte} {n : Name83}
    (h : fsParse83Loop w [] [] false = some (name, ext)) :
    fsParse83Name w = some n ↔ name ≠ [] ∧ n.1 = padded 8 name ++ padded 3 ext := by
  simp only [fsParse83Name, h]
  split_ifs with hempty
  · simp [hempty]
  · simp [hempty, Subtype.ext_iff, eq_comm]

/-- **WHAT IS ACCEPTED AND WHAT IS STORED.** -/
theorem fsParse83Name_iff {w : List Byte} {n : Name83} :
    fsParse83Name w = some n ↔ ∃ base ext, Parts w base ext ∧ n.1 = stored base ext := by
  constructor
  · intro h
    obtain ⟨⟨_, _⟩, hloop⟩ : ∃ r, fsParse83Loop w [] [] false = some r := by
      rw [fsParse83Name] at h
      split at h
      · cases h
      · exact ⟨_, ‹_›⟩
    obtain ⟨hname, hn⟩ := (fsParse83Name_of_loop hloop).mp h
    -- The base ends at the first separator or dot.
    have hsplit := takeWhile_append_dropWhile
      (p := fun c => !fsPathIsSeparator c && c != 0x2E) (l := w)
    have hbase : PartOk (w.takeWhile fun c => !fsPathIsSeparator c && c != 0x2E) := by
      intro c hc
      simpa using mem_takeWhile_imp hc
    generalize w.takeWhile _ = base at hsplit hbase
    generalize htail : w.dropWhile _ = tail at hsplit
    subst hsplit
    rw [@fsParse83Loop_base base tail [] hbase (Nat.zero_le 8)] at hloop
    split_ifs at hloop with hshort
    cases tail with
    | nil =>
      obtain ⟨rfl, rfl⟩ := Prod.mk.inj (Option.some.inj hloop)
      exact ⟨base, [], ⟨.inl ⟨append_nil _, rfl⟩, hbase, nofun, by simpa using hname,
        by simpa using hshort, Nat.zero_le 3⟩, hn⟩
    | cons c tail =>
      have hstop : (!fsPathIsSeparator c && c != 0x2E) = false := by
        have hhead := head?_dropWhile_not
          (p := fun c => !fsPathIsSeparator c && c != 0x2E) (l := base ++ c :: tail)
        rw [htail] at hhead
        simpa using hhead
      rw [fsParse83Loop] at hloop
      split_ifs at hloop with hsep hdot
      · obtain ⟨hext, hlen, hr⟩ := (@fsParse83Loop_ext _ _ [] _ (Nat.zero_le 3)).mp hloop
        obtain ⟨rfl, rfl⟩ := Prod.mk.inj hr.symm
        exact ⟨base, tail, ⟨.inr (by rw [hdot]), hbase, hext, by simpa using hname,
          by simpa using hshort, by simpa using hlen⟩, hn⟩
      all_goals exact absurd (by simpa [hsep] using hstop) hdot
  · rintro ⟨base, ext, hp, hn⟩
    have hloop : fsParse83Loop w [] [] false
        = some (base.map fsCharUpper, ext.map fsCharUpper) := by
      have hb := fun tail => @fsParse83Loop_base base tail [] hp.baseOk (Nat.zero_le 8)
      rcases hp.text with ⟨rfl, rfl⟩ | rfl
      · have hw := hb []
        rw [if_pos (by simpa using hp.baseShort), append_nil] at hw
        exact hw
      · rw [hb, if_pos (by simpa using hp.baseShort)]
        exact (@fsParse83Loop_ext _ _ [] _ (Nat.zero_le 3)).mpr
          ⟨hp.extOk, by simpa using hp.extShort, rfl⟩
    exact (fsParse83Name_of_loop hloop).mpr ⟨by simpa using hp.filled, hn⟩

/-- The first byte of a name is a byte of the text it was parsed from. -/
theorem fsParse83Name_marker (h : fsParse83Name w = some n) :
    ∃ c ∈ w, n.marker = fsCharUpper c := by
  obtain ⟨_, _, hp, hn⟩ := fsParse83Name_iff.mp h
  obtain ⟨c, _, rfl⟩ := exists_cons_of_ne_nil hp.filled
  refine ⟨c, ?_, ?_⟩
  · rcases hp.text with ⟨rfl, -⟩ | rfl <;> simp
  · simp [Name83.marker, hn, stored, padded]

/-- Nothing but blanks stands behind a blank. -/
def Solid (part : List Byte) : Prop := ∀ c ∈ part.dropWhile (· != 0x20), c = 0x20

/-- A name does not start with a blank, and in neither part anything else stands behind a blank. -/
def NoInnerBlank (w : List Byte) : Prop :=
  w.head? ≠ some 0x20 ∧ Solid (w.takeWhile (· != 0x2E)) ∧ Solid ((w.dropWhile (· != 0x2E)).drop 1)

theorem upper_blank : ∀ c : Byte, fsCharUpper c = 0x20 ↔ c = 0x20 := by decide

theorem blank_comp_upper : ((· != 0x20) ∘ fsCharUpper) = (· != (0x20 : Byte)) := by
  funext c
  simp only [Function.comp_apply, bne, beq_eq_decide, upper_blank]

theorem upper_lower : ∀ c : Byte, fsCharUpper (fsCharLower (fsCharUpper c)) = fsCharUpper c := by
  decide

theorem lower_part : ∀ c : Byte, fsPathIsSeparator c = false ∧ c ≠ 0x2E →
    fsPathIsSeparator (fsCharLower (fsCharUpper c)) = false
      ∧ fsCharLower (fsCharUpper c) ≠ 0x2E := by
  decide

theorem padded_eq (h : part.length ≤ k) :
    padded k part = part ++ replicate (k - part.length) 0x20 := by
  rw [padded, take_append, take_of_length_le h, take_replicate,
    Nat.min_eq_left (Nat.sub_le ..)]

/-- The part of a name that a listing shows. -/
def shown (part : List Byte) : List Byte :=
  (part.takeWhile (· != 0x20)).map (fsCharLower ∘ fsCharUpper)

theorem takeWhile_append_replicate (part : List Byte) (n : Nat) :
    (part ++ replicate n 0x20).takeWhile (· != 0x20) = part.takeWhile (· != 0x20) := by
  induction part with
  | nil => cases n <;> simp [replicate_succ]
  | cons _ _ ih => simp only [cons_append, takeWhile_cons, ih]

theorem shown_padded (h : part.length ≤ k) :
    ((padded k (part.map fsCharUpper)).takeWhile (· != 0x20)).map fsCharLower = shown part := by
  rw [padded_eq (by simpa using h), takeWhile_append_replicate, takeWhile_map,
    blank_comp_upper, shown, map_map]

theorem map_upper_shown (part : List Byte) :
    (shown part).map fsCharUpper = (part.takeWhile (· != 0x20)).map fsCharUpper := by
  rw [shown, map_map]
  exact map_congr_left fun c _ => upper_lower c

theorem padded_shown_iff (h : part.length ≤ k) :
    padded k ((shown part).map fsCharUpper) = padded k (part.map fsCharUpper) ↔ Solid part := by
  have hsplit := takeWhile_append_dropWhile (p := fun c : Byte => c != 0x20) (l := part)
  have hlen := congrArg length hsplit
  rw [length_append] at hlen
  have hpart : part.map fsCharUpper = (part.takeWhile (· != 0x20)).map fsCharUpper
      ++ (part.dropWhile (· != 0x20)).map fsCharUpper := by
    rw [← map_append, hsplit]
  rw [map_upper_shown, padded_eq (by rw [length_map]; omega), padded_eq (by simpa using h),
    hpart, append_assoc, append_cancel_left_eq, eq_comm, append_eq_replicate_iff]
  simp only [length_append, length_map, length_replicate, eq_replicate_iff,
    mem_map, forall_exists_index, and_imp, forall_apply_eq_imp_iff₂, upper_blank, true_and,
    Solid]
  exact ⟨fun hd => hd.2.1, fun hd => ⟨by omega, hd, trivial⟩⟩

/-- The text of a listing without the slash of a directory. -/
def listedText (base ext : List Byte) : List Byte :=
  shown base ++ if ext.any (· != 0x20) then 0x2E :: shown ext else []

theorem length_shown_le (part : List Byte) : (shown part).length ≤ part.length := by
  rw [shown, length_map]
  exact (takeWhile_sublist _).length_le

theorem fsFormatNameForList_eq (hp : Parts w base ext) (hn : n.1 = stored base ext) (isDir : Bool) :
    fsFormatNameForList n isDir = listedText base ext ++ if isDir then [0x2F] else [] := by
  have hany : (padded 3 (ext.map fsCharUpper)).any (· != 0x20) = ext.any (· != 0x20) := by
    rw [padded_eq (by simpa using hp.extShort), any_append, any_map, blank_comp_upper]
    simp
  have htake : (stored base ext).take 8 = padded 8 (base.map fsCharUpper) :=
    take_left' (padded_length ..)
  have hdrop : (stored base ext).drop 8 = padded 3 (ext.map fsCharUpper) :=
    drop_left' (padded_length ..)
  have hb := hp.baseShort
  have he := hp.extShort
  have hb' := length_shown_le base
  have he' := length_shown_le ext
  simp only [fsFormatNameForList, hn, htake, hdrop, hany, shown_padded hb, shown_padded he]
  refine take_of_length_le ?_
  simp only [length_append]
  split <;> split <;> simp only [length_cons, length_nil] <;> omega

theorem shown_eq_nil_of_any (h : ¬ part.any (· != 0x20)) : shown part = [] := by
  cases part with
  | nil => rfl
  | cons => simp_all [shown]

theorem partOk_shown (h : PartOk part) : PartOk (shown part) := by
  intro _ hc
  obtain ⟨d, hd, rfl⟩ := mem_map.mp hc
  exact lower_part d (h d ((takeWhile_sublist _).subset hd))

/-- The listed text names the shown parts, unless nothing of the base is shown. -/
theorem fsParse83Name_listedText (hp : Parts w base ext) :
    fsParse83Name (listedText base ext) = some n
      ↔ shown base ≠ [] ∧ n.1 = stored (shown base) (shown ext) := by
  by_cases hne : shown base = []
  · refine ⟨fun h => ?_, fun h => absurd hne h.1⟩
    obtain ⟨_, _, hq, -⟩ := fsParse83Name_iff.mp h
    obtain ⟨c, _, rfl⟩ := exists_cons_of_ne_nil hq.filled
    have hhead : (listedText base ext).head? = some c := by
      rcases hq.text with ⟨htext, -⟩ | htext <;> rw [htext] <;> rfl
    rw [listedText, hne] at hhead
    split_ifs at hhead
    · exact absurd (Option.some.inj hhead).symm (partOk_cons.mp hq.baseOk).1.2
    · cases hhead
  · have hparts : Parts (listedText base ext) (shown base) (shown ext) := by
      refine ⟨?_, partOk_shown hp.baseOk, partOk_shown hp.extOk, hne,
        (length_shown_le _).trans hp.baseShort, (length_shown_le _).trans hp.extShort⟩
      rw [listedText]
      split_ifs with hany
      · exact .inr rfl
      · exact .inl ⟨append_nil _, shown_eq_nil_of_any hany⟩
    have hlen : (stored (shown base) (shown ext)).length = 11 := by
      rw [stored, length_append, padded_length, padded_length]
    have hparse : fsParse83Name (listedText base ext) = some ⟨_, hlen⟩ :=
      fsParse83Name_iff.mpr ⟨_, _, hparts, rfl⟩
    rw [hparse, Option.some.injEq, Subtype.ext_iff, and_iff_right hne, eq_comm]

theorem stored_shown_iff (hp : Parts w base ext) :
    stored base ext = stored (shown base) (shown ext) ↔ Solid base ∧ Solid ext := by
  rw [← padded_shown_iff hp.baseShort, ← padded_shown_iff hp.extShort, eq_comm]
  constructor
  · intro h
    exact append_inj h (by rw [padded_length, padded_length])
  · rintro ⟨hb, he⟩
    rw [stored, hb, he, stored]

theorem Parts.noInnerBlank_iff (hp : Parts w base ext) :
    NoInnerBlank w ↔ shown base ≠ [] ∧ Solid base ∧ Solid ext := by
  have hdot : ∀ c ∈ base, (c != 0x2E) := fun c hc => bne_iff_ne.mpr (hp.baseOk c hc).2
  have hparts : w.head? = base.head? ∧ w.takeWhile (· != 0x2E) = base
      ∧ (w.dropWhile (· != 0x2E)).drop 1 = ext := by
    obtain ⟨c, _, hb⟩ := exists_cons_of_ne_nil hp.filled
    rcases hp.text with ⟨rfl, rfl⟩ | rfl
    · exact ⟨rfl, takeWhile_eq_self_iff.mpr hdot, by
        rw [dropWhile_eq_nil_iff.mpr hdot, drop_nil]⟩
    · rw [takeWhile_append_of_pos hdot, dropWhile_append_of_pos hdot, hb]
      simp
  have hshown : base.head? ≠ some 0x20 ↔ shown base ≠ [] := by
    obtain ⟨c, _, rfl⟩ := exists_cons_of_ne_nil hp.filled
    by_cases hc : c = 0x20 <;> simp [shown, hc]
  rw [NoInnerBlank, hparts.1, hparts.2.1, hparts.2.2, hshown]

/-- **LISTED NAMES CAN BE OPENED** exactly when nothing but blanks stands behind a blank: the listed
    text is accepted again and gives the stored name, so two such names have two texts. -/
theorem listed_name_iff {w : List Byte} {n : Name83} (h : fsParse83Name w = some n) (isDir : Bool) :
    ∃ text, fsFormatNameForList n isDir = text ++ (if isDir then [0x2F] else [])
      ∧ (fsParse83Name text = some n ↔ NoInnerBlank w)
      ∧ ∀ w' n' isDir', fsParse83Name w' = some n' →
          fsFormatNameForList n' isDir' = text ++ (if isDir' then [0x2F] else []) →
          NoInnerBlank w → NoInnerBlank w' → n' = n := by
  have hopens : ∀ {w base ext n}, Parts w base ext → n.1 = stored base ext →
      (fsParse83Name (listedText base ext) = some n ↔ NoInnerBlank w) := by
    intro _ base ext _ hp hn
    rw [fsParse83Name_listedText hp, hn, stored_shown_iff hp, hp.noInnerBlank_iff]
  obtain ⟨base, ext, hp, hn⟩ := fsParse83Name_iff.mp h
  refine ⟨listedText base ext, fsFormatNameForList_eq hp hn isDir, hopens hp hn, ?_⟩
  intro _ _ _ h' htext hplain hplain'
  obtain ⟨_, _, hp', hn'⟩ := fsParse83Name_iff.mp h'
  rw [fsFormatNameForList_eq hp' hn', append_cancel_right_eq] at htext
  have hopen' := (hopens hp' hn').mpr hplain'
  rw [htext] at hopen'
  exact Option.some.inj (hopen'.symm.trans ((hopens hp hn).mpr hplain))

/-- `a.txt` is listed as it is named. -/
theorem listed_name_iff_txt : ∃ n text, fsParse83Name [0x61, 0x2E, 0x74, 0x78, 0x74] = some n
      ∧ fsFormatNameForList n false = text ++ [] ∧ fsParse83Name text = some n := by
  obtain ⟨n, hn⟩ : ∃ n, fsParse83Name [0x61, 0x2E, 0x74, 0x78, 0x74] = some n := ⟨_, rfl⟩
  obtain ⟨text, htext, hiff, -⟩ := listed_name_iff hn false
  exact ⟨n, text, hn, htext, hiff.mpr (by unfold NoInnerBlank Solid; decide)⟩

/-- `a b` and `a c` are two names, and both are listed as `a`. -/
theorem inner_blank_listed :
    ∃ n n', fsParse83Name [0x61, 0x20, 0x62] = some n ∧ fsParse83Name [0x61, 0x20, 0x63] = some n'
      ∧ n ≠ n' ∧ fsFormatNameForList n false = [0x61]
      ∧ fsFormatNameForList n' false = [0x61] ∧ fsParse83Name [0x61] ≠ some n := by
  refine ⟨_, _, rfl, rfl, ?_, rfl, rfl, ?_⟩ <;> decide

end Fs
