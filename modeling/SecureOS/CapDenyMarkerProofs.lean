import SecureOS.CapDenyMarkerModel

/-! # Deny markers, written and read

A marker line is its three fields joined by colons between the prefix and the newline.  No field
holds a colon, so splitting the line gives the fields back. -/

namespace CapDenyMarker

open Capability List

/-- The line of three fields. -/
def marker (actor name resource : CStr) : CStr :=
  "CAP:DENY:".toList ++ ([':'].intercalate [actor, name, resource] ++ ['\n'])

/-- The characters a resource may hold. -/
def Printable (resource : CStr) : Prop := ∀ c ∈ resource, c ≠ ':' ∧ c ≠ '\n' ∧ cdmIsPrintableAscii c

/-- A resource the formatter takes. -/
structure Resource (resource : CStr) : Prop where
  filled : resource ≠ []
  short : resource.length ≤ resourceMax
  printable : Printable resource

variable {resource : CStr}

theorem Printable.any_eq_false :
    resource.any (fun c => c == ':' || c == '\n' || !cdmIsPrintableAscii c) = false
      ↔ Printable resource := by
  simp only [List.any_eq_false, Printable, Bool.not_eq_true, Bool.or_eq_false_iff,
    beq_eq_false_iff_ne, Bool.not_eq_false', and_assoc]

theorem intercalate_fields (actor name resource : CStr) : [':'].intercalate [actor, name, resource]
      = actor ++ ([':'] ++ (name ++ ([':'] ++ resource))) := by
  simp [intercalate]

theorem length_denyText : "CAP:DENY:".toList.length = 9 := by decide +kernel

theorem length_marker (actor name resource : CStr) : (marker actor name resource).length
      = actor.length + name.length + resource.length + 12 := by
  have hfields : ([':'].intercalate [actor, name, resource] ++ ['\n']).length
      = actor.length + name.length + resource.length + 3 := by
    simp
    omega
  have hline : (marker actor name resource).length = "CAP:DENY:".toList.length
      + ([':'].intercalate [actor, name, resource] ++ ['\n']).length := length_append
  rw [length_denyText, hfields] at hline
  exact hline.trans (Nat.add_comm _ _)

/-! ## The names -/

theorem cdmCapNames_names : ∀ e ∈ cdmCapNames, ':' ∉ e.2 ∧ '\n' ∉ e.2 ∧ e.2.length ≤ 16 := by
  decide +kernel

theorem cdmCapNames_distinct : ∀ e ∈ cdmCapNames, ∀ d ∈ cdmCapNames, e.2 = d.2 ↔ e.1 = d.1 := by
  decide +kernel

variable {cap : Nat} {name : CStr}

theorem capDenyMarkerName_mem : capDenyMarkerName cap = some name ↔ (cap, name) ∈ cdmCapNames := by
  constructor
  · intro h
    obtain ⟨e, he, rfl⟩ := Option.map_eq_some_iff.mp h
    have hid := find?_some he
    rw [← eq_of_beq hid]
    exact mem_of_find?_eq_some he
  · intro h
    cases he : cdmCapNames.find? (fun e => e.1 == cap) with
    | none => exact absurd (find?_eq_none.mp he _ h) (by simp)
    | some e =>
      have hid : (e.1 == cap) :=  find?_some (p := fun e : Nat × CStr => e.1 == cap) he
      have hname := (cdmCapNames_distinct e (mem_of_find?_eq_some he) _ h).mpr (eq_of_beq hid)
      simp only [capDenyMarkerName, he, Option.map_some, hname]

/-! ## What the formatter writes -/

theorem cdmAppend_bind (n : Nat) (x y b : CStr) (k : CStr → Option CStr) :
    (cdmAppend n x b).bind (fun c => (cdmAppend n y c).bind k)
      = (cdmAppend n (x ++ y) b).bind k := by
  simp only [cdmAppend, length_append]
  by_cases hx : b.length + x.length ≤ n
  · simp only [if_pos hx, Option.bind_some, length_append, Nat.add_assoc, append_assoc]
  · rw [if_neg hx, if_neg (by omega)]
    rfl

/-- A text that is appended whole, with the newline, and a terminator behind it. -/
theorem cdmAppend_newline (n : Nat) (text : CStr) : ((cdmAppend n text []).bind fun buf =>
        if buf.length ≥ n then none else if buf.length + 1 ≥ n then none else some (buf ++ ['\n']))
      = if (text ++ ['\n']).length < n then some (text ++ ['\n']) else none := by
  simp only [cdmAppend, nil_append, length_nil, Nat.zero_add, length_append,
    length_cons]
  by_cases hfit : text.length + 1 < n
  · rw [if_pos hfit, if_pos (by omega), Option.bind_some, if_neg (by omega), if_neg (by omega)]
  · rw [if_neg hfit]
    split
    · rw [Option.bind_some]
      split
      · rfl
      · rw [if_pos (by omega)]
    · rfl

/-- **WHAT FORMATTING WRITES**: the line, into every buffer that is longer than it. -/
theorem capDenyMarkerFormat_eq (hname : capDenyMarkerName cap = some name)
    (hres : Resource resource) (actor n : Nat) : capDenyMarkerFormat actor cap (some resource) n
      = if (marker (Nat.toDigits 10 actor) name resource).length < n
        then some (marker (Nat.toDigits 10 actor) name resource) else none := by
  have hcolon : ":".toList = [':'] := by decide
  have hline : ∀ pre, pre ++ ([':'].intercalate [Nat.toDigits 10 actor, name, resource] ++ ['\n'])
      = pre ++ (Nat.toDigits 10 actor ++ ([':'] ++ (name ++ ([':'] ++ resource)))) ++ ['\n'] := by
    simp
  rw [show marker (Nat.toDigits 10 actor) name resource = _ from hline _, ← cdmAppend_newline]
  simp only [capDenyMarkerFormat, hname, if_neg (Nat.not_lt.mpr hres.short),
    Printable.any_eq_false.mpr hres.printable, Bool.false_eq_true, if_false,
    length_eq_zero_iff, hres.filled, bind, cdmAppend_bind, hcolon]
  split
  next h0 =>
    rw [cdmAppend_newline, h0]
    rfl
  next => rfl

variable {n : Nat} {line : CStr}

theorem capDenyMarkerFormat_some (h : capDenyMarkerFormat actor cap (some resource) n = some line) :
    ∃ name, capDenyMarkerName cap = some name ∧ Resource resource
      ∧ line = marker (Nat.toDigits 10 actor) name resource := by
  cases hname : capDenyMarkerName cap with
  | none => simp only [capDenyMarkerFormat, hname, reduceCtorEq] at h
  | some name =>
    have hres : Resource resource := by
      simp only [capDenyMarkerFormat, hname] at h
      split_ifs at h with _ hlong hbad hempty
      exact ⟨fun he => hempty (by rw [he]; rfl), Nat.not_lt.mp hlong,
        Printable.any_eq_false.mp (Bool.eq_false_iff.mpr hbad)⟩
    rw [capDenyMarkerFormat_eq hname hres] at h
    split_ifs at h
    exact ⟨name, rfl, hres, (Option.some.inj h).symm⟩

/-! ## What the check accepts -/

/-- The fields of a line, as the check splits them. -/
def markerFields (line : CStr) : List CStr :=
  ((line.drop "CAP:DENY:".toList.length).dropLast).splitOn ':'

/-- Three fields the check accepts. -/
structure Accepted (actor name resource : CStr) : Prop where
  actorFilled : actor ≠ []
  digits : ∀ c ∈ actor, '0' ≤ c ∧ c ≤ '9'
  known : ∃ cap, (cap, name) ∈ cdmCapNames
  filled : resource ≠ []
  printable : Printable resource

variable {actor : CStr}

theorem Accepted.clean (h : Accepted actor name resource) :
    ∀ f ∈ [actor, name, resource], ':' ∉ f ∧ '\n' ∉ f := by
  obtain ⟨_, hknown⟩ := h.known
  intro _ hf
  simp only [mem_cons, not_mem_nil, or_false] at hf
  rcases hf with rfl | rfl | rfl
  · exact ⟨fun hc => absurd (h.digits _ hc).2 (by decide),
      fun hc => absurd (h.digits _ hc).1 (by decide)⟩
  · exact ⟨(cdmCapNames_names _ hknown).1, (cdmCapNames_names _ hknown).2.1⟩
  · exact ⟨fun hc => (h.printable _ hc).1 rfl, fun hc => (h.printable _ hc).2.1 rfl⟩

theorem drop_dropLast_concat (pre text : CStr) (c : Char) :
    ((pre ++ (text ++ [c])).drop pre.length).dropLast = text := by
  rw [drop_left, dropLast_concat]

theorem markerBody (actor name resource : CStr) :
    ((marker actor name resource).drop "CAP:DENY:".toList.length).dropLast
      = [':'].intercalate [actor, name, resource] :=
  drop_dropLast_concat _ _ _

theorem Accepted.splitOn (h : Accepted actor name resource) :
    ([':'].intercalate [actor, name, resource]).splitOn ':' = [actor, name, resource] :=
  splitOn_intercalate _ (fun f hf => (h.clean f hf).1) (cons_ne_nil _ _)

theorem Accepted.markerFields (h : Accepted actor name resource) :
    markerFields (marker actor name resource) = [actor, name, resource] := by
  rw [CapDenyMarker.markerFields, markerBody, h.splitOn]

theorem concat_of_getLast? (hpre : pre.isPrefixOf line)
    (hlast : line.getLast? = some c) (hne : pre.getLast? ≠ some c) :
    line = pre ++ ((line.drop pre.length).dropLast ++ [c]) := by
  obtain ⟨rest, rfl⟩ := isPrefixOf_iff_prefix.mp hpre
  rw [drop_left]
  rw [getLast?_append] at hlast
  cases hrest : rest.getLast? with
  | none =>
    rw [hrest] at hlast
    exact absurd hlast hne
  | some d =>
    rw [hrest] at hlast
    obtain rfl : d = c := Option.some.inj hlast
    obtain ⟨_, rfl⟩ := getLast?_eq_some_iff.mp hrest
    rw [dropLast_concat]

theorem actor_any_eq_false :
    actor.any (fun c => c < '0' || c > '9') = false ↔ ∀ c ∈ actor, '0' ≤ c ∧ c ≤ '9' := by
  simp only [any_eq_false, Bool.or_eq_true, decide_eq_true_eq, not_or, gt_iff_lt, Char.not_lt]

/-- **WHAT THE CHECK ACCEPTS**: the short lines of three accepted fields. -/
theorem cdmRefusal_eq_none : cdmRefusal (some line) = none ↔ line.length ≤ markerMax
      ∧ ∃ actor name resource, line = marker actor name resource
        ∧ Accepted actor name resource := by
  constructor
  · intro h
    simp only [cdmRefusal] at h
    split_ifs at h with hlong hpre hend
    have hline := concat_of_getLast? (Bool.not_eq_false _ ▸ mt (congrArg not) hpre)
      (not_not.mp hend) (by decide +kernel)
    split at h
    next actor name resource hsplit =>
      split_ifs at h with hactor hdigits hname hres hbad
      refine ⟨Nat.not_lt.mp hlong, actor, name, resource, ?_, hactor,
        actor_any_eq_false.mp (Bool.eq_false_iff.mpr hdigits), ?_, hres,
        Printable.any_eq_false.mp (Bool.eq_false_iff.mpr hbad)⟩
      · have hbody : (line.drop "CAP:DENY:".toList.length).dropLast
            = [':'].intercalate [actor, name, resource] := by
          rw [← hsplit, intercalate_splitOn]
        exact hline.trans (congrArg (fun body => "CAP:DENY:".toList ++ (body ++ ['\n'])) hbody)
      · simpa using hname
    next => cases h
  · rintro ⟨hlen, actor, name, resource, rfl, hacc⟩
    obtain ⟨_, hknown⟩ := hacc.known
    have hany : cdmCapNames.any (fun e => e.2 == name) :=
      any_eq_true.mpr ⟨_, hknown, beq_self_eq_true _⟩
    have hlast : ∀ pre : CStr, (pre ++ ([':'].intercalate [actor, name, resource]
        ++ ['\n'])).getLast? = some '\n' := by
      intro _
      rw [← append_assoc, getLast?_concat]
    have hpre : "CAP:DENY:".toList.isPrefixOf (marker actor name resource) :=
      isPrefixOf_iff_prefix.mpr ⟨_, rfl⟩
    have hnl : '\n' ∉ [':'].intercalate [actor, name, resource] := by
      simp only [intercalate_fields, mem_append, not_or]
      have hclean := fun f hf => (hacc.clean f hf).2
      exact ⟨hclean _ (by simp), by decide, hclean _ (by simp), by decide, hclean _ (by simp)⟩
    have hbody : [':'].intercalate [actor, name, resource] ≠ [] := by simp
    simp only [cdmRefusal, markerBody, hacc.splitOn, hpre, hany, if_neg hnl, if_neg hbody,
      if_neg (Nat.not_lt.mpr hlen), show (marker actor name resource).getLast? = _ from hlast _,
      if_neg hacc.actorFilled, actor_any_eq_false.mpr hacc.digits, if_neg hacc.filled,
      Printable.any_eq_false.mpr hacc.printable, Bool.not_true, Bool.false_eq_true, if_false,
      ne_eq, not_true_eq_false]

theorem validate_eq_zero :
    (capDenyMarkerValidate line reasonSize).1 = 0 ↔ cdmRefusal line = none := by
  rw [capDenyMarkerValidate]
  cases cdmRefusal line with
  | none => exact ⟨fun _ => rfl, fun _ => rfl⟩
  | some => exact ⟨nofun, nofun⟩

/-! ## Formatted lines -/

theorem accepted_format (hname : capDenyMarkerName cap = some name) (hres : Resource resource)
    (actor : Nat) : Accepted (Nat.toDigits 10 actor) name resource := by
  refine ⟨Nat.toDigits_ne_nil, fun c hc => ?_, ⟨cap, capDenyMarkerName_mem.mp hname⟩,
    hres.filled, hres.printable⟩
  have hdigit := Nat.isDigit_of_mem_toDigits (by decide) (by decide) hc
  simpa [Char.isDigit, Char.le_def] using hdigit

theorem toDigits_injective (h : Nat.toDigits 10 m = Nat.toDigits 10 n) : m = n := by
  rw [← Nat.ofDigitChars_ten_toDigits (n := m), h, Nat.ofDigitChars_ten_toDigits]

/-- The fields of a line give back what was written. -/
theorem format_recovers {actor actor' cap' n' : Nat} {resource' : CStr}
    (h : capDenyMarkerFormat actor cap (some resource) n = some line)
    (h' : capDenyMarkerFormat actor' cap' (some resource') n' = some line) :
    actor' = actor ∧ cap' = cap ∧ resource' = resource := by
  obtain ⟨_, hname, hres, rfl⟩ := capDenyMarkerFormat_some h
  obtain ⟨_, hname', hres', hline⟩ := capDenyMarkerFormat_some h'
  have hfields := (accepted_format hname' hres' actor').markerFields
  rw [← hline, (accepted_format hname hres actor).markerFields] at hfields
  injection hfields with hactor hrest
  injection hrest with hcap hrest
  injection hrest with hresource
  refine ⟨toDigits_injective hactor.symm, ?_, hresource.symm⟩
  exact ((cdmCapNames_distinct _ (capDenyMarkerName_mem.mp hname) _
    (capDenyMarkerName_mem.mp hname')).mp hcap).symm

/-- **DENY MARKERS ARE UNAMBIGUOUS**: every marker fits the buffer of the deny paths, is refused by
    every buffer it does not fit, is accepted by the check, and is the marker of nothing else. -/
theorem denyMarker_unambiguous {actor cap : Nat} {resource : CStr} (hactor : actor < 2 ^ 32)
    (hcap : 1 ≤ cap ∧ cap ≤ capInputKeyboard) (hres : Resource resource) :
    ∃ line, capDenyMarkerFormat actor cap (some resource) markerMax = some line
      ∧ (∀ n, n ≤ line.length → capDenyMarkerFormat actor cap (some resource) n = none)
      ∧ (∀ reasonSize, (capDenyMarkerValidate (some line) reasonSize).1 = 0)
      ∧ ∀ actor' cap' resource' n, capDenyMarkerFormat actor' cap' (some resource') n = some line →
          actor' = actor ∧ cap' = cap ∧ resource' = resource := by
  have hregistered : ∀ cap ≤ capInputKeyboard, 1 ≤ cap → (capDenyMarkerName cap).isSome := by
    decide +kernel
  obtain ⟨name, hname⟩ := Option.isSome_iff_exists.mp (hregistered cap hcap.2 hcap.1)
  have hdigits : (Nat.toDigits 10 actor).length ≤ 10 :=
    (Nat.length_toDigits_le_iff (by decide) (by decide)).mpr (hactor.trans (by decide))
  have hshort : (marker (Nat.toDigits 10 actor) name resource).length < markerMax := by
    have hlen : name.length ≤ 16 := (cdmCapNames_names _ (capDenyMarkerName_mem.mp hname)).2.2
    have hrlen := hres.short
    rw [length_marker]
    simp only [resourceMax, markerMax] at hrlen ⊢
    omega
  have hformat := capDenyMarkerFormat_eq hname hres actor
  have hfits := (hformat markerMax).trans (if_pos hshort)
  refine ⟨_, hfits, ?_, ?_, fun _ _ _ _ h' => format_recovers hfits h'⟩
  · intro _ hn
    rw [hformat, if_neg (Nat.not_lt.mpr hn)]
  · intro _
    exact validate_eq_zero.mpr (cdmRefusal_eq_none.mpr
      ⟨hshort.le, _, _, _, rfl, accepted_format hname hres actor⟩)

theorem denyMarker_unambiguous_network :
    ∃ line, capDenyMarkerFormat 42 capNetwork (some "-".toList) markerMax = some line
      ∧ (capDenyMarkerValidate (some line) 0).1 = 0 := by
  have hdash : Printable "-".toList := forall_mem_singleton.mpr (by decide)
  obtain ⟨line, hline, -, hvalid, -⟩ := @denyMarker_unambiguous 42 capNetwork "-".toList
    (by decide) (by decide) ⟨by decide, by decide, hdash⟩
  exact ⟨line, hline, hvalid 0⟩

/-! ## Accepted lines -/

/-- The subject is written as its number in 32 bits, and the resource as short as the formatter
    takes. -/
def Canonical (line : CStr) : Prop :=
  ∃ actor name resource, markerFields line = [actor, name, resource]
    ∧ actor = Nat.toDigits 10 (Nat.ofDigitChars 10 actor 0)
    ∧ Nat.ofDigitChars 10 actor 0 < 2 ^ 32 ∧ resource.length ≤ resourceMax

theorem canonical_of_format {actor : Nat} (hactor : actor < 2 ^ 32)
    (h : capDenyMarkerFormat actor cap (some resource) n = some line) : Canonical line := by
  obtain ⟨_, hname, hres, rfl⟩ := capDenyMarkerFormat_some h
  refine ⟨_, _, _, (accepted_format hname hres actor).markerFields, ?_, ?_, hres.short⟩
  · rw [Nat.ofDigitChars_ten_toDigits]
  · rwa [Nat.ofDigitChars_ten_toDigits]

/-- **THE CHECK IS EXACT ON CANONICAL LINES**: of accepted lines, the formatter writes the canonical
    ones. -/
theorem validate_exact_iff {line : CStr} {reasonSize : Nat}
    (h : (capDenyMarkerValidate (some line) reasonSize).1 = 0) :
    (∃ actor cap resource n, actor < 2 ^ 32
        ∧ capDenyMarkerFormat actor cap (some resource) n = some line) ↔ Canonical line := by
  constructor
  · rintro ⟨_, cap, _, _, hactor, hformat⟩
    exact canonical_of_format hactor hformat
  · rintro ⟨_, _, _, hfields, hdigits, hactor, hshort⟩
    obtain ⟨-, a, b, r, rfl, hacc⟩ := cdmRefusal_eq_none.mp (validate_eq_zero.mp h)
    rw [hacc.markerFields] at hfields
    injection hfields with ha hrest
    injection hrest with hb hrest
    injection hrest with hr
    subst ha hb hr
    obtain ⟨cap, hknown⟩ := hacc.known
    refine ⟨_, cap, r, (marker a b r).length + 1, hactor, ?_⟩
    rw [capDenyMarkerFormat_eq (capDenyMarkerName_mem.mpr hknown)
      ⟨hacc.filled, hshort, hacc.printable⟩, ← hdigits, if_pos (Nat.lt_succ_self _)]

theorem validate_exact_iff_seven : Canonical "CAP:DENY:7:network:x\n".toList :=
  (@validate_exact_iff _ 0 (by decide +kernel)).mp
    ⟨7, capNetwork, ['x'], 256, by decide, by decide +kernel⟩

/-- A subject with leading zeros is accepted, and no call formats it so. -/
theorem leading_zeros_accepted :
    (capDenyMarkerValidate (some "CAP:DENY:007:network:x\n".toList) 0).1 = 0
      ∧ ¬ ∃ actor cap resource n, actor < 2 ^ 32 ∧ capDenyMarkerFormat actor cap (some resource) n
          = some "CAP:DENY:007:network:x\n".toList := by
  refine ⟨by decide +kernel, ?_⟩
  rintro ⟨_, _, _, n, hactor, hformat⟩
  obtain ⟨_, _, _, hfields, hdigits, -⟩ := canonical_of_format hactor hformat
  have hsplit : markerFields "CAP:DENY:007:network:x\n".toList
      = ["007".toList, "network".toList, ['x']] := by
    decide +kernel
  injection hsplit.symm.trans hfields with ha
  rw [← ha] at hdigits
  exact absurd hdigits (by decide +kernel)

end CapDenyMarker
