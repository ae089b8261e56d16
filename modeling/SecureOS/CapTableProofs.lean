import SecureOS.CapabilityModel

/-! # The per-subject capability bitset table

`kernel/cap/cap_table.c`: eight subjects, nineteen capabilities, three bytes of bits per
subject.  The three entry points check the subject, then the capability, then touch one bit.

`capTableCheck_grant` and `capTableCheck_revoke` say what the two mutators do to every answer
the table gives; nothing outside this file looks at the bits. -/

namespace CapTable

open Capability Function BitVec

/-- `CAP_TABLE_MAX_SUBJECTS`. -/
def capTableMaxSubjects : Nat := 8

/-- `subject_capability_bits[CAP_TABLE_MAX_SUBJECTS][CAP_WORDS_PER_SUBJECT]`. -/
abbrev Bits := Fin 8 → Fin 3 → BitVec 8

def capSubjectValid (s : Nat) : Bool := s < capTableMaxSubjects

/-- `cap_id_valid`: the ids from `CAP_CONSOLE_WRITE` to `CAP_INPUT_KEYBOARD`. -/
def capIdValid (c : Nat) : Bool := capConsoleWrite ≤ c && c ≤ capInputKeyboard

def capTableReset : Bits := fun _ _ => 0

/-- The word a capability's bit lives in. -/
def capWord (c : Nat) : Fin 3 := Fin.ofNat 3 ((c - capConsoleWrite) / 8)

/-- The mask of a capability's bit in its word. -/
def capMask (c : Nat) : BitVec 8 := 1#8 <<< ((c - capConsoleWrite) % 8)

/-- Replace one word of one subject. -/
def setWord (t : Bits) (s : Fin 8) (w : Fin 3) (b : BitVec 8) : Bits :=
  update t s (update (t s) w b)

def capTableGrant (t : Bits) (s c : Nat) : Bits × CapResult :=
  if !capSubjectValid s then (t, .errSubjectInvalid)
  else if !capIdValid c then (t, .errCapInvalid)
  else
    let i := Fin.ofNat 8 s
    (setWord t i (capWord c) (t i (capWord c) ||| capMask c), .ok)

def capTableRevoke (t : Bits) (s c : Nat) : Bits × CapResult :=
  if !capSubjectValid s then (t, .errSubjectInvalid)
  else if !capIdValid c then (t, .errCapInvalid)
  else
    let i := Fin.ofNat 8 s
    (setWord t i (capWord c) (t i (capWord c) &&& ~~~capMask c), .ok)

def capTableCheck (t : Bits) (s c : Nat) : CapResult :=
  if !capSubjectValid s then .errSubjectInvalid
  else if !capIdValid c then .errCapInvalid
  else if t (Fin.ofNat 8 s) (capWord c) &&& capMask c ≠ 0 then .ok
  else .errMissing

/-- The ids the two range checks let through. -/
def ValidPair (s c : Nat) : Prop := s < 8 ∧ 1 ≤ c ∧ c ≤ 19

instance (s c : Nat) : Decidable (ValidPair s c) := inferInstanceAs (Decidable (_ ∧ _ ∧ _))

theorem validPair_iff (s c : Nat) : ValidPair s c ↔ capSubjectValid s ∧ capIdValid c := by
  unfold ValidPair capSubjectValid capIdValid capTableMaxSubjects capConsoleWrite capInputKeyboard
  simp only [Bool.and_eq_true, decide_eq_true_eq]

/-- The bit the table keeps for a pair. -/
def bit (t : Bits) (s c : Nat) : Bool := t (Fin.ofNat 8 s) (capWord c) &&& capMask c ≠ 0

/-- A check answers OK exactly on a valid pair whose bit is set. -/
theorem capTableCheck_ok_iff (t : Bits) (s c : Nat) :
    capTableCheck t s c = .ok ↔ ValidPair s c ∧ bit t s c := by
  rw [validPair_iff]
  unfold capTableCheck bit
  cases capSubjectValid s <;> cases capIdValid c <;> simp

/-- Distinct valid capabilities own distinct bits. -/
theorem mask_disjoint : ∀ c < 20, ∀ d < 20, 1 ≤ c ∧ 1 ≤ d ∧ c ≠ d ∧ capWord c = capWord d →
      capMask c &&& capMask d = 0 := by
  decide

theorem capMask_ne_zero : ∀ c < 20, 1 ≤ c → capMask c ≠ 0 := by decide

theorem ofNat_eight_ne (hs : s < 8) (hr : r < 8)
    (h : s ≠ r) : (Fin.ofNat 8 s : Fin 8) ≠ Fin.ofNat 8 r := by
  intro he
  have hv := congrArg Fin.val he
  simp only [Fin.ofNat, Nat.mod_eq_of_lt hs, Nat.mod_eq_of_lt hr] at hv
  exact h hv

/-- Masking out another capability's bits does not see this write. -/
theorem or_mask_other {w m k : BitVec 8} (h : m &&& k = 0) : (w ||| m) &&& k = w &&& k := by
  rw [and_or_distrib_right, h]
  exact or_zero

theorem andNot_mask_other {w m k : BitVec 8} (h : m &&& k = 0) : (w &&& ~~~m) &&& k = w &&& k := by
  have hk : ~~~m &&& k = k := by
    ext i hi
    have hbit : (m &&& k)[i] = (0#8)[i] := by rw [h]; rfl
    rw [getElem_and] at hbit
    cases hm : m[i] <;> cases hk : k[i] <;> simp_all
  rw [BitVec.and_assoc, hk]

/-- The bit a pair reads after one word of one subject was replaced. -/
theorem bit_setWord_other (t : Bits) (s c r d : Nat) (b : BitVec 8)
    (hv : ValidPair s c) (hw : ValidPair r d) (hb : capMask c &&& capMask d = 0 →
      b &&& capMask d = t (Fin.ofNat 8 s) (capWord c) &&& capMask d) (h : ¬ (r = s ∧ d = c)) :
    bit (setWord t (Fin.ofNat 8 s) (capWord c) b) r d = bit t r d := by
  obtain ⟨hs, hc1, _⟩ := hv
  obtain ⟨hr, hd1, _⟩ := hw
  unfold bit setWord
  by_cases hrs : r = s
  · subst hrs
    rw [update_self]
    by_cases hword : capWord d = capWord c
    · have hdc : c ≠ d := fun hdc => h ⟨rfl, hdc.symm⟩
      have hdis := mask_disjoint c (by omega) d (by omega) ⟨hc1, hd1, hdc, hword.symm⟩
      rw [hword, update_self, hb hdis]
    · rw [update_of_ne hword]
  · rw [update_of_ne (ofNat_eight_ne hr hs hrs)]

/-- A grant for an invalid pair leaves the table alone. -/
theorem capTableGrant_of_not_valid (t : Bits) (h : ¬ ValidPair s c) :
    (capTableGrant t s c).1 = t := by
  rw [validPair_iff] at h
  grind [capTableGrant]

/-- A revoke for an invalid pair leaves the table alone. -/
theorem capTableRevoke_of_not_valid (t : Bits) (h : ¬ ValidPair s c) :
    (capTableRevoke t s c).1 = t := by
  rw [validPair_iff] at h
  grind [capTableRevoke]

/-- Replacing the word of a valid pair decides its answer and leaves the others, if the two words
    agree off its mask. -/
theorem capTableCheck_setWord (hv : ValidPair s c) (r d : Nat) (hb : capMask c &&& capMask d = 0 →
      b &&& capMask d = t (Fin.ofNat 8 s) (capWord c) &&& capMask d) :
    capTableCheck (setWord t (Fin.ofNat 8 s) (capWord c) b) r d = .ok
      ↔ if r = s ∧ d = c then b &&& capMask c ≠ 0 else capTableCheck t r d = .ok := by
  rw [capTableCheck_ok_iff, capTableCheck_ok_iff]
  split_ifs with h
  · obtain ⟨rfl, rfl⟩ := h
    rw [bit, setWord, update_self, update_self, decide_eq_true_eq]
    exact and_iff_right hv
  · refine and_congr_right fun hw => ?_
    rw [bit_setWord_other t s c r d b hv hw hb h]

/-- **GRANT**: afterwards a check passes for the granted pair and for whatever passed before. -/
theorem capTableCheck_grant (t : Bits) (s c r d : Nat) :
    capTableCheck (capTableGrant t s c).1 r d = .ok
      ↔ (ValidPair s c ∧ r = s ∧ d = c) ∨ capTableCheck t r d = .ok := by
  by_cases hv : ValidPair s c
  · obtain ⟨h1, h2⟩ := (validPair_iff s c).mp hv
    have hg : (capTableGrant t s c).1 = setWord t (Fin.ofNat 8 s) (capWord c)
        (t (Fin.ofNat 8 s) (capWord c) ||| capMask c) := by simp [capTableGrant, h1, h2]
    rw [hg, capTableCheck_setWord hv r d or_mask_other]
    split_ifs with h
    · have hne := capMask_ne_zero c (by have := hv.2.2; omega) hv.2.1
      have habs : (t (Fin.ofNat 8 s) (capWord c) ||| capMask c) &&& capMask c = capMask c := by
        ext i
        rw [getElem_and, getElem_or]
        cases (capMask c)[i] <;> simp
      rw [habs]
      exact iff_of_true hne (Or.inl ⟨hv, h⟩)
    · simp [h]
  · simp [capTableGrant_of_not_valid t hv, hv]

/-- **REVOKE**: afterwards a check passes for what passed before, except the revoked pair. -/
theorem capTableCheck_revoke (t : Bits) (s c r d : Nat) :
    capTableCheck (capTableRevoke t s c).1 r d = .ok
      ↔ ¬ (r = s ∧ d = c) ∧ capTableCheck t r d = .ok := by
  by_cases hv : ValidPair s c
  · obtain ⟨h1, h2⟩ := (validPair_iff s c).mp hv
    have hg : (capTableRevoke t s c).1 = setWord t (Fin.ofNat 8 s) (capWord c)
        (t (Fin.ofNat 8 s) (capWord c) &&& ~~~capMask c) := by simp [capTableRevoke, h1, h2]
    rw [hg, capTableCheck_setWord hv r d andNot_mask_other]
    split_ifs with h
    · have habs : t (Fin.ofNat 8 s) (capWord c) &&& ~~~capMask c &&& capMask c = 0#8 := by
        rw [BitVec.and_assoc, BitVec.and_comm (~~~_), BitVec.and_not_self]
        exact BitVec.and_zero
      rw [habs]
      simp [h]
    · simp [h]
  · rw [capTableRevoke_of_not_valid t hv, iff_and_self]
    rintro hr ⟨rfl, rfl⟩
    exact hv ((capTableCheck_ok_iff t r d).mp hr).1

theorem capTableGrant_ok_iff (t : Bits) (s c : Nat) :
    (capTableGrant t s c).2 = .ok ↔ ValidPair s c := by
  rw [validPair_iff]
  unfold capTableGrant
  cases capSubjectValid s <;> cases capIdValid c <;> simp

theorem capTableRevoke_ok_iff (t : Bits) (s c : Nat) :
    (capTableRevoke t s c).2 = .ok ↔ ValidPair s c := by
  rw [validPair_iff]
  unfold capTableRevoke
  cases capSubjectValid s <;> cases capIdValid c <;> simp

/-- The table together with the audit ring its callers write. -/
structure Caps where
  bits : Bits
  audit : AuditState

def capResetForTests : Caps := ⟨capTableReset, auditReset⟩

def capCheck (k : Caps) (s c : Nat) : Caps × CapResult :=
  let result := capTableCheck k.bits s c
  ({ k with audit := capAuditRecord k.audit .check s s c result }, result)

def capGrantForTests (k : Caps) (s c : Nat) : Caps × CapResult :=
  let g := capTableGrant k.bits s c
  (⟨g.1, capAuditRecord k.audit .grant s s c g.2⟩, g.2)

def capRevokeForTests (k : Caps) (s c : Nat) : Caps × CapResult :=
  let g := capTableRevoke k.bits s c
  (⟨g.1, capAuditRecord k.audit .revoke s s c g.2⟩, g.2)

/-- `CAP_BOOTSTRAP_ROOT_SUBJECT_ID`. -/
def capBootstrapRootSubjectId : Nat := 0

def capActorAuthorizedForMutation (t : Bits) (actor : Nat) : CapResult :=
  capTableCheck t actor capCapabilityAdmin

def capActorAuthorizedForAdminGrant (actor c : Nat) : CapResult :=
  if c = capCapabilityAdmin ∧ actor ≠ capBootstrapRootSubjectId then .errMissing
  else .ok

def capGrantAsForTests (k : Caps) (actor target c : Nat) : Caps × CapResult :=
  let actorCheck :=
    if ¬ (c = capCapabilityAdmin ∧ actor = capBootstrapRootSubjectId) then
      capActorAuthorizedForMutation k.bits actor
    else .ok
  let adminCheck := capActorAuthorizedForAdminGrant actor c
  if actorCheck ≠ .ok then
    ({ k with audit := capAuditRecord k.audit .grant actor target c actorCheck }, actorCheck)
  else if adminCheck ≠ .ok then
    ({ k with audit := capAuditRecord k.audit .grant actor target c adminCheck }, adminCheck)
  else
    let g := capTableGrant k.bits target c
    (⟨g.1, capAuditRecord k.audit .grant actor target c g.2⟩, g.2)

def capRevokeAsForTests (k : Caps) (actor target c : Nat) : Caps × CapResult :=
  let actorCheck := capActorAuthorizedForMutation k.bits actor
  if actorCheck ≠ .ok then
    ({ k with audit := capAuditRecord k.audit .revoke actor target c actorCheck }, actorCheck)
  else
    let g := capTableRevoke k.bits target c
    (⟨g.1, capAuditRecord k.audit .revoke actor target c g.2⟩, g.2)

end CapTable
