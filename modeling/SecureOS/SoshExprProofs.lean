import Mathlib.Algebra.Ring.Int.Defs
import SecureOS.SoshEvalModel

/-! # Values of sosh expressions

Substrings and sums are computed with 32-bit numbers on texts.  A substring never
shows what lies behind the value; a sum is exact as long as no partial result is the
smallest `int`, which `sosh_itoa` writes as a bare `-`. -/

namespace Sosh

open List Int32

/-- Cells from inside a string, read as a string again: none from behind the terminator. -/
theorem cstr_take_drop (k : Nat) (hs : s ≤ (cstr val).length) :
    cstr ((val.drop s).take k) = ((cstr val).drop s).take k := by
  have hbehind : ∀ m, cstr ((val.dropWhile (· ≠ '\x00')).take m) = [] := by
    intro m
    have hstop := List.head?_dropWhile_not (· ≠ '\x00') val
    cases m <;> cases hrest : val.dropWhile (· ≠ '\x00') <;> simp_all [cstr]
  have hinside : ∀ c ∈ ((cstr val).drop s).take k, decide (c ≠ '\x00') := fun c hc =>
    all_eq_true.mp all_takeWhile c (mem_of_mem_drop (mem_of_mem_take hc))
  have hsplit : val = cstr val ++ val.dropWhile (· ≠ '\x00') := takeWhile_append_dropWhile.symm
  conv_lhs => rw [hsplit, drop_append_of_le_length hs, take_append, cstr]
  rw [takeWhile_append_of_pos hinside]
  exact (congrArg _ (hbehind _)).trans (append_nil _)

theorem copyLen_toNat (c : Int32) (hpos : 0 < outSize) (hsize : outSize < 2 ^ 31) :
    (if Int32.ofNat outSize ≤ c then Int32.ofNat outSize - 1 else c).toNatClampNeg
      = min (outSize - 1) c.toNatClampNeg := by
  have hout : (Int32.ofNat outSize).toInt = outSize := toInt_ofNat_of_lt hsize
  have hless : (Int32.ofNat outSize - 1).toInt = outSize - 1 := by
    rw [toInt_sub, hout]
    exact Int.bmod_eq_of_le (by simp; omega) (by simp; omega)
  split_ifs with h <;> rw [le_iff_toInt_le] at h <;>
    simp only [Int32.toNatClampNeg, hless] <;> omega

/-- **SUBSTRINGS**: whatever the two bounds are, `${VAR:start:length}` is made of the
    characters of the value from `start` on, at most `length` of them, cut to the buffer. -/
theorem substring_exact (tbl : VarTable) (name : Text) (start length : Int32) {outSize : Nat}
    (hpos : 0 < outSize) (hsize : outSize < 2 ^ 31)
    (hval : (cstr (soshVarsGet tbl name)).length < 2 ^ 31) :
    soshVarsSubstring tbl name start length outSize
      = (let rest := (cstr (soshVarsGet tbl name)).drop start.toNatClampNeg
         (if length < 0 then rest else rest.take length.toNatClampNeg).take (outSize - 1)) := by
  simp only [soshVarsSubstring]
  generalize soshVarsGet tbl name = val at hval ⊢
  have hlen : (Int32.ofNat (cstr val).length).toInt = (cstr val).length := toInt_ofNat_of_lt hval
  have hstart : (if start < 0 then 0 else start).toInt = start.toNatClampNeg := by
    split_ifs with h <;> rw [lt_iff_toInt_lt, toInt_zero] at h <;>
      simp only [Int32.toNatClampNeg, toInt_zero] <;> omega
  generalize (if start < 0 then 0 else start) = s at hstart ⊢
  have hs : s.toNatClampNeg = start.toNatClampNeg := by rw [Int32.toNatClampNeg, hstart]; rfl
  by_cases hend : Int32.ofNat (cstr val).length ≤ s
  · rw [if_pos hend]
    rw [le_iff_toInt_le] at hend
    rw [drop_of_length_le (by omega)]
    simp
  · rw [if_neg hend, copyLen_toNat _ hpos hsize]
    rw [le_iff_toInt_le] at hend
    rw [cstr_take_drop _ (by omega), hs, ← take_take]
    congr 1
    have hwhole : (Int32.ofNat (cstr val).length - s).toNatClampNeg
        = ((cstr val).drop start.toNatClampNeg).length := by
      rw [Int32.toNatClampNeg, toInt_sub, hlen, hstart, length_drop, Int.bmod_eq_of_le] <;> omega
    split_ifs with hneg hwide
    · rw [hwhole, take_length]
    · rw [hwhole, take_length, take_of_length_le]
      rw [lt_iff_toInt_lt, toInt_add, hlen] at hwide
      rw [lt_iff_toInt_lt, toInt_zero] at hneg
      have hl : length.toNatClampNeg = length.toInt.toNat := rfl
      rw [length_drop]
      by_contra hshort
      -- a length that falls short of the end does not make the sum wrap
      rw [Int.bmod_eq_of_le] at hwide <;> omega
    · rfl

theorem substring_behind_end :
    soshVarsSubstring ⟨fun _ => ⟨[], [], false⟩, fun _ => [], 0, [], "42\x00old".toList⟩ ['?']
      1 2147483647 varValueMax = "2".toList :=
  (substring_exact _ _ 1 2147483647 (by decide) (by decide) (by decide)).trans (by decide)

/-- The number a numeral writes. -/
def numeralValue : Text → Int
  | '-' :: s => -(Nat.ofDigitChars 10 s 0 : Int)
  | s => Nat.ofDigitChars 10 s 0

/-- The decimal numeral of a number. -/
def numeral (z : Int) : Text :=
  if z < 0 then '-' :: Nat.toDigits 10 z.natAbs else Nat.toDigits 10 z.natAbs

/-- The range of an `int`. -/
abbrev InRange (z : Int) : Prop := -2 ^ 31 ≤ z ∧ z < 2 ^ 31

/-- A numeral of an `int`. -/
abbrev IntNumeral (s : Text) : Prop := soshIsNumeric s = true ∧ InRange (numeralValue s)

theorem digitsValue_eq (hs : s.all isDigit) :
    digitsValue s = Int32.ofNat (Nat.ofDigitChars 10 s 0) := by
  rw [digitsValue, takeWhile_eq_self_iff.mpr (all_eq_true.mp hs)]
  refine foldl_hom Int32.ofNat (fun n c => ?_)
  rw [ofNat_add, ofNat_mul, Int32.mul_comm]
  rfl

/-- `sosh_atoi` reads a numeral modulo the width of an `int`. -/
theorem soshAtoi_eq (hs : soshIsNumeric s) : soshAtoi s = Int32.ofInt (numeralValue s) := by
  rw [soshIsNumeric, Bool.and_eq_true] at hs
  fun_cases soshAtoi s with
  | case1 s =>
    have hdigits : s.all isDigit := hs.2
    rw [digitsValue_eq hdigits, numeralValue, ofInt_neg, ofInt_eq_ofNat]
  | case2 s hne =>
    have hhead : s.head? ≠ some '-' := by
      cases s with
      | nil => simp
      | cons _ s => simpa using fun h => hne s (by rw [h])
    rw [if_neg hhead] at hs
    rw [digitsValue_eq hs.2, numeralValue, ofInt_eq_ofNat]
    exact hne

theorem soshAtoi_toInt (hs : IntNumeral s) : (soshAtoi s).toInt = numeralValue s := by
  rw [soshAtoi_eq hs.1, toInt_ofInt_of_le hs.2.1 hs.2.2]

theorem intNumeral_numeral (hz : InRange z) :
    IntNumeral (numeral z) ∧ numeralValue (numeral z) = z := by
  have hdigits : ∀ c ∈ Nat.toDigits 10 z.natAbs, isDigit c := by
    intro _ hc
    have hdigit := Nat.isDigit_of_mem_toDigits (by decide) (by decide) hc
    simpa [Char.isDigit, isDigit, Char.le_def] using hdigit
  have hsign : ∀ s, Nat.toDigits 10 z.natAbs ≠ '-' :: s := fun s hs =>
    absurd (hdigits '-' (hs ▸ mem_cons_self)) (by decide)
  have hvalue : numeralValue (numeral z) = z := by
    rw [numeral]
    split_ifs with hneg
    · rw [numeralValue, Nat.ofDigitChars_ten_toDigits]
      omega
    · rw [numeralValue, Nat.ofDigitChars_ten_toDigits]
      · omega
      · exact hsign
  refine ⟨⟨?_, hvalue.symm ▸ hz⟩, hvalue⟩
  rw [numeral, soshIsNumeric]
  split_ifs with hneg hhead hhead
  · simpa [Nat.toDigits_ne_nil] using hdigits
  · exact absurd rfl hhead
  · exact absurd (eq_cons_of_mem_head? hhead) (hsign _)
  · simpa [Nat.toDigits_ne_nil] using hdigits

theorem decimalDigits_eq (room n : Nat) (hroom : n < 10 ^ room) (hn : n < 2 ^ 31) (hpos : 0 < n) :
    decimalDigits room (Int32.ofNat n) = Nat.toDigits 10 n := by
  induction room generalizing n with
  | zero => omega
  | succ room ih =>
    have h0 : (0 : Int32) < Int32.ofNat n := by
      rw [lt_iff_toInt_lt, toInt_ofNat_of_lt hn]
      simpa using hpos
    have hdiv : Int32.ofNat n / 10 = Int32.ofNat (n / 10) := (ofNat_div hn (by decide)).symm
    have hmod : (Int32.ofNat n % 10).toNatClampNeg = n % 10 := by
      rw [Int32.toNatClampNeg, toInt_mod, toInt_ofNat_of_lt hn]
      exact congrArg Int.toNat (Int.ofNat_tmod n 10).symm
    have hdigit : ∀ d < 10, Char.ofNat (48 + d) = Nat.digitChar d := by decide
    rw [decimalDigits, if_pos h0, hdiv, hmod, hdigit _ (Nat.mod_lt n (by decide)),
      Nat.toDigits_eq_if (by decide)]
    split_ifs with hlt
    · rw [Nat.div_eq_of_lt hlt, Nat.mod_eq_of_lt hlt]
      cases room <;> rfl
    · rw [ih (n / 10) (by omega) (by omega) (by omega)]

theorem soshItoa_eq (hz : InRange z) (hmin : z ≠ -2 ^ 31) :
    soshItoa (Int32.ofInt z) varValueMax = numeral z := by
  have hneg : Int32.ofInt z < 0 ↔ z < 0 := by
    rw [lt_iff_toInt_lt, toInt_ofInt_of_le hz.1 hz.2]
    rfl
  have hsize : (if z < 0 then -Int32.ofInt z else Int32.ofInt z) = Int32.ofNat z.natAbs := by
    rw [← ofInt_neg, ← ofInt_eq_ofNat, ← apply_ite]
    congr 1
    omega
  have hbound : z.natAbs < 2 ^ 31 := by omega
  have hdigits : (if Int32.ofNat z.natAbs = 0 then ['0']
      else decimalDigits 15 (Int32.ofNat z.natAbs)) = Nat.toDigits 10 z.natAbs := by
    have hzero : Int32.ofNat z.natAbs = 0 ↔ z.natAbs = 0 := by
      rw [← toInt_inj, toInt_ofNat_of_lt hbound]
      exact Int.natCast_eq_zero
    simp only [hzero]
    split_ifs with h0
    · rw [h0, Nat.toDigits_zero]
    · exact decimalDigits_eq _ _ (by omega) hbound (by omega)
  have hlen : (numeral z).length ≤ varValueMax - 1 := by
    have hten : (Nat.toDigits 10 z.natAbs).length ≤ 10 :=
      (Nat.length_toDigits_le_iff (by decide) (by decide)).mpr (by omega)
    rw [numeral]
    split_ifs <;> simp only [length_cons, varValueMax] <;> omega
  rw [soshItoa, intToStr]
  simp only [hneg, hsize, hdigits]
  exact take_of_length_le hlen

/-- The smallest `int` comes out as a bare `-`. -/
theorem soshItoa_iff (hz : InRange z) :
    soshItoa (Int32.ofInt z) varValueMax = numeral z ↔ z ≠ -2 ^ 31 := by
  refine ⟨?_, soshItoa_eq hz⟩
  rintro h rfl
  exact absurd h (by decide)

/-- The tokens of `+ x - y …`. -/
def chain (terms : List (Token × Token)) : List Token := terms.flatMap fun t => [t.1, t.2]

/-- Each operator is `+` or `-`, each operand comes out as the numeral of an `int`. -/
def Terms : List (Token × Token) → State → Prop
  | [], _ => True
  | (op, tok) :: terms, st =>
    (op.type = .opPlus ∨ op.type = .opMinus)
      ∧ IntNumeral (resolveToken tok varValueMax st).1
      ∧ Terms terms (resolveToken tok varValueMax st).2

/-- The exact result, from the number in front of the first operator on. -/
def sumFrom (z : Int) : List (Token × Token) → State → Int
  | [], _ => z
  | (op, tok) :: terms, st =>
    let (s, st) := resolveToken tok varValueMax st
    sumFrom (if op.type = .opMinus then z - numeralValue s else z + numeralValue s) terms st

/-- What a token is worth as an expression of its own, and the state after. -/
def operand (tok : Token) (st : State) : Text × State :=
  ((evalExpr [tok] varValueMax st).1, (evalExpr [tok] varValueMax st).2.2)

/-- The exact result behind operator `n`. -/
def partialSum (first : Token) (terms : List (Token × Token)) (st : State) (n : Nat) : Int :=
  sumFrom (numeralValue (operand first st).1) (terms.take (n + 1)) (operand first st).2

/-- A chain over numerals of `int`s whose partial results are `int`s. -/
structure Chain (first : Token) (terms : List (Token × Token)) (st : State) : Prop where
  start : IntNumeral (operand first st).1
  operands : Terms terms (operand first st).2
  partials : ∀ n < terms.length, InRange (partialSum first terms st n)

/-- The order of the integers an operator stands for. -/
def order : TokenType → Option (Int → Int → Prop)
  | .opLt => some (· < ·)
  | .opGt => some (· > ·)
  | .opLte => some (· ≤ ·)
  | .opGte => some (· ≥ ·)
  | _ => none

variable {st : State}

/-- One operator between numerals. -/
theorem evalExprLoop_cons (hop : op.type = .opPlus ∨ op.type = .opMinus) (hout : IntNumeral out)
    (hright : IntNumeral (resolveToken tok varValueMax st).1) (terms : List (Token × Token)) :
    evalExprLoop varValueMax (chain ((op, tok) :: terms)) out st
      = evalExprLoop varValueMax (chain terms)
          (soshItoa (Int32.ofInt (sumFrom (numeralValue out) [(op, tok)] st)) varValueMax)
          (resolveToken tok varValueMax st).2 := by
  have hboth : (soshIsNumeric out && soshIsNumeric (resolveToken tok varValueMax st).1) := by
    rw [hout.1, hright.1]
    rfl
  rcases hop with hop | hop <;>
    simp [chain, evalExprLoop, hop, hboth, sumFrom, soshAtoi_eq hout.1, soshAtoi_eq hright.1]

theorem evalExprLoop_iff (hterms : Terms terms st) (hout : IntNumeral out)
    (hrange : ∀ n < terms.length, InRange (sumFrom (numeralValue out) (terms.take (n + 1)) st)) :
    (∀ n < terms.length, (evalExprLoop varValueMax (chain (terms.take (n + 1))) out st).1
        = numeral (sumFrom (numeralValue out) (terms.take (n + 1)) st))
    ↔ ∀ n < terms.length, sumFrom (numeralValue out) (terms.take (n + 1)) st ≠ -2 ^ 31 := by
  induction terms generalizing out st with
  | nil => simp
  | cons term _ ih =>
    obtain ⟨_, _⟩ := term
    obtain ⟨hop, hright, hrest⟩ := hterms
    simp only [length_cons, Nat.forall_lt_succ_left, take_succ_cons, take_zero,
      evalExprLoop_cons hop hout hright] at hrange ⊢
    -- the text of the first partial result is right unless that is the smallest `int`
    refine Iff.trans (and_congr_left' (soshItoa_iff hrange.1)) (and_congr_right fun hmin => ?_)
    obtain ⟨hnext, hvalue⟩ := intNumeral_numeral hrange.1
    have hmore := ih hrest hnext
    rw [hvalue] at hmore
    rw [soshItoa_eq hrange.1 hmin]
    exact hmore hrange.2

/-- A comparison of two numerals is the one of their numbers. -/
theorem evalCondition_iff (hrel : order op.type = some rel) (ha : IntNumeral (operand a st).1)
    (hb : IntNumeral (operand b (operand a st).2).1) : (evalCondition [a, op, b] st).1
      ↔ rel (numeralValue (operand a st).1) (numeralValue (operand b (operand a st).2).1) := by
  have hkeyword : ∀ v, soshIsNumeric (soshStrcpy (soshStrcpy v varValueMax) varValueMax) = false →
      ¬ (a.type = .word ∧ a.value = v) := by
    rintro _ hv ⟨htype, rfl⟩
    have hnum := ha.1
    simp only [operand, evalExpr, resolveToken, htype, tokenText, evalExprLoop] at hnum
    exact absurd (hv.symm.trans hnum) (by decide)
  rw [evalCondition, if_neg (hkeyword _ (by decide)), if_neg (hkeyword _ (by decide)),
    ← soshAtoi_toInt ha, ← soshAtoi_toInt hb]
  obtain ⟨type, _⟩ := op
  cases type <;> cases hrel <;>
    simp [operand, evalComparison, evalExpr, evalExprLoop, comparison, lt_iff_toInt_lt,
      le_iff_toInt_le]

/-- **ARITHMETIC**: a chain and all its beginnings have the numerals of their exact results
    for values iff none of these is the smallest `int`; comparisons are always right. -/
theorem arithmetic_iff (h : Chain first terms st) :
    ((∀ n < terms.length, (evalExpr (first :: chain (terms.take (n + 1))) varValueMax st).1
        = numeral (partialSum first terms st n))
    ↔ ∀ n < terms.length, partialSum first terms st n ≠ -2 ^ 31)
    ∧ ∀ (a op b : Token) (st : State) (rel : Int → Int → Prop), order op.type = some rel →
      IntNumeral (operand a st).1 → IntNumeral (operand b (operand a st).2).1 →
      ((evalCondition [a, op, b] st).1 = true
        ↔ rel (numeralValue (operand a st).1) (numeralValue (operand b (operand a st).2).1)) :=
  ⟨evalExprLoop_iff h.operands h.start h.partials, fun _ _ _ _ _ => evalCondition_iff⟩

/-- An interpreter without variables and callbacks. -/
def blank : State :=
  ⟨⟨fun _ => ⟨[], [], false⟩, fun _ => [], 0, [], []⟩, false, none, false, 0, none, []⟩

theorem arithmetic_sums :
    (evalExpr [⟨.word, "2".toList⟩, ⟨.opPlus, []⟩, ⟨.word, "3".toList⟩] varValueMax blank).1
      = "5".toList := by
  have h : Chain ⟨.word, "2".toList⟩ [(⟨.opPlus, []⟩, ⟨.word, "3".toList⟩)] blank :=
    ⟨by decide, ⟨by decide, by decide, trivial⟩, by decide⟩
  exact ((arithmetic_iff h).1.mpr (by decide) 0 (by decide)).trans (by decide)

/-- `-2147483647 - 1` is worth `-`. -/
theorem smallest_int_lost : ∃ first terms st, Chain first terms st ∧ ∃ n < terms.length,
    (evalExpr (first :: chain (terms.take (n + 1))) varValueMax st).1
      ≠ numeral (partialSum first terms st n) :=
  ⟨⟨.word, "-2147483647".toList⟩, [(⟨.opMinus, []⟩, ⟨.word, "1".toList⟩)], blank,
    ⟨by decide, ⟨by decide, by decide, trivial⟩, by decide⟩, 0, by decide, by decide⟩

end Sosh
