import Mathlib.Data.List.TakeWhile

/-! # Numbers out of text

The strtol family of `user/libs/clib/src/stdlib.c`.  A string is the list of its
characters; the zero byte behind them is neither white space nor a digit.  `long` and
`long long` have 64 bits, so the two digit loops are one. -/

namespace Stdlib

open List

/-- `ULONG_MAX` and `ULLONG_MAX`. -/
def ulongMax : Nat := 0xFFFFFFFFFFFFFFFF

/-- `LONG_MAX` and `LLONG_MAX`. -/
def longMax : Nat := 0x7FFFFFFFFFFFFFFF

inductive Errno where
  | einval
  | erange
deriving DecidableEq

/-- What a call returns, with `errno` if the call sets it, and how far behind `nptr` it sets
    the end pointer. -/
structure Parsed where
  answer : Int × Option Errno
  stop : Nat

def sIsspace (c : Char) : Bool :=
  c == ' ' || c == '\t' || c == '\n' || c == '\x0b' || c == '\x0c' || c == '\x0d'

def sDigitValue (c : Char) (base : Nat) : Option Nat :=
  (if '0' ≤ c ∧ c ≤ '9' then some (c.toNat - '0'.toNat)
    else if 'a' ≤ c ∧ c ≤ 'z' then some (10 + (c.toNat - 'a'.toNat))
    else if 'A' ≤ c ∧ c ≤ 'Z' then some (10 + (c.toNat - 'A'.toNat))
    else none).filter (· < base)

/-- `s_parse_digits` and `s_parse_digits_ull`: the accumulator, whether a digit was consumed
    and whether it overflowed; and the characters behind the digits. -/
def sParseDigits (base : Nat) : Nat × Bool × Bool → List Char → (Nat × Bool × Bool) × List Char
  | st, [] => (st, [])
  | (acc, any, overflow), c :: q =>
    match sDigitValue c base with
    | none => ((acc, any, overflow), c :: q)
    | some v =>
      if ulongMax / base < acc ∨ acc = ulongMax / base ∧ ulongMax % base < v then
        sParseDigits base (ulongMax, true, true) q
      else sParseDigits base ((acc * base + v) % (ulongMax + 1), true, overflow) q

/-- `0x` with a hexadecimal digit behind it. -/
def hexMark : List Char → Bool
  | z :: x :: h :: _ => z == '0' && (x == 'x' || x == 'X') && (sDigitValue h 16).isSome
  | _ => false

/-- Behind a sign, if there is one. -/
def afterSign (q : List Char) : List Char :=
  if q.head? = some '+' ∨ q.head? = some '-' then q.tail else q

/-- `s_strip_prefix`: whether the sign is a minus, the base, and the rest. -/
def sStripPrefix (p : List Char) (base : Nat) : Bool × Nat × List Char :=
  let q := p.dropWhile sIsspace
  let minus := q.head? == some '-'
  let q := afterSign q
  if (base = 0 ∨ base = 16) ∧ hexMark q then (minus, 16, q.drop 2)
  else (minus, if base ≠ 0 then base else if q.head? = some '0' then 8 else 10, q)

/-- The four functions, up to what they answer for a sign, an overflow and a magnitude. -/
def strto (answer : Bool → Bool → Nat → Int × Option Errno) (nptr : List Char) (base : Int) :
    Parsed :=
  if base ≠ 0 ∧ (base < 2 ∨ 36 < base) then ⟨(0, some .einval), 0⟩
  else
    let (minus, base, p) := sStripPrefix nptr base.toNat
    let ((mag, any, overflow), p) := sParseDigits base (0, false, false) p
    if any then ⟨answer minus overflow mag, nptr.length - p.length⟩ else ⟨(0, none), 0⟩

def signedAnswer (minus overflow : Bool) (mag : Nat) : Int × Option Errno :=
  if !minus then
    if overflow || longMax < mag then (longMax, some .erange) else (mag, none)
  else if overflow || longMax + 1 < mag then (-(longMax + 1), some .erange)
  else if mag = longMax + 1 then (-(longMax + 1), none)
  else (-mag, none)

def unsignedAnswer (minus overflow : Bool) (mag : Nat) : Int × Option Errno :=
  if overflow then (ulongMax, some .erange)
  else if minus then ((ulongMax + 1 - mag) % (ulongMax + 1), none)
  else (mag, none)

def strtol := strto signedAnswer

def strtoll := strto signedAnswer

def strtoul := strto unsignedAnswer

def strtoull := strto unsignedAnswer

def isDigit (base : Nat) (c : Char) : Bool := (sDigitValue c base).isSome

/-- One more digit. -/
def shiftIn (base n : Nat) (c : Char) : Nat := n * base + (sDigitValue c base).getD 0

/-- The division test says whether the exact sum is beyond the largest value. -/
theorem limit_iff (hv : v < base) :
    ulongMax / base < acc ∨ acc = ulongMax / base ∧ ulongMax % base < v
      ↔ ulongMax < acc * base + v := by
  have hsplit := Nat.div_add_mod ulongMax base
  have hmod := Nat.mod_lt ulongMax (Nat.zero_lt_of_lt hv)
  rw [Nat.mul_comm] at hsplit
  obtain hlt | heq | hgt := Nat.lt_trichotomy acc (ulongMax / base)
  · have := Nat.mul_le_mul_right base (Nat.succ_le_of_lt hlt)
    rw [Nat.succ_mul] at this
    omega
  · subst heq
    omega
  · have := Nat.mul_le_mul_right base (Nat.succ_le_of_lt hgt)
    rw [Nat.succ_mul] at this
    omega

theorem sDigitValue_lt (h : sDigitValue c base = some v) : v < base := by
  simpa using (Option.filter_eq_some_iff.mp h).2

/-- The loop holds the exact value `n` of the digits read, cut to the largest one. -/
theorem sParseDigits_eq (hbase : 2 ≤ base) (q : List Char) (n : Nat) (any : Bool) :
    sParseDigits base (min n ulongMax, any, decide (ulongMax < n)) q =
      (let m := (q.takeWhile (isDigit base)).foldl (shiftIn base) n
       ((min m ulongMax, any || !(q.takeWhile (isDigit base)).isEmpty, decide (ulongMax < m)),
        q.dropWhile (isDigit base))) := by
  induction q generalizing n any with
  | nil => cases any <;> rfl
  | cons c _ ih =>
    cases hc : sDigitValue c base with
    | none => simp [sParseDigits, hc, isDigit]
    | some v =>
      have hv := sDigitValue_lt hc
      have hstep : shiftIn base n c = n * base + v := by simp [shiftIn, hc]
      have hgrow : n ≤ n * base := Nat.le_mul_of_pos_right n (by omega)
      have hiff : (ulongMax / base < min n ulongMax
          ∨ min n ulongMax = ulongMax / base ∧ ulongMax % base < v)
          ↔ ulongMax < n * base + v := by
        rw [limit_iff hv]
        by_cases hn : n ≤ ulongMax
        · rw [min_eq_left hn]
        · have : ulongMax * 2 ≤ ulongMax * base := Nat.mul_le_mul_left _ hbase
          rw [min_eq_right (by omega)]
          have : 0 < ulongMax := by decide
          omega
      have ih' := ih (n * base + v) true
      simp only [sParseDigits, hc, hiff, takeWhile_cons, dropWhile_cons, isDigit,
        Option.isSome_some, if_true, foldl_cons, hstep]
      by_cases hover : ulongMax < n * base + v
      · rw [min_eq_right (by omega), decide_eq_true hover] at ih'
        rw [if_pos hover, ih']
        simp
      · rw [min_eq_left (by omega), decide_eq_false hover] at ih'
        rw [if_neg hover, min_eq_left (by omega), Nat.mod_eq_of_lt (by omega),
          decide_eq_false (by omega), ih']
        simp

/-- What may stand in front of digits: white space, a sign and, in base 16 or 0, `0x`. -/
structure Lead (base : Nat) where
  spaces : List Char
  sign : Option Char
  mark : Option Char
  spaces_ok : ∀ c ∈ spaces, sIsspace c
  sign_ok : ∀ c ∈ sign, c = '+' ∨ c = '-'
  mark_ok : ∀ x ∈ mark, (x = 'x' ∨ x = 'X') ∧ (base = 0 ∨ base = 16)

def Lead.marked (d : Lead base) (l : List Char) : List Char := d.mark.elim l ('0' :: · :: l)

def Lead.onto (d : Lead base) (l : List Char) : List Char :=
  d.spaces ++ (d.sign.toList ++ d.marked l)

/-- The base of the digits; base 0 is told by what they start with. -/
def Lead.radix (d : Lead base) (digits : List Char) : Nat :=
  if base ≠ 0 then base
  else if d.mark.isSome then 16
  else if digits.head? = some '0' then 8
  else 10

/-- A way to read the beginning of a text as a number in `base`. -/
structure Subject (base : Nat) (text : List Char) extends Lead base where
  digits : List Char
  rest : List Char
  text_eq : text = toLead.onto (digits ++ rest)
  digits_ne : digits ≠ []
  digits_ok : ∀ c ∈ digits, isDigit (toLead.radix digits) c

namespace Subject

variable (d : Subject base text)

/-- The number of characters read. -/
def length : Nat := text.length - d.rest.length

def minus : Bool := d.sign == some '-'

/-- The number that the digits spell. -/
def magnitude : Nat := d.digits.foldl (shiftIn (d.radix d.digits)) 0

end Subject

theorem hexMark_eq (h : hexMark q) : ∃ x a r, q = '0' :: x :: a :: r
    ∧ (x = 'x' ∨ x = 'X') ∧ isDigit 16 a := by
  match q, h with
  | z :: x :: a :: r, h =>
    simp only [hexMark, Bool.and_eq_true, Bool.or_eq_true, beq_iff_eq] at h
    exact ⟨x, a, r, by rw [h.1.1], h.1.2, h.2⟩

theorem afterSign_split (q : List Char) : ∃ sign : Option Char,
    (∀ c ∈ sign, c = '+' ∨ c = '-') ∧ (q.head? == some '-') = (sign == some '-')
      ∧ q = sign.toList ++ afterSign q := by
  by_cases hs : q.head? = some '+' ∨ q.head? = some '-'
  · refine ⟨q.head?, fun c hc => ?_, rfl, ?_⟩
    · rw [Option.mem_def.mp hc] at hs
      simpa using hs
    · rw [afterSign, if_pos hs]
      cases q <;> simp
  · exact ⟨none, by simp, by simpa using (not_or.mp hs).2, by rw [afterSign, if_neg hs]; rfl⟩

/-- The code strips what may stand in front of digits, and finds their base. -/
theorem sStripPrefix_lead (text : List Char) (base : Nat) : ∃ (d : Lead base) (p : List Char),
    text = d.onto p ∧ sStripPrefix text base = (d.sign == some '-', d.radix p, p) := by
  obtain ⟨sign, hsign, hminus, hq⟩ := afterSign_split (text.dropWhile sIsspace)
  have htext := takeWhile_append_dropWhile (p := sIsspace) (l := text)
  have hspaces : ∀ c ∈ text.takeWhile sIsspace, sIsspace c := fun c => mem_takeWhile_imp
  simp only [sStripPrefix, hminus]
  generalize afterSign (text.dropWhile sIsspace) = q at hq ⊢
  rw [hq] at htext
  split
  case isTrue hx =>
    obtain ⟨x, a, r, rfl, hx', -⟩ := hexMark_eq hx.2
    refine ⟨⟨_, sign, some x, hspaces, hsign, by simpa using ⟨hx', hx.1⟩⟩, a :: r, htext.symm, ?_⟩
    obtain ⟨rfl | rfl, -⟩ := hx <;> rfl
  case isFalse => exact ⟨⟨_, sign, none, hspaces, hsign, by simp⟩, q, htext.symm, rfl⟩

theorem not_isDigit (h : sIsspace c ∨ c = '+' ∨ c = '-') (base : Nat) : isDigit base c = false := by
  simp only [sIsspace, Bool.or_eq_true, beq_iff_eq, or_assoc] at h
  obtain rfl | rfl | rfl | rfl | rfl | rfl | rfl | rfl := h <;> rfl

/-- The code strips the white space and the sign of every subject: a digit stands behind. -/
theorem Subject.afterSign_eq (e : Subject base text) :
    afterSign (text.dropWhile sIsspace) = e.marked (e.digits ++ e.rest) := by
  have hhead : ∃ c l b, e.marked (e.digits ++ e.rest) = c :: l ∧ isDigit b c := by
    obtain ⟨c, _, hds⟩ := exists_cons_of_ne_nil e.digits_ne
    cases hm : e.mark with
    | none => exact ⟨c, _, _, by rw [Lead.marked, hm, hds]; rfl, e.digits_ok c (by simp [hds])⟩
    | some => exact ⟨'0', _, 16, by rw [Lead.marked, hm]; rfl, rfl⟩
  obtain ⟨c, _, _, hbody, hc⟩ := hhead
  have hnot : ¬ (sIsspace c ∨ c = '+' ∨ c = '-') := fun h => by simp [not_isDigit h] at hc
  have htext := congrArg (dropWhile sIsspace) e.text_eq
  rw [Lead.onto, dropWhile_append_of_pos e.spaces_ok] at htext
  rw [htext, hbody]
  cases hs : e.sign with
  | none => simp_all [afterSign]
  | some s => obtain rfl | rfl := e.sign_ok s hs <;> rfl

/-- No subject ends behind the digits the code reads. -/
theorem sStripPrefix_longest (e : Subject base text) (h : sStripPrefix text base = (minus, r, p)) :
    p.takeWhile (isDigit r) ≠ [] ∧ (p.dropWhile (isDigit r)).length ≤ e.rest.length := by
  have hread : (e.digits ++ e.rest).takeWhile (isDigit (e.radix e.digits)) ≠ []
      ∧ ((e.digits ++ e.rest).dropWhile (isDigit (e.radix e.digits))).length ≤ e.rest.length := by
    rw [takeWhile_append_of_pos e.digits_ok, dropWhile_append_of_pos e.digits_ok]
    exact ⟨by simp [e.digits_ne], (dropWhile_sublist _).length_le⟩
  have hdigits := e.digits_ok
  obtain ⟨c, ds, hds⟩ := exists_cons_of_ne_nil e.digits_ne
  simp only [sStripPrefix, e.afterSign_eq, Lead.marked, Lead.radix, hds] at h hread hdigits
  cases hm : e.mark with
  | some x =>
    obtain ⟨hx, hbase⟩ := e.mark_ok x hm
    have hradix : (if base ≠ 0 then base else 16) = 16 := by obtain rfl | rfl := hbase <;> rfl
    simp only [hm, Option.isSome_some, if_true, hradix] at hread hdigits
    have hmark : hexMark ('0' :: x :: (c :: ds ++ e.rest)) := by
      simpa [hexMark, hx, isDigit] using hdigits c mem_cons_self
    simp only [hm, Option.elim_some, hmark, hbase, and_self, if_true, drop_succ_cons, drop_zero,
      Prod.mk.injEq] at h
    obtain ⟨-, rfl, rfl⟩ := h
    exact hread
  | none =>
    simp only [hm, Option.elim_none] at h hread hdigits
    split at h
    case isTrue hx =>
      -- the mark of another subject: of this one only its zero is a digit
      obtain ⟨x, a, l, hq, hx', ha⟩ := hexMark_eq hx.2
      rw [hq] at h
      obtain ⟨-, rfl, rfl⟩ : _ ∧ 16 = r ∧ a :: l = p := by simpa using h
      refine ⟨by simp [ha], ?_⟩
      cases ds with
      | nil =>
        rw [show e.rest = x :: a :: l from (cons.inj hq).2]
        exact (dropWhile_sublist _).length_le.trans (by simp)
      | cons y =>
        simp only [cons_append, cons.injEq] at hq
        obtain ⟨rfl, rfl, -⟩ := hq
        have hy := hdigits y (by simp)
        obtain ⟨rfl | rfl, -⟩ := hx <;> obtain rfl | rfl := hx' <;>
          exact absurd hy Bool.false_ne_true
    case isFalse =>
      obtain ⟨-, rfl, rfl⟩ : _ ∧ _ = r ∧ c :: ds ++ e.rest = p := by simpa using h
      simpa using hread

/-- The four functions read the longest subject there is, whatever they make of it. -/
theorem strto_eq (text : List Char) (hbase : ¬ (base ≠ 0 ∧ (base < 2 ∨ 36 < base))) :
    (IsEmpty (Subject base.toNat text) ∧ ∀ answer, strto answer text base = ⟨(0, none), 0⟩)
    ∨ ∃ d : Subject base.toNat text, (∀ e : Subject base.toNat text, e.length ≤ d.length)
      ∧ ∀ answer, strto answer text base = ⟨answer d.minus (decide (ulongMax < d.magnitude))
          (min d.magnitude ulongMax), d.length⟩ := by
  obtain ⟨d, p, htext, hstrip⟩ := sStripPrefix_lead text base.toNat
  have hradix : 2 ≤ d.radix p := by
    rw [Lead.radix]
    split_ifs <;> omega
  have hp := takeWhile_append_dropWhile (p := isDigit (d.radix p)) (l := p)
  simp only [strto, if_neg hbase, hstrip]
  rw [show (0, false, false) = (min 0 ulongMax, false, decide (ulongMax < 0)) from rfl,
    sParseDigits_eq hradix]
  cases hrun : p.takeWhile (isDigit (d.radix p)) with
  | nil => exact .inl ⟨⟨fun e => (sStripPrefix_longest e hstrip).1 hrun⟩, fun _ => by simp⟩
  | cons c ds =>
    have hsame : d.radix (c :: ds) = d.radix p := by
      rw [hrun] at hp
      rw [← hp]
      rfl
    have hok : ∀ a ∈ c :: ds, isDigit (d.radix (c :: ds)) a := by
      rw [hsame, ← hrun]
      exact fun a => mem_takeWhile_imp
    refine .inr ⟨⟨d, c :: ds, p.dropWhile (isDigit (d.radix p)), by rw [← hrun, hp, htext],
      by simp, hok⟩, fun e => ?_, fun answer => ?_⟩
    · exact Nat.sub_le_sub_left (sStripPrefix_longest e hstrip).2 _
    · simp only [Subject.magnitude, hsame]
      rfl

/-- The nearest value of a signed type, and an error if it is another. -/
def nearest (v : Int) : Int × Option Errno :=
  let w := max (-(longMax + 1 : Int)) (min v longMax)
  (w, if w = v then none else some .erange)

/-- The magnitude, after a minus its negation modulo 2^64; or the largest value and an error. -/
def wrapped (minus : Bool) (mag : Nat) : Int × Option Errno :=
  if mag ≤ ulongMax then (if minus then -(mag : Int) % (ulongMax + 1) else mag, none)
  else (ulongMax, some .erange)

theorem nearest_self (hlow : -(longMax + 1 : Int) ≤ v) (hhigh : v ≤ longMax) :
    nearest v = (v, none) := by
  have hw : max (-(longMax + 1 : Int)) (min v longMax) = v := by omega
  rw [nearest, hw]
  simp

theorem signedAnswer_eq (minus : Bool) (n : Nat) :
    signedAnswer minus (decide (ulongMax < n)) (min n ulongMax)
      = nearest (if minus then -n else n) := by
  have hmax : longMax < ulongMax := by decide
  cases minus with
  | false =>
    show (if decide _ || decide _ then _ else _) = nearest n
    simp only [← Bool.decide_or, decide_eq_true_eq]
    by_cases hn : longMax < n
    · have hw : max (-(longMax + 1 : Int)) (min n longMax) = longMax := by omega
      rw [if_pos (by omega), nearest, hw, if_neg (by omega)]
    · rw [if_neg (by omega), nearest_self (by omega) (by omega), Nat.min_eq_left (by omega)]
  | true =>
    show (if decide _ || decide _ then _ else if _ then _ else _) = nearest (-n)
    simp only [← Bool.decide_or, decide_eq_true_eq]
    by_cases hn : longMax + 1 < n
    · have hw : max (-(longMax + 1 : Int)) (min (-n) longMax) = -(longMax + 1) := by omega
      rw [if_pos (by omega), nearest, hw, if_neg (by omega)]
    · rw [if_neg (by omega), nearest_self (by omega) (by omega), Nat.min_eq_left (by omega)]
      split_ifs with hlast
      · -- the smallest value, whose magnitude is one above the largest
        rw [hlast]
        rfl
      · rfl

theorem unsignedAnswer_eq (minus : Bool) (n : Nat) :
    unsignedAnswer minus (decide (ulongMax < n)) (min n ulongMax) = wrapped minus n := by
  simp only [unsignedAnswer, wrapped]
  by_cases hn : n ≤ ulongMax
  · cases minus <;> simp [hn, Nat.not_lt.mpr hn]
  · simp [hn, Nat.not_le.mp hn]

end Stdlib
