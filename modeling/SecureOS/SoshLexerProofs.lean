import Mathlib.Data.List.DropRight
import Mathlib.Logic.Relation
import SecureOS.SoshLexerModel

/-! # When the sosh lexer ends

Every round of `sosh_lex_line` takes a character, except at an exclamation mark without
an equals sign behind it: no branch takes that one, and the bare word in front of it is
empty.  So the lexer ends exactly if no round comes to such a mark. -/

namespace Sosh

open Relation List

variable {line : Text} {out : List Token}

/-- Behind the blanks stands an exclamation mark without an equals sign behind it. -/
def LoneBang (line : Text) : Prop :=
  ∃ rest, line.dropWhile isSpace = '!' :: rest ∧ rest.head? ≠ some '='

/-- At most 32 tokens of at most 255 characters. -/
def Bounded (out : List Token) : Prop :=
  out.length ≤ tokenMax ∧ ∀ t ∈ out, t.value.length ≤ tokenLenMax - 1

/-- A round leaves the tokens or adds one. -/
def Adds (out out' : List Token) : Prop := out' = out ∨ ∃ type value, out' = addToken out type value

theorem Bounded.adds (h : Bounded out) (ha : Adds out out') : Bounded out' := by
  obtain rfl | ⟨_, _, rfl⟩ := ha
  · exact h
  · rw [addToken]
    split_ifs with hfull
    · exact h
    · refine ⟨by rw [length_append]; simp; omega, fun t ht => ?_⟩
      rw [mem_append, mem_singleton] at ht
      obtain ht | rfl := ht
      · exact h.2 t ht
      · exact length_take_le ..

theorem lexStringLoop_le (line buf : Text) : (lexStringLoop line buf).2.length ≤ line.length := by
  fun_induction lexStringLoop line buf <;> simp only [length_cons, length_nil] <;> omega

theorem lexCaptureLoop_le (line : Text) (depth : Nat) (buf : Text) :
    (lexCaptureLoop line depth buf).2.length ≤ line.length := by
  fun_induction lexCaptureLoop line depth buf <;> simp only [length_cons] <;> omega

theorem lexBraceLoop_le (line buf : Text) : (lexBraceLoop line buf).2.length ≤ line.length := by
  fun_induction lexBraceLoop line buf <;> simp only [length_cons] <;> omega

/-- A token is made of what was scanned, if there is anything. -/
theorem adds_ite (out : List Token) (type : TokenType) (buf : Text) :
    Adds out (if buf.length > 0 then addToken out type buf else out) := by
  split_ifs
  · exact Or.inr ⟨type, buf, rfl⟩
  · exact Or.inl rfl

theorem lexDollar_spec (line : Text) (out : List Token) :
    Adds out (lexDollar line out).2 ∧ (lexDollar line out).1.length ≤ line.length := by
  fun_cases lexDollar line out with
  | case1 rest _ _ h =>
    have hle := lexCaptureLoop_le rest 1 []
    rw [h] at hle
    exact ⟨Or.inr ⟨_, _, rfl⟩, Nat.le_succ_of_le hle⟩
  | case2 rest _ _ h =>
    have hle := lexBraceLoop_le rest []
    rw [h] at hle
    exact ⟨Or.inr ⟨_, _, rfl⟩, Nat.le_succ_of_le (Nat.le_succ_of_le hle)⟩
  | case3 rest _ _ _ h =>
    have hle := lexBraceLoop_le rest []
    rw [h] at hle
    exact ⟨Or.inr ⟨_, _, rfl⟩, Nat.le_succ_of_le hle⟩
  | case4 | case5 => exact ⟨Or.inr ⟨_, _, rfl⟩, Nat.le_succ _⟩
  | case6 _ _ _ _ _ _ _ _ h =>
    rw [← (Prod.mk.inj h).2, length_drop]
    exact ⟨adds_ite .., Nat.sub_le ..⟩

theorem lexWord_taken (hc : isBareChar c) (rest : Text) (out : List Token) :
    Adds out (lexWord (c :: rest) out).2 ∧ (lexWord (c :: rest) out).1.length ≤ rest.length := by
  refine ⟨adds_ite .., ?_⟩
  rw [lexWord, scanWhile, takeWhile_cons_of_pos hc]
  simp [tokenLenMax]

/-- **A ROUND** stops at the end or a comment, goes to a lone exclamation mark, or takes a
    character. -/
theorem lexRound_cases (line : Text) (out : List Token) :
    (lexRound line out = none ∧ ∀ c ∈ (line.dropWhile isSpace).head?, c = '#')
      ∨ (LoneBang line ∧ lexRound line out = some (line.dropWhile isSpace, out))
      ∨ ∃ q, lexRound line out = some q ∧ ¬ LoneBang line ∧ Adds out q.2
        ∧ q.1.length < line.length := by
  have hle := (dropWhile_sublist isSpace (l := line)).length_le
  have hhead := List.head?_dropWhile_not isSpace line
  rw [lexRound, LoneBang]
  generalize line.dropWhile isSpace = l at hle hhead ⊢
  cases l with
  | nil => exact Or.inl ⟨rfl, nofun⟩
  | cons c rest =>
    have hc : isSpace c = false := hhead
    by_cases hcomment : c = '#'
    · exact Or.inl ⟨if_pos hcomment, fun _ h => (Option.some.inj h).symm.trans hcomment⟩
    by_cases hlone : ∃ rest', c :: rest = '!' :: rest' ∧ rest'.head? ≠ some '='
    · obtain ⟨_, ⟨⟩, hne⟩ := hlone
      exact Or.inr (Or.inl ⟨⟨rest, rfl, hne⟩, by simp [hne]; rfl⟩)
    let P (x : Option (Text × List Token)) : Prop :=
      ∃ q, x = some q ∧ ¬ (∃ rest', c :: rest = '!' :: rest' ∧ rest'.head? ≠ some '=')
        ∧ Adds out q.2 ∧ q.1.length < line.length
    have htakes : ∀ q, Adds out q.2 ∧ q.1.length ≤ rest.length → P (some q) := fun q hq =>
      ⟨q, rfl, hlone, hq.1, Nat.lt_of_le_of_lt hq.2 hle⟩
    have htwo : ∀ type value, P (some (rest.tail, addToken out type value)) := fun type value =>
      htakes _ ⟨Or.inr ⟨type, value, rfl⟩, (tail_sublist rest).length_le⟩
    have hone : ∀ type value, P (some (rest, addToken out type value)) := fun type value =>
      htakes _ ⟨Or.inr ⟨type, value, rfl⟩, Nat.le_refl _⟩
    refine Or.inr (Or.inr (show P _ from ?_))
    refine iteInduction (fun h => absurd h hcomment) fun _ =>
      iteInduction (fun _ => htakes _ ⟨Or.inr ⟨_, _, rfl⟩, lexStringLoop_le rest []⟩) fun hc1 =>
      iteInduction (fun _ => htakes _ (lexDollar_spec rest out)) fun hc2 =>
      iteInduction (fun _ => htwo ..) fun _ => iteInduction (fun _ => htwo ..) fun hc3 =>
      iteInduction (fun _ => htwo ..) fun _ => iteInduction (fun _ => htwo ..) fun _ =>
      iteInduction (fun _ => hone ..) fun hc4 => iteInduction (fun _ => hone ..) fun hc5 =>
      iteInduction (fun _ => hone ..) fun hc6 => iteInduction (fun _ => hone ..) fun hc7 =>
      iteInduction (fun _ => hone ..) fun _ => htakes _ (lexWord_taken ?_ rest out)
    have hbang : c ≠ '!' := by
      rintro rfl
      exact hlone ⟨rest, rfl, by simpa using hc3⟩
    simp [isBareChar, hc, hc1, hc2, hc4, hc5, hc6, hc7, hbang]

/-- Where rounds lead to from the start of a line. -/
def Rounds (line : Text) (p : Text × List Token) : Prop :=
  ReflTransGen (fun p q : Text × List Token => lexRound p.1 p.2 = some q) (line, []) p

variable {p : Text × List Token}

theorem lexLoop_round (h : lexRound p.1 p.2 = some q) : lexLoop 0 p.1 p.2 = none
    ∧ ∀ rounds, lexLoop (rounds + 1) p.1 p.2 = lexLoop rounds q.1 q.2 := by
  obtain ⟨_ | ⟨_, _⟩, _⟩ := p
  · cases h
  · exact ⟨rfl, fun rounds => by simp only [lexLoop, h]⟩

theorem lexLoop_stop (h : lexRound p.1 p.2 = none) (rounds : Nat) :
    lexLoop (rounds + 1) p.1 p.2 = some p.2 := by
  obtain ⟨_ | ⟨_, _⟩, _⟩ := p
  · rfl
  · simp only [lexLoop, h]

/-- The loop goes on from every place that rounds lead to. -/
theorem Rounds.goesOn (h : Rounds line p) (hl : lexLoop rounds line [] = some out) :
    ∃ rounds, lexLoop rounds p.1 p.2 = some out := by
  induction h with
  | refl => exact ⟨rounds, hl⟩
  | tail _ hround ih =>
    obtain ⟨_ | rounds, hl⟩ := ih
    · cases (lexLoop_round hround).1.symm.trans hl
    · exact ⟨rounds, ((lexLoop_round hround).2 rounds).symm.trans hl⟩

/-- From a lone exclamation mark rounds lead to a place that they do not leave. -/
theorem Rounds.stuck (h : Rounds line p) (hbang : LoneBang p.1) :
    ∃ q, Rounds line q ∧ lexRound q.1 q.2 = some q := by
  have hround : ∀ l, LoneBang l → lexRound l p.2 = some (l.dropWhile isSpace, p.2) := by
    intro l hl
    obtain ⟨_, hc⟩ | ⟨-, hr⟩ | ⟨-, -, hno, -⟩ := lexRound_cases l p.2
    · obtain ⟨_, hd, -⟩ := hl
      cases hc '!' (by rw [hd]; rfl)
    · exact hr
    · exact absurd hl hno
  refine ⟨_, h.tail (hround _ hbang), ?_⟩
  have hidem : (p.1.dropWhile isSpace).dropWhile isSpace = p.1.dropWhile isSpace :=
    dropWhile_idempotent ..
  have hr := hround (p.1.dropWhile isSpace) (by rwa [LoneBang, hidem])
  rwa [hidem] at hr

/-- Without a lone exclamation mark ahead, the rounds use up the line. -/
theorem Rounds.ends (hno : ∀ p, Rounds line p → ¬ LoneBang p.1) (n : Nat) :
    ∀ {p : Text × List Token}, Rounds line p → Bounded p.2 → p.1.length < n →
    ∃ q, lexLoop n p.1 p.2 = some q.2 ∧ Rounds line q ∧ Bounded q.2
      ∧ ∀ c ∈ (q.1.dropWhile isSpace).head?, c = '#' := by
  induction n with
  | zero => exact fun _ _ hn => absurd hn (Nat.not_lt_zero _)
  | succ n ih =>
    intro p hp hb _
    obtain ⟨hr, hend⟩ | ⟨hbang, -⟩ | ⟨_, hr, -, hadds, _⟩ := lexRound_cases p.1 p.2
    · exact ⟨p, lexLoop_stop hr n, hp, hb, hend⟩
    · exact absurd hbang (hno p hp)
    · rw [(lexLoop_round hr).2]
      exact ih (hp.tail hr) (hb.adds hadds) (by omega)

/-- **THE LEXER ENDS**, at the end of the line or at a comment and with tokens in their
    bounds, exactly if no round starts at a lone exclamation mark; and exactly then every
    round moves forward. -/
theorem lex_ends_iff (line : Text) :
    ((∃ rounds p, lexLoop rounds line [] = some p.2 ∧ Rounds line p ∧ Bounded p.2
        ∧ ∀ c ∈ (p.1.dropWhile isSpace).head?, c = '#') ↔ ∀ p, Rounds line p → ¬ LoneBang p.1)
    ∧ ((∀ p q, Rounds line p → lexRound p.1 p.2 = some q → q.1.length < p.1.length)
      ↔ ∀ p, Rounds line p → ¬ LoneBang p.1) := by
  refine ⟨⟨?_, fun hno => ?_⟩, fun hall p hp hbang => ?_, fun hno p q hp hround => ?_⟩
  · rintro ⟨_, _, hl, -⟩ p hp hbang
    obtain ⟨q, hq, hround⟩ := hp.stuck hbang
    -- the round is repeated for ever
    have hstuck : ∀ n, lexLoop n q.1 q.2 = none := by
      intro n
      induction n with
      | zero => exact (lexLoop_round hround).1
      | succ n ih => exact ((lexLoop_round hround).2 n).trans ih
    obtain ⟨n, hn⟩ := hq.goesOn hl
    cases (hstuck n).symm.trans hn
  · exact ⟨_, Rounds.ends hno _ .refl ⟨Nat.zero_le _, nofun⟩ (Nat.lt_succ_self _)⟩
  · obtain ⟨q, hq, hround⟩ := hp.stuck hbang
    exact Nat.lt_irrefl _ (hall q q hq hround)
  · obtain ⟨hr, -⟩ | ⟨hbang, -⟩ | ⟨_, hr, -, -, hlt⟩ := lexRound_cases p.1 p.2
    · cases hr.symm.trans hround
    · exact absurd hbang (hno p hp)
    · obtain rfl := Option.some.inj (hr.symm.trans hround)
      exact hlt

/-- The line `!x` is never read to its end. -/
theorem bang_hangs : ¬ ∃ rounds out, lexLoop rounds "!x".toList [] = some out := by
  rintro ⟨rounds, _, h⟩
  induction rounds with
  | zero => cases h
  | succ _ ih => exact ih h

end Sosh
