import SecureOS.CapabilityModel
import SecureOS.Lib.WordsProofs

/-! # The arguments of an application

`app_parse_invocation_args` of `kernel/user/launcher_exec.c` copies the argument string into a
buffer of 128 bytes, cuts it at the blanks and lets `argv` point to the pieces.  The scan skips
every zero byte behind a piece, so behind the last piece it goes on into what the buffer held
before. -/

namespace InvocationArgs

open Capability Words List

def nul : Char := '\x00'

def isNul (c : Char) : Bool := c = nul

theorem isNul_nul : isNul nul := rfl

/-- An argument string that fits the buffer. -/
structure ArgString where
  chars : CStr
  text : nul ∉ chars
  short : chars.length ≤ 127

def appCharIsSpace (c : Char) : Bool := c = ' ' ∨ c = '\t'

def appSkipSpaces (s : CStr) : CStr := s.dropWhile appCharIsSpace

/-- `app_copy_string` into an array. -/
def appCopyString (dst : List Char) (src : CStr) : List Char :=
  src.take (dst.length - 1) ++ nul :: dst.drop ((src.take (dst.length - 1)).length + 1)

def cut (c : Char) : Char := if appCharIsSpace c then nul else c

/-- The first loop: blanks become terminators, up to the terminator of the string. -/
def cutSpaces : List Char → List Char
  | [] => []
  | c :: cs => if isNul c then c :: cs else cut c :: cutSpaces cs

/-- `APP_ARGV_MAX` is 8. -/
def addArg (argv : List CStr) (arg : CStr) : List CStr :=
  if argv.length < 8 then argv ++ [arg] else argv

/-- The second loop, on what is left of the buffer; an entry of `argv` is read up to its
    terminator. -/
def scanArgs (argv : List CStr) : List Char → List CStr
  | [] => argv
  | c :: cs =>
    if isNul c then argv
    else
      scanArgs (addArg argv ((c :: cs).takeWhile (!isNul ·)))
        (((c :: cs).dropWhile (!isNul ·)).dropWhile isNul)
termination_by buf => buf.length
decreasing_by
  rename_i hc
  have hrest := (dropWhile_sublist (!isNul ·) (l := cs)).length_le
  have hskip := (dropWhile_sublist isNul (l := cs.dropWhile (!isNul ·))).length_le
  rw [dropWhile_cons_of_pos (by simp [hc]), length_cons]
  omega

/-- `app_parse_invocation_args`: the strings of `argv`; `buffer` is what `args_buffer` held. -/
def appParseInvocationArgs (appArgs : Option ArgString) (buffer : Fin 128 → Char) : List CStr :=
  match appArgs with
  | none => []
  | some args => scanArgs [] (cutSpaces (appCopyString (ofFn buffer) (appSkipSpaces args.chars)))

/-- What lies behind the terminator of the copy. -/
def stale (args : ArgString) (buffer : Fin 128 → Char) : List Char :=
  (ofFn buffer).drop ((appSkipSpaces args.chars).length + 1)

variable {s : CStr}

theorem addArg_append (argv : List CStr) (arg : CStr) (rest : List CStr) :
    addArg argv arg ++ rest.take (8 - (addArg argv arg).length)
      = argv ++ (arg :: rest).take (8 - argv.length) := by
  unfold addArg
  split
  next _ =>
    obtain ⟨k, hk⟩ : ∃ k, 8 - argv.length = k + 1 := ⟨7 - argv.length, by omega⟩
    have hnext : 8 - (argv ++ [arg]).length = k := by
      rw [length_append, length_singleton]
      omega
    rw [hk, hnext, take_succ_cons, append_assoc, singleton_append]
  next hfull => rw [Nat.sub_eq_zero_of_le (Nat.le_of_not_lt hfull), take_zero, take_zero]

/-- A scan that starts inside a word goes through all words of the buffer. -/
theorem scanArgs_eq (argv : List CStr) (buf : List Char) (h : buf.head? ≠ some nul) :
    scanArgs argv buf = argv ++ (words isNul buf).take (8 - argv.length) := by
  fun_induction scanArgs argv buf with
  | case1 => simp [words]
  | case2 _ _ _ hc => exact absurd (congrArg some (of_decide_eq_true hc)) h
  | case3 _ c cs hc ih =>
    have hstart : (((c :: cs).dropWhile (!isNul ·)).dropWhile isNul).head? ≠ some nul := by
      intro hhead
      have hstop := head?_dropWhile_not isNul ((c :: cs).dropWhile (!isNul ·))
      rw [hhead] at hstop
      exact absurd hstop (by decide)
    rw [ih hstart, words_skip, words_word (Bool.eq_false_iff.mpr hc), addArg_append]

theorem cutSpaces_append (h : nul ∉ s) (old : List Char) : cutSpaces (s ++ nul :: old)
    = s.map cut ++ nul :: old := by
  induction s with
  | nil => rfl
  | cons _ _ ih =>
    rw [mem_cons, not_or] at h
    rw [cons_append, cutSpaces, if_neg (by simpa [isNul] using Ne.symm h.1), ih h.2]
    rfl

/-- Cutting turns the blanks into the separators. -/
theorem splitOnP_cut (h : nul ∉ s) : (s.map cut).splitOnP isNul = s.splitOnP appCharIsSpace := by
  induction s with
  | nil => rfl
  | cons c _ ih =>
    rw [mem_cons, not_or] at h
    rw [map_cons, splitOnP_cons_eq_if_modifyHead, splitOnP_cons_eq_if_modifyHead, ih h.2]
    rw [cut]
    cases hc : appCharIsSpace c with
    | true => rfl
    | false => exact if_neg (by simpa [isNul] using Ne.symm h.1)

/-- The words of the cut copy are those of the string and those of the stale bytes. -/
theorem words_cut (h : nul ∉ s) (old : List Char) : words isNul (cutSpaces (s ++ nul :: old))
      = words appCharIsSpace s ++ words isNul old := by
  rw [cutSpaces_append h, words, splitOnP_append_cons _ _ isNul_nul, splitOnP_cut h, filter_append]
  rfl

/-- What `argv` holds: nothing for a blank string, else the words of the string and of the stale
    bytes, cut to eight. -/
theorem appParseInvocationArgs_eq (args : ArgString) (buffer : Fin 128 → Char) :
    appParseInvocationArgs args buffer = if appSkipSpaces args.chars = [] then []
      else (words appCharIsSpace args.chars ++ words isNul (stale args buffer)).take 8 := by
  have hsub := dropWhile_sublist appCharIsSpace (l := args.chars)
  have htext : nul ∉ appSkipSpaces args.chars := fun hn => args.text (hsub.mem hn)
  have hcopy : appCopyString (ofFn buffer) (appSkipSpaces args.chars)
      = appSkipSpaces args.chars ++ nul :: stale args buffer := by
    have hfits : (appSkipSpaces args.chars).length ≤ (ofFn buffer).length - 1 := by
      rw [length_ofFn]
      exact hsub.length_le.trans args.short
    rw [appCopyString, take_of_length_le hfits]
    rfl
  rw [appParseInvocationArgs, hcopy, ← words_skip args.chars]
  split
  next hnil => rw [hnil, nil_append, cutSpaces, if_pos isNul_nul, scanArgs, if_pos isNul_nul]
  next hne =>
    have hstart : (cutSpaces (appSkipSpaces args.chars ++ nul :: stale args buffer)).head?
        ≠ some nul := by
      obtain ⟨_, _, hcons⟩ := exists_cons_of_ne_nil hne
      have hspace := head?_dropWhile_not appCharIsSpace args.chars
      rw [← appSkipSpaces, hcons] at hspace
      rw [cutSpaces_append htext, hcons, map_cons, cut, if_neg (by simpa using hspace)]
      rintro hc
      exact htext (hcons ▸ Option.some.inj hc ▸ mem_cons_self)
    rw [scanArgs_eq [] _ hstart, words_cut htext]
    rfl

/-- The arguments are the first eight words of the string exactly if it is blank, has eight words
    or more, or the buffer held only zero bytes behind it. -/
theorem args_exact_iff (args : ArgString) (buffer : Fin 128 → Char) :
    appParseInvocationArgs args buffer = (words appCharIsSpace args.chars).take 8 ↔
      appSkipSpaces args.chars = [] ∨ 8 ≤ (words appCharIsSpace args.chars).length
        ∨ ∀ c ∈ stale args buffer, c = nul := by
  have hstale : words isNul (stale args buffer) = [] ↔ ∀ c ∈ stale args buffer, c = nul := by
    rw [words_eq_nil]
    simp [isNul]
  rw [appParseInvocationArgs_eq]
  split
  next hnil =>
    rw [← words_skip, ← appSkipSpaces, hnil]
    exact iff_of_true rfl (.inl rfl)
  next hne =>
    rw [or_iff_right hne, take_append, append_right_eq_self, take_eq_nil_iff, hstale,
      Nat.sub_eq_zero_iff_le]

/-- The string `a`, parsed into the buffer of an earlier call. -/
theorem stale_argument : appParseInvocationArgs (some ⟨['a'], by decide, by decide⟩)
      (fun i => if i = 2 then 'x' else nul) = [['a'], ['x']] ∧
    (words appCharIsSpace ['a']).take 8 = [['a']] := by
  decide +kernel

end InvocationArgs
