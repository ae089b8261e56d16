import SecureOS.SessionFrameProofs
import Mathlib.Data.List.Range

/-! # Reading the output of a session

The writer moves the end of the screen history, the reader its cursor.  A byte that the history
takes gets the next place in the output of the session, so what lies between the two is the part
of the output that comes next, and a read takes it from there.

The command `clear` moves the end back to the start and leaves the cursor where it is.
`output_in_order_iff` says that this is the only way to lose the order: every state of a run is
in order exactly if each `clear` of it finds a cursor that the prompt it writes will reach.
`cleared_screen_returns_junk` is the run where it does not. -/

namespace SessionIo

open MachineRun Capability CapTable ConsoleAuth List

/-! ## The statement -/

/-- The byte at a place of the output. -/
def outputAt (accepted : List Char) (k : Nat) : Option Kept :=
  (accepted[k]?).map (fun c => ⟨c, some k⟩)

/-- The cursor is within the history and the history within its array, and all the reads together
    returned bytes of the output at increasing places. -/
structure OutputOk (s : Screen) : Prop where
  cursor_le : s.readCursor ≤ s.len
  len_lt : s.len < screenHistoryMax
  in_order : ∃ ks : List Nat, ks.Pairwise (· < ·) ∧ (∀ k ∈ ks, k < s.accepted.length)
    ∧ s.returned = ks.map (outputAt s.accepted)

/-- The subject of the console may write. -/
def mayWrite (m : Machine) : Bool :=
  capTableCheck m.bits (m.sessions m.console).subjectId capConsoleWrite == .ok

/-- How much text the prompt after a `clear` is: eight characters and the working directory, in a
    buffer of 64 bytes, and nothing if the console may not write. -/
def promptLength (m : Machine) : Nat :=
  if mayWrite m then min 63 ((m.sessions m.console).cwd.1.length + 8) else 0

/-- A `clear` finds a cursor that is not past the prompt. -/
def ClearsBehind (m : Machine) (op : Op) : Prop :=
  op = .clear → (m.sessions m.console).screen.readCursor ≤ promptLength m

/-! ## One history -/

/-- What holds of a history wherever its cursor is.  The history is the last `len` bytes of the
    output, and what was returned lies before the cursor. -/
structure HistoryOk (s : Screen) : Prop where
  len_lt : s.len < screenHistoryMax
  len_le : s.len ≤ s.accepted.length
  stored : ∀ j, j < s.len → s.byteAt j = outputAt s.accepted (s.accepted.length - s.len + j)
  in_order : ∃ ks : List Nat, ks.Pairwise (· < ·)
    ∧ (∀ k ∈ ks, k < s.accepted.length - s.len + min s.readCursor s.len)
    ∧ s.returned = ks.map (outputAt s.accepted)

/-- A history that can be read. -/
structure ScreenOk (s : Screen) : Prop extends HistoryOk s where
  cursor_le : s.readCursor ≤ s.len

variable {s : Screen} {m : Machine} {i : Fin 8}

theorem ScreenOk.outputOk (h : ScreenOk s) : OutputOk s := by
  obtain ⟨ks, hpair, hlt, hret⟩ := h.in_order
  refine ⟨h.cursor_le, h.len_lt, ks, hpair, fun k hk => ?_, hret⟩
  have hle := h.len_le
  have := hlt k hk
  omega

theorem outputAt_append (h : k < accepted.length) (c : Char) :
    outputAt (accepted ++ [c]) k = outputAt accepted k := by
  rw [outputAt, outputAt, List.getElem?_append_left h]

theorem outputAt_last (accepted : List Char) (c : Char) :
    outputAt (accepted ++ [c]) accepted.length = some ⟨c, some accepted.length⟩ := by
  rw [outputAt, List.getElem?_append_right le_rfl, Nat.sub_self]
  rfl

theorem byteAt_set_of_ne (s : Screen) {i j : Nat} (h : j ≠ i) (k : Kept) :
    (s.set i k).byteAt j = s.byteAt j := by
  unfold Screen.byteAt
  split
  · exact congrArg some (if_neg h)
  · rfl

theorem byteAt_set_self (s : Screen) {i : Nat} (h : i < 4096) (k : Kept) :
    (s.set i k).byteAt i = some k := by
  unfold Screen.byteAt
  rw [dif_pos h]
  exact congrArg some (if_pos rfl)

/-- A terminator stands after what is stored. -/
theorem HistoryOk.terminate (h : HistoryOk s) : HistoryOk s.terminate := by
  refine ⟨h.len_lt, h.len_le, fun j hj => ?_, h.in_order⟩
  have hne : j ≠ s.len := Nat.ne_of_lt hj
  exact (byteAt_set_of_ne s hne _).trans (h.stored j hj)

/-- A byte that is taken is the next of the output, and is stored at the end. -/
theorem HistoryOk.push (h : HistoryOk s) (hroom : s.len + 1 < screenHistoryMax) (c : Char) :
    HistoryOk (s.push c) := by
  have hle := h.len_le
  have hlen : (s.push c).accepted.length = s.accepted.length + 1 := length_append.trans rfl
  have hbase : (s.push c).accepted.length - (s.push c).len = s.accepted.length - s.len := by
    rw [hlen]
    exact Nat.add_sub_add_right _ 1 _
  refine ⟨hroom, by rw [hlen]; exact Nat.succ_le_succ hle, fun j hj => ?_, ?_⟩
  · rw [hbase]
    show (s.set s.len ⟨c, some s.accepted.length⟩).byteAt j = outputAt (s.accepted ++ [c]) _
    obtain hj | rfl := Nat.lt_succ_iff_lt_or_eq.mp hj
    · rw [byteAt_set_of_ne s (Nat.ne_of_lt hj), outputAt_append (by omega)]
      exact h.stored j hj
    · rw [byteAt_set_self s (Nat.lt_of_succ_lt hroom), Nat.sub_add_cancel hle, outputAt_last]
  · obtain ⟨ks, hpair, hlt, hret⟩ := h.in_order
    refine ⟨ks, hpair, fun k hk => ?_, hret.trans (map_congr_left fun k hk => ?_)⟩
    · rw [hbase]
      show k < s.accepted.length - s.len + min s.readCursor (s.len + 1)
      have := hlt k hk
      omega
    · have := hlt k hk
      exact (outputAt_append (by omega) c).symm

/-- What every byte that is taken keeps. -/
theorem pushAll_inv {I : Screen → Prop}
    (hpush : ∀ s c, s.len + 1 < screenHistoryMax → I s → I (s.push c)) (message : CStr) (h : I s) :
    I (s.pushAll message) := by
  fun_induction Screen.pushAll s message with
  | case4 s c _ _ hroom ih => exact ih (hpush s c (Nat.lt_of_not_le hroom) h)
  | _ => exact h

theorem HistoryOk.append (h : HistoryOk s) (message : CStr) : HistoryOk (s.append message) :=
  (pushAll_inv (fun _ c hroom h => h.push hroom c) message h).terminate

theorem empty_lt : 0 < screenHistoryMax := by decide

/-- A restart keeps what was returned: the history is empty, and the output goes on. -/
theorem HistoryOk.restart (h : HistoryOk s) : HistoryOk s.restart := by
  refine HistoryOk.terminate ⟨empty_lt, Nat.zero_le _, fun j hj => absurd hj j.not_lt_zero, ?_⟩
  obtain ⟨ks, hpair, hlt, hret⟩ := h.in_order
  refine ⟨ks, hpair, fun k hk => ?_, hret⟩
  show k < s.accepted.length - 0 + min s.readCursor 0
  have hle := h.len_le
  have := hlt k hk
  omega

theorem screenOk_renew (s : Screen) : ScreenOk s.renew where
  toHistoryOk := HistoryOk.restart ⟨empty_lt, Nat.zero_le _, fun j hj => absurd hj j.not_lt_zero,
      [], .nil, fun _ hk => absurd hk not_mem_nil, rfl⟩
  cursor_le := le_rfl

/-! ## The cursor and the end -/

theorem readCursor_append (s : Screen) (message : CStr) :
    (s.append message).readCursor = s.readCursor :=
  pushAll_inv (I := fun t => t.readCursor = s.readCursor) (fun _ _ _ => id) message rfl

theorem len_pushAll (s : Screen) (hnul : nul ∉ message)
    (hroom : s.len + message.length < screenHistoryMax) :
    (s.pushAll message).len = s.len + message.length := by
  induction message generalizing s with
  | nil => rfl
  | cons c message ih =>
    have hc : c ≠ nul := fun h => hnul (h ▸ mem_cons_self)
    rw [length_cons] at hroom
    rw [Screen.pushAll, if_neg hc, if_neg (by omega),
      ih (s.push c) (fun h => hnul (mem_cons_of_mem _ h)) (by show s.len + 1 + _ < _; omega)]
    show s.len + 1 + message.length = s.len + (message.length + 1)
    omega

theorem ScreenOk.append (h : ScreenOk s) (message : CStr) : ScreenOk (s.append message) where
  toHistoryOk := h.toHistoryOk.append message
  cursor_le := by
    rw [readCursor_append]
    exact pushAll_inv (I := fun t => s.readCursor ≤ t.len) (fun _ _ _ => Nat.le_succ_of_le) message
      h.cursor_le

/-! ## Reading -/

/-- A read takes the next bytes of the output, as many as there are and as fit. -/
theorem ScreenOk.readOutput (h : ScreenOk s) (size : Nat) : ScreenOk (s.readOutput size).1 := by
  unfold Screen.readOutput
  split
  · exact h
  have hcur := h.cursor_le
  have hlen : s.len < 4096 := h.len_lt
  have hav : (s.len + 2 ^ 64 - s.readCursor) % 2 ^ 64 = s.len - s.readCursor := by
    rw [Nat.sub_add_comm hcur, Nat.add_mod_right]
    exact Nat.mod_eq_of_lt (by omega)
  rw [hav]
  dsimp only
  split
  · exact h
  obtain ⟨n, hn⟩ : ∃ n, n = if s.len - s.readCursor ≥ size then size - 1
    else s.len - s.readCursor := ⟨_, rfl⟩
  have hncopy : s.readCursor + n ≤ s.len := by
    rw [hn]
    split <;> omega
  rw [← hn, Nat.mod_eq_of_lt (show s.readCursor + n < 2 ^ 64 by omega)]
  -- the bytes that are copied are the output from the cursor on
  have hout : (List.range n).map (fun i => s.byteAt ((s.readCursor + i) % 2 ^ 64))
      = ((List.range n).map (fun i => s.accepted.length - s.len + s.readCursor + i)).map
          (outputAt s.accepted) := by
    rw [map_map]
    refine map_congr_left (fun i hi => ?_)
    have hi := mem_range.mp hi
    rw [Nat.mod_eq_of_lt (by omega), h.stored _ (by omega), ← Nat.add_assoc]
    rfl
  refine ⟨⟨h.len_lt, h.len_le, h.stored, ?_⟩, hncopy⟩
  obtain ⟨ks, hpair, hlt, hret⟩ := h.in_order
  refine ⟨ks ++ (List.range n).map (fun i => s.accepted.length - s.len + s.readCursor + i),
    pairwise_append.mpr ⟨hpair, ?_, ?_⟩, ?_, ?_⟩
  · exact pairwise_map.mpr (pairwise_lt_range.imp (fun hij => by omega))
  · intro k hk _ hj
    obtain ⟨_, -, rfl⟩ := mem_map.mp hj
    have := hlt k hk
    omega
  · intro k hk
    show k < s.accepted.length - s.len + min (s.readCursor + n) s.len
    obtain hk | hk := mem_append.mp hk
    · have := hlt k hk
      omega
    · obtain ⟨_, hi, rfl⟩ := mem_map.mp hk
      have hi := mem_range.mp hi
      omega
  · show s.returned ++ _ = _
    rw [hout, hret, map_append]

theorem ScreenOk.step (h : ScreenOk s) (hs : ScreenStep s s') : ScreenOk s' := by
  cases hs with
  | same => exact h
  | append message => exact h.append message
  | read size => exact h.readOutput size
  | restart h0 => exact ⟨h.toHistoryOk.restart, h0.le⟩

/-! ## Writing and clearing -/

theorem Renders.screen (h : Renders m m') (j : Fin 8) :
    (m'.sessions j).screen = (m.sessions j).screen := by
  obtain ⟨_, he⟩ := h.session j
  rw [he]

/-- The console writes to the end of the history it is bound to, and to no other. -/
theorem screen_consoleWrite (m : Machine) (message : CStr) (j : Fin 8) :
    ((consoleWrite m false message).sessions j).screen
      = if mayWrite m ∧ j = m.console then (m.sessions j).screen.append message
        else (m.sessions j).screen := by
  unfold consoleWrite mayWrite
  dsimp only
  split
  · next hno => rw [if_neg fun h => hno (beq_iff_eq.mp h.1)]
  · next hok =>
      -- the framebuffer of a managed session is not its screen
      have hrender : ∀ m₁, ((if (m.sessions m.console).wmManaged then
          sessionManagerVfbWrite m₁ m.active message else m₁).sessions j).screen
          = (m₁.sessions j).screen := by
        intro m₁
        split
        · exact (renders_vfbWrite m₁ m.active message).screen j
        · rfl
      refine (hrender _).trans ?_
      rw [if_neg Bool.false_ne_true]
      by_cases hj : j = m.console
      · subst hj
        rw [setSession_self, if_pos ⟨beq_iff_eq.mpr (not_not.mp hok), rfl⟩]
      · rw [setSession_of_ne hj, if_neg fun h => hj h.2]

theorem nul_notMem_appendString (hdst : nul ∉ dst)
    (hsrc : nul ∉ src) : nul ∉ appendString size dst src := by
  intro h
  obtain h | h := mem_append.mp h
  · exact hdst h
  · exact hsrc (mem_of_mem_take h)

theorem length_promptText (i : Fin 8) (cwd : CStr) :
    (promptText i cwd).length = min 63 (cwd.length + 8) := by
  unfold promptText
  simp only [appendString, length_append, length_take, length_cons, length_nil]
  omega

theorem nul_notMem_promptText (i : Fin 8) (cwd : Text) : nul ∉ promptText i cwd.1 := by
  have hdigit : ∀ i : Fin 8, nul ∉ [Char.ofNat (48 + i)] := by decide
  refine nul_notMem_appendString (nul_notMem_appendString (nul_notMem_appendString
    (nul_notMem_appendString (nul_notMem_appendString ?_ ?_) (hdigit i)) ?_) cwd.2) ?_
  all_goals decide

/-- What `clear` leaves of the console's history: nothing, and the prompt if it may write. -/
theorem screen_clear (m : Machine) : ((consoleClear m).sessions m.console).screen
      = if mayWrite m then (m.sessions m.console).screen.restart.append
          (promptText m.active (m.sessions m.console).cwd.1)
        else (m.sessions m.console).screen.restart := by
  unfold consoleClear consoleWritePrompt
  rw [screen_consoleWrite]
  obtain ⟨m₁, hm₁⟩ : ∃ m₁, m₁ = setSession m m.console (fun s =>
    { s with screen := s.screen.restart }) := ⟨_, rfl⟩
  have hself : m₁.sessions m.console
      = { m.sessions m.console with screen := (m.sessions m.console).screen.restart } := by
    rw [hm₁, setSession_self]
  have hconsole : m₁.console = m.console := by rw [hm₁]; rfl
  have hmay : mayWrite m₁ = mayWrite m := by
    unfold mayWrite
    rw [hconsole, hself, hm₁]
    rfl
  rw [← hm₁, hmay, hconsole, hself]
  rw [show m₁.active = m.active by rw [hm₁]; rfl]
  by_cases h : mayWrite m = true
  · rw [if_pos ⟨h, rfl⟩, if_pos h]
  · rw [if_neg fun hc => h hc.1, if_neg h]

theorem screen_clear_of_ne (hj : j ≠ m.console) :
    ((consoleClear m).sessions j).screen = (m.sessions j).screen := by
  unfold consoleClear consoleWritePrompt
  rw [screen_consoleWrite, if_neg fun h => hj h.2, setSession_of_ne hj]

theorem len_clear (m : Machine) :
    ((consoleClear m).sessions m.console).screen.len = promptLength m := by
  rw [screen_clear, promptLength]
  split
  · have hlen := length_promptText m.active (m.sessions m.console).cwd.1
    have hall := len_pushAll (m.sessions m.console).screen.restart
      (nul_notMem_promptText m.active (m.sessions m.console).cwd)
      (by rw [hlen]; show 0 + _ < 4096; omega)
    rw [hlen] at hall
    exact hall.trans (Nat.zero_add _)
  · rfl

theorem readCursor_clear (m : Machine) : ((consoleClear m).sessions m.console).screen.readCursor
      = (m.sessions m.console).screen.readCursor := by
  rw [screen_clear]
  split
  · exact readCursor_append _ _
  · rfl

/-! ## Runs -/

/-- Every session has a sound screen. -/
def ScreensOk (m : Machine) : Prop := ∀ i, ScreenOk (m.sessions i).screen

section

variable (h : ScreensOk m)
include h

theorem ScreensOk.setSession (hf : ScreenOk (f (m.sessions i)).screen) :
    ScreensOk (setSession m i f) :=
  forall_setSession (P := fun s => ScreenOk s.screen) h hf

/-- The one step that needs its condition: the history after a `clear` is the prompt. -/
theorem screensOk_clear (hbehind : (m.sessions m.console).screen.readCursor ≤ promptLength m) :
    ScreensOk (consoleClear m) := by
  intro j
  by_cases hj : j = m.console
  · subst hj
    refine ⟨?_, ?_⟩
    · rw [screen_clear]
      split
      · exact (h m.console).toHistoryOk.restart.append _
      · exact (h m.console).toHistoryOk.restart
    · rw [len_clear, readCursor_clear]
      exact hbehind
  · rw [screen_clear_of_ne hj]
    exact h j

end

theorem ScreensOk.does (hd : Does m m') (h : ScreensOk m) : ScreensOk m' := by
  induction hd with
  | refl => exact h
  | trans _ _ ih ih' => exact ih' (ih h)
  | moves hs _ => exact fun j => hs ▸ h j
  | renders hr => exact fun j => (hr.screen j).symm ▸ h j
  | updates _ hs => exact h.setSession ((h _).step hs)
  | allocates =>
    intro j
    rw [allocVfb, setSession_field Session.screen rfl]
    exact h j
  | sizes | destroys => exact h.setSession (h _)

theorem screensOk_createSessionAt (h : ScreensOk m) (i : Fin 8) (subject : Nat) :
    ScreensOk (createSessionAt m i subject) :=
  h.setSession (screenOk_renew _)

theorem screensOk_step (h : ScreensOk m) (hop : ClearsBehind m op) : ScreensOk (step m op) := by
  obtain ⟨m₁, hbegins, hdoes⟩ := step_does m op
  cases hbegins with
  | same => exact ScreensOk.does hdoes h
  | creates => exact ScreensOk.does hdoes (screensOk_createSessionAt h _ _)
  | restarts hclear =>
    subst hclear
    exact screensOk_clear h (hop rfl)

theorem screensOk_start (bits : Bits) (bootstrap : Nat) : ScreensOk (start bits bootstrap) := by
  have hempty : ScreensOk ⟨bits, fun _ => emptySession, 0, bootstrap, 0, [], fun _ => ⟨0, none⟩⟩ :=
    fun _ => ⟨⟨empty_lt, le_rfl, fun j hj => absurd hj j.not_lt_zero,
      [], .nil, fun _ hk => absurd hk not_mem_nil, rfl⟩, le_rfl⟩
  exact ScreensOk.does (does_consoleInit _ (readCursor_createSessionAt _ 0 bootstrap) bootstrap)
    (screensOk_createSessionAt hempty 0 bootstrap)

/-! ## Main results -/

/-- **OUTPUT IS READ IN ORDER** in every state of a run exactly if every `clear` finds a read cursor
    that is not past the prompt it writes: for every session the cursor is within the history, and
    all that was read is its output, at increasing places. -/
theorem output_in_order_iff (bits : Bits) (bootstrap : Nat) (ops : List Op) :
    (∀ pre post, ops = pre ++ post →
        ∀ i, OutputOk ((run step (start bits bootstrap) pre).sessions i).screen)
      ↔ Along step ClearsBehind (start bits bootstrap) ops := by
  constructor
  · intro h
    refine (along_iff_splits ops _).mpr ?_
    rintro pre _ post hsplit rfl
    -- the state after the clear is in order, and its history is the prompt
    have hok := h (pre ++ [.clear]) post (by rw [hsplit, append_assoc]; rfl)
      (run step (start bits bootstrap) pre).console
    rw [run_append] at hok
    have hle := hok.cursor_le
    rw [run_cons] at hle
    exact (readCursor_clear _).symm.le.trans (hle.trans (len_clear _).le)
  · rintro h pre post rfl i
    have hpre := ((along_append step ClearsBehind pre post _).mp h).1
    have hok : ScreensOk (run step (start bits bootstrap) pre) :=
      run_inv (I := ScreensOk) (P := ClearsBehind) (fun _ _ hm hop => screensOk_step hm hop) pre _
        (screensOk_start bits bootstrap) hpre
    exact (hok i).outputOk

/-- Subject 0 may write to its console. -/
def consoleBits : Bits := (capTableGrant (fun _ _ => 0) 0 capConsoleWrite).1

/-- All of the greeting is read, then the screen is cleared: the cursor is at 109 of a history of 9
    bytes, and the next read returns a byte that nobody wrote. -/
theorem cleared_screen_returns_junk :
    let m := run step (start consoleBits 0) [.readOutput 0 4096, .clear]
    (m.sessions 0).screen.readCursor = 109 ∧ (m.sessions 0).screen.len = 9
      ∧ (sessionManagerReadOutput m 0 2).2 = [some ⟨nul, none⟩] := by
  decide +kernel

end SessionIo
