import SecureOS.SessionIoModel
import SecureOS.Lib.MachineRunProofs

/-! # Framebuffers of sessions

A session record keeps the address of its framebuffer and, next to it, the size the framebuffer
is used with.  The two are set together when the block is allocated, and
`session_manager_destroy` takes back the size alone: the next session of the record finds the
block of the last one, with its pixels, and goes by the default size.

`vfb_matches_buffer` says that this is the only way: as long as no session is created in a
record that still has a framebuffer, every size that is used fits the block it is used on, and
no session shows a pixel of an earlier session of its record.  `reused_record_shows_pixels` is
the run where one is. -/

namespace SessionIo

open MachineRun Provenance VfbFont Capability CapTable Option

/-! ## The statement -/

/-- The record a step creates a session in. -/
def takes (m : Machine) : Op → Option (Fin 8)
  | .create _ => freeRecord m
  | .switch sessionId => switchCreates m sessionId
  | _ => none

/-- No session is created in a record that has a framebuffer from an earlier one. -/
def TakesClean (m : Machine) (op : Op) : Prop :=
  ∀ i, takes m op = some i → (m.sessions i).vfb = none

instance (m : Machine) (op : Op) : Decidable (TakesClean m op) :=
  inferInstanceAs (Decidable (∀ i, takes m op = some i → (m.sessions i).vfb = none))

/-- The sizes that the framebuffer of a session is used with fit its block: the answer of the size
    query, the size the reader and the renderer take, and the size that is cleared. -/
structure SizesFit (m : Machine) (i : Fin 8) (b : Block) : Prop where
  query : (sessionManagerGetVfbSize m i).1 * (sessionManagerGetVfbSize m i).2 ≤ b.size
  used : (m.sessions i).usedWidth * (m.sessions i).usedHeight ≤ b.size
  cleared : (m.sessions i).vfbWidth * (m.sessions i).vfbHeight ≤ b.size

/-- Some read of a session's framebuffer returns a pixel of the `g`-th session of its record. -/
def Exposes (m : Machine) (i : Fin 8) (g : Nat) : Prop :=
  ∃ x y w h room, ∃ p ∈ (sessionManagerReadVfb m i x y w h room).2, p.writer = some (i, g)

/-! ## Frames -/

/-- The fields of a record that its framebuffer depends on. -/
def Session.frame (s : Session) : Bool × Option Block × Nat × Nat × Nat :=
  (s.inUse, s.vfb, s.vfbWidth, s.vfbHeight, s.generation)

variable {s : Session} {m m' : Machine} {i : Fin 8} {f : Session → Session}

/-- The sessions that have a framebuffer, or were the last of their record to have it. -/
def Live (m : Machine) : Set Owner :=
  {o | (m.sessions o.1).vfb ≠ none ∧ o.2 = (m.sessions o.1).generation}

theorem mem_live (h : (m.sessions i).vfb = some b) :
    (i, (m.sessions i).generation) ∈ Live m :=
  ⟨fun hn => some_ne_none b (h.symm.trans hn), rfl⟩

theorem live_of_frame (h : ∀ i, (m'.sessions i).frame = (m.sessions i).frame) :
    Live m' = Live m := by
  ext o
  have hframe := h o.1
  simp only [Session.frame, Prod.mk.injEq] at hframe
  simp [Live, hframe]

theorem setSession_self (m : Machine) (i : Fin 8) (f : Session → Session) :
    (setSession m i f).sessions i = f (m.sessions i) :=
  Function.update_self ..

theorem setSession_of_ne (h : j ≠ i) (f : Session → Session) :
    (setSession m i f).sessions j = m.sessions j :=
  Function.update_of_ne h ..

/-- What an update does not touch in its record, it does not touch anywhere. -/
theorem setSession_field (g : Session → β)
    (hf : g (f (m.sessions i)) = g (m.sessions i)) (j : Fin 8) :
    g ((setSession m i f).sessions j) = g (m.sessions j) := by
  by_cases hj : j = i
  · subst hj
    rw [setSession_self]
    exact hf
  · rw [setSession_of_ne hj]

theorem forall_setSession {P : Session → Prop} (h : ∀ j, P (m.sessions j))
    (hf : P (f (m.sessions i))) (j : Fin 8) : P ((setSession m i f).sessions j) := by
  by_cases hj : j = i
  · subst hj
    rw [setSession_self]
    exact hf
  · rw [setSession_of_ne hj]
    exact h j

/-! ## Rendering -/

/-- Drawing leaves nothing behind but pixels of the session it draws for. -/
theorem writtenBy_drawChar {s : Set Owner} {owner : Owner} (howner : owner ∈ s) (buffer : Int)
    (stride : Nat) (px py : Int) (ch : Char) (color : Nat) (h : WrittenBy s mem) :
    WrittenBy s (vfbFontDrawChar owner buffer stride px py ch color mem) := by
  refine writtenBy_foldl (fun mem row hmem => ?_) _ h
  dsimp only
  split
  · exact hmem
  · refine writtenBy_foldl (fun mem col hmem => ?_) _ hmem
    split
    · exact writtenBy_write howner hmem _ _
    · exact hmem

theorem writtenBy_placeChar {s : Set Owner} {owner : Owner} (howner : owner ∈ s) (buffer : Int)
    (vfbW : Nat) (ch : Char) {pen : Cursor × Pixels} (h : WrittenBy s pen.2) :
    WrittenBy s (placeChar owner buffer vfbW ch pen).2 := by
  have hdraw : ∀ px py c color,
      WrittenBy s (vfbFontDrawChar owner buffer vfbW px py c color pen.2) :=
    fun px py c color => writtenBy_drawChar howner buffer vfbW px py c color h
  fun_cases placeChar owner buffer vfbW ch pen with
  | case3 | case6 => exact hdraw _ _ _ _
  | _ => exact h

theorem writtenBy_settle {s : Set Owner} (buffer : Int) (vfbW vfbH : Nat)
    {pen : Cursor × Pixels} (h : WrittenBy s pen.2) :
    WrittenBy s (settle buffer vfbW vfbH pen).2 := by
  unfold settle
  dsimp only
  generalize (if pen.1.col ≥ vfbW / (fontW + fontSpacing) then (⟨0, pen.1.row + 1⟩ : Cursor)
    else pen.1) = cursor
  split
  -- a scroll moves pixels with their owners and wipes the last line
  · exact writtenBy_wipe (writtenBy_foldl (fun _ _ hmem => writtenBy_copy hmem _ _) _ h) _ _
  · exact h

/-- What rendering does: it draws for sessions with a framebuffer, and moves the cursors of records.
    -/
structure Renders (m m' : Machine) : Prop where
  session : ∀ i, ∃ cursor, m'.sessions i = { m.sessions i with vfbCursor := cursor }
  memory : WrittenBy (Live m) m.memory → WrittenBy (Live m) m'.memory

theorem Renders.refl (m : Machine) : Renders m m := ⟨fun i => ⟨(m.sessions i).vfbCursor, rfl⟩, id⟩

theorem Renders.frame (h : Renders m m') (i : Fin 8) :
    (m'.sessions i).frame = (m.sessions i).frame := by
  obtain ⟨_, he⟩ := h.session i
  rw [he]
  rfl

theorem Renders.trans (h : Renders m m') (h' : Renders m' m'') : Renders m m'' := by
  refine ⟨fun i => ?_, fun hm => ?_⟩
  · obtain ⟨_, he⟩ := h.session i
    obtain ⟨cursor', he'⟩ := h'.session i
    exact ⟨cursor', by rw [he', he]⟩
  · have hdrawn := h'.memory
    rw [live_of_frame h.frame] at hdrawn
    exact hdrawn (h.memory hm)

theorem renders_set (hmem : WrittenBy (Live m) m.memory → WrittenBy (Live m) mem) :
    Renders m { setSession m i (fun s => { s with vfbCursor := cursor }) with memory := mem } := by
  refine ⟨fun j => ?_, hmem⟩
  show ∃ c, (setSession m i (fun s => { s with vfbCursor := cursor })).sessions j
    = { m.sessions j with vfbCursor := c }
  by_cases hj : j = i
  · subst hj
    exact ⟨cursor, setSession_self m j _⟩
  · exact ⟨(m.sessions j).vfbCursor, setSession_of_ne hj _⟩

theorem renders_putchar (m : Machine) (i : Fin 8) (ch : Char) :
    Renders m (sessionManagerVfbPutchar m i ch) := by
  fun_cases sessionManagerVfbPutchar m i ch with
  | case2 _ _ _ hv =>
    exact renders_set (fun hm =>
      writtenBy_settle _ _ _ (writtenBy_placeChar (mem_live hv) _ _ _ hm))
  | _ => exact .refl m

theorem renders_vfbWrite (m : Machine) (i : Fin 8) (text : CStr) :
    Renders m (sessionManagerVfbWrite m i text) := by
  induction text generalizing m with
  | nil => exact .refl m
  | cons c _ ih =>
    rw [sessionManagerVfbWrite]
    split
    · exact .refl m
    · exact (renders_putchar m i c).trans (ih _)

theorem renders_zeroBytes (m : Machine) (addr : Int) (n : Nat) :
    Renders m { m with memory := zeroBytes m.memory addr n } :=
  ⟨(Renders.refl m).session, fun h => writtenBy_wipe h _ _⟩

/-- What a new framebuffer shows. -/
theorem renders_prompt (m : Machine) (i : Fin 8) (b : Block) : Renders m (renderPrompt m i b) :=
  (((renders_zeroBytes m b.addr b.size).trans (renders_vfbWrite _ i _)).trans
    (renders_putchar _ i _)).trans (renders_vfbWrite _ i _)

/-! ## What a step does

Every step begins with one of three things and goes on with those `Does` lists, so that what
they keep is kept along every run. -/

/-- What can happen to a history; it starts again where nothing was read of it. -/
inductive ScreenStep (s : Screen) : Screen → Prop where
  | same : ScreenStep s s
  | append (message : CStr) : ScreenStep s (s.append message)
  | read (size : Nat) : ScreenStep s (s.readOutput size).1
  | restart (h : s.readCursor = 0) : ScreenStep s s.restart

/-- What a call does to sessions and memory. -/
inductive Does : Machine → Machine → Prop where
  | refl (a : Machine) : Does a a
  | trans : Does a b → Does b c → Does a c
  | moves (hs : b.sessions = a.sessions) (hm : b.memory = a.memory) : Does a b
  | renders (h : Renders a b) : Does a b
  | updates (hf : (g (a.sessions k)).frame = (a.sessions k).frame)
      (hs : ScreenStep (a.sessions k).screen (g (a.sessions k)).screen) : Does a (setSession a k g)
  | allocates (hnone : (a.sessions k).vfb = none) (room : Option Int) : Does a (allocVfb a k room)
  | sizes (hnone : (a.sessions k).vfb = none) (width height : Nat) :
      Does a (setSession a k (fun s =>
        { s with vfbWidth := min width 320, vfbHeight := min height 200 }))
  | destroys (a : Machine) (k : Fin 8) : Does a (setSession a k (fun s =>
      { s with inUse := false, gfxMode := false, vfbCursor := ⟨0, 0⟩, vfbWidth := 0,
               vfbHeight := 0, wmManaged := false }))

/-- How a call begins. -/
inductive Begins (a : Machine) (op : Op) : Machine → Prop where
  | same : Begins a op a
  | creates (hk : takes a op = some k) : Begins a op (createSessionAt a k subject)
  | restarts (hop : op = .clear) :
      Begins a op (setSession a a.console (fun s => { s with screen := s.screen.restart }))

section

variable (m : Machine)

theorem does_bind (i : Fin 8) : Does m { m with console := i } := .moves rfl rfl

theorem does_consoleWrite (restoring : Bool) (message : CStr) :
    Does m (consoleWrite m restoring message) := by
  unfold consoleWrite
  dsimp only
  split
  · exact .refl m
  have hkeep : Does m (if restoring then m
      else setSession m m.console (fun s => { s with screen := s.screen.append message })) := by
    split
    · exact .refl m
    · exact .updates rfl (.append message)
  split
  · exact hkeep.trans (.renders (renders_vfbWrite _ _ _))
  · exact hkeep

theorem does_consoleWrites (messages : List CStr) :
    Does m (messages.foldl (fun m message => consoleWrite m false message) m) := by
  induction messages generalizing m with
  | nil => exact .refl m
  | cons message _ ih => exact (does_consoleWrite m false message).trans (ih _)

theorem does_consoleInit (h0 : (m.sessions i).screen.readCursor = 0) (subject : Nat) :
    Does m (consoleInit m i subject) := by
  have hreset : Does { m with console := i } (setSession { m with console := i } i (fun s =>
      { s with subjectId := subject, cwd := copyString 64 ['/'], screen := s.screen.restart })) :=
    .updates rfl (.restart h0)
  unfold consoleInit consoleWritePrompt
  exact (((does_bind m i).trans hreset).trans (does_consoleWrites _ banner)).trans
    (does_consoleWrite _ _ _)

theorem readCursor_createSessionAt (i : Fin 8) (subject : Nat) :
    ((createSessionAt m i subject).sessions i).screen.readCursor = 0 := by
  rw [createSessionAt, setSession_self]
  rfl

theorem does_create (subject : Nat) :
    ∃ m₁, Begins m (.create subject) m₁ ∧ Does m₁ (sessionManagerCreate m subject) := by
  have hnew := fun i => does_consoleInit _ (readCursor_createSessionAt m i subject) subject
  fun_cases sessionManagerCreate m subject with
  | case1 => exact ⟨m, .same, .refl m⟩
  | case2 i hfree => exact ⟨_, .creates hfree, (hnew i).trans (does_bind _ _)⟩
  | case3 i hfree => exact ⟨_, .creates hfree, hnew i⟩

theorem does_switch (sessionId : Nat) :
    ∃ m₁, Begins m (.switch sessionId) m₁ ∧ Does m₁ (sessionManagerSwitch m sessionId) := by
  refine ⟨createForSwitch m sessionId, ?_, ?_⟩
  · unfold createForSwitch
    split
    · exact .same
    · next hi => exact .creates hi
  · unfold sessionManagerSwitch
    dsimp only
    split
    · exact .refl _
    · exact .moves rfl rfl

theorem does_getVfb (i : Fin 8) (room : Option Int) : Does m (getVfb m i room) := by
  unfold getVfb
  split
  · next hnone => exact .allocates hnone room
  · exact .refl m

theorem does_get (sessionId : Nat) (room : Option Int) :
    Does m (sessionManagerGetVfb m sessionId room).1 := by
  unfold sessionManagerGetVfb
  split
  · exact .refl m
  · exact does_getVfb m _ room

theorem does_clearVfb (sessionId : Nat) (room : Option Int) :
    Does m (sessionManagerClearVfb m sessionId room) := by
  fun_cases sessionManagerClearVfb m sessionId room with
  | case1 => exact .refl m
  | case2 i => exact does_getVfb m i room
  | case3 i => exact (does_getVfb m i room).trans (.renders (renders_zeroBytes _ _ _))

theorem does_putPixel (x y : Int) (color : Nat) (room : Option Int) :
    Does m (appNativeVideoPutPixel m x y color room) := by
  have hget := does_getVfb m m.active room
  fun_cases appNativeVideoPutPixel m x y color room with
  | case2 _ _ _ b hv =>
    exact hget.trans (.renders ⟨(Renders.refl _).session,
      fun hmem => writtenBy_write (mem_live hv) hmem _ _⟩)
  | case4 => exact .refl m
  | _ => exact hget

/-- A session comes under the window manager: the record, the block, what is drawn into it. -/
theorem does_setWmManaged (sessionId : Nat) (managed : Bool) (room : Option Int) :
    Does m (sessionManagerSetWmManaged m sessionId managed room) := by
  have hflag : ∀ i, Does m (setSession m i (fun s => { s with wmManaged := managed })) :=
    fun _ => .updates rfl .same
  have halloc : ∀ i, _ → Does m (setSession (allocVfb (setSession m i _) i room) i _) :=
    fun i hvfb => ((hflag i).trans (.allocates hvfb room)).trans
      (.updates (k := i) (g := fun s => { s with vfbCursor := ⟨0, 0⟩ }) rfl .same)
  fun_cases sessionManagerSetWmManaged m sessionId managed room with
  | case1 => exact .refl m
  | case2 i _ _ hcond => exact halloc i hcond.2
  | case3 i _ _ hcond => exact (halloc i hcond.2).trans (.renders (renders_prompt _ i _))
  | case4 i => exact hflag i

theorem does_setVfbSize (sessionId : Nat) (width height : BitVec 32) :
    Does m (sessionManagerSetVfbSize m sessionId width height) := by
  fun_cases sessionManagerSetVfbSize m sessionId width height with
  | case4 i _ hvfb => exact .sizes (not_not.mp hvfb) _ _
  | _ => exact .refl m

theorem does_destroy (sessionId : Nat) : Does m (sessionManagerDestroy m sessionId) := by
  unfold sessionManagerDestroy
  split
  · exact .refl m
  split
  · exact .refl m
  · exact .destroys m _

theorem does_tickBegin (sessionId : Nat) : Does m (tickBegin m sessionId) := by
  unfold tickBegin
  split <;> exact .moves rfl rfl

theorem does_tickEnd : Does m (tickEnd m) := by
  unfold tickEnd
  split <;> exact .moves rfl rfl

theorem does_restore : Does m (consoleRestoreScreenHistory m) := by
  unfold consoleRestoreScreenHistory
  dsimp only
  split
  · exact .refl m
  · exact does_consoleWrite m _ _

theorem does_readOutput (sessionId size : Nat) :
    Does m (sessionManagerReadOutput m sessionId size).1 := by
  unfold sessionManagerReadOutput
  split
  · exact .refl m
  · dsimp only
    exact .updates rfl (.read size)

theorem does_setGfxMode (sessionId : Nat) (gfxMode : Bool) :
    Does m (sessionManagerSetGfxMode m sessionId gfxMode) := by
  unfold sessionManagerSetGfxMode
  split
  · exact .refl m
  · exact .updates rfl .same

/-- A read leaves the machine, or as the lookup of the framebuffer does, and returns what is in
    memory then. -/
theorem readVfb_cases (sessionId : Nat) (x y w h : BitVec 32) (room : Option Int) :
    sessionManagerReadVfb m sessionId x y w h room = (m, [])
      ∨ ∃ i, (sessionManagerReadVfb m sessionId x y w h room).1 = getVfb m i room
          ∧ ∀ p ∈ (sessionManagerReadVfb m sessionId x y w h room).2,
              ∃ a, p = (getVfb m i room).memory a := by
  fun_cases sessionManagerReadVfb m sessionId x y w h room with
  | case4 _ i => exact .inr ⟨i, rfl, fun p hp => absurd hp List.not_mem_nil⟩
  | case5 _ i =>
    refine .inr ⟨i, rfl, fun p hp => ?_⟩
    obtain ⟨_, -, hrow⟩ := List.mem_flatMap.mp hp
    obtain ⟨_, -, rfl⟩ := List.mem_map.mp hrow
    exact ⟨_, rfl⟩
  | _ => exact .inl rfl

theorem does_readVfb (sessionId : Nat) (x y w h : BitVec 32) (room : Option Int) :
    Does m (sessionManagerReadVfb m sessionId x y w h room).1 := by
  obtain he | ⟨i, he, -⟩ := readVfb_cases m sessionId x y w h room
  · rw [he]
    exact .refl m
  · rw [he]
    exact does_getVfb m i room

theorem step_does (op : Op) : ∃ m₁, Begins m op m₁ ∧ Does m₁ (step m op) := by
  cases op with
  | clear => exact ⟨_, .restarts rfl, does_consoleWrite _ _ _⟩
  | create subject => exact does_create m subject
  | switch sessionId => exact does_switch m sessionId
  | write message => exact ⟨m, .same, does_consoleWrite m false message⟩
  | restoreScreenHistory => exact ⟨m, .same, does_restore m⟩
  | chdir path => exact ⟨m, .same, .updates (g := fun s => { s with cwd := copyString 64 path })
      rfl .same⟩
  | putPixel x y color room => exact ⟨m, .same, does_putPixel m x y color room⟩
  | destroy sessionId => exact ⟨m, .same, does_destroy m sessionId⟩
  | tickBegin sessionId => exact ⟨m, .same, does_tickBegin m sessionId⟩
  | tickEnd => exact ⟨m, .same, does_tickEnd m⟩
  | readOutput sessionId size => exact ⟨m, .same, does_readOutput m sessionId size⟩
  | setWmManaged sessionId managed room =>
    exact ⟨m, .same, does_setWmManaged m sessionId managed room⟩
  | setGfxMode sessionId gfxMode => exact ⟨m, .same, does_setGfxMode m sessionId gfxMode⟩
  | setVfbSize sessionId width height => exact ⟨m, .same, does_setVfbSize m sessionId width height⟩
  | getVfb sessionId room => exact ⟨m, .same, does_get m sessionId room⟩
  | clearVfb sessionId room => exact ⟨m, .same, does_clearVfb m sessionId room⟩
  | readVfb sessionId x y w h room => exact ⟨m, .same, does_readVfb m sessionId x y w h room⟩
  | _ => exact ⟨m, .same, .moves rfl rfl⟩

end

/-! ## The invariant -/

/-- Sizes fit, and every pixel in memory was drawn for the last session of a record with a
    framebuffer. -/
structure FramesOk (m : Machine) : Prop where
  fits : ∀ i b, (m.sessions i).inUse = true → (m.sessions i).vfb = some b →
    (m.sessions i).usedWidth * (m.sessions i).usedHeight ≤ b.size
  drawn : WrittenBy (Live m) m.memory

theorem FramesOk.same (h : FramesOk m) (hf : ∀ i, (m'.sessions i).frame = (m.sessions i).frame)
    (hm : WrittenBy (Live m) m'.memory) : FramesOk m' := by
  refine ⟨fun i => ?_, live_of_frame hf ▸ hm⟩
  have hframe := hf i
  simp only [Session.frame, Prod.mk.injEq] at hframe
  simpa only [Session.usedWidth, Session.usedHeight, hframe] using h.fits i

section

variable (h : FramesOk m)
  (hfit : ∀ b, (f (m.sessions i)).inUse → (f (m.sessions i)).vfb = some b →
    (f (m.sessions i)).usedWidth * (f (m.sessions i)).usedHeight ≤ b.size)
  (hkeep : (m.sessions i).vfb ≠ none → (f (m.sessions i)).vfb ≠ none
    ∧ (f (m.sessions i)).generation = (m.sessions i).generation)
include h hfit hkeep

/-- A step on one record: the others stay, pixels are at most wiped, and no owner is forgotten. -/
theorem FramesOk.set (hmem : WrittenBy (Live m) mem) :
    FramesOk { setSession m i f with memory := mem } := by
  constructor
  · intro j b
    by_cases hj : j = i
    · subst hj
      rw [setSession_self]
      exact hfit b
    · rw [setSession_of_ne hj]
      exact h.fits j b
  · refine hmem.mono (fun o ho => ?_)
    show ((setSession m i f).sessions o.1).vfb ≠ none
      ∧ o.2 = ((setSession m i f).sessions o.1).generation
    by_cases ho1 : o.1 = i
    · rw [ho1, setSession_self]
      have hold := hkeep (ho1 ▸ ho.1)
      exact ⟨hold.1, (ho1 ▸ ho.2).trans hold.2.symm⟩
    · rw [setSession_of_ne ho1]
      exact ho

theorem FramesOk.setSession : FramesOk (setSession m i f) := h.set hfit hkeep h.drawn

end

/-! ## Allocation -/

theorem kmalloc_cases (mem : Pixels) (size : Nat) (room : Option Int) :
    kmalloc mem size room = (none, mem)
      ∨ ∃ addr n, kmalloc mem size room = (some ⟨addr, size⟩, zeroBytes mem addr n) := by
  unfold kmalloc
  split
  · exact .inl rfl
  · cases room with
    | none => exact .inl rfl
    | some addr => exact .inr ⟨addr, _, rfl⟩

theorem usedWidth_of_used :
    ({ s with vfbWidth := s.usedWidth, vfbHeight := s.usedHeight, vfb := v } : Session).usedWidth
      = s.usedWidth := by
  simp only [Session.usedWidth]
  split <;> simp_all

theorem usedHeight_of_used :
    ({ s with vfbWidth := s.usedWidth, vfbHeight := s.usedHeight, vfb := v } : Session).usedHeight
      = s.usedHeight := by
  simp only [Session.usedHeight]
  split <;> simp_all

/-- The block is as large as the size that is kept for it. -/
theorem framesOk_allocVfb (h : FramesOk m) (hnone : (m.sessions i).vfb = none) (room : Option Int) :
    FramesOk (allocVfb m i room) := by
  unfold allocVfb
  dsimp only
  obtain he | ⟨_, _, he⟩ := kmalloc_cases m.memory
    ((m.sessions i).usedWidth * (m.sessions i).usedHeight) room
  · rw [he]
    exact h.set (fun b _ hv => absurd hv.symm (some_ne_none b)) (fun hsome => absurd hnone hsome)
      h.drawn
  · rw [he]
    refine h.set (fun b _ hv => ?_) (fun hsome => absurd hnone hsome) (writtenBy_wipe h.drawn _ _)
    rw [usedWidth_of_used, usedHeight_of_used, ← some.inj hv]

theorem generation_getVfb (m : Machine) (i j : Fin 8) (room : Option Int) :
    ((getVfb m i room).sessions j).generation = (m.sessions j).generation := by
  unfold getVfb
  split
  · unfold allocVfb
    dsimp only
    exact setSession_field Session.generation rfl j
  · rfl

/-- What has no framebuffer has any size. -/
theorem FramesOk.free (h : FramesOk m) (hnone : (m.sessions i).vfb = none)
    (hf : (f (m.sessions i)).vfb = none) : FramesOk (SessionIo.setSession m i f) :=
  h.setSession (fun b _ hv => absurd (hv.symm.trans hf) (some_ne_none b))
    (fun hsome => absurd hnone hsome)

theorem FramesOk.does (hd : Does m m') (h : FramesOk m) : FramesOk m' := by
  induction hd with
  | refl => exact h
  | trans _ _ ih ih' => exact ih' (ih h)
  | moves hs hm => exact h.same (fun i => hs ▸ rfl) (hm ▸ h.drawn)
  | renders hr => exact h.same hr.frame (hr.memory h.drawn)
  | updates hf _ => exact h.same (setSession_field Session.frame hf) h.drawn
  | allocates hnone room => exact framesOk_allocVfb h hnone room
  | sizes hnone width height => exact h.free hnone hnone
  | destroys m i =>
    exact h.setSession (fun b hu _ => absurd hu Bool.false_ne_true) (fun hsome => ⟨hsome, rfl⟩)

/-- Only a session in a record with a framebuffer would not do. -/
theorem framesOk_step (h : FramesOk m) (hclean : TakesClean m op) : FramesOk (step m op) := by
  obtain ⟨m₁, hbegins, hdoes⟩ := step_does m op
  refine FramesOk.does hdoes ?_
  cases hbegins with
  | same => exact h
  | creates hi => exact h.free (hclean _ hi) (hclean _ hi)
  | restarts hop => exact h.same (setSession_field Session.frame rfl) h.drawn

theorem framesOk_start (bits : Bits) (bootstrap : Nat) : FramesOk (start bits bootstrap) := by
  have hempty : FramesOk ⟨bits, fun _ => emptySession, 0, bootstrap, 0, [], fun _ => ⟨0, none⟩⟩ :=
    ⟨fun i b hu => absurd hu Bool.false_ne_true, fun a o ho => absurd ho.symm (some_ne_none o)⟩
  exact FramesOk.does (does_consoleInit _ (readCursor_createSessionAt _ 0 bootstrap) bootstrap)
    (hempty.free rfl rfl)

/-! ## Main results -/

theorem inUseSession_self (h : (m.sessions i).inUse) : inUseSession m i = some i := by
  rw [inUseSession, dif_pos i.isLt, if_pos h]

theorem sizesFit_of_ok (h : FramesOk m) (hu : (m.sessions i).inUse)
    (hv : (m.sessions i).vfb = some b) : SizesFit m i b := by
  have hused := h.fits i b hu hv
  refine ⟨?_, hused, ?_⟩
  · rw [sessionManagerGetVfbSize, inUseSession_self hu]
    exact hused
  -- a field that is not zero is the one that is used
  · refine le_trans (Nat.mul_le_mul ?_ ?_) hused
    · unfold Session.usedWidth
      split <;> omega
    · unfold Session.usedHeight
      split <;> omega

theorem exposes_of_ok (h : FramesOk m) (he : Exposes m i g) : g = (m.sessions i).generation := by
  obtain ⟨x, y, w, h', room, p, hp, hw⟩ := he
  obtain hnil | ⟨j, -, hmem⟩ := readVfb_cases m i x y w h' room
  · rw [hnil] at hp
    exact absurd hp List.not_mem_nil
  · obtain ⟨a, rfl⟩ := hmem p hp
    have hgen := ((FramesOk.does (does_getVfb m j room) h).drawn a (i, g) hw).2
    exact hgen.trans (generation_getVfb m j i room)

/-- **FRAMEBUFFERS MATCH THEIR SIZES** in every run that never creates a session in a record with a
    framebuffer: sessions go by sizes that fit their block, and no read returns a pixel of an
    earlier session. -/
theorem vfb_matches_buffer (bits : Bits) (bootstrap : Nat) (ops : List Op)
    (hclean : Along step TakesClean (start bits bootstrap) ops) (i : Fin 8) :
    let m := run step (start bits bootstrap) ops
    (m.sessions i).inUse = true → (∀ b, (m.sessions i).vfb = some b → SizesFit m i b)
      ∧ ∀ g, Exposes m i g → g = (m.sessions i).generation := by
  intro m hu
  have hok : FramesOk m :=
    run_inv (I := FramesOk) (P := TakesClean) (fun _ _ hm hop => framesOk_step hm hop) ops _
      (framesOk_start bits bootstrap) hclean
  exact ⟨fun b hv => sizesFit_of_ok hok hu hv, fun g he => exposes_of_ok hok he⟩

/-- A session with a framebuffer of 54 by 8 pixels, which shows its prompt. -/
def smallWindow : List Op := [.create 7, .setVfbSize 1 54 8, .setWmManaged 1 true (some 0x1000)]

theorem vfb_matches_buffer_smallWindow :
    ((run step (start (fun _ _ => 0) 0) smallWindow).sessions 1).vfb = some ⟨0x1000, 432⟩
      ∧ SizesFit (run step (start (fun _ _ => 0) 0) smallWindow) 1 ⟨0x1000, 432⟩ :=
  have hv : ((run step (start (fun _ _ => 0) 0) smallWindow).sessions 1).vfb
      = some ⟨0x1000, 432⟩ := by decide +kernel
  ⟨hv, (vfb_matches_buffer (fun _ _ => 0) 0 smallWindow (by decide +kernel) 1
    (by decide +kernel)).1 _ hv⟩

/-- The record's next session uses 320 by 200 pixels on the block of 432, and shows a pixel of the
    first. -/
theorem reused_record_shows_pixels :
    let m := run step (start (fun _ _ => 0) 0) (smallWindow ++ [.destroy 1, .create 7])
    (m.sessions 1).inUse = true ∧ (m.sessions 1).vfb = some ⟨0x1000, 432⟩
      ∧ sessionManagerGetVfbSize m 1 = (320, 200) ∧ (m.sessions 1).generation = 2
      ∧ (sessionManagerReadVfb m 1 1 0 1 1 none).2 = [⟨15, some (1, 1)⟩] := by
  decide +kernel

end SessionIo
