import SecureOS.CapabilityModel
import SecureOS.VfbFontModel
import SecureOS.Lib.BubbleSortProofs
import SecureOS.Lib.MachineRunProofs

/-! # The window manager's compositor

`user/apps/win/compositor.c` and `window.c`: up to four windows, each showing the virtual
framebuffer of a session, are drawn from the back to the front into a back buffer of 320 by 200
pixels; a dialog, a button and the mouse cursor go on top.

The back buffer is a colour for each point: every loop that writes to it is clipped to the
screen.  The framebuffer of a session is read through one static buffer, `vfb_bulk`, which keeps
what earlier reads left in it.  Which framebuffers there are when a window is drawn is an input,
and so are the pixels that the dialog paints. -/

namespace Compositor

open Capability VfbFont BubbleSort MachineRun Function

/-! ## Drawing -/

abbrev Point := Int × Int

abbrev Canvas := Point → Nat

def onScreen (p : Point) : Prop := 0 ≤ p.1 ∧ p.1 < 320 ∧ 0 ≤ p.2 ∧ p.2 < 200

def inRect (x y w h : Int) (p : Point) : Prop := x ≤ p.1 ∧ p.1 < x + w ∧ y ≤ p.2 ∧ p.2 < y + h

instance (p : Point) : Decidable (onScreen p) := inferInstanceAs (Decidable (_ ∧ _ ∧ _ ∧ _))

instance (x y w h : Int) (p : Point) : Decidable (inRect x y w h p) :=
  inferInstanceAs (Decidable (_ ∧ _ ∧ _ ∧ _))

def colorDesktop : Nat := 1
def colorTitlebar : Nat := 9
def colorTitlebarUf : Nat := 8
def colorTitleText : Nat := 15
def colorBorder : Nat := 7
def colorContentBg : Nat := 0
def colorCloseBtn : Nat := 4
def colorCursor : Nat := 15

def fillRect (x y w h : Int) (color : Nat) (c : Canvas) : Canvas :=
  fun p => if inRect x y w h p ∧ onScreen p then color else c p

/-- `font_draw_char`: the font is the one of the kernel. -/
def fontDrawChar (px py : Int) (ch : Char) (color : Nat) (c : Canvas) : Canvas :=
  fun p =>
    if inRect px py 5 7 p ∧ onScreen p
        ∧ ((glyph ch).getD (p.2 - py).toNat 0).testBit (4 - (p.1 - px).toNat) = true
    then color else c p

def fontDrawString (px py : Int) (color : Nat) : CStr → Canvas → Canvas
  | [], c => c
  | ch :: str, c => fontDrawString (px + 6) py color str (fontDrawChar px py ch color c)

/-! ## Windows -/

/-- `win_window_t`, as far as drawing needs it, with room for its frame and a pixel of content. -/
structure Window where
  active : Bool
  x : Int
  y : Int
  width : Nat
  height : Nat
  title : CStr
  sessionId : Nat
  focused : Bool
  zOrder : Int32
  wide : 2 < width
  high : 11 < height

/-- The size of the content area: `WIN_BORDER` is 1 and `WIN_TITLE_HEIGHT` is 10. -/
def Window.contentW (w : Window) : Nat := w.width - 2
def Window.contentH (w : Window) : Nat := w.height - 11

/-- The content area, the whole window. -/
def Window.inContent (w : Window) (p : Point) : Prop :=
  inRect (w.x + 1) (w.y + 10) w.contentW w.contentH p
def Window.inFrame (w : Window) (p : Point) : Prop := inRect w.x w.y w.width w.height p

/-- The part of the framebuffer that `draw_window` asks for. -/
def Window.vfbW (w : Window) : Nat := min w.contentW 320
def Window.vfbH (w : Window) : Nat := min w.contentH 200

/-- `g_windows`. -/
abbrev Table := Fin 4 → Window

/-- The first free slot. -/
def freeSlot (t : Table) : Option (Fin 4) := (List.finRange 4).find? (fun i => !(t i).active)

/-- A dimension of a framebuffer, or the default. -/
def orDefault (n default : Nat) : Nat := if n = 0 then default else n

theorem lt_orDefault (n : Nat) (h : 0 < d) :
    2 < orDefault n d + 2 ∧ 11 < 10 + orDefault n d + 2 := by
  unfold orDefault
  split <;> omega

/-- `win_create`, with the size `os_session_get_vfb_size` answers. -/
def winCreate (t : Table) (x y : Int) (title : CStr) (sessionId vfbW vfbH : Nat) : Table :=
  match freeSlot t with
  | none => t
  | some i =>
    update t i
      { active := true, x := x, y := y
        width := orDefault vfbW 320 + 2
        height := 10 + orDefault vfbH 200 + 2
        title := title.take 31, sessionId := sessionId, focused := false, zOrder := Int32.ofInt i
        wide := (lt_orDefault vfbW (Nat.succ_pos _)).1
        high := (lt_orDefault vfbH (Nat.succ_pos _)).2 }

def winDestroy (t : Table) (i : Fin 4) : Table :=
  update t i { t i with active := false, focused := false }

def winMove (t : Table) (i : Fin 4) (x y : Int) : Table := update t i { t i with x := x, y := y }

def winSetFocus (t : Table) (i : Fin 4) : Table :=
  let t : Table := fun j => { t j with focused := false }
  if (t i).active then
    let maxZ := ((List.finRange 4).filter (fun j => (t j).active)).foldl
      (fun z j => max z (t j).zOrder.toInt) 0
    -- the sum wraps after 2^31 - 1
    update t i { t i with focused := true, zOrder := Int32.ofInt (maxZ + 1) }
  else t

/-- `win_hit_zone_t`. -/
inductive HitZone where
  | none | titlebar | content | closeBtn
  deriving DecidableEq

instance (w : Window) (p : Point) : Decidable (w.inFrame p) :=
  inferInstanceAs (Decidable (inRect _ _ _ _ _))

/-- One turn of the loop of `win_hit_test`, with `best_z` and `hit`. -/
def hitStep (t : Table) (p : Point) (best : Int × Option (Fin 4)) (i : Fin 4) :
    Int × Option (Fin 4) :=
  if (t i).active ∧ (t i).inFrame p ∧ (t i).zOrder.toInt > best.1 then
    ((t i).zOrder.toInt, some i)
  else best

def winHitTest (t : Table) (p : Point) : HitZone × Option (Fin 4) :=
  match (run (hitStep t p) (-1, none) (List.finRange 4)).2 with
  | none => (.none, none)
  | some i =>
    let w := t i
    (if p.2 - w.y < 10 then if p.1 - w.x ≥ w.width - 10 then .closeBtn else .titlebar
      else .content, some i)

/-! ## Framebuffers -/

/-- The framebuffer of a session, row by row. -/
structure Vfb where
  width : Nat
  height : Nat
  pixels : Nat → Nat
  wide : 0 < width
  high : 0 < height

/-- `vfb_bulk`. -/
abbrev Bulk := Nat → Nat

/-- What `session_manager_read_vfb` leaves in the buffer when it is asked for `w` by `h` pixels from
    the corner: the rectangle is clipped to the framebuffer and written without gaps, and the rest
    of the buffer stays. -/
def readVfb (v : Vfb) (w h : Nat) (bulk : Bulk) : Bulk :=
  let w := min w v.width
  let h := min h v.height
  fun k => if k < w * h then v.pixels (k / w * v.width + k % w) else bulk k

/-! ## Windows on the screen -/

/-- The frame, the title and the button of a window, and its content area cleared. -/
def drawFrame (w : Window) (c : Canvas) : Canvas :=
  let c := fillRect w.x w.y w.width w.height colorBorder c
  let c := fillRect (w.x + 1) (w.y + 1) (w.width - 2) 9
    (if w.focused then colorTitlebar else colorTitlebarUf) c
  let c := fontDrawString (w.x + 3) (w.y + 2) colorTitleText w.title c
  let c := fillRect (w.x + w.width - 10) (w.y + 1) 8 9 colorCloseBtn c
  let c := fontDrawChar (w.x + w.width - 9) (w.y + 2) 'X' colorTitleText c
  fillRect (w.x + 1) (w.y + 10) w.contentW w.contentH colorContentBg c

/-- The clipping of the copy in one direction, for `len` pixels at `pos` on a screen of `limit`:
    where it starts in the source and on the screen, and how many there are. -/
structure Span where
  src : Int
  dst : Int
  count : Int

def clip (pos : Int) (len : Nat) (limit : Int) : Span :=
  let s : Span := if pos < 0 then ⟨-pos, 0, len + pos⟩ else ⟨0, pos, len⟩
  if s.dst + s.count > limit then { s with count := limit - s.dst } else s

/-- The clipped copy from the buffer, whose rows are `vfbW` bytes apart. -/
def copyContent (contentX contentY : Int) (vfbW vfbH : Nat) (bulk : Bulk) (c : Canvas) : Canvas :=
  let sx := clip contentX vfbW 320
  let sy := clip contentY vfbH 200
  fun p =>
    if inRect sx.dst sy.dst sx.count sy.count p
    then bulk ((sy.src + (p.2 - sy.dst)) * vfbW + (sx.src + (p.1 - sx.dst))).toNat else c p

/-- What `draw_window` does to the back buffer. -/
def paintWindow (w : Window) (fb : Option Vfb) (bulk : Bulk) (c : Canvas) : Canvas :=
  match fb with
  | none => drawFrame w c
  | some v =>
    copyContent (w.x + 1) (w.y + 10) w.vfbW w.vfbH (readVfb v w.vfbW w.vfbH bulk) (drawFrame w c)

/-- What `draw_window` does to `vfb_bulk`. -/
def fillBulk (w : Window) (fb : Option Vfb) (bulk : Bulk) : Bulk :=
  match fb with
  | none => bulk
  | some v => readVfb v w.vfbW w.vfbH bulk

/-- `draw_window`; `fb` is the framebuffer of its session, if it can be read. -/
def drawWindow (w : Window) (fb : Option Vfb) (st : Canvas × Bulk) : Canvas × Bulk :=
  if w.active then (paintWindow w fb st.2 st.1, fillBulk w fb st.2) else st

/-- The windows in the order they are drawn, by `sort_windows_by_z`. -/
def drawOrder (t : Table) : List (Fin 4) :=
  bubbleSort (fun i => (t i).zOrder.toInt) ((List.finRange 4).filter (fun i => (t i).active))

/-- One turn of the drawing loop, with the framebuffer the window finds. -/
def drawStep (t : Table) (fb : Fin 4 → Option Vfb) (st : Canvas × Bulk) (i : Fin 4) :
    Canvas × Bulk :=
  drawWindow (t i) (fb i) st

/-- `auth_dialog_render`, by the pixels it paints. -/
def overlay (dialog : Point → Option Nat) (c : Canvas) : Canvas := fun p => (dialog p).getD (c p)

/-- The button at the top right. -/
def drawQuit (c : Canvas) : Canvas :=
  fontDrawString 298 2 colorTitleText ['Q', 'u', 'i', 't'] (fillRect 296 0 24 10 colorCloseBtn c)

/-- The points of the cursor. -/
def onCursor (mx my : Int) (p : Point) : Prop :=
  (p.2 = my ∧ mx - 3 ≤ p.1 ∧ p.1 ≤ mx + 3) ∨ (p.1 = mx ∧ my - 3 ≤ p.2 ∧ p.2 ≤ my + 3)

instance (mx my : Int) (p : Point) : Decidable (onCursor mx my p) :=
  inferInstanceAs (Decidable (_ ∨ _))

def drawCursor (mx my : Int) (c : Canvas) : Canvas :=
  fun p => if onCursor mx my p ∧ onScreen p then colorCursor else c p

/-- The windows, the transfer buffer, and the picture blitted to the screen. -/
structure Manager where
  table : Table
  bulk : Bulk
  screen : Canvas

/-- The desktop. -/
def desktop : Canvas := fun _ => colorDesktop

/-- All windows drawn, and what is left in the transfer buffer. -/
def drawWindows (m : Manager) (fb : Fin 4 → Option Vfb) : Canvas × Bulk :=
  run (drawStep m.table fb) (desktop, m.bulk) (drawOrder m.table)

def compositorRender (m : Manager) (fb : Fin 4 → Option Vfb) (dialog : Point → Option Nat)
    (mx my : Int) : Manager :=
  let st := drawWindows m fb
  { m with
    bulk := st.2
    screen := drawCursor mx my (drawQuit (overlay dialog st.1)) }

/-- What the program does: windows come, go, move and get the focus, and frames are rendered. -/
inductive Op where
  | create (x y : Int) (title : CStr) (sessionId vfbW vfbH : Nat)
  | destroy (i : Fin 4)
  | move (i : Fin 4) (x y : Int)
  | focus (i : Fin 4)
  | render (fb : Fin 4 → Option Vfb) (dialog : Point → Option Nat) (mx my : Int)

def step (m : Manager) : Op → Manager
  | .create x y title sessionId vfbW vfbH =>
    { m with table := winCreate m.table x y title sessionId vfbW vfbH }
  | .destroy i => { m with table := winDestroy m.table i }
  | .move i x y => { m with table := winMove m.table i x y }
  | .focus i => { m with table := winSetFocus m.table i }
  | .render fb dialog mx my => compositorRender m fb dialog mx my

/-- A slot as `win_init` leaves it; the fields it does not write are of no window. -/
def emptySlot : Window :=
  { active := false, x := 0, y := 0, width := 3, height := 12, title := [], sessionId := 0
    focused := false, zOrder := 0, wide := by decide, high := by decide }

/-- The start of the program: no windows, and the static buffers zero. -/
def start : Manager where
  table _ := emptySlot
  bulk _ := 0
  screen := desktop

end Compositor
