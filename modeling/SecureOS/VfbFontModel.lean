import SecureOS.Lib.ProvenanceProofs

/-! # The bitmap font of the virtual framebuffers

`kernel/gfx/vfb_font.c`: five by seven pixels a character, drawn one byte a pixel
into a buffer with a given number of bytes a row.  The checks on a pixel are
against the row and against 200 rows, whatever height the buffer has, so the
buffer is an address in memory and not a value of its own. -/

namespace VfbFont

open Provenance

/-- The session a pixel belongs to: its record, and which session of that record it is. -/
abbrev Owner := Fin 8 × Nat

/-- Kernel memory, a byte a cell; a cell also says for which session it was drawn. -/
abbrev Pixels := Memory Int Nat Owner

/-- `VFB_FONT_W`, `VFB_FONT_H` and `VFB_FONT_SPACING`. -/
def fontW : Nat := 5
def fontH : Nat := 7
def fontSpacing : Nat := 1

/-- `g_font_data`: seven rows a character, of which bits 4 to 0 are pixels. -/
def fontData : List (List Nat) :=
  [ -- from 0x20
    [0x00, 0x00, 0x00, 0x00, 0x00, 0x00, 0x00], [0x04, 0x04, 0x04, 0x04, 0x04, 0x00, 0x04],
    [0x0A, 0x0A, 0x0A, 0x00, 0x00, 0x00, 0x00], [0x0A, 0x0A, 0x1F, 0x0A, 0x1F, 0x0A, 0x0A],
    [0x04, 0x0F, 0x14, 0x0E, 0x05, 0x1E, 0x04], [0x18, 0x19, 0x02, 0x04, 0x08, 0x13, 0x03],
    [0x0C, 0x12, 0x14, 0x08, 0x15, 0x12, 0x0D], [0x04, 0x04, 0x08, 0x00, 0x00, 0x00, 0x00],
    [0x02, 0x04, 0x08, 0x08, 0x08, 0x04, 0x02], [0x08, 0x04, 0x02, 0x02, 0x02, 0x04, 0x08],
    [0x00, 0x04, 0x15, 0x0E, 0x15, 0x04, 0x00], [0x00, 0x04, 0x04, 0x1F, 0x04, 0x04, 0x00],
    [0x00, 0x00, 0x00, 0x00, 0x00, 0x04, 0x08], [0x00, 0x00, 0x00, 0x1F, 0x00, 0x00, 0x00],
    [0x00, 0x00, 0x00, 0x00, 0x00, 0x00, 0x04], [0x00, 0x01, 0x02, 0x04, 0x08, 0x10, 0x00],
    -- from 0x30
    [0x0E, 0x11, 0x13, 0x15, 0x19, 0x11, 0x0E], [0x04, 0x0C, 0x04, 0x04, 0x04, 0x04, 0x0E],
    [0x0E, 0x11, 0x01, 0x02, 0x04, 0x08, 0x1F], [0x1F, 0x02, 0x04, 0x02, 0x01, 0x11, 0x0E],
    [0x02, 0x06, 0x0A, 0x12, 0x1F, 0x02, 0x02], [0x1F, 0x10, 0x1E, 0x01, 0x01, 0x11, 0x0E],
    [0x06, 0x08, 0x10, 0x1E, 0x11, 0x11, 0x0E], [0x1F, 0x01, 0x02, 0x04, 0x08, 0x08, 0x08],
    [0x0E, 0x11, 0x11, 0x0E, 0x11, 0x11, 0x0E], [0x0E, 0x11, 0x11, 0x0F, 0x01, 0x02, 0x0C],
    [0x00, 0x00, 0x04, 0x00, 0x04, 0x00, 0x00], [0x00, 0x00, 0x04, 0x00, 0x04, 0x04, 0x08],
    [0x02, 0x04, 0x08, 0x10, 0x08, 0x04, 0x02], [0x00, 0x00, 0x1F, 0x00, 0x1F, 0x00, 0x00],
    [0x08, 0x04, 0x02, 0x01, 0x02, 0x04, 0x08], [0x0E, 0x11, 0x01, 0x02, 0x04, 0x00, 0x04],
    -- from 0x40
    [0x0E, 0x11, 0x17, 0x15, 0x17, 0x10, 0x0E], [0x0E, 0x11, 0x11, 0x1F, 0x11, 0x11, 0x11],
    [0x1E, 0x11, 0x11, 0x1E, 0x11, 0x11, 0x1E], [0x0E, 0x11, 0x10, 0x10, 0x10, 0x11, 0x0E],
    [0x1C, 0x12, 0x11, 0x11, 0x11, 0x12, 0x1C], [0x1F, 0x10, 0x10, 0x1E, 0x10, 0x10, 0x1F],
    [0x1F, 0x10, 0x10, 0x1E, 0x10, 0x10, 0x10], [0x0E, 0x11, 0x10, 0x17, 0x11, 0x11, 0x0F],
    [0x11, 0x11, 0x11, 0x1F, 0x11, 0x11, 0x11], [0x0E, 0x04, 0x04, 0x04, 0x04, 0x04, 0x0E],
    [0x07, 0x02, 0x02, 0x02, 0x02, 0x12, 0x0C], [0x11, 0x12, 0x14, 0x18, 0x14, 0x12, 0x11],
    [0x10, 0x10, 0x10, 0x10, 0x10, 0x10, 0x1F], [0x11, 0x1B, 0x15, 0x15, 0x11, 0x11, 0x11],
    [0x11, 0x11, 0x19, 0x15, 0x13, 0x11, 0x11], [0x0E, 0x11, 0x11, 0x11, 0x11, 0x11, 0x0E],
    -- from 0x50
    [0x1E, 0x11, 0x11, 0x1E, 0x10, 0x10, 0x10], [0x0E, 0x11, 0x11, 0x11, 0x15, 0x12, 0x0D],
    [0x1E, 0x11, 0x11, 0x1E, 0x14, 0x12, 0x11], [0x0E, 0x11, 0x10, 0x0E, 0x01, 0x11, 0x0E],
    [0x1F, 0x04, 0x04, 0x04, 0x04, 0x04, 0x04], [0x11, 0x11, 0x11, 0x11, 0x11, 0x11, 0x0E],
    [0x11, 0x11, 0x11, 0x11, 0x11, 0x0A, 0x04], [0x11, 0x11, 0x11, 0x15, 0x15, 0x15, 0x0A],
    [0x11, 0x11, 0x0A, 0x04, 0x0A, 0x11, 0x11], [0x11, 0x11, 0x0A, 0x04, 0x04, 0x04, 0x04],
    [0x1F, 0x01, 0x02, 0x04, 0x08, 0x10, 0x1F], [0x0E, 0x08, 0x08, 0x08, 0x08, 0x08, 0x0E],
    [0x00, 0x10, 0x08, 0x04, 0x02, 0x01, 0x00], [0x0E, 0x02, 0x02, 0x02, 0x02, 0x02, 0x0E],
    [0x04, 0x0A, 0x11, 0x00, 0x00, 0x00, 0x00], [0x00, 0x00, 0x00, 0x00, 0x00, 0x00, 0x1F],
    -- from 0x60
    [0x08, 0x04, 0x02, 0x00, 0x00, 0x00, 0x00], [0x00, 0x00, 0x0E, 0x01, 0x0F, 0x11, 0x0F],
    [0x10, 0x10, 0x16, 0x19, 0x11, 0x11, 0x1E], [0x00, 0x00, 0x0E, 0x10, 0x10, 0x11, 0x0E],
    [0x01, 0x01, 0x0D, 0x13, 0x11, 0x11, 0x0F], [0x00, 0x00, 0x0E, 0x11, 0x1F, 0x10, 0x0E],
    [0x06, 0x09, 0x08, 0x1C, 0x08, 0x08, 0x08], [0x00, 0x00, 0x0F, 0x11, 0x0F, 0x01, 0x0E],
    [0x10, 0x10, 0x16, 0x19, 0x11, 0x11, 0x11], [0x04, 0x00, 0x0C, 0x04, 0x04, 0x04, 0x0E],
    [0x02, 0x00, 0x06, 0x02, 0x02, 0x12, 0x0C], [0x10, 0x10, 0x12, 0x14, 0x18, 0x14, 0x12],
    [0x0C, 0x04, 0x04, 0x04, 0x04, 0x04, 0x0E], [0x00, 0x00, 0x1A, 0x15, 0x15, 0x11, 0x11],
    [0x00, 0x00, 0x16, 0x19, 0x11, 0x11, 0x11], [0x00, 0x00, 0x0E, 0x11, 0x11, 0x11, 0x0E],
    -- from 0x70
    [0x00, 0x00, 0x1E, 0x11, 0x1E, 0x10, 0x10], [0x00, 0x00, 0x0D, 0x13, 0x0F, 0x01, 0x01],
    [0x00, 0x00, 0x16, 0x19, 0x10, 0x10, 0x10], [0x00, 0x00, 0x0E, 0x10, 0x0E, 0x01, 0x1E],
    [0x08, 0x08, 0x1C, 0x08, 0x08, 0x09, 0x06], [0x00, 0x00, 0x11, 0x11, 0x11, 0x13, 0x0D],
    [0x00, 0x00, 0x11, 0x11, 0x11, 0x0A, 0x04], [0x00, 0x00, 0x11, 0x11, 0x15, 0x15, 0x0A],
    [0x00, 0x00, 0x11, 0x0A, 0x04, 0x0A, 0x11], [0x00, 0x00, 0x11, 0x11, 0x0F, 0x01, 0x0E],
    [0x00, 0x00, 0x1F, 0x02, 0x04, 0x08, 0x1F], [0x02, 0x04, 0x04, 0x08, 0x04, 0x04, 0x02],
    [0x04, 0x04, 0x04, 0x04, 0x04, 0x04, 0x04], [0x08, 0x04, 0x04, 0x02, 0x04, 0x04, 0x08],
    [0x00, 0x00, 0x08, 0x15, 0x02, 0x00, 0x00] ]

/-- The rows of a character; what the font does not have is a blank. -/
def glyph (ch : Char) : List Nat :=
  let idx := ch.toNat % 256
  let idx := if idx < 0x20 ∨ 0x7E < idx then 0x20 else idx
  fontData.getD (idx - 0x20) []

def vfbFontDrawChar (owner : Owner) (buffer : Int) (stride : Nat) (px py : Int) (ch : Char)
    (color : Nat) (mem : Pixels) : Pixels :=
  (List.range fontH).foldl (fun mem (row : Nat) =>
      let bits := (glyph ch).getD row 0
      let dy := py + row
      if dy < 0 ∨ 200 ≤ dy then mem
      else
        (List.range fontW).foldl (fun mem (col : Nat) =>
            let dx := px + col
            if bits.testBit (4 - col) = true ∧ 0 ≤ dx ∧ dx < stride then
              write mem (buffer + (dy * stride + dx)) owner color
            else mem)
          mem)
    mem

end VfbFont
