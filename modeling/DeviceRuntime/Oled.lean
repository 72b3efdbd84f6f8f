/-
# The OLED driver

`src/oled.c`: a framebuffer of 128 by 64 pixels, text in UTF-8 drawn into it
cell by cell, and the commands and the data that are sent over the bus. The
tables of `oled_font.c` are a parameter.

A text is drawn as the list of its cells, which then go into the framebuffer
in order. The cursor is an `int`: `none` stands for an overflow of it, which
is undefined.

Key definitions: `oledWriteCommands`, `oledWriteData`, `utf8Next`, `oledInit`,
`oledSetPixel`, `oledDrawAscii16`, `oledDrawZh16`, `Cell`, `textLoop`,
`oledDrawTextUtf8`, `oledRefresh`.
-/
import DeviceRuntime.Hardware

namespace DeviceRuntime

open HardwareCall

/-! ### The bus -/

/-- The packets of `oled_write_commands` and `oled_write_data`: a control byte
and at most `chunk` bytes of the data that is left. -/
def oledWritePackets (bus : I2cBus) (control : Byte) (chunk : ℕ) (data : List Byte) : HardwareProg CallResult :=
  .iter (fun data => do
    if data.length = 0 then return .inr ⟨0, 0⟩
    let written ← i2cBusWrite bus (control :: data.take chunk)
    if written.ret < 0 then return .inr ⟨-1, written.errno⟩
    return .inl (data.drop chunk)) data

def oledWriteCommands (oled : Oled) (bus : I2cBus) (commands : List Byte) : HardwareProg CallResult := do
  if !oled.bus then return ⟨-1, EINVAL⟩
  oledWritePackets bus 0x00 32 commands

def oledWriteData (oled : Oled) (bus : I2cBus) (data : List Byte) : HardwareProg CallResult := do
  if !oled.bus then return ⟨-1, EINVAL⟩
  oledWritePackets bus 0x40 16 data

def oledRefresh (oled : Oled) (bus : I2cBus) : HardwareProg CallResult := do
  if !oled.bus then return ⟨-1, EINVAL⟩
  let commands ← oledWriteCommands oled bus [0x21, 0x00, 0x7F, 0x22, 0x00, 0x07]
  if commands.ret < 0 then return ⟨-1, commands.errno⟩
  oledWriteData oled bus oled.buffer.toList

def oledDisplayOn (oled : Oled) (bus : I2cBus) : HardwareProg CallResult := oledWriteCommands oled bus [0xAF]

def oledDisplayOff (oled : Oled) (bus : I2cBus) : HardwareProg CallResult := oledWriteCommands oled bus [0xAE]

def oledClear (oled : Oled) : Oled := { oled with buffer := Vector.replicate OLED_BUFFER_SIZE 0 }

def oledInitCommands : List Byte :=
  [0xAE, 0xD5, 0x80, 0xA8, 0x3F, 0xD3, 0x00, 0x40, 0x8D, 0x14, 0x20, 0x00, 0xA1, 0xC8, 0xDA, 0x12, 0x81, 0x7F,
    0xD9, 0xF1, 0xDB, 0x40, 0xA4, 0xA6, 0x2E, 0xAF]

def oledInit (oled : Oled) (bus : I2cBus) : HardwareProg (CallResult × Oled) := do
  if bus.fd < 0 then return (⟨-1, EINVAL⟩, oled)
  let oled := oledClear { oled with bus := true }
  let commands ← oledWriteCommands oled bus oledInitCommands
  if commands.ret < 0 then return (⟨-1, commands.errno⟩, oled)
  let refreshed ← oledRefresh oled bus
  return (refreshed, oled)

/-! ### Pixels -/

def oledSetPixel (oled : Oled) (x y : ℤ) (enabled : Bool) : Oled :=
  if h : x < 0 ∨ x ≥ OLED_WIDTH ∨ y < 0 ∨ y ≥ OLED_HEIGHT then oled
  else
    have hindex : x.toNat + y.toNat / 8 * OLED_WIDTH < OLED_BUFFER_SIZE := by
      unfold OLED_WIDTH OLED_HEIGHT at h
      unfold OLED_BUFFER_SIZE OLED_WIDTH OLED_HEIGHT
      omega
    let mask : Byte := 1 <<< UInt8.ofNat (y.toNat % 8)
    let byte := oled.buffer[x.toNat + y.toNat / 8 * OLED_WIDTH]
    { oled with
      buffer := oled.buffer.set (x.toNat + y.toNat / 8 * OLED_WIDTH) (if enabled then byte ||| mask else byte &&& ~~~mask) }

/-- The rows of 16 and the columns of `width` pixels of a cell. -/
def oledDrawBits (oled : Oled) (x y : ℤ) (width : ℕ) (enabled : ℕ → ℕ → Bool) : Oled :=
  (List.range 16).foldl (fun oled (row : ℕ) =>
    (List.range width).foldl (fun oled (col : ℕ) => oledSetPixel oled (x + col) (y + row) (enabled row col)) oled) oled

/-- `oled_font_ascii8x16` and `oled_font_zh16`. -/
structure OledFont where
  ascii8x16 : Byte → Vector Byte 16
  zh16 : ℕ → Option (Vector Byte 32)

def oledDrawAscii16 (font : OledFont) (oled : Oled) (x y : ℤ) (ch : Byte) : Oled :=
  oledDrawBits oled x y 8 fun row col => (font.ascii8x16 ch).toList.getD row 0 &&& (0x80 >>> UInt8.ofNat col) ≠ 0

def oledDrawMissingZh16 (oled : Oled) (x y : ℤ) : Oled :=
  oledDrawBits oled x y 16 fun row col =>
    (row = 0 || row = 15 || col = 0 || col = 15) || (row = col || row + col = 15)

def oledDrawZh16 (font : OledFont) (oled : Oled) (x y : ℤ) (codepoint : ℕ) : Oled :=
  match font.zh16 codepoint with
  | none => oledDrawMissingZh16 oled x y
  | some glyph =>
    oledDrawBits oled x y 16 fun row col =>
      let bits : UInt16 := (glyph.toList.getD (row * 2) 0).toUInt16 <<< 8 ||| (glyph.toList.getD (row * 2 + 1) 0).toUInt16
      bits &&& (0x8000 >>> UInt16.ofNat col) ≠ 0

/-! ### UTF-8 -/

/-- The bits of a byte that continues a character. -/
def tailBits (b : Byte) : ℕ := (b &&& 0x3F).toNat

/-- The next character and the text after it, `none` at the end, or the
`errno`. -/
def utf8Next (s : List Byte) : Except ℕ (Option (ℕ × List Byte)) :=
  let s0 := s.getD 0 0
  let s1 := s.getD 1 0
  let s2 := s.getD 2 0
  let s3 := s.getD 3 0
  if s0 = 0 then .ok none
  else if s0 < 0x80 then .ok (some (s0.toNat, s.drop 1))
  else if s0 &&& 0xE0 = 0xC0 then
    if s1 = 0 ∨ s1 &&& 0xC0 ≠ 0x80 then .error EILSEQ
    else
      let cp := (s0 &&& 0x1F).toNat <<< 6 ||| tailBits s1
      if cp < 0x80 then .error EILSEQ else .ok (some (cp, s.drop 2))
  else if s0 &&& 0xF0 = 0xE0 then
    if s1 = 0 ∨ s2 = 0 ∨ s1 &&& 0xC0 ≠ 0x80 ∨ s2 &&& 0xC0 ≠ 0x80 then .error EILSEQ
    else
      let cp := (s0 &&& 0x0F).toNat <<< 12 ||| tailBits s1 <<< 6 ||| tailBits s2
      if cp < 0x800 ∨ (cp ≥ 0xD800 ∧ cp ≤ 0xDFFF) then .error EILSEQ else .ok (some (cp, s.drop 3))
  else if s0 &&& 0xF8 = 0xF0 then
    if s1 = 0 ∨ s2 = 0 ∨ s3 = 0 ∨ s1 &&& 0xC0 ≠ 0x80 ∨ s2 &&& 0xC0 ≠ 0x80 ∨ s3 &&& 0xC0 ≠ 0x80 then .error EILSEQ
    else
      let cp := (s0 &&& 0x07).toNat <<< 18 ||| tailBits s1 <<< 12 ||| tailBits s2 <<< 6 ||| tailBits s3
      if cp < 0x10000 ∨ cp > 0x10FFFF then .error EILSEQ else .ok (some (cp, s.drop 4))
  else .error EILSEQ

theorem utf8Next_shorter {s rest : List Byte} {cp : ℕ} (h : utf8Next s = .ok (some (cp, rest))) :
    rest.length < s.length := by
  have hne : s ≠ [] := by
    rintro rfl
    cases h
  have hlen := List.length_pos_iff.mpr hne
  have hdrop : ∃ n, 1 ≤ n ∧ rest = s.drop n := by
    unfold utf8Next at h
    dsimp only at h
    split_ifs at h
    all_goals simp only [Except.ok.injEq, Option.some.injEq, Prod.mk.injEq, reduceCtorEq] at h
    all_goals exact ⟨_, by decide, h.2.symm⟩
  obtain ⟨n, hn, rfl⟩ := hdrop
  rw [List.length_drop]
  omega

/-! ### Text -/

/-- What is drawn, and where. -/
structure Cell where
  x : ℤ
  y : ℤ
  codepoint : ℕ
deriving DecidableEq, Repr

def cellWidth (codepoint : ℕ) : ℤ := if codepoint < 0x80 then 8 else 16

def oledDrawCell (font : OledFont) (oled : Oled) (cell : Cell) : Oled :=
  if cell.codepoint < 0x80 then oledDrawAscii16 font oled cell.x cell.y (UInt8.ofNat cell.codepoint)
  else oledDrawZh16 font oled cell.x cell.y cell.codepoint

/-- A sum of two `int`s that are not negative. -/
def intAdd (a b : ℤ) : Option ℤ := if a + b ≤ INT_MAX then some (a + b) else none

/-- What a character does: where the cursor is after it, and the cell that is
drawn, or the end of the loop. -/
inductive TextStep
  | newline (cursorY : ℤ)
  | full
  | draw (cursorX cursorY : ℤ)
deriving DecidableEq, Repr

/-- A turn of the loop of `oled_draw_text_utf8` after `utf8_next`. A drawn cell
is at the cursor. -/
def textStep (x cursorX cursorY : ℤ) (codepoint : ℕ) : Option TextStep :=
  if codepoint = '\n'.toNat then (intAdd cursorY 16).map .newline
  else
    let wrapped := cursorX + cellWidth codepoint > (OLED_WIDTH : ℤ)
    (if wrapped then intAdd cursorY 16 else some cursorY).bind fun cursorY =>
      (intAdd cursorY 16).map fun bottom =>
        if bottom > (OLED_HEIGHT : ℤ) then .full else .draw (if wrapped then x else cursorX) cursorY

/-- The loop of `oled_draw_text_utf8`, with the cells drawn so far. -/
def textLoop (x cursorX cursorY : ℤ) (s : List Byte) (drawn : List Cell) : Option (CallResult × List Cell) :=
  match _h : utf8Next s with
  | .error errno => some (⟨-1, errno⟩, drawn)
  | .ok none => some (⟨0, 0⟩, drawn)
  | .ok (some (codepoint, rest)) =>
    match textStep x cursorX cursorY codepoint with
    | none => none
    | some (.newline cursorY) => textLoop x x cursorY rest drawn
    | some .full => some (⟨0, 0⟩, drawn)
    | some (.draw cursorX cursorY) =>
      textLoop x (cursorX + cellWidth codepoint) cursorY rest (drawn ++ [⟨cursorX, cursorY, codepoint⟩])
termination_by s.length
decreasing_by
  · exact utf8Next_shorter _h
  · exact utf8Next_shorter _h

/-- The cells of a text. -/
def textCells (x y : ℤ) (s : List Byte) : Option (CallResult × List Cell) :=
  if x < 0 ∨ x ≥ OLED_WIDTH ∨ y < 0 ∨ y ≥ OLED_HEIGHT then some (⟨-1, EINVAL⟩, [])
  else textLoop x x y s []

def oledDrawTextUtf8 (font : OledFont) (oled : Oled) (x y : ℤ) (s : List Byte) : Option (CallResult × Oled) :=
  (textCells x y s).map fun r => (r.1, r.2.foldl (oledDrawCell font) oled)

end DeviceRuntime
