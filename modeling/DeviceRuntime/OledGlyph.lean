/-
# Glyphs in the framebuffer

A pixel of the screen is a bit of a byte of the framebuffer, and
`oled_set_pixel` changes one pixel. From it follow the rows and columns of a
cell: the pixels of the cell that are on the screen are those of the glyph, and
all others are as before, wherever the cell is.

The glyphs are those of the tables of `src/oled_font.c`, which are a parameter.

Key definitions: `OledFontTables`, `pixel`, `InCell`, `asciiGlyph`, `zhGlyph`,
`crossedBox`.
Key theorems: `pixel_setPixel`, `pixel_drawBits`, `glyph_drawing`.
-/
import Mathlib.Data.List.GetD
import Mathlib.Data.Nat.Bitwise
import DeviceRuntime.Oled

namespace DeviceRuntime

/-! ### The tables -/

/-- `ascii8x16` and `zh16`. -/
structure OledFontTables where
  ascii8x16 : Vector (Vector Byte 16) 95
  zh16 : List (ℕ × Vector Byte 32)

def oledFontAscii8x16 (tables : OledFontTables) (ch : Byte) : Vector Byte 16 :=
  if h : ch < 32 ∨ ch > 126 then tables.ascii8x16[('?'.toNat - 32)]
  else
    have hindex : ch.toNat - 32 < 95 := by
      rw [not_or, UInt8.lt_iff_toNat_lt, gt_iff_lt, UInt8.lt_iff_toNat_lt] at h
      have hlow : ¬ ch.toNat < 32 := h.1
      have hhigh : ¬ 126 < ch.toNat := h.2
      omega
    tables.ascii8x16[ch.toNat - 32]

def oledFontZh16 (tables : OledFontTables) (codepoint : ℕ) : Option (Vector Byte 32) :=
  (tables.zh16.find? fun glyph => glyph.1 = codepoint).map fun glyph => glyph.2

def OledFontTables.font (tables : OledFontTables) : OledFont := ⟨oledFontAscii8x16 tables, oledFontZh16 tables⟩

/-! ### Pixels -/

theorem pixel_index (px : Fin OLED_WIDTH) (py : Fin OLED_HEIGHT) : px.val + 128 * (py.val / 8) < OLED_BUFFER_SIZE := by
  have hx : px.val < 128 := px.isLt
  have hy : py.val < 64 := py.isLt
  show _ < 1024
  omega

/-- Bit `py % 8` of byte `px + 128 * (py / 8)`. -/
def pixel (oled : Oled) (px : Fin OLED_WIDTH) (py : Fin OLED_HEIGHT) : Bool :=
  have _hindex := pixel_index px py
  oled.buffer[px.val + 128 * (py.val / 8)].toNat.testBit (py.val % 8)

/-- The pixel is in the cell of 16 rows at `x`, `y`. -/
def InCell (width : ℕ) (x y : ℤ) (px : Fin OLED_WIDTH) (py : Fin OLED_HEIGHT) : Prop :=
  x ≤ px.val ∧ px.val < x + width ∧ y ≤ py.val ∧ py.val < y + 16

instance (width : ℕ) (x y : ℤ) (px : Fin OLED_WIDTH) (py : Fin OLED_HEIGHT) : Decidable (InCell width x y px py) := by
  unfold InCell
  infer_instance

/-! ### One bit -/

section Bits

theorem mask_toNat : ∀ k < 8, ((1 : Byte) <<< UInt8.ofNat k).toNat = 2 ^ k := by decide

theorem testBit_or_mask (b : Byte) {k : ℕ} (hk : k < 8) (i : ℕ) :
    (b ||| 1 <<< UInt8.ofNat k).toNat.testBit i = (b.toNat.testBit i || decide (k = i)) := by
  rw [UInt8.toNat_or, mask_toNat k hk, Nat.testBit_or, Nat.testBit_two_pow]

theorem testBit_and_not_mask (b : Byte) {k i : ℕ} (hk : k < 8) (hi : i < 8) :
    (b &&& ~~~(1 <<< UInt8.ofNat k)).toNat.testBit i = (b.toNat.testBit i && !decide (k = i)) := by
  have hlt : 2 ^ k < 2 ^ 8 := Nat.pow_lt_pow_right (by decide) hk
  have hsub : UInt8.size - 1 - 2 ^ k = 2 ^ 8 - (2 ^ k + 1) := by
    show 256 - 1 - 2 ^ k = 256 - (2 ^ k + 1)
    omega
  have hnot : (~~~((1 : Byte) <<< UInt8.ofNat k)).toNat.testBit i = !decide (k = i) := by
    rw [UInt8.toNat_not, mask_toNat k hk, hsub, Nat.testBit_two_pow_sub_succ hlt, Nat.testBit_two_pow]
    simp [hi]
  rw [UInt8.toNat_and, Nat.testBit_and, hnot]

/-- A mask of one bit tests the bit. -/
theorem and_two_pow_ne_zero (n i : ℕ) : n &&& 2 ^ i ≠ 0 ↔ n.testBit i = true := by
  rw [Nat.and_two_pow]
  cases n.testBit i with
  | false => simp
  | true => simp

theorem column_mask : ∀ col < 8, ((0x80 : Byte) >>> UInt8.ofNat col).toNat = 2 ^ (7 - col) := by decide

theorem column_mask16 : ∀ col < 16, ((0x8000 : UInt16) >>> UInt16.ofNat col).toNat = 2 ^ (15 - col) := by decide

/-- The columns of a row of 8 pixels, the most significant bit first. -/
theorem row_bit (bits : Byte) {col : ℕ} (hcol : col < 8) :
    decide (bits &&& (0x80 >>> UInt8.ofNat col) ≠ 0) = bits.toNat.testBit (7 - col) := by
  rw [Bool.eq_iff_iff, decide_eq_true_eq, ← and_two_pow_ne_zero, ← column_mask col hcol, ← UInt8.toNat_and, ne_eq, ne_eq,
    ← UInt8.toNat_inj]
  rfl

theorem row_bit16 (bits : UInt16) {col : ℕ} (hcol : col < 16) :
    decide (bits &&& (0x8000 >>> UInt16.ofNat col) ≠ 0) = bits.toNat.testBit (15 - col) := by
  rw [Bool.eq_iff_iff, decide_eq_true_eq, ← and_two_pow_ne_zero, ← column_mask16 col hcol, ← UInt16.toNat_and, ne_eq,
    ne_eq, ← UInt16.toNat_inj]
  rfl

/-- Two bytes are a row of 16 pixels. -/
theorem two_bytes (high low : Byte) : (high.toUInt16 <<< 8 ||| low.toUInt16).toNat = 256 * high.toNat + low.toNat := by
  have hhigh : high.toNat < 256 := high.toNat_lt
  have hlow : low.toNat < 2 ^ 8 := low.toNat_lt
  have hshift : (high.toUInt16 <<< 8).toNat = high.toNat <<< 8 := by
    rw [UInt16.toNat_shiftLeft, UInt8.toNat_toUInt16, Nat.shiftLeft_eq, Nat.shiftLeft_eq]
    exact Nat.mod_eq_of_lt (by show high.toNat * 256 < 65536; omega)
  rw [UInt16.toNat_or, hshift, UInt8.toNat_toUInt16, ← Nat.shiftLeft_add_eq_or_of_lt hlow, Nat.shiftLeft_eq, Nat.mul_comm]

end Bits

section Pixels

variable {oled : Oled} {px : Fin OLED_WIDTH} {py : Fin OLED_HEIGHT}

/-- One pixel is changed, if it is on the screen. -/
theorem pixel_setPixel (oled : Oled) (x y : ℤ) (enabled : Bool) (px : Fin OLED_WIDTH) (py : Fin OLED_HEIGHT) :
    pixel (oledSetPixel oled x y enabled) px py =
      if (px.val : ℤ) = x ∧ (py.val : ℤ) = y then enabled else pixel oled px py := by
  have hpx : px.val < 128 := px.isLt
  have hpy : py.val < 64 := py.isLt
  unfold oledSetPixel
  by_cases hout : x < 0 ∨ x ≥ OLED_WIDTH ∨ y < 0 ∨ y ≥ OLED_HEIGHT
  · rw [dif_pos hout, if_neg]
    intro ⟨hx, hy⟩
    have hout : x < 0 ∨ x ≥ 128 ∨ y < 0 ∨ y ≥ 64 := hout
    omega
  rw [dif_neg hout]
  have hout : ¬ (x < 0 ∨ x ≥ 128 ∨ y < 0 ∨ y ≥ 64) := hout
  have hbit : y.toNat % 8 < 8 := Nat.mod_lt _ (by decide)
  have hbit' : py.val % 8 < 8 := Nat.mod_lt _ (by decide)
  unfold pixel
  dsimp only
  rw [Vector.getElem_set]
  by_cases hindex : x.toNat + y.toNat / 8 * OLED_WIDTH = px.val + 128 * (py.val / 8)
  · -- the byte of the pixel that is set
    rw [if_pos hindex]
    have hx : (px.val : ℤ) = x := by
      have hindex : x.toNat + y.toNat / 8 * 128 = px.val + 128 * (py.val / 8) := hindex
      omega
    have hy : (py.val : ℤ) = y ↔ y.toNat % 8 = py.val % 8 := by
      have hindex : x.toNat + y.toNat / 8 * 128 = px.val + 128 * (py.val / 8) := hindex
      omega
    rw [getElem_congr_idx hindex]
    have hthere : ((px.val : ℤ) = x ∧ (py.val : ℤ) = y) ↔ y.toNat % 8 = py.val % 8 :=
      ⟨fun h => hy.mp h.2, fun h => ⟨hx, hy.mpr h⟩⟩
    simp only [hthere]
    cases enabled with
    | true =>
      rw [if_pos rfl, testBit_or_mask _ hbit]
      by_cases hsame : y.toNat % 8 = py.val % 8
      · rw [if_pos hsame, decide_eq_true hsame, Bool.or_true]
      · rw [if_neg hsame, decide_eq_false hsame, Bool.or_false]
    | false =>
      rw [if_neg Bool.false_ne_true, testBit_and_not_mask _ hbit hbit']
      by_cases hsame : y.toNat % 8 = py.val % 8
      · rw [if_pos hsame, decide_eq_true hsame, Bool.not_true, Bool.and_false]
      · rw [if_neg hsame, decide_eq_false hsame, Bool.not_false, Bool.and_true]
  · rw [if_neg hindex, if_neg]
    intro ⟨hx, hy⟩
    apply hindex
    show x.toNat + y.toNat / 8 * 128 = px.val + 128 * (py.val / 8)
    omega

/-- The first columns of a row. -/
theorem pixel_columns (x y : ℤ) (enabled : ℕ → Bool) (px : Fin OLED_WIDTH) (py : Fin OLED_HEIGHT) :
    ∀ (n : ℕ) (oled : Oled),
      pixel ((List.range n).foldl (fun oled (col : ℕ) => oledSetPixel oled (x + col) y (enabled col)) oled) px py =
        if x ≤ px.val ∧ px.val < x + n ∧ (py.val : ℤ) = y then enabled (px.val - x).toNat else pixel oled px py
  | 0, oled => by
    rw [List.range_zero, List.foldl_nil, if_neg]
    omega
  | n + 1, oled => by
    rw [List.range_succ, List.foldl_append, List.foldl_cons, List.foldl_nil, pixel_setPixel,
      pixel_columns x y enabled px py n oled]
    by_cases hlast : (px.val : ℤ) = x + n ∧ (py.val : ℤ) = y
    · have hcol : (px.val - x).toNat = n := by omega
      rw [if_pos hlast, if_pos (by omega), hcol]
    · rw [if_neg hlast]
      by_cases hin : x ≤ px.val ∧ px.val < x + n ∧ (py.val : ℤ) = y
      · rw [if_pos hin, if_pos (by omega)]
      · rw [if_neg hin, if_neg (by omega)]

/-- The first rows of a cell. -/
theorem pixel_rows (x y : ℤ) (width : ℕ) (enabled : ℕ → ℕ → Bool) (px : Fin OLED_WIDTH) (py : Fin OLED_HEIGHT) :
    ∀ (n : ℕ) (oled : Oled),
      pixel ((List.range n).foldl (fun oled (row : ℕ) => (List.range width).foldl (fun oled (col : ℕ) =>
          oledSetPixel oled (x + col) (y + row) (enabled row col)) oled) oled) px py =
        if x ≤ px.val ∧ px.val < x + width ∧ y ≤ py.val ∧ py.val < y + n then
          enabled (py.val - y).toNat (px.val - x).toNat
        else pixel oled px py
  | 0, oled => by
    rw [List.range_zero, List.foldl_nil, if_neg]
    omega
  | n + 1, oled => by
    rw [List.range_succ, List.foldl_append, List.foldl_cons, List.foldl_nil, pixel_columns,
      pixel_rows x y width enabled px py n oled]
    by_cases hlast : x ≤ px.val ∧ px.val < x + width ∧ (py.val : ℤ) = y + n
    · have hrow : (py.val - y).toNat = n := by omega
      rw [if_pos hlast, if_pos (by omega), hrow]
    · rw [if_neg hlast]
      by_cases hin : x ≤ px.val ∧ px.val < x + width ∧ y ≤ py.val ∧ py.val < y + n
      · rw [if_pos hin, if_pos (by omega)]
      · rw [if_neg hin, if_neg (by omega)]

/-- The pixels of the cell are drawn, and no others. -/
theorem pixel_drawBits (oled : Oled) (x y : ℤ) (width : ℕ) (enabled : ℕ → ℕ → Bool) (px : Fin OLED_WIDTH)
    (py : Fin OLED_HEIGHT) :
    pixel (oledDrawBits oled x y width enabled) px py =
      if InCell width x y px py then enabled (py.val - y).toNat (px.val - x).toNat else pixel oled px py :=
  pixel_rows x y width enabled px py 16 oled

theorem bus_foldl {δ : Type} {f : Oled → δ → Oled} (hf : ∀ oled d, (f oled d).bus = oled.bus) :
    ∀ (ds : List δ) (oled : Oled), (ds.foldl f oled).bus = oled.bus
  | [], _ => rfl
  | d :: ds, oled => by rw [List.foldl_cons, bus_foldl hf ds, hf]

/-- The pointer to the bus stays. -/
theorem bus_drawBits (oled : Oled) (x y : ℤ) (width : ℕ) (enabled : ℕ → ℕ → Bool) :
    (oledDrawBits oled x y width enabled).bus = oled.bus := by
  have hset : ∀ (oled : Oled) (x y : ℤ) (e : Bool), (oledSetPixel oled x y e).bus = oled.bus := by
    intro oled x y e
    unfold oledSetPixel
    by_cases hout : x < 0 ∨ x ≥ OLED_WIDTH ∨ y < 0 ∨ y ≥ OLED_HEIGHT
    · rw [dif_pos hout]
    · rw [dif_neg hout]
  apply bus_foldl
  intro oled row
  apply bus_foldl
  intro oled col
  exact hset oled _ _ _

end Pixels

/-! ### Glyphs -/

/-- A glyph of 8 by 16 pixels: that of the character, or of `?` if it is not
printable. The most significant bit of a row is the leftmost. -/
def asciiGlyph (tables : OledFontTables) (ch : Byte) (row col : ℕ) : Bool :=
  let index := if 32 ≤ ch.toNat ∧ ch.toNat ≤ 126 then ch.toNat - 32 else '?'.toNat - 32
  ((tables.ascii8x16.toList.getD index (Vector.replicate 16 0)).toList.getD row 0).toNat.testBit (7 - col)

/-- The border and the two diagonals. -/
def crossedBox (row col : ℕ) : Bool :=
  row = 0 || row = 15 || col = 0 || col = 15 || row = col || row + col = 15

/-- A glyph of 16 by 16 pixels, two bytes a row; the crossed box where the
table has none. -/
def zhGlyph (tables : OledFontTables) (codepoint row col : ℕ) : Bool :=
  match tables.zh16.find? fun glyph => glyph.1 = codepoint with
  | none => crossedBox row col
  | some glyph => (256 * (glyph.2.toList.getD (2 * row) 0).toNat + (glyph.2.toList.getD (2 * row + 1) 0).toNat).testBit (15 - col)

/-- The screen after a cell was drawn: the glyph in the cell, and the rest as
before. -/
def Drawn (oled oled' : Oled) (width : ℕ) (x y : ℤ) (glyph : ℕ → ℕ → Bool) : Prop :=
  oled'.bus = oled.bus ∧ ∀ px py, pixel oled' px py =
    if InCell width x y px py then glyph (py.val - y).toNat (px.val - x).toNat else pixel oled px py

theorem drawn_of_bits {oled : Oled} {width : ℕ} {x y : ℤ} {enabled glyph : ℕ → ℕ → Bool}
    (h : ∀ row < 16, ∀ col < width, enabled row col = glyph row col) :
    Drawn oled (oledDrawBits oled x y width enabled) width x y glyph := by
  refine ⟨bus_drawBits oled x y width enabled, fun px py => ?_⟩
  rw [pixel_drawBits]
  by_cases hin : InCell width x y px py
  · obtain ⟨hleft, hright, htop, hbottom⟩ := hin
    rw [if_pos ⟨hleft, hright, htop, hbottom⟩, if_pos ⟨hleft, hright, htop, hbottom⟩]
    exact h _ (by omega) _ (by omega)
  · rw [if_neg hin, if_neg hin]

theorem oledFontAscii8x16_eq (tables : OledFontTables) (ch : Byte) : oledFontAscii8x16 tables ch =
    tables.ascii8x16.toList.getD (if 32 ≤ ch.toNat ∧ ch.toNat ≤ 126 then ch.toNat - 32 else '?'.toNat - 32)
      (Vector.replicate 16 0) := by
  have hlow : ch < 32 ↔ ch.toNat < 32 := UInt8.lt_iff_toNat_lt
  have hhigh : ch > 126 ↔ ch.toNat > 126 := UInt8.lt_iff_toNat_lt
  unfold oledFontAscii8x16
  by_cases hout : ch < 32 ∨ ch > 126
  · have hindex : ¬ (32 ≤ ch.toNat ∧ ch.toNat ≤ 126) := by
      rw [hlow, hhigh] at hout
      omega
    rw [dif_pos hout, if_neg hindex]
    exact (List.getD_eq_getElem _ _ _).symm
  · have hindex : 32 ≤ ch.toNat ∧ ch.toNat ≤ 126 := by
      rw [hlow, hhigh] at hout
      omega
    rw [dif_neg hout, if_pos hindex]
    exact (List.getD_eq_getElem _ _ _).symm

/-- The pixel `x`, `y` is set in one byte of the framebuffer, whose index is
inside it; off the screen nothing is set. -/
def SetInBuffer (oled : Oled) (x y : ℤ) (oled' : Oled) : Prop :=
  if x < 0 ∨ x ≥ OLED_WIDTH ∨ y < 0 ∨ y ≥ OLED_HEIGHT then oled' = oled
  else x.toNat + y.toNat / 8 * OLED_WIDTH < 1024 ∧
    ∃ (hindex : x.toNat + y.toNat / 8 * OLED_WIDTH < OLED_BUFFER_SIZE) (byte : Byte),
      oled' = { oled with buffer := oled.buffer.set (x.toNat + y.toNat / 8 * OLED_WIDTH) byte hindex }

theorem setPixel_inBuffer (oled : Oled) (x y : ℤ) (enabled : Bool) :
    SetInBuffer oled x y (oledSetPixel oled x y enabled) := by
  unfold SetInBuffer oledSetPixel
  by_cases hout : x < 0 ∨ x ≥ OLED_WIDTH ∨ y < 0 ∨ y ≥ OLED_HEIGHT
  · rw [if_pos hout, dif_pos hout]
  · have hindex : x.toNat + y.toNat / 8 * OLED_WIDTH < 1024 := by
      unfold OLED_WIDTH OLED_HEIGHT at hout
      unfold OLED_WIDTH
      omega
    rw [if_neg hout, dif_neg hout]
    exact ⟨hindex, hindex, _, rfl⟩

/-- A character or a code point is drawn at `x`, `y`, exactly and nowhere else,
and no byte outside of the framebuffer is written. -/
theorem glyph_drawing (tables : OledFontTables) :
    (∀ (oled : Oled) (x y : ℤ) (ch : Byte),
      Drawn oled (oledDrawAscii16 tables.font oled x y ch) 8 x y (asciiGlyph tables ch)) ∧
    (∀ (oled : Oled) (x y : ℤ) (codepoint : ℕ),
      Drawn oled (oledDrawZh16 tables.font oled x y codepoint) 16 x y (zhGlyph tables codepoint)) ∧
    (∀ (oled : Oled) (x y : ℤ) (enabled : Bool), SetInBuffer oled x y (oledSetPixel oled x y enabled)) := by
  refine ⟨fun oled x y ch => ?_, fun oled x y codepoint => ?_, setPixel_inBuffer⟩
  · apply drawn_of_bits
    intro row _ col hcol
    unfold asciiGlyph
    dsimp only
    rw [← oledFontAscii8x16_eq]
    exact row_bit _ hcol
  · unfold oledDrawZh16
    have hzh : tables.font.zh16 codepoint = oledFontZh16 tables codepoint := rfl
    rw [hzh]
    unfold oledFontZh16
    cases hfind : tables.zh16.find? fun glyph => glyph.1 = codepoint with
    | none =>
      apply drawn_of_bits
      intro row _ col _
      unfold zhGlyph crossedBox
      rw [hfind]
      simp [Bool.or_assoc]
    | some glyph =>
      apply drawn_of_bits
      intro row _ col hcol
      unfold zhGlyph
      rw [hfind]
      dsimp only
      rw [row_bit16 _ hcol, two_bytes, Nat.mul_comm row 2]

end DeviceRuntime
