/-
# Text on the screen

A text in UTF-8 is drawn from a position on the screen. `layout` is where its
characters would stand on a screen without an end: they fill the lines from
the starting column on, and a line ends with a newline or where a character
does not fit. A character that is too wide for the starting column is drawn
there all the same, past the right edge.

Key definitions: `Cell.Inside`, `Cell.Apart`, `Shown`, `place`, `layout`,
`TooWide`, `CursorOverflow`.
Key theorems: `textLoop_chars`, `drawCodes_laid`,
`drawCodes_past_edge`, `text_on_screen`, `text_past_edge`.
-/
import DeviceRuntime.Utf8

namespace DeviceRuntime

/-! ### The cells -/

/-- The whole cell is on the screen. -/
def Cell.Inside (cell : Cell) : Prop :=
  0 ≤ cell.x ∧ cell.x + cellWidth cell.codepoint ≤ OLED_WIDTH ∧ 0 ≤ cell.y ∧ cell.y + 16 ≤ OLED_HEIGHT

instance (cell : Cell) : Decidable cell.Inside := by
  unfold Cell.Inside
  infer_instance

/-- No pixel is in both cells. -/
def Cell.Apart (a b : Cell) : Prop :=
  a.x + cellWidth a.codepoint ≤ b.x ∨ b.x + cellWidth b.codepoint ≤ a.x ∨ a.y + 16 ≤ b.y ∨ b.y + 16 ≤ a.y

/-- The call returns 0 and has drawn the first characters of the text that are
not newlines, each inside the screen and apart from the others. -/
def Shown (codes : List ℕ) (drawn : Option (CallResult × List Cell)) : Prop :=
  ∃ cells, drawn = some (⟨0, 0⟩, cells) ∧ cells.map Cell.codepoint <+: codes.filter (· ≠ '\n'.toNat) ∧
    (∀ cell ∈ cells, cell.Inside) ∧ cells.Pairwise Cell.Apart

/-- The loop over the characters of the text. -/
def drawCodes (x cursorX cursorY : ℤ) : List ℕ → Option (CallResult × List Cell)
  | [] => some (⟨0, 0⟩, [])
  | code :: codes =>
    match textStep x cursorX cursorY code with
    | none => none
    | some (.newline cursorY) => drawCodes x x cursorY codes
    | some .full => some (⟨0, 0⟩, [])
    | some (.draw cursorX cursorY) =>
      (drawCodes x (cursorX + cellWidth code) cursorY codes).map fun r => (r.1, ⟨cursorX, cursorY, code⟩ :: r.2)

/-- The loop of the driver goes through the characters of its text. -/
theorem textLoop_chars {x : ℤ} {chars : List Char} (hchars : '\x00' ∉ chars) : ∀ cursorX cursorY drawn,
    textLoop x cursorX cursorY (chars.flatMap String.utf8EncodeChar) drawn =
      (drawCodes x cursorX cursorY (chars.map Char.toNat)).map fun r => (r.1, drawn ++ r.2) := by
  induction chars with
  | nil =>
    intro cursorX cursorY drawn
    rw [textLoop]
    simp [utf8Next, drawCodes]
  | cons c chars ih =>
    intro cursorX cursorY drawn
    rw [List.mem_cons, not_or] at hchars
    have hnext := @utf8Next_char c (chars.flatMap String.utf8EncodeChar) (Ne.symm hchars.1)
    rw [List.flatMap_cons, List.map_cons, textLoop]
    split
    · rename_i h
      rw [hnext] at h
      cases h
    · rename_i h
      rw [hnext] at h
      cases h
    · rename_i h
      rw [hnext] at h
      cases h
      rw [drawCodes]
      cases textStep x cursorX cursorY c.toNat with
      | none => rfl
      | some step =>
        cases step with
        | newline y => exact ih hchars.2 _ _ _
        | full => simp
        | draw x' y' =>
          dsimp only
          rw [ih hchars.2, Option.map_map]
          congr 1
          funext r
          simp

/-! ### The layout -/

/-- A character, where its cell starts and the line it is on. -/
structure Glyph where
  code : ℕ
  column : ℤ
  row : ℕ
deriving DecidableEq, Repr

/-- The place of a character after the others on its line, or on the next. -/
def place (x column : ℤ) (row code : ℕ) : Glyph :=
  if code = '\n'.toNat ∨ column + cellWidth code ≤ OLED_WIDTH then ⟨code, column, row⟩ else ⟨code, x, row + 1⟩

/-- Where the characters of a text stand on a screen without an end. -/
def layout (x column : ℤ) (row : ℕ) : List ℕ → List Glyph
  | [] => []
  | code :: codes =>
    let g := place x column row code
    g :: if code = '\n'.toNat then layout x x (g.row + 1) codes else layout x (g.column + cellWidth code) g.row codes

/-- The last pixel row of a character's line, from the first pixel row `y`. -/
def Glyph.bottom (y : ℤ) (g : Glyph) : ℤ := y + 16 * g.row + 16

/-- A character on a line of the screen is too wide for the starting column. -/
def TooWide (x y : ℤ) (glyphs : List Glyph) : Prop :=
  ∃ g ∈ glyphs, g.code ≠ '\n'.toNat ∧ g.bottom y ≤ OLED_HEIGHT ∧ x + cellWidth g.code > OLED_WIDTH

/-- A line past the range of `int` comes before a character that is past the
end of the screen. -/
def CursorOverflow (y : ℤ) (glyphs : List Glyph) : Prop :=
  ∃ (before : List Glyph) (g : Glyph) (after : List Glyph), glyphs = before ++ g :: after ∧ g.bottom y > INT_MAX ∧
    ∀ g' ∈ before, g'.code ≠ '\n'.toNat → g'.bottom y ≤ OLED_HEIGHT

variable {x y : ℤ} {g : Glyph} {glyphs : List Glyph}

theorem tooWide_cons : TooWide x y (g :: glyphs) ↔
    (g.code ≠ '\n'.toNat ∧ g.bottom y ≤ OLED_HEIGHT ∧ x + cellWidth g.code > OLED_WIDTH) ∨ TooWide x y glyphs := by
  unfold TooWide
  rw [List.exists_mem_cons_iff]

theorem cursorOverflow_cons : CursorOverflow y (g :: glyphs) ↔
    g.bottom y > INT_MAX ∨
      ((g.code ≠ '\n'.toNat → g.bottom y ≤ OLED_HEIGHT) ∧ CursorOverflow y glyphs) := by
  constructor
  · intro ⟨before, g', after, heq, hover, hbefore⟩
    cases before with
    | nil =>
      rw [List.nil_append, List.cons.injEq] at heq
      left
      rwa [heq.1]
    | cons first before =>
      rw [List.cons_append, List.cons.injEq] at heq
      right
      constructor
      · rw [heq.1]
        exact hbefore first List.mem_cons_self
      · exact ⟨before, g', after, heq.2, hover, fun e he => hbefore e (List.mem_cons_of_mem _ he)⟩
  · intro h
    rcases h with hover | ⟨hfits, before, g', after, heq, hover, hbefore⟩
    · exact ⟨[], g, glyphs, rfl, hover, fun _ he => (List.not_mem_nil he).elim⟩
    · refine ⟨g :: before, g', after, by rw [heq, List.cons_append], hover, ?_⟩
      intro e he
      rcases List.mem_cons.mp he with rfl | he
      · exact hfits
      · exact hbefore e he

variable {column : ℤ} {row code : ℕ} {codes : List ℕ}

@[simp] theorem place_code : (place x column row code).code = code := by
  unfold place
  split_ifs
  · rfl
  · rfl

/-- A place is on the line after the others, or on a later line. -/
theorem place_after : ((place x column row code).row = row ∧ (place x column row code).column = column) ∨
    (place x column row code).row = row + 1 := by
  unfold place
  split_ifs
  · exact Or.inl ⟨rfl, rfl⟩
  · exact Or.inr rfl

theorem le_place_row : row ≤ (place x column row code).row := by
  rcases @place_after x column row code with h | h
  · exact h.1.ge
  · rw [h]
    exact Nat.le_succ row

theorem le_place_column (hx : x ≤ column) : x ≤ (place x column row code).column := by
  unfold place
  split_ifs
  · exact hx
  · exact le_refl x

/-- A newline is not moved to the next line. -/
theorem place_newline : place x column row '\n'.toNat = ⟨'\n'.toNat, column, row⟩ := by
  unfold place
  rw [if_pos (Or.inl rfl)]

/-- A character is past the edge if it is too wide for the starting column, and
only then. -/
theorem place_edge (hx : x ≤ column) (hcode : code ≠ '\n'.toNat) :
    (place x column row code).column + cellWidth code ≤ OLED_WIDTH ↔ x + cellWidth code ≤ OLED_WIDTH := by
  unfold place
  split_ifs with h
  · have hfits := h.resolve_left hcode
    exact ⟨fun _ => by omega, fun _ => hfits⟩
  · exact Iff.rfl

/-- The lines go down. -/
theorem layout_row_le : ∀ {column : ℤ} {row : ℕ}, ∀ g ∈ layout x column row codes, row ≤ g.row := by
  induction codes with
  | nil =>
    intro column row g hg
    cases hg
  | cons code codes ih =>
    intro column row g hg
    have hrow := @le_place_row x column row code
    rcases List.mem_cons.mp hg with rfl | hg
    · exact hrow
    · split_ifs at hg
      · have h := ih g hg
        omega
      · have h := ih g hg
        omega

/-! ### The text -/

/-- A turn of the loop, by the place of the character. -/
theorem textStep_place : textStep x column (y + 16 * row) code =
    if (place x column row code).bottom y > INT_MAX then none
    else if code = '\n'.toNat then some (.newline (y + 16 * (row + 1 : ℕ)))
    else if (place x column row code).bottom y > OLED_HEIGHT then some .full
    else some (.draw (place x column row code).column (y + 16 * (place x column row code).row)) := by
  have hmax : (0 : ℤ) ≤ INT_MAX := by
    unfold INT_MAX
    decide
  unfold textStep intAdd Glyph.bottom
  by_cases hcode : code = '\n'.toNat
  · rw [hcode, place_newline, if_pos rfl, if_pos rfl]
    dsimp only
    by_cases hover : y + 16 * row + 16 > INT_MAX
    · rw [if_neg (by omega), if_pos hover]
      rfl
    · rw [if_pos (by omega), if_neg hover]
      simp only [Option.map_some, Option.some.injEq, TextStep.newline.injEq]
      push_cast
      ring
  · rw [if_neg hcode, if_neg hcode]
    unfold place
    dsimp only
    by_cases hfits : column + cellWidth code ≤ OLED_WIDTH
    · rw [if_neg (not_lt.mpr hfits), if_neg (not_lt.mpr hfits), if_pos (Or.inr hfits), Option.bind_some]
      dsimp only
      by_cases hover : y + 16 * row + 16 > INT_MAX
      · rw [if_neg (by omega), if_pos hover]
        rfl
      · rw [if_pos (by omega), if_neg hover, Option.map_some]
        split_ifs
        · rfl
        · rfl
    · have hwrap : column + cellWidth code > OLED_WIDTH := not_le.mp hfits
      rw [if_pos hwrap, if_pos hwrap, if_neg (not_or.mpr ⟨hcode, hfits⟩)]
      dsimp only
      have hline : y + 16 * (row + 1 : ℕ) = y + 16 * row + 16 := by
        push_cast
        ring
      rw [hline]
      by_cases hnext : y + 16 * row + 16 ≤ INT_MAX
      · rw [if_pos hnext, Option.bind_some]
        by_cases hover : y + 16 * row + 16 + 16 > INT_MAX
        · rw [if_neg (by omega), if_pos hover]
          rfl
        · rw [if_pos (by omega), if_neg hover, Option.map_some]
          split_ifs
          · rfl
          · rfl
      · rw [if_neg hnext, if_pos (by omega)]
        rfl

/-- A cell comes after the cursor. -/
def Beyond (column cursorY : ℤ) (cell : Cell) : Prop :=
  (cell.y = cursorY ∧ column ≤ cell.x) ∨ cursorY + 16 ≤ cell.y

theorem Beyond.apart {cell next : Cell} (h : Beyond (cell.x + cellWidth cell.codepoint) cell.y next) :
    cell.Apart next := by
  rcases h with ⟨-, hx⟩ | hy
  · exact Or.inl hx
  · exact Or.inr (Or.inr (Or.inl hy))

theorem cellWidth_pos : 0 < cellWidth code := by
  unfold cellWidth
  split_ifs
  · decide
  · decide

/-- The cells of a text, from a position on a line. -/
structure Laid (column cursorY : ℤ) (codes : List ℕ) (drawn : Option (CallResult × List Cell)) (cells : List Cell) :
    Prop where
  returns : drawn = some (⟨0, 0⟩, cells)
  order : cells.map Cell.codepoint <+: codes.filter (· ≠ '\n'.toNat)
  inside : ∀ cell ∈ cells, cell.Inside
  apart : cells.Pairwise Cell.Apart
  beyond : ∀ cell ∈ cells, Beyond column cursorY cell

/-- Text without a character that is too wide is drawn on the screen. -/
theorem drawCodes_laid (hx : 0 ≤ x) (hy : 0 ≤ y) : ∀ {column : ℤ} {row : ℕ}, x ≤ column →
    ¬ TooWide x y (layout x column row codes) → ¬ CursorOverflow y (layout x column row codes) →
    ∃ cells, Laid column (y + 16 * row) codes (drawCodes x column (y + 16 * row) codes) cells := by
  induction codes with
  | nil =>
    intro column row _ _ _
    exact ⟨[], rfl, List.nil_prefix, by simp, List.Pairwise.nil, by simp⟩
  | cons code codes ih =>
    intro column row hcolumn hwide hover
    unfold layout at hwide hover
    dsimp only at hwide hover
    rw [tooWide_cons, not_or, place_code] at hwide
    rw [cursorOverflow_cons, not_or, place_code] at hover
    unfold drawCodes
    rw [textStep_place, if_neg hover.1]
    by_cases hcode : code = '\n'.toNat
    · -- the next line
      rw [if_pos hcode, hcode, place_newline] at hwide hover
      rw [if_pos hcode]
      have hnext : ¬ CursorOverflow y (layout x x (row + 1) codes) := fun h =>
        hover.2 ⟨fun hne => (hne rfl).elim, h⟩
      obtain ⟨cells, hlaid⟩ := ih (le_refl x) hwide.2 hnext
      refine ⟨cells, hlaid.returns, ?_, hlaid.inside, hlaid.apart, ?_⟩
      · rw [hcode, List.filter_cons_of_neg (by decide)]
        exact hlaid.order
      · intro cell hcell
        right
        rcases hlaid.beyond cell hcell with h | h
        · rw [h.1]
          push_cast
          omega
        · push_cast at h
          omega
    · rw [if_neg hcode]
      by_cases hbottom : (place x column row code).bottom y > OLED_HEIGHT
      · -- no line is left
        rw [if_pos hbottom]
        exact ⟨[], rfl, List.nil_prefix, by simp, List.Pairwise.nil, by simp⟩
      · rw [if_neg hbottom]
        rw [if_neg hcode] at hwide hover
        have hfits : (place x column row code).bottom y ≤ OLED_HEIGHT := not_lt.mp hbottom
        have hleft := @le_place_column x column row code hcolumn
        have hw := @cellWidth_pos code
        have hnext := fun h => hover.2 ⟨fun _ => hfits, h⟩
        obtain ⟨cells, hlaid⟩ := ih (by omega) hwide.2 hnext
        have hedge : x + cellWidth code ≤ OLED_WIDTH := by
          by_contra hgt
          exact hwide.1 ⟨hcode, hfits, not_le.mp hgt⟩
        have hright := (@place_edge x column row code hcolumn hcode).mpr hedge
        unfold Glyph.bottom at hfits
        refine ⟨⟨(place x column row code).column, y + 16 * (place x column row code).row, code⟩ :: cells, ?_, ?_, ?_,
          ?_, ?_⟩
        · dsimp only
          rw [hlaid.returns]
          rfl
        · rw [List.filter_cons_of_pos (by simpa using hcode), List.map_cons]
          exact (List.prefix_cons_inj code).mpr hlaid.order
        · intro cell hcell
          rcases List.mem_cons.mp hcell with rfl | hcell
          · exact ⟨by simp only; omega, hright, by simp only; omega, hfits⟩
          · exact hlaid.inside cell hcell
        · exact List.Pairwise.cons (fun cell hcell => (hlaid.beyond cell hcell).apart) hlaid.apart
        · intro cell hcell
          have hplace := @place_after x column row code
          rcases List.mem_cons.mp hcell with rfl | hcell
          · rcases hplace with ⟨hrow, hcol⟩ | hrow
            · left
              rw [hrow, hcol]
              exact ⟨rfl, le_refl column⟩
            · right
              rw [hrow]
              push_cast
              omega
          · have hbeyond := hlaid.beyond cell hcell
            rcases hplace with ⟨hrow, hcol⟩ | hrow
            · rw [hrow, hcol] at hbeyond
              rcases hbeyond with h | h
              · exact Or.inl ⟨h.1, by omega⟩
              · exact Or.inr h
            · right
              rw [hrow] at hbeyond
              push_cast at hbeyond
              rcases hbeyond with h | h
              · rw [h.1]
                omega
              · omega

/-- No later character is too wide on a line of the screen. -/
theorem not_tooWide_of_bottom (h : y + 16 * row + 16 > OLED_HEIGHT) : ¬ TooWide x y (layout x column row codes) := by
  intro ⟨g, hg, _, hbottom, _⟩
  have hrow := layout_row_le g hg
  unfold Glyph.bottom at hbottom
  omega

/-- Text with a character that is too wide is drawn past the edge, if the
cursor does not overflow before. -/
theorem drawCodes_past_edge : ∀ {column : ℤ} {row : ℕ}, x ≤ column →
    TooWide x y (layout x column row codes) ∨ CursorOverflow y (layout x column row codes) →
    ∀ {r}, drawCodes x column (y + 16 * row) codes = some r → ∃ cell ∈ r.2, ¬ cell.Inside := by
  induction codes with
  | nil =>
    intro column row _ h r _
    rcases h with ⟨g, hg, _⟩ | ⟨before, g, after, heq, _⟩
    · cases hg
    · unfold layout at heq
      simp at heq
  | cons code codes ih =>
    intro column row hcolumn h r hr
    unfold layout at h
    dsimp only at h
    rw [tooWide_cons, cursorOverflow_cons, place_code] at h
    unfold drawCodes at hr
    rw [textStep_place] at hr
    by_cases hover : (place x column row code).bottom y > INT_MAX
    · rw [if_pos hover] at hr
      cases hr
    rw [if_neg hover] at hr
    by_cases hcode : code = '\n'.toNat
    · rw [if_pos hcode] at hr
      rw [if_pos hcode, hcode, place_newline] at h
      apply ih (le_refl x) _ hr
      rcases h with (h | h) | h | h
      · exact (h.1 rfl).elim
      · exact Or.inl h
      · rw [hcode, place_newline] at hover
        exact (hover h).elim
      · exact Or.inr h.2
    rw [if_neg hcode] at hr h
    by_cases hbottom : (place x column row code).bottom y > OLED_HEIGHT
    · -- the screen is full, so no character is too wide and no cursor past the range
      rcases h with (h | h) | h | h
      · exact absurd h.2.1 (not_le.mpr hbottom)
      · exact absurd h (not_tooWide_of_bottom hbottom)
      · exact absurd h hover
      · exact absurd (h.1 hcode) (not_le.mpr hbottom)
    rw [if_neg hbottom] at hr
    obtain ⟨rest, hrest, rfl⟩ := Option.map_eq_some_iff.mp hr
    by_cases hedge : x + cellWidth code > OLED_WIDTH
    · refine ⟨_, List.mem_cons_self, ?_⟩
      intro hinside
      have hright := (@place_edge x column row code hcolumn hcode).mp hinside.2.1
      exact absurd hright (not_le.mpr hedge)
    · have hleft := @le_place_column x column row code hcolumn
      have hw := @cellWidth_pos code
      have hlater : ∃ cell ∈ rest.2, ¬ cell.Inside := by
        apply ih (by omega) _ hrest
        rcases h with (h | h) | h | h
        · exact absurd h.2.2 hedge
        · exact Or.inl h
        · exact absurd h hover
        · exact Or.inr h.2
      obtain ⟨cell, hcell, hout⟩ := hlater
      exact ⟨cell, List.mem_cons_of_mem _ hcell, hout⟩

/-- A text is drawn on the screen if and only if no character on a line of the
screen is too wide for the starting column and the cursor stays in the range of
`int`. -/
theorem text_on_screen {x y : ℤ} {text : List Char} (hx : 0 ≤ x ∧ x < OLED_WIDTH) (hy : 0 ≤ y ∧ y < OLED_HEIGHT)
    (htext : '\x00' ∉ text) :
    Shown (text.map Char.toNat) (textCells x y (text.flatMap String.utf8EncodeChar)) ↔
      ¬ TooWide x y (layout x x 0 (text.map Char.toNat)) ∧ ¬ CursorOverflow y (layout x x 0 (text.map Char.toNat)) := by
  have hstart : y + 16 * (0 : ℕ) = y := by simp
  have hcells : textCells x y (text.flatMap String.utf8EncodeChar) =
      drawCodes x x (y + 16 * (0 : ℕ)) (text.map Char.toNat) := by
    unfold textCells
    rw [if_neg (by omega), textLoop_chars htext, hstart]
    simp
  rw [hcells]
  constructor
  · intro ⟨cells, hreturns, _, hinside, _⟩
    rw [← not_or]
    intro hbad
    obtain ⟨cell, hcell, hout⟩ := drawCodes_past_edge (le_refl x) hbad hreturns
    exact hout (hinside cell hcell)
  · intro ⟨hwide, hover⟩
    obtain ⟨cells, hlaid⟩ := drawCodes_laid hx.1 hy.1 (le_refl x) hwide hover
    exact ⟨cells, hlaid.returns, hlaid.order, hlaid.inside, hlaid.apart⟩

theorem text_on_screen_wide :
    ¬ Shown (['A', '\u4f60'].map Char.toNat) (textCells 113 0 (['A', '\u4f60'].flatMap String.utf8EncodeChar)) := by
  intro h
  have hshown := (text_on_screen (by decide) (by decide) (by decide)).mp h
  apply hshown.1
  unfold TooWide
  decide

/-- A letter that starts at column 121 is drawn past the edge. -/
theorem text_past_edge :
    ¬ Shown (['A'].map Char.toNat) (textCells 121 0 (['A'].flatMap String.utf8EncodeChar)) := by
  have hcells : textCells 121 0 (['A'].flatMap String.utf8EncodeChar) = some (⟨0, 0⟩, [⟨121, 16, 65⟩]) := by
    unfold textCells
    rw [if_neg (by decide), textLoop_chars (by decide)]
    decide
  rw [hcells]
  intro ⟨cells, hreturns, _, hinside, _⟩
  cases hreturns
  have h : Cell.Inside ⟨121, 16, 65⟩ := hinside _ List.mem_cons_self
  revert h
  decide

end DeviceRuntime
