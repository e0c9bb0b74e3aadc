import Mathlib.Data.List.GetD
import TokenSpacing.SourceText

/-!
# Offsets and the text around a position

A position splits the text of a file in two.  The part before it consists of the
lines above, each with its separator, and the characters of its own line before
its column; the part after it is the rest of its line and the lines below.  The
offset of a position is the length of the part before it, and exactly the
positions inside the text have one.  Later positions have greater offsets, as far
as the separator tells them apart.
-/

namespace TokenSpacing

/-! ## Text before and after a position -/

namespace Position

def row (position : Position) : Nat :=
  (position.line - 1).toNat

def indent (position : Position) : Nat :=
  (position.column - 1).toNat

@[simp] theorem row_succ (row : Nat) (column : Int) : Position.row ⟨row + 1, column⟩ = row := by
  simp [Position.row]

@[simp] theorem indent_succ (line : Int) (indent : Nat) :
    Position.indent ⟨line, indent + 1⟩ = indent := by
  simp [Position.indent]

/--
A position inside some lines is on one of them and at most one column past its
end.  No lines at all are one empty line.
-/
def Inside (lines : List (List Char)) (position : Position) : Prop :=
  (1 ≤ position.line ∧ position.line ≤ (SourceText.atLeastOneLine lines).length) ∧
    1 ≤ position.column ∧ position.column ≤ (lines.getD position.row []).length + 1

instance (lines : List (List Char)) (position : Position) :
    Decidable (position.Inside lines) :=
  inferInstanceAs (Decidable ((_ ∧ _) ∧ _ ∧ _))

def textBefore (lines : List (List Char)) (separator : List Char) (position : Position) :
    List Char :=
  (lines.take position.row).flatMap (· ++ separator) ++
    (lines.getD position.row []).take position.indent

def textAfter (lines : List (List Char)) (separator : List Char) (position : Position) :
    List Char :=
  (lines.getD position.row []).drop position.indent ++
    (lines.drop (position.row + 1)).flatMap (separator ++ ·)

end Position

theorem joinLines_around (separator : List Char) (above : List (List Char))
    (line : List Char) (below : List (List Char)) :
    joinLines separator (above ++ line :: below) =
      above.flatMap (· ++ separator) ++ line ++ below.flatMap (separator ++ ·) := by
  induction above generalizing line with
  | nil =>
      induction below generalizing line with
      | nil => simp [joinLines]
      | cons next below ih => simpa [joinLines] using ih next
  | cons first above ih =>
      cases above with
      | nil => simpa [joinLines] using ih line
      | cons second above => simpa [joinLines] using ih line

namespace SourceText

@[simp] theorem getD_atLeastOneLine (lines : List (List Char)) (index : Nat) :
    (atLeastOneLine lines).getD index [] = lines.getD index [] := by
  cases lines with
  | nil => cases index <;> simp [atLeastOneLine]
  | cons line lines => rfl

theorem atLeastOneLine_around (lines : List (List Char)) {row : Nat}
    (hrow : row < (atLeastOneLine lines).length) :
    atLeastOneLine lines =
      lines.take row ++ lines.getD row [] :: lines.drop (row + 1) := by
  cases lines with
  | nil =>
      have hzero : row = 0 := by simpa [atLeastOneLine] using hrow
      subst hzero
      rfl
  | cons line lines =>
      have hlt : row < (line :: lines).length := hrow
      rw [List.getD_eq_getElem _ _ hlt, List.getElem_cons_drop hlt]
      exact (List.take_append_drop row _).symm

end SourceText

namespace Position

theorem row_lt_of_inside {lines : List (List Char)} {position : Position}
    (hinside : position.Inside lines) :
    position.row < (SourceText.atLeastOneLine lines).length := by
  obtain ⟨⟨hfirst, hlast⟩, -⟩ := hinside
  unfold row
  omega

theorem textBefore_append_textAfter {lines : List (List Char)} (separator : List Char)
    {position : Position} (hinside : position.Inside lines) :
    position.textBefore lines separator ++ position.textAfter lines separator =
      (SourceText.ofLines lines separator).text := by
  have haround := SourceText.atLeastOneLine_around lines (row_lt_of_inside hinside)
  simp only [SourceText.ofLines]
  rw [haround, joinLines_around, textBefore, textAfter, List.append_assoc,
    List.append_assoc]
  rw [← List.append_assoc (List.take position.indent _), List.take_append_drop]

end Position

/-! ## Offsets -/

@[simp] theorem length_startsFrom (separatorLength offset : Nat) (lengths : List Nat) :
    (startsFrom separatorLength offset lengths).length = lengths.length := by
  induction lengths generalizing offset with
  | nil => rfl
  | cons length lengths ih => simp [startsFrom, ih]

theorem getD_startsFrom (separator : List Char) (offset : Nat) (lines : List (List Char))
    {row : Nat} (hrow : row < lines.length) :
    (startsFrom separator.length offset (lines.map List.length)).getD row 0 =
      offset + ((lines.take row).flatMap (· ++ separator)).length := by
  induction lines generalizing offset row with
  | nil => simp at hrow
  | cons line lines ih =>
      cases row with
      | zero => simp [startsFrom]
      | succ row =>
          have hrest : row < lines.length := by simpa using hrow
          have hstart := ih (offset + line.length + separator.length) hrest
          simp only [List.map_cons, startsFrom, List.getD_cons_succ, List.take_succ_cons,
            List.flatMap_cons, List.length_append]
          rw [hstart]
          omega

namespace SourceText

@[simp] theorem lineCount_ofLines (lines : List (List Char)) (separator : List Char) :
    (ofLines lines separator).lineCount = (atLeastOneLine lines).length := by
  simp [lineCount, ofLines]

theorem lineStart_ofLines (lines : List (List Char)) (separator : List Char) {row : Nat}
    (hrow : row < (atLeastOneLine lines).length) :
    (ofLines lines separator).lineStarts.getD row 0 =
      ((lines.take row).flatMap (· ++ separator)).length := by
  have hstart := getD_startsFrom separator 0 (atLeastOneLine lines) hrow
  have htake : (atLeastOneLine lines).take row = lines.take row := by
    cases lines with
    | nil =>
        have hzero : row = 0 := by simpa [atLeastOneLine] using hrow
        subst hzero
        rfl
    | cons line lines => rfl
  simpa [ofLines, htake] using hstart

theorem lineLength_ofLines (lines : List (List Char)) (separator : List Char) (row : Nat) :
    (ofLines lines separator).lineLengths.getD row 0 = (lines.getD row []).length := by
  rw [← getD_atLeastOneLine lines row]
  exact List.getD_map (atLeastOneLine lines) [] List.length

theorem offsetOf_of_inside {lines : List (List Char)} (separator : List Char)
    {position : Position} (hinside : position.Inside lines) :
    (ofLines lines separator).offsetOf position =
      .ok (position.textBefore lines separator).length := by
  have hrow := Position.row_lt_of_inside hinside
  have hstart := lineStart_ofLines lines separator hrow
  have hlength := lineLength_ofLines lines separator position.row
  obtain ⟨⟨hfirst, hlast⟩, hleft, hright⟩ := hinside
  simp only [Position.row] at hstart hlength hright
  simp only [offsetOf, lineCount_ofLines, hlength, hstart]
  rw [if_neg (by omega), if_neg (by omega)]
  simp only [Position.textBefore, Position.row, Position.indent, List.length_append,
    List.length_take]
  congr 2
  omega

theorem inside_of_offsetOf {lines : List (List Char)} {separator : List Char}
    {position : Position} {offset : Nat}
    (hoffset : (ofLines lines separator).offsetOf position = .ok offset) :
    position.Inside lines := by
  have hlength := lineLength_ofLines lines separator position.row
  simp only [Position.row] at hlength
  simp only [offsetOf, lineCount_ofLines, hlength] at hoffset
  split at hoffset
  · contradiction
  next hline =>
    split at hoffset
    · contradiction
    next hcolumn =>
      refine ⟨⟨by omega, by omega⟩, by omega, ?_⟩
      simp only [Position.row]
      omega

theorem offsetOf_eq_ok_iff {lines : List (List Char)} {separator : List Char}
    {position : Position} {offset : Nat} :
    (ofLines lines separator).offsetOf position = .ok offset ↔
      position.Inside lines ∧ offset = (position.textBefore lines separator).length := by
  constructor
  · intro hoffset
    have hinside := inside_of_offsetOf hoffset
    rw [offsetOf_of_inside separator hinside] at hoffset
    cases hoffset
    exact ⟨hinside, rfl⟩
  · rintro ⟨hinside, rfl⟩
    exact offsetOf_of_inside separator hinside

theorem leftOf_offset {lines : List (List Char)} {separator : List Char}
    {position : Position} {offset : Nat}
    (hoffset : (ofLines lines separator).offsetOf position = .ok offset) :
    (ofLines lines separator).leftOf offset =
      (position.textBefore lines separator).reverse := by
  obtain ⟨hinside, rfl⟩ := offsetOf_eq_ok_iff.mp hoffset
  rw [leftOf, ← Position.textBefore_append_textAfter separator hinside]
  simp

theorem rightOf_offset {lines : List (List Char)} {separator : List Char}
    {position : Position} {offset : Nat}
    (hoffset : (ofLines lines separator).offsetOf position = .ok offset) :
    (ofLines lines separator).rightOf offset = position.textAfter lines separator := by
  obtain ⟨hinside, rfl⟩ := offsetOf_eq_ok_iff.mp hoffset
  rw [rightOf, ← Position.textBefore_append_textAfter separator hinside]
  simp

end SourceText

/-! ## The order of offsets -/

namespace Position

theorem length_textBefore {lines : List (List Char)} (separator : List Char)
    {position : Position} (hinside : position.Inside lines) :
    (position.textBefore lines separator).length =
      ((lines.take position.row).flatMap (· ++ separator)).length + position.indent := by
  obtain ⟨-, -, hcolumn⟩ := hinside
  simp only [textBefore, indent, List.length_append, List.length_take]
  omega

theorem length_lines_le (lines : List (List Char)) (separator : List Char) {row later : Nat}
    (hrow : row < lines.length) (hlater : row < later) :
    ((lines.take row).flatMap (· ++ separator)).length + (lines.getD row []).length +
        separator.length ≤
      ((lines.take later).flatMap (· ++ separator)).length := by
  have hnext : lines.take (row + 1) = lines.take row ++ [lines.getD row []] := by
    rw [List.getD_eq_getElem _ _ hrow, List.take_succ_eq_append_getElem hrow]
  obtain ⟨between, hbetween⟩ : lines.take (row + 1) <+: lines.take later :=
    List.take_prefix_take_left hlater
  rw [← hbetween, hnext]
  simp only [List.flatMap_append, List.flatMap_singleton, List.length_append]
  omega

theorem length_textBefore_lt {lines : List (List Char)} (separator : List Char)
    {first second : Position} (hfirst : first.Inside lines) (hsecond : second.Inside lines)
    (hbefore : first.before second = true) :
    (first.textBefore lines separator).length + min 1 separator.length ≤
      (second.textBefore lines separator).length := by
  rw [length_textBefore separator hfirst, length_textBefore separator hsecond]
  have hlast := row_lt_of_inside hsecond
  obtain ⟨⟨hline, -⟩, hcolumn, hwidth⟩ := hfirst
  rcases (before_iff first second).mp hbefore with hlines | ⟨hsame, hcolumns⟩
  · have hrows : first.row < second.row := by
      simp only [row]
      omega
    have hrow : first.row < lines.length := by
      cases lines with
      | nil =>
          simp only [SourceText.atLeastOneLine, List.length_singleton] at hlast
          omega
      | cons line lines =>
          simp only [SourceText.atLeastOneLine] at hlast
          omega
    have hgap := length_lines_le lines separator hrow hrows
    simp only [indent]
    omega
  · have hrows : first.row = second.row := by rw [row, row, hsame]
    rw [hrows]
    simp only [indent]
    omega

end Position

namespace SourceText

/--
A position has an offset if and only if it is inside the lines.  The text up to the offset
is then the lines above the position, each with its separator, and the characters of its
line before its column.  A later position has no smaller offset, and a greater one
unless the separator is empty.
-/
theorem offsetOf_faithful_ordered (lines : List (List Char)) (separator : List Char)
    (position : Position) :
    ((∃ violation, (ofLines lines separator).offsetOf position = .error violation) ↔
        ¬ position.Inside lines) ∧
      (∀ offset, (ofLines lines separator).offsetOf position = .ok offset →
        offset ≤ (ofLines lines separator).text.length ∧
        (ofLines lines separator).text.take offset =
          (lines.take position.row).flatMap (· ++ separator) ++
            (lines.getD position.row []).take position.indent) ∧
      ∀ later offset laterOffset, position.before later = true →
        (ofLines lines separator).offsetOf position = .ok offset →
        (ofLines lines separator).offsetOf later = .ok laterOffset →
          offset ≤ laterOffset ∧ (separator ≠ [] → offset < laterOffset) := by
  refine ⟨?_, ?_, ?_⟩
  · constructor
    · rintro ⟨violation, hviolation⟩ hinside
      rw [offsetOf_of_inside separator hinside] at hviolation
      cases hviolation
    · intro houtside
      cases hoffset : (ofLines lines separator).offsetOf position with
      | error violation => exact ⟨violation, rfl⟩
      | ok offset => exact absurd (inside_of_offsetOf hoffset) houtside
  · intro offset hoffset
    obtain ⟨hinside, rfl⟩ := offsetOf_eq_ok_iff.mp hoffset
    rw [← Position.textBefore_append_textAfter separator hinside]
    exact ⟨by simp, List.take_left⟩
  · intro later offset laterOffset hbefore hoffset hlater
    obtain ⟨hinside, rfl⟩ := offsetOf_eq_ok_iff.mp hoffset
    obtain ⟨hlaterInside, rfl⟩ := offsetOf_eq_ok_iff.mp hlater
    have hgap := Position.length_textBefore_lt separator hinside hlaterInside hbefore
    refine ⟨by omega, fun hseparator => ?_⟩
    have hpos := List.length_pos_iff.mpr hseparator
    omega

end SourceText

end TokenSpacing
