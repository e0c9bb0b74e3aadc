import TokenSpacing.Java.Conversion
import TokenSpacing.Proofs.Utf8

/-!
# Byte columns and character columns

A column in bytes becomes the number of characters that end at or before it, also where it
cuts a character.  The lines that are kept in bytes change no answer, because each of them
is the encoding of its row, whatever was asked for before.
-/

namespace TokenSpacing

namespace Text

/-! ## Characters in front of a byte -/

/-- The number of characters of a text whose encoding ends at or before a byte. -/
def endingWithin (count : Nat) (text : List Char) : Nat :=
  (List.range text.length).countP fun index => (encode (text.take (index + 1))).length ≤ count

theorem endingWithin_cons (count : Nat) (c : Char) (text : List Char) :
    endingWithin count (c :: text) =
      if byteLength c ≤ count then endingWithin (count - byteLength c) text + 1 else 0 := by
  have hfirst : (encode ((c :: text).take 1)).length = byteLength c := by simp [byteLength]
  have hlater : ∀ index, (encode ((c :: text).take (index + 2))).length =
      byteLength c + (encode (text.take (index + 1))).length := by
    intro index
    rw [List.take_succ_cons, length_encode_cons]
  rw [endingWithin, List.length_cons, List.range_succ_eq_map, List.countP_cons, List.countP_map,
    hfirst]
  simp only [Function.comp_def, hlater, decide_eq_true_eq]
  split
  next hfits =>
    rw [endingWithin]
    congr 2
    funext index
    rw [decide_eq_decide]
    omega
  next hcut =>
    rw [Nat.add_zero, List.countP_eq_zero]
    intro index _
    simp only [decide_eq_true_eq]
    omega

theorem endingWithin_le_length (count : Nat) (text : List Char) :
    endingWithin count text ≤ text.length := by
  simpa [endingWithin] using
    (List.range text.length).countP_le_length
      (p := fun index => decide ((encode (text.take (index + 1))).length ≤ count))

theorem endingWithin_mono {first second : Nat} (hle : first ≤ second) (text : List Char) :
    endingWithin first text ≤ endingWithin second text := by
  refine List.countP_mono_left ?_
  intro index _ hfirst
  simp only [decide_eq_true_eq] at hfirst ⊢
  omega

theorem endingWithin_of_ascii {text : List Char} (hascii : text.all isAscii = true) {count : Nat}
    (hcount : count ≤ text.length) : endingWithin count text = count := by
  induction text generalizing count with
  | nil =>
      have hzero : count = 0 := by simpa using hcount
      simp [hzero, endingWithin]
  | cons c text ih =>
      rw [List.all_cons, Bool.and_eq_true] at hascii
      rw [List.length_cons] at hcount
      rw [endingWithin_cons, byteLength_of_isAscii hascii.1]
      split
      next => rw [ih hascii.2 (by omega)]; omega
      next => omega

theorem decodeIgnoring_take_encode (count : Nat) (text : List Char) :
    decodeIgnoring ((encode text).take count) = text.take (endingWithin count text) := by
  induction text generalizing count with
  | nil => simp [decodeIgnoring]
  | cons c text ih =>
      rw [encode_cons, List.take_append, endingWithin_cons, ← byteLength]
      split
      next hfits =>
        have hwhole : (encodeChar c).take count = encodeChar c := List.take_of_length_le hfits
        rw [hwhole, decodeIgnoring_of_decodeChar? (decodeChar?_encodeChar c _), ih,
          List.take_succ_cons]
      next hcut =>
        have hnone : count - byteLength c = 0 := by omega
        rw [hnone, List.take_zero, List.append_nil, List.take_zero]
        exact decodeIgnoring_take_encodeChar (by omega)

theorem length_decodeIgnoring_take (count : Nat) (text : List Char) :
    (decodeIgnoring ((encode text).take count)).length = endingWithin count text := by
  rw [decodeIgnoring_take_encode, List.length_take]
  exact Nat.min_eq_left (endingWithin_le_length count text)

end Text

namespace Java.SourceBytes

variable {source : SourceBytes} {kept : EncodedLines}

/-! ## Lines that are kept -/

def Faithful (source : SourceBytes) (kept : EncodedLines) : Prop :=
  ∀ row bytes, kept.lookup row = some bytes → bytes = Text.encode (source.lines.getD row [])

theorem faithful_nil (source : SourceBytes) : source.Faithful [] := by
  intro row bytes hlookup
  simp at hlookup

theorem encodedLine_fst (hkept : source.Faithful kept) (row : Nat) :
    (source.encodedLine row kept).1 = Text.encode (source.lines.getD row []) := by
  unfold encodedLine
  split
  next bytes hlookup => exact hkept row bytes hlookup
  next => rfl

theorem Faithful.encodedLine (hkept : source.Faithful kept) (row : Nat) :
    source.Faithful (source.encodedLine row kept).2 := by
  unfold SourceBytes.encodedLine
  split
  next => exact hkept
  next =>
    intro other bytes hlookup
    rw [List.lookup_cons] at hlookup
    split at hlookup
    next hsame =>
      rw [← beq_iff_eq.mp hsame] at *
      exact (Option.some.inj hlookup).symm
    next => exact hkept other bytes hlookup

theorem Faithful.locate (hkept : source.Faithful kept) (point : Point) :
    source.Faithful (source.locate point kept).2 := by
  unfold SourceBytes.locate
  split
  next => exact hkept
  next => exact hkept.encodedLine point.row

theorem locate_fst (hkept : source.Faithful kept) (point : Point) :
    (source.locate point kept).1 = source.positionOf point := by
  simp only [positionOf, locate]
  split
  next => rfl
  next => simp only [encodedLine_fst hkept, encodedLine_fst (faithful_nil source)]

theorem spanOf_eq (source : SourceBytes) (info : Info) :
    source.spanOf info =
      ⟨source.file, source.positionOf info.start, source.positionOf info.stop⟩ := by
  have hstop := locate_fst ((faithful_nil source).locate info.start) info.stop
  simp only [spanOf, hstop]
  rfl

/-- The lines that are kept after some points were located. -/
def keptAfter (source : SourceBytes) (asked : List Point) : EncodedLines :=
  asked.foldl (fun kept point => (source.locate point kept).2) []

theorem faithful_keptAfter (source : SourceBytes) (asked : List Point) :
    source.Faithful (source.keptAfter asked) := by
  have hrun : ∀ kept, source.Faithful kept →
      source.Faithful (asked.foldl (fun kept point => (source.locate point kept).2) kept) := by
    induction asked with
    | nil => exact fun kept hkept => hkept
    | cons point rest ih => exact fun kept hkept => ih _ (hkept.locate point)
  exact hrun [] (faithful_nil source)

theorem positionOf_eq {row column : Nat}
    (hcolumn : column ≤ (Text.encode (source.lines.getD row [])).length) :
    source.positionOf ⟨row, column⟩ =
      ⟨row + 1, Text.endingWithin column (source.lines.getD row []) + 1⟩ := by
  simp only [positionOf, locate]
  split
  next hascii =>
    rw [Text.length_encode_of_ascii hascii] at hcolumn
    rw [Text.endingWithin_of_ascii hascii hcolumn]
  next =>
    rw [encodedLine_fst (faithful_nil source), Text.length_decodeIgnoring_take]

/--
A byte column becomes a character column.  Whatever was located before, a point on a line
or at its end has the line after its row, and the column after the characters that end at
or before it.  So counting bytes is right on an ASCII line, columns grow with the bytes, and
none is more than one behind the line.
-/
theorem locate_counts_characters (source : SourceBytes) (asked : List Point) (row column : Nat)
    (hcolumn : column ≤ (Text.encode (source.lines.getD row [])).length) :
    (source.locate ⟨row, column⟩ (source.keptAfter asked)).1 =
        ⟨row + 1, Text.endingWithin column (source.lines.getD row []) + 1⟩ ∧
      ((source.lines.getD row []).all Text.isAscii = true →
        (Text.decodeIgnoring
          ((Text.encode (source.lines.getD row [])).take column)).length = column) ∧
      (∀ (before : List Point) (earlier : Nat), earlier ≤ column →
        (source.locate ⟨row, earlier⟩ (source.keptAfter before)).1.column ≤
          (source.locate ⟨row, column⟩ (source.keptAfter asked)).1.column) ∧
      (source.locate ⟨row, column⟩ (source.keptAfter asked)).1.column ≤
        (source.lines.getD row []).length + 1 := by
  have hlocate : ∀ (asked : List Point) (column : Nat),
      column ≤ (Text.encode (source.lines.getD row [])).length →
      (source.locate ⟨row, column⟩ (source.keptAfter asked)).1 =
        ⟨row + 1, Text.endingWithin column (source.lines.getD row []) + 1⟩ := by
    intro asked column hcolumn
    rw [locate_fst (faithful_keptAfter source asked), positionOf_eq hcolumn]
  refine ⟨hlocate asked column hcolumn, ?_, ?_, ?_⟩
  · intro hascii
    rw [Text.length_decodeIgnoring_take]
    exact Text.endingWithin_of_ascii hascii (Text.length_encode_of_ascii hascii ▸ hcolumn)
  · intro before earlier hearlier
    rw [hlocate before earlier (by omega), hlocate asked column hcolumn]
    have hmono := Text.endingWithin_mono hearlier (source.lines.getD row [])
    simp only
    omega
  · rw [hlocate asked column hcolumn]
    have hlength := Text.endingWithin_le_length column (source.lines.getD row [])
    simp only
    omega

def mixedWidths : SourceBytes :=
  .ofText "Widths.java" "x\né€😀".toList

theorem locate_mixedWidths :
    4 ≤ (Text.encode (mixedWidths.lines.getD 1 [])).length ∧
      (mixedWidths.locate ⟨1, 4⟩ (mixedWidths.keptAfter [⟨1, 9⟩, ⟨0, 1⟩, ⟨7, 3⟩])).1 = ⟨2, 2⟩ ∧
      ∀ (before : List Point) (earlier : Nat), earlier ≤ 4 →
        (mixedWidths.locate ⟨1, earlier⟩ (mixedWidths.keptAfter before)).1.column ≤ 2 := by
  have hinside : 4 ≤ (Text.encode (mixedWidths.lines.getD 1 [])).length := by decide
  have hone : Text.endingWithin 4 (mixedWidths.lines.getD 1 []) = 1 := by decide
  obtain ⟨hlocated, -, hmonotone, -⟩ :=
    locate_counts_characters mixedWidths [⟨1, 9⟩, ⟨0, 1⟩, ⟨7, 3⟩] 1 4 hinside
  rw [hone] at hlocated
  rw [hlocated] at hmonotone
  exact ⟨hinside, hlocated, hmonotone⟩

end Java.SourceBytes

end TokenSpacing
