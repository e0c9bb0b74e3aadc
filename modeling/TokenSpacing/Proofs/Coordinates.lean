import Mathlib.Data.List.Infix
import TokenSpacing.Proofs.Columns
import TokenSpacing.Proofs.Lines

/-!
# Byte offsets, points and positions

A parser locates a node by byte offsets and by points, that is rows and byte
columns.  Tokens are located by positions, that is lines and character columns,
and text is looked up by character offsets.  For an offset between two characters
all four say the same: with `before` the text up to there, the position is the one
after `before`, and its character offset is the length of `before`.
-/

namespace TokenSpacing.Java

/-! ## What a parser promises -/

/-- The line feeds before a byte offset, and the bytes since the last of them. -/
def Point.ofByte (bytes : List UInt8) (offset : Nat) : Point :=
  ⟨(bytes.take offset).count 0x0a,
   ((bytes.take offset).reverse.takeWhile (· != 0x0a)).length⟩

def OnBoundary (text : List Char) (offset : Nat) : Prop :=
  ∃ before ∈ text.inits, (Text.encode before).length = offset

instance (text : List Char) (offset : Nat) : Decidable (OnBoundary text offset) :=
  inferInstanceAs (Decidable (∃ before ∈ text.inits, _))

structure Info.Consistent (text : List Char) (info : Info) : Prop where
  ordered : info.startByte ≤ info.stopByte
  within : info.stopByte ≤ (Text.encode text).length
  start_boundary : OnBoundary text info.startByte
  stop_boundary : OnBoundary text info.stopByte
  start_point : info.start = .ofByte (Text.encode text) info.startByte
  stop_point : info.stop = .ofByte (Text.encode text) info.stopByte

theorem Info.consistent_iff (text : List Char) (info : Info) :
    info.Consistent text ↔
      (info.startByte ≤ info.stopByte ∧ info.stopByte ≤ (Text.encode text).length) ∧
      (OnBoundary text info.startByte ∧ OnBoundary text info.stopByte) ∧
      info.start = .ofByte (Text.encode text) info.startByte ∧
      info.stop = .ofByte (Text.encode text) info.stopByte :=
  ⟨fun h => ⟨⟨h.ordered, h.within⟩, ⟨h.start_boundary, h.stop_boundary⟩,
      h.start_point, h.stop_point⟩,
    fun ⟨⟨ho, hw⟩, ⟨hs, he⟩, hp, hq⟩ => ⟨ho, hw, hs, he, hp, hq⟩⟩

instance (text : List Char) (info : Info) : Decidable (info.Consistent text) :=
  decidable_of_iff' _ (info.consistent_iff text)

/-! ## Points and positions -/

theorem takeWhile_reverse_encode (closed : List (List Char)) {last : List Char}
    (hlast : '\n' ∉ last) :
    (Text.encode (closed.flatMap (· ++ ['\n']) ++ last)).reverse.takeWhile (· != 0x0a) =
      (Text.encode last).reverse := by
  rw [Text.encode_append]
  refine Text.takeWhile_reverse_append ?_ ?_
  · rcases List.eq_nil_or_concat closed with rfl | ⟨above, line, rfl⟩
    · simp
    · simp [Text.encodeChar_lineFeed]
  · intro byte hbyte
    have hne : byte ≠ 0x0a := by
      rintro rfl
      exact Text.lineFeed_not_mem_encode hlast hbyte
    simpa using hne

theorem ofByte_length_encode {before last : List Char} {closed : List (List Char)}
    (hlines : Text.splitLines before = closed ++ [last])
    (hbefore : before = closed.flatMap (· ++ ['\n']) ++ last) (hlast : '\n' ∉ last)
    (after : List Char) :
    Point.ofByte (Text.encode (before ++ after)) (Text.encode before).length =
      ⟨closed.length, (Text.encode last).length⟩ := by
  have htake : (Text.encode (before ++ after)).take (Text.encode before).length =
      Text.encode before := by
    simp
  have hcolumn := takeWhile_reverse_encode closed hlast
  rw [← hbefore] at hcolumn
  rw [Point.ofByte, htake, Text.count_lineFeed_encode, Text.count_of_splitLines hlines, hcolumn,
    List.length_reverse]

namespace SourceBytes

theorem positionOf_line {source : SourceBytes} {row : Nat} {last rest : List Char}
    (hline : source.lines.getD row [] = last ++ rest) :
    source.positionOf ⟨row, (Text.encode last).length⟩ = ⟨row + 1, last.length + 1⟩ := by
  have hcount := Text.length_decodeIgnoring_take (Text.encode last).length (last ++ rest)
  rw [Text.encode_append, List.take_left, Text.decodeIgnoring_encode] at hcount
  rw [positionOf_eq (by simp [hline]), hline, ← hcount]

theorem positionOf_ofByte (file : String) (before after : List Char) :
    (ofText file (before ++ after)).positionOf
        (.ofByte (Text.encode (before ++ after)) (Text.encode before).length) =
      Workspace.positionAfter before := by
  obtain ⟨closed, last, hlines, hbefore, hlast⟩ := Text.exists_splitLines_eq_concat before
  obtain ⟨rest, below, hsplit⟩ := Text.splitLines_append hlines after
  have hline : (ofText file (before ++ after)).lines.getD closed.length [] = last ++ rest := by
    simp [ofText, hsplit]
  rw [ofByte_length_encode hlines hbefore hlast, Workspace.positionAfter_of_splitLines hlines]
  exact positionOf_line hline

end SourceBytes

/-! ## Spans -/

def Between (text : List Char) (position : Position) : Prop :=
  ∃ before after, text = before ++ after ∧ position = Workspace.positionAfter before

/-- A span that holds exactly the characters `covered` of a text. -/
def Covers (text : List Char) (span : Span) (covered : List Char) : Prop :=
  ∃ before after, text = before ++ covered ++ after ∧
    span.start = Workspace.positionAfter before ∧
    span.stop = Workspace.positionAfter (before ++ covered)

theorem Between.offset {text : List Char} {position : Position}
    (hbetween : Between text position) :
    ∃ offset, (SourceText.ofLines (Text.splitLines text) ['\n']).offsetOf position =
      .ok offset := by
  obtain ⟨before, after, rfl, rfl⟩ := hbetween
  exact ⟨before.length, Workspace.offsetOf_positionAfter before after⟩

theorem Covers.start {text covered : List Char} {span : Span}
    (hcovers : Covers text span covered) : Between text span.start := by
  obtain ⟨before, after, htext, hstart, -⟩ := hcovers
  exact ⟨before, covered ++ after, by rw [htext, List.append_assoc], hstart⟩

theorem Covers.stop {text covered : List Char} {span : Span}
    (hcovers : Covers text span covered) : Between text span.stop := by
  obtain ⟨before, after, htext, -, hstop⟩ := hcovers
  exact ⟨before ++ covered, after, htext, hstop⟩

theorem Covers.cut {text covered : List Char} {span : Span}
    (hcovers : Covers text span covered) :
    ∃ start stop,
      (SourceText.ofLines (Text.splitLines text) ['\n']).offsetOf span.start = .ok start ∧
      (SourceText.ofLines (Text.splitLines text) ['\n']).offsetOf span.stop = .ok stop ∧
      start ≤ stop ∧ (text.drop start).take (stop - start) = covered := by
  obtain ⟨before, after, rfl, hstart, hstop⟩ := hcovers
  refine ⟨before.length, (before ++ covered).length, ?_, ?_, by simp, by simp⟩
  · rw [hstart, List.append_assoc]
    exact Workspace.offsetOf_positionAfter before (covered ++ after)
  · rw [hstop]
    exact Workspace.offsetOf_positionAfter (before ++ covered) after

namespace Info.Consistent

variable {text : List Char} {info : Info}

theorem between_start (hinfo : info.Consistent text) (file : String) :
    Between text ((SourceBytes.ofText file text).positionOf info.start) := by
  obtain ⟨before, hprefix, hlength⟩ := hinfo.start_boundary
  obtain ⟨after, rfl⟩ := (List.mem_inits _ _).mp hprefix
  refine ⟨before, after, rfl, ?_⟩
  rw [hinfo.start_point, ← hlength, SourceBytes.positionOf_ofByte]

theorem between_stop (hinfo : info.Consistent text) (file : String) :
    Between text ((SourceBytes.ofText file text).positionOf info.stop) := by
  obtain ⟨before, hprefix, hlength⟩ := hinfo.stop_boundary
  obtain ⟨after, rfl⟩ := (List.mem_inits _ _).mp hprefix
  refine ⟨before, after, rfl, ?_⟩
  rw [hinfo.stop_point, ← hlength, SourceBytes.positionOf_ofByte]

theorem between_span (hinfo : info.Consistent text) (file : String) :
    Between text ((SourceBytes.ofText file text).spanOf info).start ∧
      Between text ((SourceBytes.ofText file text).spanOf info).stop := by
  rw [SourceBytes.spanOf_eq]
  exact ⟨hinfo.between_start file, hinfo.between_stop file⟩

theorem exists_parts (hinfo : info.Consistent text) :
    ∃ before covered after, text = before ++ covered ++ after ∧
      (Text.encode before).length = info.startByte ∧
      (Text.encode (before ++ covered)).length = info.stopByte := by
  obtain ⟨before, hbefore, hstart⟩ := hinfo.start_boundary
  obtain ⟨upTo, hupTo, hstop⟩ := hinfo.stop_boundary
  have hlength : (Text.encode before).length ≤ (Text.encode upTo).length := by
    rw [hstart, hstop]
    exact hinfo.ordered
  obtain ⟨covered, rfl⟩ := Text.prefix_of_length_encode_le ((List.mem_inits _ _).mp hbefore)
    ((List.mem_inits _ _).mp hupTo) hlength
  obtain ⟨after, rfl⟩ := (List.mem_inits _ _).mp hupTo
  exact ⟨before, covered, after, rfl, hstart, hstop⟩

theorem tokenOf_covers (hinfo : info.Consistent text) (file : String) :
    ∃ token, Concrete.tokenOf (.ofText file text) info = .ok token ∧
      Covers text token.span token.text.toList := by
  obtain ⟨before, covered, after, rfl, hstart, hstop⟩ := hinfo.exists_parts
  have hslice : (SourceBytes.ofText file (before ++ covered ++ after)).slice
      info.startByte info.stopByte = Text.encode covered := by
    rw [← hstart, ← hstop]
    simp [SourceBytes.slice, SourceBytes.ofText]
  refine ⟨_, by rw [Concrete.tokenOf, hslice, Text.decode?_encode], before, after, ?_, ?_, ?_⟩
  · simp
  · have hposition := SourceBytes.positionOf_ofByte file before (covered ++ after)
    rw [← List.append_assoc] at hposition
    rw [SourceBytes.spanOf_eq, hinfo.start_point, ← hstart, hposition]
  · have hposition := SourceBytes.positionOf_ofByte file (before ++ covered) after
    rw [SourceBytes.spanOf_eq, hinfo.stop_point, ← hstop, hposition, String.toList_ofList]

end Info.Consistent

end TokenSpacing.Java
