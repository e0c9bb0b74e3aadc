import TokenSpacing.Proofs.Coordinates
import TokenSpacing.Proofs.Outcomes

/-!
# Files that are not UTF-8

Decoding stops at the first bytes that are no character, behind the longest text that the
file starts with.  The place of these bytes is found without decoding that text: line feeds
are counted among the bytes, and only the bytes since the last of them are decoded.  They
are whole characters, because no other character has the byte of a line feed.
-/

namespace TokenSpacing

/-! ## Where decoding stops -/

namespace Text

/-- Bytes that are a text up to a place where something follows that is no character. -/
structure StopsAfter (bytes : List UInt8) (before : List Char) (rest : List UInt8) : Prop where
  whole : bytes = encode before ++ rest
  nonempty : rest ≠ []
  unreadable : ∀ c later, rest ≠ encodeChar c ++ later

theorem decodeLongest_encode_append (text : List Char) (rest : List UInt8) :
    decodeLongest (encode text ++ rest) =
      (text ++ (decodeLongest rest).1, (decodeLongest rest).2) := by
  induction text with
  | nil => rfl
  | cons c text ih =>
      have hfirst := decodeChar?_encodeChar c (encode text ++ rest)
      rw [decodeLongest]
      split
      next hnone => simp [hfirst] at hnone
      next decoded remaining hsome =>
        rw [encode_cons, List.append_assoc, hfirst] at hsome
        cases hsome
        simp [ih]

theorem decodeChar?_rest {bytes rest : List UInt8} {text : List Char}
    (hdecoded : decodeLongest bytes = (text, rest)) : decodeChar? rest = none := by
  fun_induction decodeLongest bytes generalizing text rest with
  | case1 bytes hnone =>
      cases hdecoded
      exact hnone
  | case2 bytes c remaining hsome later rest' hlater ih =>
      cases hdecoded
      exact ih hlater

theorem prefix_of_decodeLongest {bytes rest : List UInt8} {text : List Char}
    (hdecoded : decodeLongest bytes = (text, rest)) {other : List Char}
    (hother : encode other <+: bytes) : other <+: text := by
  obtain ⟨more, rfl⟩ := hother
  rw [decodeLongest_encode_append] at hdecoded
  cases hdecoded
  exact List.prefix_append _ _

theorem stopsAfter_iff {bytes rest : List UInt8} {before : List Char} :
    StopsAfter bytes before rest ↔ decodeLongest bytes = (before, rest) ∧ rest ≠ [] := by
  constructor
  · rintro ⟨rfl, hnonempty, hunreadable⟩
    have hstuck : decodeLongest rest = ([], rest) := by
      rw [decodeLongest]
      split
      next => rfl
      next c later hsome => exact absurd (eq_encodeChar_of_decodeChar? hsome) (hunreadable c later)
    simp [decodeLongest_encode_append, hstuck, hnonempty]
  · rintro ⟨hdecoded, hnonempty⟩
    refine ⟨eq_encode_of_decodeLongest hdecoded, hnonempty, ?_⟩
    rintro c later rfl
    have hnone := decodeChar?_rest hdecoded
    simp [decodeChar?_encodeChar] at hnone

end Text

/-! ## Where the error is reported -/

namespace Workspace

theorem positionAfter_eq (text : List Char) :
    positionAfter text =
      ⟨text.count '\n' + 1, (text.reverse.takeWhile (· != '\n')).length + 1⟩ := by
  obtain ⟨closed, last, hlines, htext, hlast⟩ := Text.exists_splitLines_eq_concat text
  have hsince : text.reverse.takeWhile (· != '\n') = last.reverse := by
    rw [htext]
    refine Text.takeWhile_reverse_append ?_ ?_
    · rcases List.eq_nil_or_concat closed with rfl | ⟨above, line, rfl⟩ <;> simp
    · intro c hc
      have hne : c ≠ '\n' := fun hmark => hlast (hmark ▸ hc)
      simpa using hne
  rw [positionAfter_of_splitLines hlines, Text.count_of_splitLines hlines, hsince,
    List.length_reverse]

theorem positionOfByte?_encode (before : List Char) (rest : List UInt8) :
    positionOfByte? (Text.encode before ++ rest) (Text.encode before).length =
      some (positionAfter before) := by
  obtain ⟨closed, last, hlines, hbefore, hlast⟩ := Text.exists_splitLines_eq_concat before
  have hline : (Text.encode before).reverse.takeWhile (· != 0x0a) = (Text.encode last).reverse := by
    rw [hbefore]
    exact Java.takeWhile_reverse_encode closed hlast
  rw [positionOfByte?, List.take_left, hline, List.reverse_reverse, Text.decode?_encode,
    Option.map_some, Text.count_lineFeed_encode, Text.count_of_splitLines hlines,
    positionAfter_of_splitLines hlines]

theorem decodeFile_of_stopsAfter (file : String) {bytes rest : List UInt8} {before : List Char}
    (hstops : Text.StopsAfter bytes before rest) :
    decodeFile file bytes =
      .error (.parse ⟨⟨file, positionAfter before, positionAfter before⟩, .notUtf8⟩) := by
  have hoffset : bytes.length - rest.length = (Text.encode before).length := by
    simp [hstops.whole]
  have hposition : positionOfByte? bytes (bytes.length - rest.length) =
      some (positionAfter before) := by
    rw [hoffset, hstops.whole, positionOfByte?_encode]
  cases rest with
  | nil => exact absurd rfl hstops.nonempty
  | cons byte rest => simp only [decodeFile, (Text.stopsAfter_iff.mp hstops).1, hposition]

/--
A file that is not UTF-8 is reported where its bytes stop being text, and nothing else can
go wrong on the way.  The report covers no character.  Its line counts the line feeds of the
text before the place and its column the characters since the last one, so that its offset
in that text is the length of it.
-/
theorem parseFile_not_utf8 (workspace : Workspace) (path : Path) (location : Location)
    (bytes : List UInt8) (hresolve : workspace.resolve path = .ok location)
    (hread : workspace.files.read location = .ok bytes)
    (hinvalid : ∀ text, bytes ≠ Text.encode text) :
    ∃ before rest, Text.StopsAfter bytes before rest ∧
      (∀ text, Text.encode text <+: bytes → text <+: before) ∧
      ∃ error position, workspace.parseFile path = .fail (.parse error) ∧
        error.fault.text = "not valid UTF-8" ∧
        error.span = ⟨location.text, position, position⟩ ∧
        position =
          ⟨before.count '\n' + 1, (before.reverse.takeWhile (· != '\n')).length + 1⟩ ∧
        (SourceText.ofLines (Text.splitLines before) ['\n']).offsetOf position =
          .ok before.length := by
  obtain ⟨before, rest, hdecoded⟩ : ∃ before rest, Text.decodeLongest bytes = (before, rest) :=
    ⟨_, _, rfl⟩
  have hstops : Text.StopsAfter bytes before rest := by
    refine Text.stopsAfter_iff.mpr ⟨hdecoded, ?_⟩
    rintro rfl
    exact hinvalid before (by simpa using Text.eq_encode_of_decodeLongest hdecoded)
  have hfile := decodeFile_of_stopsAfter location.text hstops
  have hparse : workspace.parseFile path =
      .fail (.parse ⟨⟨location.text, positionAfter before, positionAfter before⟩, .notUtf8⟩) := by
    simp only [parseFile, hresolve, readFile, hread, Logged.ofExcept_ok_bind, hfile,
      Logged.ofExcept_error_bind]
  have hoffset : (SourceText.ofLines (Text.splitLines before) ['\n']).offsetOf
      (positionAfter before) = .ok before.length := by
    simpa using offsetOf_positionAfter before []
  exact ⟨before, rest, hstops, fun text => Text.prefix_of_decodeLongest hdecoded, _, _, hparse, rfl,
    rfl, positionAfter_eq before, hoffset⟩

def cutFile : List UInt8 :=
  Text.encode "é\nß".toList ++ [0xc3]

def cutWorkspace : Workspace where
  files := ⟨[(["Cut.java"], cutFile)], []⟩
  current := []
  parser _ := .leaf "program" 0 0

theorem parseFile_cutFile :
    (∀ text, cutFile ≠ Text.encode text) ∧
      ∃ error, cutWorkspace.parseFile (.ofText "Cut.java") = .fail (.parse error) ∧
        error.fault.text = "not valid UTF-8" ∧ error.span = ⟨"/Cut.java", ⟨2, 2⟩, ⟨2, 2⟩⟩ := by
  have hinvalid : ∀ text, cutFile ≠ Text.encode text := by
    intro text htext
    have hdecoded := Text.decode?_eq_some_iff.mpr htext
    have hnone : Text.decode? cutFile = none := by decide +kernel
    simp [hnone] at hdecoded
  obtain ⟨before, rest, hstops, hlongest, error, position, hparse, htext, hspan, rfl, -⟩ :=
    parseFile_not_utf8 cutWorkspace (.ofText "Cut.java") ["Cut.java"] cutFile (by decide +kernel)
      (by decide +kernel) hinvalid
  refine ⟨hinvalid, error, hparse, htext, ?_⟩
  have hdecoded : Text.decodeLongest cutFile = ("é\nß".toList, [0xc3]) := by decide +kernel
  have hsame := (Text.stopsAfter_iff.mp hstops).1.symm.trans hdecoded
  obtain ⟨rfl, -⟩ := Prod.mk.inj hsame
  rw [hspan]
  decide +kernel

end Workspace

end TokenSpacing
