import Mathlib.Data.List.TakeWhile
import TokenSpacing.Fixture.Expectation
import TokenSpacing.Proofs.Lines

/-!
# Expectations are read as they are written

A line of a fixture is plain, or it ends with a comment that states an expectation.  Whatever
comes before the comment, however its message uses slashes, braces or the marker itself, and
whatever follows the message: reading the fixture gives back the expectation of each
commented line.
-/

namespace TokenSpacing

namespace Expectation

/-! ## Comments -/

structure Shift where
  negative : Bool
  digits : List Char
  decimal : ∀ c ∈ digits, c.isDigit = true
  nonempty : digits ≠ []
  bounded : digits.length ≤ 4300

namespace Shift

def signed (shift : Shift) : List Char :=
  (if shift.negative then '-' else '+') :: shift.digits

def text (shift : Shift) : List Char :=
  '@' :: shift.signed

def value (shift : Shift) : Int :=
  let magnitude : Int := Nat.ofDigitChars 10 shift.digits 0
  if shift.negative then -magnitude else magnitude

end Shift

/-- A message that does not close its own braces, and what follows it on the line. -/
structure Remark where
  message : List Char
  rest : List Char
  unclosed : ¬ ['\x7d', '\x7d'] <:+: message
  unfinished : message.getLast? ≠ some '\x7d'

def Remark.text (remark : Remark) : List Char :=
  ' ' :: '\x7b' :: '\x7b' :: (remark.message ++ '\x7d' :: '\x7d' :: remark.rest)

structure Comment where
  shift : Option Shift
  remark : Option Remark

namespace Comment

def details (comment : Comment) : List Char :=
  (comment.shift.map Shift.text).getD [] ++ (comment.remark.map Remark.text).getD []

def text (comment : Comment) : List Char :=
  "// Noncompliant".toList ++ comment.details

def expectation (comment : Comment) (number : Nat) : Expectation where
  line := number + (comment.shift.map Shift.value).getD 0
  message := comment.remark.map fun remark => String.ofList remark.message

end Comment

/-- A line without the marker, or text without it in front of a comment. -/
inductive FixtureLine where
  | plain (text : List Char) (hplain : ¬ marker <:+: text)
  | marked (before : List Char) (hbefore : ¬ marker <:+: before) (comment : Comment)

namespace FixtureLine

def text : FixtureLine → List Char
  | plain text _ => text
  | marked before _ comment => before ++ comment.text

def expectation? (number : Nat) : FixtureLine → Option Expectation
  | plain _ _ => none
  | marked _ _ comment => some (comment.expectation number)

end FixtureLine

/-! ## The marker -/

theorem dropWord?_eq_some_iff {word text rest : List Char} :
    dropWord? word text = some rest ↔ text = word ++ rest := by
  induction word generalizing text with
  | nil => simp [dropWord?]
  | cons expected word ih =>
      cases text with
      | nil => simp [dropWord?]
      | cons c text =>
          by_cases hc : c = expected
          · simp [dropWord?, hc, ih]
          · simp [dropWord?, hc]

theorem afterMarker?_eq_some_iff {text after : List Char} :
    afterMarker? text = some after ↔
      ∃ blanks, (∀ c ∈ blanks, Text.isSpace c = true) ∧
        text = '/' :: '/' :: (blanks ++ marker ++ after) := by
  constructor
  · intro hafter
    unfold afterMarker? at hafter
    split at hafter
    next rest =>
      refine ⟨rest.takeWhile Text.isSpace, fun c hc => List.mem_takeWhile_imp hc, ?_⟩
      rw [List.append_assoc, ← dropWord?_eq_some_iff.mp hafter, List.takeWhile_append_dropWhile]
    next => cases hafter
  · rintro ⟨blanks, hblanks, rfl⟩
    have hstop : (marker ++ after).dropWhile Text.isSpace = marker ++ after := rfl
    simp only [afterMarker?]
    rw [List.append_assoc, List.dropWhile_append_of_pos hblanks, hstop, dropWord?_eq_some_iff]

theorem slash_not_mem {blanks : List Char} (hblanks : ∀ c ∈ blanks, Text.isSpace c = true) :
    '/' ∉ blanks ++ marker := by
  rw [List.mem_append]
  rintro (hblank | hmarker)
  · cases hblanks _ hblank
  · revert hmarker
    decide

theorem prefix_of_not_mem {mark : Char} {clean after text rest : List Char}
    (hclean : mark ∉ clean) (htext : clean ++ after = text ++ mark :: rest) : clean <+: text := by
  rcases List.append_eq_append_iff.mp htext with ⟨more, hmore, -⟩ | ⟨more, hmore, hrest⟩
  · exact ⟨more, hmore.symm⟩
  · cases more with
    | nil => exact ⟨[], by simpa using hmore⟩
    | cons c more =>
        obtain rfl := (List.cons.inj hrest).1
        exact absurd (by simp [hmore]) hclean

/-- A comment cannot start before the slashes of a later one unless there is a marker in
between. -/
theorem afterMarker?_before {before : List Char} (hnonempty : before ≠ [])
    (hbefore : ¬ marker <:+: before) (rest : List Char) :
    afterMarker? (before ++ '/' :: '/' :: rest) = none := by
  rw [Option.eq_none_iff_forall_ne_some]
  intro after hafter
  obtain ⟨blanks, hblanks, htext⟩ := afterMarker?_eq_some_iff.mp hafter
  have hslash := slash_not_mem hblanks
  have hmarker : marker <:+: blanks ++ marker := ⟨blanks, [], by simp⟩
  obtain ⟨first, before, rfl⟩ := List.exists_cons_of_ne_nil hnonempty
  cases before with
  | nil =>
      simp only [List.cons_append, List.nil_append, List.cons.injEq] at htext
      have hrest : blanks ++ marker ++ after = [] ++ '/' :: rest := htext.2.2.symm
      have hnil := List.prefix_nil.mp (prefix_of_not_mem hslash hrest)
      exact absurd (List.append_eq_nil_iff.mp hnil).2 (by decide)
  | cons second before =>
      simp only [List.cons_append, List.cons.injEq] at htext
      have hstarts := prefix_of_not_mem hslash htext.2.2.symm
      exact hbefore ((hmarker.trans hstarts.isInfix).trans ⟨[first, second], [], by simp⟩)

theorem findComment?_of_plain {text : List Char} (hplain : ¬ marker <:+: text) :
    findComment? text = none := by
  induction text with
  | nil => rfl
  | cons c text ih =>
      have hnone : afterMarker? (c :: text) = none := by
        rw [Option.eq_none_iff_forall_ne_some]
        intro after hafter
        obtain ⟨blanks, -, htext⟩ := afterMarker?_eq_some_iff.mp hafter
        exact hplain ⟨'/' :: '/' :: blanks, after, by simp [htext]⟩
      rw [findComment?, hnone]
      exact ih fun hoccurs => hplain (List.infix_cons hoccurs)

theorem findComment?_of_marked {before : List Char} (hbefore : ¬ marker <:+: before)
    (after : List Char) :
    findComment? (before ++ ("// Noncompliant".toList ++ after)) = some after := by
  have hcomment : "// Noncompliant".toList ++ after =
      '/' :: '/' :: ([' '] ++ marker ++ after) := rfl
  rw [hcomment]
  induction before with
  | nil =>
      have hfound : afterMarker? ('/' :: '/' :: ([' '] ++ marker ++ after)) = some after :=
        afterMarker?_eq_some_iff.mpr ⟨[' '], List.forall_mem_singleton.mpr rfl, rfl⟩
      rw [List.nil_append, findComment?, hfound]
  | cons c before ih =>
      have hnone := afterMarker?_before (List.cons_ne_nil c before) hbefore
        ([' '] ++ marker ++ after)
      rw [List.cons_append] at hnone
      rw [List.cons_append, findComment?, hnone]
      exact ih fun hoccurs => hbefore (List.infix_cons hoccurs)

/-! ## The shift -/

theorem digitValue?_of_isDigit {c : Char} (hc : c.isDigit = true) :
    Text.digitValue? c = some (c.toNat - '0'.toNat) := by
  obtain ⟨hlow, hhigh⟩ := Char.isDigit_iff_toNat.mp hc
  have hzero : Text.digitZeros.find? (fun first => first ≤ c.toNat && c.toNat < first + 10) =
      some 0x30 := by
    refine List.find?_cons_of_pos ?_
    simp only [Bool.and_eq_true, decide_eq_true_eq]
    exact ⟨hlow, Nat.lt_succ_of_le hhigh⟩
  rw [Text.digitValue?, hzero]
  rfl

theorem digitsValue_of_decimal {digits : List Char} (hdigits : ∀ c ∈ digits, c.isDigit = true) :
    Text.digitsValue digits = Nat.ofDigitChars 10 digits 0 := by
  rw [Text.digitsValue, Nat.ofDigitChars_eq_foldl]
  refine List.foldl_ext _ _ 0 fun value c hc => ?_
  rw [digitValue?_of_isDigit (hdigits c hc), Option.getD_some]

namespace Shift

theorem signedValue_signed (shift : Shift) : Text.signedValue shift.signed = shift.value := by
  cases hsign : shift.negative <;>
    simp [signed, value, hsign, Text.signedValue, digitsValue_of_decimal shift.decimal]

theorem splitShift_text (shift : Shift) {rest : List Char}
    (hrest : ∀ c ∈ rest.head?, Text.isDigit c = false) :
    splitShift (shift.text ++ rest) = (shift.signed, rest) := by
  have hdigits : ∀ c ∈ shift.digits, Text.isDigit c = true := fun c hc => by
    rw [Text.isDigit, digitValue?_of_isDigit (shift.decimal c hc), Option.isSome_some]
  have hstop : rest.takeWhile Text.isDigit = [] ∧ rest.dropWhile Text.isDigit = rest := by
    cases rest with
    | nil => exact ⟨rfl, rfl⟩
    | cons c rest =>
        have hc : Text.isDigit c = false := hrest c rfl
        simp [hc]
  have hsign : ∀ negative : Bool, ((if negative then '-' else '+') == '+' ||
      (if negative then '-' else '+') == '-') = true := by
    decide
  simp only [text, signed, List.cons_append, splitShift, hsign,
    List.takeWhile_append_of_pos hdigits, List.dropWhile_append_of_pos hdigits, hstop,
    List.append_nil]
  simp [shift.nonempty]

end Shift

/-! ## The message -/

theorem beforeClosing?_message {message : List Char} (hunclosed : ¬ ['\x7d', '\x7d'] <:+: message)
    (hunfinished : message.getLast? ≠ some '\x7d') (rest : List Char) :
    beforeClosing? (message ++ '\x7d' :: '\x7d' :: rest) = some message := by
  induction message with
  | nil => rfl
  | cons c message ih =>
      have htail : beforeClosing? (message ++ '\x7d' :: '\x7d' :: rest) = some message := by
        refine ih (fun hoccurs => hunclosed (List.infix_cons hoccurs)) ?_
        cases message with
        | nil => simp
        | cons second message => simpa using hunfinished
      have hopen : ∀ later, c :: (message ++ '\x7d' :: '\x7d' :: rest) ≠
          '\x7d' :: '\x7d' :: later := by
        intro later heq
        obtain ⟨rfl, hnext⟩ := List.cons.inj heq
        cases message with
        | nil => exact hunfinished rfl
        | cons second message =>
            obtain ⟨rfl, -⟩ := List.cons.inj hnext
            exact hunclosed ⟨[], message, rfl⟩
      rw [List.cons_append, beforeClosing?, htail]
      · rfl
      · intro later hc hlater
        exact hopen later (by rw [hc, hlater])

theorem message?_text (remark : Remark) :
    message? remark.text = some (String.ofList remark.message) := by
  have hbraces : (remark.text).dropWhile Text.isSpace =
      '\x7b' :: '\x7b' :: (remark.message ++ '\x7d' :: '\x7d' :: remark.rest) := rfl
  rw [message?, hbraces]
  simp only [beforeClosing?_message remark.unclosed remark.unfinished remark.rest, Option.map_some]

/-! ## Lines -/

theorem splitShift_details (comment : Comment) :
    splitShift comment.details =
      ((comment.shift.map Shift.signed).getD [], (comment.remark.map Remark.text).getD []) := by
  obtain ⟨shift, remark⟩ := comment
  cases shift with
  | none => cases remark <;> rfl
  | some shift =>
      refine shift.splitShift_text fun c hc => ?_
      cases remark with
      | none => cases hc
      | some remark =>
          obtain rfl := Option.some.inj hc
          decide

theorem length_signed_le (shift : Option Shift) :
    ((shift.map Shift.signed).getD []).length ≤ Text.digitLimit + 1 := by
  cases shift with
  | none => exact Nat.zero_le _
  | some shift => exact Nat.succ_le_succ shift.bounded

theorem signedValue_map (shift : Option Shift) :
    Text.signedValue ((shift.map Shift.signed).getD []) = (shift.map Shift.value).getD 0 := by
  cases shift with
  | none => rfl
  | some shift => exact shift.signedValue_signed

theorem message?_map (remark : Option Remark) :
    message? ((remark.map Remark.text).getD []) =
      remark.map fun remark => String.ofList remark.message := by
  cases remark with
  | none => rfl
  | some remark => exact message?_text remark

theorem ofLine_text (number : Nat) (line : FixtureLine) :
    ofLine number line.text = .ok (line.expectation? number) := by
  cases line with
  | plain text hplain =>
      have hnone : findComment? (FixtureLine.plain text hplain).text = none :=
        findComment?_of_plain hplain
      simp only [ofLine, hnone, FixtureLine.expectation?]
  | marked before hbefore comment =>
      have hfound : findComment? (FixtureLine.marked before hbefore comment).text =
          some comment.details :=
        findComment?_of_marked hbefore comment.details
      have hlength := length_signed_le comment.shift
      simp only [ofLine, hfound, splitShift_details, signedValue_map, message?_map,
        FixtureLine.expectation?, Comment.expectation]
      rw [if_neg (by omega)]

theorem ofLines_text (number : Nat) (lines : List FixtureLine) :
    ofLines number (lines.map FixtureLine.text) =
      .ok ((lines.zipIdx number).filterMap fun (line, index) => line.expectation? index) := by
  induction lines generalizing number with
  | nil => rfl
  | cons line lines ih =>
      rw [List.map_cons, ofLines, ofLine_text, ih, List.zipIdx_cons]
      cases hline : line.expectation? number with
      | none => simp [hline, bind, Except.bind, pure, Except.pure]
      | some expectation => simp [hline, bind, Except.bind, pure, Except.pure]

/--
Reading a fixture gives one expectation for each commented line, in order: on the line that
the comment moves it to, and with the message of the comment, if it has one.
-/
theorem ofText_written (lines : List FixtureLine) (hlines : ∀ line ∈ lines, '\n' ∉ line.text) :
    ofText (joinLines ['\n'] (lines.map FixtureLine.text)) =
      .ok ((lines.zipIdx 1).filterMap fun (line, number) => line.expectation? number) := by
  cases lines with
  | nil => rfl
  | cons line lines =>
      have htexts : ∀ text ∈ (line :: lines).map FixtureLine.text, '\n' ∉ text := by
        simpa using hlines
      rw [ofText, Text.splitLines_joinLines (by simp) htexts]
      exact ofLines_text 1 (line :: lines)

def crowdedFixture : List FixtureLine :=
  [.plain "int[] c = d // see below".toList (by decide +kernel),
   .marked "[0]; /".toList (by decide +kernel)
     ⟨some ⟨true, ['0', '1'], List.all_eq_true.mp (by decide), by decide, by decide⟩, none⟩,
   .marked "int a = ~ b; // ".toList (by decide +kernel)
     ⟨none, some ⟨"a \x7d // Noncompliant \x7b\x7bb".toList, "\x7d // Noncompliant@+7".toList,
       by decide +kernel, by decide +kernel⟩⟩]

theorem ofText_crowdedFixture :
    (∀ line ∈ crowdedFixture, '\n' ∉ line.text) ∧
      ofText (joinLines ['\n'] (crowdedFixture.map FixtureLine.text)) =
        .ok [⟨1, none⟩, ⟨3, some "a \x7d // Noncompliant \x7b\x7bb"⟩] := by
  have hlines : ∀ line ∈ crowdedFixture, '\n' ∉ line.text := by
    decide +kernel
  have hexpected : ((crowdedFixture.zipIdx 1).filterMap fun (line, number) =>
      line.expectation? number) =
        [⟨1, none⟩, ⟨3, some "a \x7d // Noncompliant \x7b\x7bb"⟩] := by
    decide +kernel
  exact ⟨hlines, by rw [ofText_written crowdedFixture hlines, hexpected]⟩

end Expectation

end TokenSpacing
