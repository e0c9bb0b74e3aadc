import Mathlib.Computability.RegularExpressions
import TokenSpacing.Proofs.Adjacency

/-!
# Boundary tests as regular expressions

Every boundary pattern stands for two regular expressions, one read forwards from an
offset and one, written separately, read along the reversed text.  The tests run
neither: to the right one character decides, and to the left a scan of its own.  Both
decide the expressions, and the two expressions mirror each other.
-/

namespace TokenSpacing

open RegularExpression (char)

namespace Text

def blanks : List Char :=
  [' ', '\t', '\n', '\x0b', '\x0c', '\r']

def wordCharacters : List Char :=
  "ABCDEFGHIJKLMNOPQRSTUVWXYZabcdefghijklmnopqrstuvwxyz0123456789_".toList

private theorem iff_mem_of_ascii {inClass : Char → Bool} {members : List Char}
    (hascii : ∀ n < 128, inClass (Char.ofNat n) = members.contains (Char.ofNat n))
    (hclass : ∀ c, inClass c = true → c.toNat < 128)
    (hmembers : members.all (·.toNat < 128) = true) (c : Char) :
    inClass c = true ↔ c ∈ members := by
  by_cases hsmall : c.toNat < 128
  · have hsame := hascii c.toNat hsmall
    rw [Char.ofNat_toNat] at hsame
    rw [hsame, List.contains_iff_mem]
  · have hbeyond : c ∉ members := by
      intro hmem
      exact hsmall (by simpa using List.all_eq_true.mp hmembers c hmem)
    exact iff_of_false (fun hin => hsmall (hclass c hin)) hbeyond

theorem isBlank_iff_mem (c : Char) : isBlank c = true ↔ c ∈ blanks := by
  refine iff_mem_of_ascii (by decide +kernel) ?_ (by decide +kernel) c
  intro c hblank
  simp only [isBlank, Bool.or_eq_true, beq_iff_eq, Bool.and_eq_true, decide_eq_true_eq] at hblank
  rcases hblank with rfl | hrange
  · decide
  · omega

theorem isWord_iff_mem (c : Char) : isWord c = true ↔ c ∈ wordCharacters := by
  refine iff_mem_of_ascii (by decide +kernel) ?_ (by decide +kernel) c
  intro c hword
  have hcode := toNat_of_isWord hword
  omega

end Text

/-! ## Expressions and their words -/

def oneOf (characters : List Char) : RegularExpression Char :=
  (characters.map char).foldr (· + ·) 0

@[simp] theorem mem_matches_char {c : Char} {word : List Char} :
    word ∈ (char c).matches' ↔ word = [c] :=
  Iff.rfl

theorem mem_matches_oneOf {characters word : List Char} :
    word ∈ (oneOf characters).matches' ↔ ∃ c ∈ characters, word = [c] := by
  induction characters with
  | nil => simp [oneOf]
  | cons first rest ih =>
      change word ∈ (char first).matches' + (oneOf rest).matches' ↔ _
      rw [Language.mem_add, ih, mem_matches_char, List.exists_mem_cons_iff]

theorem mem_matches_star_oneOf {characters word : List Char} :
    word ∈ (oneOf characters).star.matches' ↔ ∀ c ∈ word, c ∈ characters := by
  rw [RegularExpression.matches'_star, Language.mem_kstar]
  constructor
  · rintro ⟨pieces, rfl, hpieces⟩ c hc
    obtain ⟨piece, hpiece, hmem⟩ := List.mem_flatten.mp hc
    obtain ⟨d, hd, rfl⟩ := mem_matches_oneOf.mp (hpieces piece hpiece)
    rwa [List.mem_singleton.mp hmem]
  · intro hword
    refine ⟨word.map ([·]), by rw [← List.flatMap_def, List.flatMap_singleton'], ?_⟩
    intro piece hpiece
    obtain ⟨c, hc, rfl⟩ := List.mem_map.mp hpiece
    exact mem_matches_oneOf.mpr ⟨c, hword c hc, rfl⟩

@[simp] theorem reverse_matches_char (c : Char) :
    (char c).matches'.reverse = (char c).matches' := by
  ext word
  rw [Language.mem_reverse, mem_matches_char, mem_matches_char, List.reverse_eq_iff]
  rfl

@[simp] theorem reverse_matches_oneOf (characters : List Char) :
    (oneOf characters).matches'.reverse = (oneOf characters).matches' := by
  ext word
  simp only [Language.mem_reverse, mem_matches_oneOf, List.reverse_eq_iff,
    List.reverse_singleton]

def Begins (expression : RegularExpression Char) (text : List Char) : Prop :=
  ∃ word rest, text = word ++ rest ∧ word ∈ expression.matches'

section Begins

variable {first second : RegularExpression Char} {text : List Char}

theorem begins_char {c : Char} : Begins (char c) text ↔ ∃ rest, text = c :: rest := by
  simp only [Begins, mem_matches_char]
  constructor
  · rintro ⟨_, rest, rfl, rfl⟩
    exact ⟨rest, rfl⟩
  · rintro ⟨rest, rfl⟩
    exact ⟨[c], rest, rfl, rfl⟩

theorem begins_oneOf {characters : List Char} :
    Begins (oneOf characters) text ↔ ∃ c rest, text = c :: rest ∧ c ∈ characters := by
  simp only [Begins, mem_matches_oneOf]
  constructor
  · rintro ⟨_, rest, rfl, c, hc, rfl⟩
    exact ⟨c, rest, rfl, hc⟩
  · rintro ⟨c, rest, rfl, hc⟩
    exact ⟨[c], rest, rfl, c, hc, rfl⟩

theorem begins_add : Begins (first + second) text ↔ Begins first text ∨ Begins second text := by
  simp only [Begins, RegularExpression.matches'_add, Language.mem_add, and_or_left, exists_or]

theorem begins_mul :
    Begins (first * second) text ↔
      ∃ word rest, text = word ++ rest ∧ word ∈ first.matches' ∧ Begins second rest := by
  simp only [Begins, RegularExpression.matches'_mul, Language.mem_mul]
  constructor
  · rintro ⟨_, rest, rfl, word, hword, later, hlater, rfl⟩
    exact ⟨word, later ++ rest, List.append_assoc .., hword, later, rest, rfl, hlater⟩
  · rintro ⟨word, _, rfl, hword, later, rest, rfl, hlater⟩
    exact ⟨word ++ later, rest, (List.append_assoc ..).symm, word, hword, later, hlater, rfl⟩

theorem begins_char_mul {c : Char} :
    Begins (char c * second) text ↔ ∃ rest, text = c :: rest ∧ Begins second rest := by
  simp only [begins_mul, mem_matches_char]
  constructor
  · rintro ⟨_, rest, rfl, rfl, hrest⟩
    exact ⟨rest, rfl, hrest⟩
  · rintro ⟨rest, rfl, hrest⟩
    exact ⟨[c], rest, rfl, rfl, hrest⟩

theorem begins_mul_star : Begins (first * second.star) text ↔ Begins first text := by
  rw [begins_mul]
  constructor
  · rintro ⟨word, rest, hsplit, hword, -⟩
    exact ⟨word, rest, hsplit, hword⟩
  · rintro ⟨word, rest, hsplit, hword⟩
    refine ⟨word, rest, hsplit, hword, [], rest, rfl, ?_⟩
    rw [RegularExpression.matches'_star]
    exact Language.nil_mem_kstar _

end Begins

namespace Pattern

/-- What a pattern matches, as it is read forwards. -/
def expression : Pattern → RegularExpression Char
  | whitespace => oneOf Text.blanks
  | lineBreak =>
      (char '\r' * char '\n' + oneOf (Text.breakingBlanks ++ Text.otherBreaks)) *
        (oneOf Text.blanks).star
  | annotationMark =>
      char '@' * (oneOf Text.wordCharacters).star * (oneOf Text.blanks).star

/-- What a pattern matches along the reversed text. -/
def mirrored : Pattern → RegularExpression Char
  | whitespace => oneOf Text.blanks
  | lineBreak =>
      (oneOf Text.blanks).star *
        (char '\n' * char '\r' + oneOf (Text.breakingBlanks ++ Text.otherBreaks))
  | annotationMark =>
      (oneOf Text.blanks).star * ((oneOf Text.wordCharacters).star * char '@')

theorem matches_mirrored (pattern : Pattern) :
    pattern.mirrored.matches' = pattern.expression.matches'.reverse := by
  cases pattern <;>
    simp only [mirrored, expression, RegularExpression.matches'_mul,
      RegularExpression.matches'_add, RegularExpression.matches'_star, Language.reverse_mul,
      Language.reverse_add, Language.reverse_kstar, reverse_matches_char, reverse_matches_oneOf]

theorem begins_mirrored (pattern : Pattern) (text : List Char) :
    Begins pattern.mirrored text.reverse ↔
      ∃ rest word, text = rest ++ word ∧ word ∈ pattern.expression.matches' := by
  simp only [Begins, matches_mirrored, Language.mem_reverse]
  constructor
  · rintro ⟨word, rest, hsplit, hword⟩
    exact ⟨rest.reverse, word.reverse, by simpa using congrArg List.reverse hsplit, hword⟩
  · rintro ⟨rest, word, rfl, hword⟩
    exact ⟨word.reverse, rest.reverse, List.reverse_append, by rwa [List.reverse_reverse]⟩

/-! ## The two scans -/

theorem begins_ending (first second : Char) {text : List Char}
    (hfirst : Text.isLineBreak first = true) :
    Begins (char first * char second + oneOf (Text.breakingBlanks ++ Text.otherBreaks)) text ↔
      ∃ c rest, text = c :: rest ∧ Text.isLineBreak c = true := by
  simp only [begins_add, begins_char_mul, begins_char, begins_oneOf, List.mem_append,
    ← Text.isLineBreak_iff]
  constructor
  · rintro (⟨_, rfl, rest, rfl⟩ | hsingle)
    · exact ⟨first, second :: rest, rfl, hfirst⟩
    · exact hsingle
  · exact .inr

/-- One character decides on the right, since all that may follow it is optional. -/
theorem opens_iff (pattern : Pattern) (text : List Char) :
    pattern.opens text = true ↔ Begins pattern.expression text := by
  cases pattern with
  | whitespace =>
      simp only [expression, begins_oneOf, ← Text.isBlank_iff_mem]
      cases text <;> simp [opens]
  | lineBreak =>
      rw [expression, begins_mul_star, begins_ending '\r' '\n' (by decide)]
      cases text <;> simp [opens]
  | annotationMark =>
      rw [expression, begins_mul_star, begins_mul_star, begins_char]
      cases text <;> simp [opens]

theorem closesLineBreak_iff_exists {backwards : List Char} :
    closesLineBreak backwards = true ↔
      ∃ run c rest, backwards = run ++ c :: rest ∧ (∀ b ∈ run, Text.isBlank b = true) ∧
        Text.isLineBreak c = true := by
  constructor
  · intro hcloses
    induction backwards with
    | nil => simp [closesLineBreak] at hcloses
    | cons first backwards ih =>
        rw [closesLineBreak, Bool.or_eq_true, Bool.and_eq_true] at hcloses
        rcases hcloses with hbreak | ⟨hblank, hlater⟩
        · exact ⟨[], first, backwards, rfl, by simp, hbreak⟩
        · obtain ⟨run, c, rest, rfl, hrun, hbreak⟩ := ih hlater
          exact ⟨first :: run, c, rest, rfl, List.forall_mem_cons.mpr ⟨hblank, hrun⟩, hbreak⟩
  · rintro ⟨run, c, rest, rfl, hrun, hbreak⟩
    rw [closesLineBreak_append _ hrun, closesLineBreak, hbreak]
    simp

theorem closes_iff (pattern : Pattern) (backwards : List Char) :
    pattern.closes backwards = true ↔ Begins pattern.mirrored backwards := by
  cases pattern with
  | whitespace => exact opens_iff whitespace backwards
  | lineBreak =>
      rw [closes, closesLineBreak_iff_exists, mirrored, begins_mul]
      simp only [mem_matches_star_oneOf, ← Text.isBlank_iff_mem,
        begins_ending '\n' '\r' (by decide)]
      constructor
      · rintro ⟨run, c, rest, hsplit, hrun, hbreak⟩
        exact ⟨run, c :: rest, hsplit, hrun, c, rest, rfl, hbreak⟩
      · rintro ⟨run, _, hsplit, hrun, c, rest, rfl, hbreak⟩
        exact ⟨run, c, rest, hsplit, hrun, hbreak⟩
  | annotationMark =>
      rw [← List.reverse_reverse backwards, endsWithAnnotation_iff, mirrored, begins_mul]
      simp only [begins_mul, begins_char, mem_matches_star_oneOf, ← Text.isBlank_iff_mem,
        ← Text.isWord_iff_mem, List.reverse_reverse]
      constructor
      · rintro ⟨rest, name, run, hsplit, hname, hrun⟩
        refine ⟨run.reverse, name.reverse ++ '@' :: rest.reverse, ?_, ?_,
          name.reverse, '@' :: rest.reverse, rfl, ?_, rest.reverse, rfl⟩
        · simpa using congrArg List.reverse hsplit
        · simpa using hrun
        · simpa using hname
      · rintro ⟨run, _, rfl, hrun, name, _, rfl, hname, rest, rfl⟩
        exact ⟨rest.reverse, name.reverse, run.reverse, by simp, by simpa using hname,
          by simpa using hrun⟩

end Pattern

namespace SourceText

theorem touches_left_iff (source : SourceText) (offset : Nat) (pattern : Pattern) :
    source.touches offset .left pattern = true ↔
      Begins pattern.mirrored (source.text.reverse.drop (source.text.length - offset)) := by
  rw [touches, leftOf, Pattern.closes_iff, List.reverse_take]

/--
The test on the left of an offset mirrors the test on its right: a pattern touches the
offset if and only if its expression, read forwards, matches all of a piece of text that
ends there, or starts there.
-/
theorem touches_iff_matches (source : SourceText) (offset : Nat) (pattern : Pattern) :
    (source.touches offset .left pattern = true ↔
        ∃ start ≤ offset,
          (source.text.drop start).take (offset - start) ∈ pattern.expression.matches') ∧
      (source.touches offset .right pattern = true ↔
        ∃ stop ≥ offset,
          (source.text.drop offset).take (stop - offset) ∈ pattern.expression.matches') := by
  constructor
  · rw [touches_left_iff, ← List.reverse_take, Pattern.begins_mirrored]
    constructor
    · rintro ⟨rest, word, hsplit, hword⟩
      have hlength : rest.length ≤ offset := by
        have htaken := congrArg List.length hsplit
        rw [List.length_take, List.length_append] at htaken
        omega
      refine ⟨rest.length, hlength, ?_⟩
      rwa [← List.drop_take, hsplit, List.drop_left]
    · rintro ⟨start, -, hword⟩
      rw [← List.drop_take] at hword
      exact ⟨_, _, (List.take_append_drop start _).symm, hword⟩
  · rw [touches, rightOf, Pattern.opens_iff]
    constructor
    · rintro ⟨word, rest, hsplit, hword⟩
      refine ⟨offset + word.length, by omega, ?_⟩
      rwa [Nat.add_sub_cancel_left, hsplit, List.take_left]
    · rintro ⟨stop, -, hword⟩
      exact ⟨_, _, (List.take_append_drop (stop - offset) _).symm, hword⟩

end SourceText

end TokenSpacing
