import Mathlib.Data.List.TakeWhile
import TokenSpacing.Boundary
import TokenSpacing.Proofs.Offsets
import TokenSpacing.Proofs.Outcomes

/-!
# White space next to a position

What the boundary tests decide, said about the text before and after a position
instead of about patterns.  On the left the longest run of blanks matters, and the
character in front of it; on the right only the next character does.
-/

namespace TokenSpacing

namespace Text

def breakingBlanks : List Char :=
  ['\n', '\x0b', '\x0c', '\r']

def otherBreaks : List Char :=
  ['\u0085', '\u2028', '\u2029']

private theorem eq_of_toNat_eq {c d : Char} (hcode : c.toNat = d.toNat) : c = d := by
  rw [← Char.ofNat_toNat c, ← Char.ofNat_toNat d, hcode]

theorem isLineBreak_iff (c : Char) :
    isLineBreak c = true ↔ c ∈ breakingBlanks ∨ c ∈ otherBreaks := by
  constructor
  · intro hbreak
    have hcode : c.toNat = 0x0a ∨ c.toNat = 0x0b ∨ c.toNat = 0x0c ∨ c.toNat = 0x0d ∨
        c.toNat = 0x85 ∨ c.toNat = 0x2028 ∨ c.toNat = 0x2029 := by
      simp only [isLineBreak, Bool.or_eq_true, Bool.and_eq_true, decide_eq_true_eq,
        beq_iff_eq] at hbreak
      omega
    rcases hcode with h | h | h | h | h | h | h
    · exact .inl (eq_of_toNat_eq (d := '\n') h ▸ by decide)
    · exact .inl (eq_of_toNat_eq (d := '\x0b') h ▸ by decide)
    · exact .inl (eq_of_toNat_eq (d := '\x0c') h ▸ by decide)
    · exact .inl (eq_of_toNat_eq (d := '\r') h ▸ by decide)
    · exact .inr (eq_of_toNat_eq (d := '\u0085') h ▸ by decide)
    · exact .inr (eq_of_toNat_eq (d := '\u2028') h ▸ by decide)
    · exact .inr (eq_of_toNat_eq (d := '\u2029') h ▸ by decide)
  · rintro (hmem | hmem)
    · have hall : breakingBlanks.all isLineBreak = true := by decide
      exact List.all_eq_true.mp hall c hmem
    · have hall : otherBreaks.all isLineBreak = true := by decide
      exact List.all_eq_true.mp hall c hmem

theorem isBlank_of_mem_breakingBlanks {c : Char} (hc : c ∈ breakingBlanks) :
    isBlank c = true := by
  have hall : breakingBlanks.all isBlank = true := by decide
  exact List.all_eq_true.mp hall c hc

theorem isBlank_of_mem_otherBreaks {c : Char} (hc : c ∈ otherBreaks) :
    isBlank c = false := by
  have hall : otherBreaks.all (!isBlank ·) = true := by decide
  simpa using List.all_eq_true.mp hall c hc

theorem toNat_of_isWord {c : Char} (hword : isWord c = true) :
    0x30 ≤ c.toNat ∧ c.toNat ≤ 0x7a := by
  have hclasses : (((decide ('A'.val ≤ c.val ∧ c.val ≤ 'Z'.val) ||
      (decide ('a'.val ≤ c.val) && decide (c.val ≤ 'z'.val))) ||
      (decide ('0'.val ≤ c.val) && decide (c.val ≤ '9'.val))) || c == '_') = true := hword
  simp only [Bool.or_eq_true, Bool.and_eq_true, decide_eq_true_eq, beq_iff_eq,
    UInt32.le_iff_toNat_le] at hclasses
  rcases hclasses with ((h | h) | h) | rfl
  · exact ⟨Nat.le_trans (by decide) h.1, Nat.le_trans h.2 (by decide)⟩
  · exact ⟨Nat.le_trans (by decide) h.1, Nat.le_trans h.2 (by decide)⟩
  · exact ⟨Nat.le_trans (by decide) h.1, Nat.le_trans h.2 (by decide)⟩
  · decide

theorem isBlank_of_isWord {c : Char} (hword : isWord c = true) : isBlank c = false := by
  have hcode := (toNat_of_isWord hword).1
  have hspace : c ≠ ' ' := by
    rintro rfl
    exact absurd hcode (by decide)
  simp only [isBlank, Bool.or_eq_false_iff, beq_eq_false_iff_ne, Bool.and_eq_false_iff,
    decide_eq_false_iff_not]
  exact ⟨hspace, .inr (by omega)⟩

end Text

/-! ## What counts -/

/-- White space counts where a line breaks only if line breaks are not allowed, and
elsewhere if there is any. -/
def Counts (allowLineBreaks : Bool) (breaks spaced : Prop) : Prop :=
  (breaks ∧ allowLineBreaks = false) ∨ (¬breaks ∧ spaced)

/-- `run` is the longest run of blanks at the end of a text. -/
structure BlankRun (text rest run : List Char) : Prop where
  split : text = rest ++ run
  blank : ∀ c ∈ run, Text.isBlank c = true
  longest : ∀ c ∈ rest.getLast?, Text.isBlank c = false

def SpacedAtEnd (text : List Char) (allowLineBreaks : Bool) : Prop :=
  ∃ rest run, BlankRun text rest run ∧
    Counts allowLineBreaks
      ((∃ c ∈ run, c ∈ Text.breakingBlanks) ∨ ∃ c ∈ rest.getLast?, c ∈ Text.otherBreaks)
      (run ≠ [])

/-- A text is `broken` where a line break is taken for granted. -/
def SpacedAtStart (text : List Char) (allowLineBreaks : Bool) (broken : Prop) : Prop :=
  Counts allowLineBreaks
    (broken ∨ ∃ c ∈ text.head?, c ∈ Text.breakingBlanks ∨ c ∈ Text.otherBreaks)
    (∃ c ∈ text.head?, Text.isBlank c = true)

def EndsWithAnnotation (text : List Char) : Prop :=
  ∃ rest word blanks, text = rest ++ '@' :: (word ++ blanks) ∧
    (∀ c ∈ word, Text.isWord c = true) ∧ ∀ c ∈ blanks, Text.isBlank c = true

theorem counts_iff_ite {allowLineBreaks broken blank : Bool} {breaks spaced : Prop}
    (hbreaks : broken = true ↔ breaks) (hspaced : blank = true ↔ spaced) :
    (if broken then !allowLineBreaks else blank) = true ↔
      Counts allowLineBreaks breaks spaced := by
  unfold Counts
  rw [← hbreaks, ← hspaced]
  cases broken <;> simp

/-! ## The left side -/

theorem exists_blankRun (text : List Char) : ∃ rest run, BlankRun text rest run := by
  refine ⟨(text.reverse.dropWhile Text.isBlank).reverse,
    (text.reverse.takeWhile Text.isBlank).reverse, ?_, ?_, ?_⟩
  · rw [← List.reverse_append, List.takeWhile_append_dropWhile, List.reverse_reverse]
  · intro c hc
    exact List.mem_takeWhile_imp (List.mem_reverse.mp hc)
  · intro c hc
    rw [List.getLast?_reverse] at hc
    have hnot := List.head?_dropWhile_not Text.isBlank text.reverse
    rw [hc] at hnot
    simpa using hnot

namespace Pattern

theorem closesLineBreak_append {run : List Char} (rest : List Char)
    (hrun : ∀ c ∈ run, Text.isBlank c = true) :
    closesLineBreak (run ++ rest) = (run.any Text.isLineBreak || closesLineBreak rest) := by
  induction run with
  | nil => simp
  | cons c run ih =>
      obtain ⟨hc, htail⟩ := List.forall_mem_cons.mp hrun
      simp [closesLineBreak, ih htail, hc, Bool.or_assoc]

theorem closesLineBreak_of_head {rest : List Char}
    (hrest : ∀ c ∈ rest.head?, Text.isBlank c = false) :
    closesLineBreak rest = rest.head?.any Text.isLineBreak := by
  cases rest with
  | nil => rfl
  | cons c rest =>
      have hc : Text.isBlank c = false := hrest c rfl
      simp [closesLineBreak, hc]

end Pattern

namespace BlankRun

variable {text rest run : List Char}

theorem head_reverse (hrun : BlankRun text rest run) :
    ∀ c ∈ rest.reverse.head?, Text.isBlank c = false := by
  rw [List.head?_reverse]
  exact hrun.longest

theorem closesLineBreak_iff (hrun : BlankRun text rest run) :
    Pattern.lineBreak.closes text.reverse = true ↔
      (∃ c ∈ run, c ∈ Text.breakingBlanks) ∨ ∃ c ∈ rest.getLast?, c ∈ Text.otherBreaks := by
  have hblank : ∀ c ∈ run.reverse, Text.isBlank c = true :=
    fun c hc => hrun.blank c (List.mem_reverse.mp hc)
  rw [hrun.split, List.reverse_append, Pattern.closes,
    Pattern.closesLineBreak_append rest.reverse hblank,
    Pattern.closesLineBreak_of_head hrun.head_reverse, List.head?_reverse,
    Bool.or_eq_true, List.any_eq_true]
  refine or_congr ?_ ?_
  · constructor
    · rintro ⟨c, hc, hbreak⟩
      have hmem := List.mem_reverse.mp hc
      rcases (Text.isLineBreak_iff c).mp hbreak with hin | hin
      · exact ⟨c, hmem, hin⟩
      · have hnot := Text.isBlank_of_mem_otherBreaks hin
        rw [hrun.blank c hmem] at hnot
        contradiction
    · rintro ⟨c, hc, hin⟩
      exact ⟨c, List.mem_reverse.mpr hc, (Text.isLineBreak_iff c).mpr (.inl hin)⟩
  · constructor
    · intro hany
      obtain ⟨c, hc, hbreak⟩ := (Option.any_eq_true _ _).mp hany
      rcases (Text.isLineBreak_iff c).mp hbreak with hin | hin
      · have hblank := Text.isBlank_of_mem_breakingBlanks hin
        rw [hrun.longest c hc] at hblank
        contradiction
      · exact ⟨c, hc, hin⟩
    · rintro ⟨c, hc, hin⟩
      exact (Option.any_eq_true _ _).mpr ⟨c, hc, (Text.isLineBreak_iff c).mpr (.inr hin)⟩

theorem opensWhitespace_iff (hrun : BlankRun text rest run) :
    Pattern.whitespace.closes text.reverse = true ↔ run ≠ [] := by
  rw [hrun.split, List.reverse_append, Pattern.closes]
  cases hreverse : run.reverse with
  | nil =>
      obtain rfl : run = [] := by simpa using hreverse
      have hhead := hrun.head_reverse
      cases hrest : rest.reverse with
      | nil => simp [Pattern.opens]
      | cons c tail =>
          rw [hrest] at hhead
          have hc : Text.isBlank c = false := hhead c rfl
          simp [Pattern.opens, hc]
  | cons c tail =>
      have hc : Text.isBlank c = true := by
        apply hrun.blank
        rw [← List.mem_reverse, hreverse]
        exact List.mem_cons_self
      have hne : run ≠ [] := by
        rintro rfl
        simp at hreverse
      simp [Pattern.opens, hc, hne]

end BlankRun

theorem spacedAtEnd_iff (text : List Char) (allowLineBreaks : Bool) :
    (if Pattern.lineBreak.closes text.reverse then !allowLineBreaks
      else Pattern.whitespace.closes text.reverse) = true ↔
      SpacedAtEnd text allowLineBreaks := by
  constructor
  · intro hspaced
    obtain ⟨rest, run, hrun⟩ := exists_blankRun text
    exact ⟨rest, run, hrun,
      (counts_iff_ite hrun.closesLineBreak_iff hrun.opensWhitespace_iff).mp hspaced⟩
  · rintro ⟨rest, run, hrun, hcounts⟩
    exact (counts_iff_ite hrun.closesLineBreak_iff hrun.opensWhitespace_iff).mpr hcounts

theorem endsWithAnnotation_iff (text : List Char) :
    Pattern.annotationMark.closes text.reverse = true ↔ EndsWithAnnotation text := by
  rw [Pattern.closes]
  constructor
  · intro hopens
    set afterBlanks := text.reverse.dropWhile Text.isBlank with hafterBlanks
    cases hrest : afterBlanks.dropWhile Text.isWord with
    | nil => simp [hrest, Pattern.opens] at hopens
    | cons c rest =>
        obtain rfl : c = '@' := by simpa [hrest, Pattern.opens] using hopens
        refine ⟨rest.reverse, (afterBlanks.takeWhile Text.isWord).reverse,
          (text.reverse.takeWhile Text.isBlank).reverse, ?_, ?_, ?_⟩
        · have hword := List.takeWhile_append_dropWhile (p := Text.isWord) (l := afterBlanks)
          have hblanks := List.takeWhile_append_dropWhile (p := Text.isBlank) (l := text.reverse)
          rw [← hafterBlanks, ← hword, hrest] at hblanks
          have hreversed := congrArg List.reverse hblanks
          simpa using hreversed.symm
        · intro c hc
          exact List.mem_takeWhile_imp (List.mem_reverse.mp hc)
        · intro c hc
          exact List.mem_takeWhile_imp (List.mem_reverse.mp hc)
  · rintro ⟨rest, word, blanks, rfl, hword, hblanks⟩
    have hreverse : (rest ++ '@' :: (word ++ blanks)).reverse =
        blanks.reverse ++ (word.reverse ++ '@' :: rest.reverse) := by
      simp
    have hskipWord : (word.reverse ++ '@' :: rest.reverse).dropWhile Text.isWord =
        '@' :: rest.reverse := by
      rw [List.dropWhile_append_of_pos fun c hc => hword c (List.mem_reverse.mp hc),
        List.dropWhile_cons_of_neg (by decide)]
    have hskipBlanks : (word.reverse ++ '@' :: rest.reverse).dropWhile Text.isBlank =
        word.reverse ++ '@' :: rest.reverse := by
      cases hfirst : word.reverse with
      | nil => exact List.dropWhile_cons_of_neg (by decide)
      | cons c tail =>
          have hc : Text.isWord c = true := by
            apply hword
            rw [← List.mem_reverse, hfirst]
            exact List.mem_cons_self
          exact List.dropWhile_cons_of_neg (by simp [Text.isBlank_of_isWord hc])
    rw [hreverse, List.dropWhile_append_of_pos fun c hc => hblanks c (List.mem_reverse.mp hc),
      hskipBlanks, hskipWord]
    rfl

/-! ## The right side -/

theorem spacedAtStart_iff (text : List Char) (allowLineBreaks broken : Bool) :
    (if broken || Pattern.lineBreak.opens text then !allowLineBreaks
      else Pattern.whitespace.opens text) = true ↔
      SpacedAtStart text allowLineBreaks (broken = true) := by
  refine counts_iff_ite ?_ ?_
  · rw [Bool.or_eq_true]
    refine or_congr Iff.rfl ?_
    cases text with
    | nil => simp [Pattern.opens]
    | cons c text => simp [Pattern.opens, Text.isLineBreak_iff]
  · cases text with
    | nil => simp [Pattern.opens]
    | cons c text => simp [Pattern.opens]

/-! ## Positions -/

namespace SourceText

variable {lines : List (List Char)} {separator : List Char} {position : Position}

theorem spacedBefore_eq_ok_iff {allowLineBreaks spaced : Bool} :
    (ofLines lines separator).spacedBefore position allowLineBreaks = .ok spaced ↔
      position.Inside lines ∧
        (spaced = true ↔ SpacedAtEnd (position.textBefore lines separator) allowLineBreaks) := by
  rw [spacedBefore, bind_eq_ok_iff]
  constructor
  · rintro ⟨offset, hoffset, hspaced⟩
    refine ⟨inside_of_offsetOf hoffset, ?_⟩
    rw [← spacedAtEnd_iff, ← leftOf_offset hoffset, ← pure_eq_ok_iff.mp hspaced]
    rfl
  · rintro ⟨hinside, hiff⟩
    have hoffset := offsetOf_of_inside separator hinside
    rw [← spacedAtEnd_iff, ← leftOf_offset hoffset] at hiff
    exact ⟨_, hoffset, pure_eq_ok_iff.mpr (Bool.eq_iff_iff.mpr hiff.symm)⟩

theorem spacedAfter_eq_ok_iff {allowLineBreaks broken spaced : Bool} :
    (ofLines lines separator).spacedAfter position allowLineBreaks broken = .ok spaced ↔
      position.Inside lines ∧
        (spaced = true ↔
          SpacedAtStart (position.textAfter lines separator) allowLineBreaks
            (broken = true)) := by
  rw [spacedAfter, bind_eq_ok_iff]
  constructor
  · rintro ⟨offset, hoffset, hspaced⟩
    refine ⟨inside_of_offsetOf hoffset, ?_⟩
    rw [← spacedAtStart_iff, ← rightOf_offset hoffset, ← pure_eq_ok_iff.mp hspaced]
    rfl
  · rintro ⟨hinside, hiff⟩
    have hoffset := offsetOf_of_inside separator hinside
    rw [← spacedAtStart_iff, ← rightOf_offset hoffset] at hiff
    exact ⟨_, hoffset, pure_eq_ok_iff.mpr (Bool.eq_iff_iff.mpr hiff.symm)⟩

theorem touches_annotationMark_iff {offset : Nat}
    (hoffset : (ofLines lines separator).offsetOf position = .ok offset) :
    (ofLines lines separator).touches offset .left .annotationMark = true ↔
      EndsWithAnnotation (position.textBefore lines separator) := by
  rw [touches, leftOf_offset hoffset, endsWithAnnotation_iff]

end SourceText

end TokenSpacing
