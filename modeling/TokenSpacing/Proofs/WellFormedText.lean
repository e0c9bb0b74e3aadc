import TokenSpacing.Proofs.Expressions
import TokenSpacing.Proofs.Lines

/-!
# Brackets and line ends of a text

A text is read from left to right with the closing brackets that it owes, the next one
first.  It is balanced if it never closes what is not open and owes nothing in the end.
What a balanced text stands in does not matter to it, so balanced texts can be joined and
put between an opening and its closing.

Only brackets and carriage returns matter here.  A text that has the same ones as another
is as tidy as the other, however it is laid out in lines.
-/

namespace TokenSpacing

namespace Text

/-! ## Brackets -/

def closingOf? : Char → Option Char
  | '(' => some ')'
  | '[' => some ']'
  | '\x7b' => some '\x7d'
  | _ => none

def closingBrackets : List Char :=
  [')', ']', '\x7d']

/-- The closing brackets that are owed after one more character.  There are none to tell if
the character closes what is not open. -/
def owedAfter (owed : List Char) (c : Char) : Option (List Char) :=
  match closingOf? c with
  | some closing => some (closing :: owed)
  | none =>
      if closingBrackets.contains c then
        if owed.head? == some c then some owed.tail else none
      else some owed

def Balanced (text : List Char) : Prop :=
  text.foldlM owedAfter [] = some []

instance (text : List Char) : Decidable (Balanced text) :=
  inferInstanceAs (Decidable (_ = _))

theorem owedAfter_append {owed left : List Char} {c : Char} (howed : owedAfter owed c = some left)
    (outer : List Char) : owedAfter (owed ++ outer) c = some (left ++ outer) := by
  unfold owedAfter at howed ⊢
  cases hopens : closingOf? c with
  | some closing =>
      simp only [hopens, Option.some.injEq] at howed ⊢
      rw [← howed, List.cons_append]
  | none =>
      simp only [hopens] at howed ⊢
      by_cases hcloses : closingBrackets.contains c = true
      · rw [if_pos hcloses] at howed ⊢
        cases owed with
        | nil => simp at howed
        | cons next owed => simp_all
      · rw [if_neg hcloses] at howed ⊢
        rw [Option.some.inj howed]

theorem foldlM_owedAfter_append {text owed left : List Char}
    (howed : text.foldlM owedAfter owed = some left) (outer : List Char) :
    text.foldlM owedAfter (owed ++ outer) = some (left ++ outer) := by
  induction text generalizing owed with
  | nil =>
      obtain rfl : owed = left := by simpa using howed
      rfl
  | cons c rest ih =>
      obtain ⟨next, hnext, hrest⟩ := Option.bind_eq_some_iff.mp howed
      rw [List.foldlM_cons, owedAfter_append hnext outer]
      exact ih hrest

namespace Balanced

theorem foldlM {text : List Char} (hbalanced : Balanced text) (owed : List Char) :
    text.foldlM owedAfter owed = some owed := by
  simpa using foldlM_owedAfter_append hbalanced owed

theorem within {opening inside closing owed : List Char}
    (hopening : opening.foldlM owedAfter [] = some owed) (hinside : Balanced inside)
    (hclosing : closing.foldlM owedAfter owed = some []) :
    Balanced (opening ++ inside ++ closing) := by
  rw [Balanced, List.foldlM_append, List.foldlM_append, hopening]
  simp only [Option.bind_eq_bind, Option.bind_some, hinside.foldlM, hclosing]

theorem flatten {texts : List (List Char)} (htexts : ∀ text ∈ texts, Balanced text) :
    Balanced texts.flatten := by
  induction texts with
  | nil => rfl
  | cons text texts ih =>
      obtain ⟨htext, hrest⟩ := List.forall_mem_cons.mp htexts
      rw [Balanced, List.flatten_cons, List.foldlM_append, htext]
      exact ih hrest

end Balanced

/-! ## Tidy texts -/

def marks : List Char :=
  ['(', '[', '\x7b', ')', ']', '\x7d', '\r']

def isMark (c : Char) : Bool :=
  marks.contains c

structure Tidy (text : List Char) : Prop where
  balanced : Balanced text
  noReturn : '\r' ∉ text

instance (text : List Char) : Decidable (Tidy text) :=
  decidable_of_iff (Balanced text ∧ '\r' ∉ text)
    ⟨fun htidy => ⟨htidy.1, htidy.2⟩, fun htidy => ⟨htidy.1, htidy.2⟩⟩

theorem owedAfter_of_not_isMark {c : Char} (hc : isMark c = false) (owed : List Char) :
    owedAfter owed c = some owed := by
  have hmarks : ∀ mark ∈ marks, c ≠ mark := by
    rintro mark hmark rfl
    simp [isMark, hmark] at hc
  have hopens : closingOf? c = none := by
    unfold closingOf?
    split
    · exact absurd rfl (hmarks '(' (by decide))
    · exact absurd rfl (hmarks '[' (by decide))
    · exact absurd rfl (hmarks '\x7b' (by decide))
    · rfl
  have hcloses : closingBrackets.contains c = false := by
    simp [closingBrackets, hmarks ')' (by decide), hmarks ']' (by decide),
      hmarks '\x7d' (by decide)]
  simp only [owedAfter, hopens, hcloses, Bool.false_eq_true, if_false]

theorem foldlM_owedAfter_filter (text owed : List Char) :
    (text.filter isMark).foldlM owedAfter owed = text.foldlM owedAfter owed := by
  induction text generalizing owed with
  | nil => rfl
  | cons c rest ih =>
      cases hc : isMark c with
      | true => simp only [List.filter_cons_of_pos hc, List.foldlM_cons, ih]
      | false =>
          rw [List.filter_cons_of_neg (by simp [hc]), ih, List.foldlM_cons,
            owedAfter_of_not_isMark hc]
          rfl

namespace Tidy

theorem of_filter_eq {text other : List Char} (hother : Tidy other)
    (hsame : text.filter isMark = other.filter isMark) : Tidy text := by
  constructor
  · rw [Balanced, ← foldlM_owedAfter_filter, hsame, foldlM_owedAfter_filter]
    exact hother.balanced
  · intro hreturn
    have hmark : '\r' ∈ other.filter isMark :=
      hsame ▸ List.mem_filter.mpr ⟨hreturn, by decide⟩
    exact hother.noReturn (List.mem_of_mem_filter hmark)

theorem within {opening inside closing owed : List Char} (hinside : Tidy inside)
    (hopening : opening.foldlM owedAfter [] = some owed)
    (hclosing : closing.foldlM owedAfter owed = some [])
    (hreturn : '\r' ∉ opening ++ closing) : Tidy (opening ++ inside ++ closing) := by
  have hnone := hinside.noReturn
  refine ⟨.within hopening hinside.balanced hclosing, ?_⟩
  simp_all

theorem flatten {texts : List (List Char)} (htexts : ∀ text ∈ texts, Tidy text) :
    Tidy texts.flatten := by
  refine ⟨.flatten fun text htext => (htexts text htext).balanced, ?_⟩
  intro hreturn
  obtain ⟨text, htext, hin⟩ := List.mem_flatten.mp hreturn
  exact (htexts text htext).noReturn hin

theorem append {first second : List Char} (hfirst : Tidy first) (hsecond : Tidy second) :
    Tidy (first ++ second) := by
  have hboth : ∀ text ∈ [first, second], Tidy text := by simp [hfirst, hsecond]
  simpa using flatten hboth

end Tidy

/-! ## Layout -/

theorem isMark_of_isWord {c : Char} (hword : isWord c = true) : isMark c = false := by
  have hall : wordCharacters.all (!isMark ·) = true := by decide
  simpa using List.all_eq_true.mp hall c ((isWord_iff_mem c).mp hword)

theorem filter_isMark_of_isWord {word : List Char} (hword : ∀ c ∈ word, isWord c = true) :
    word.filter isMark = [] := by
  simpa [List.filter_eq_nil_iff] using fun c hc => isMark_of_isWord (hword c hc)

theorem filter_joinLines {keep : Char → Bool} {separator : List Char}
    (hseparator : separator.filter keep = []) (lines : List (List Char)) :
    (joinLines separator lines).filter keep = lines.flatten.filter keep := by
  fun_induction joinLines separator lines with
  | case1 => rfl
  | case2 line => simp
  | case3 line next rest ih => simp_all

theorem isMark_of_endsLine {c : Char} (hends : endsLine c = true) (hreturn : c ≠ '\r') :
    isMark c = false := by
  have hall : marks.all (fun mark => mark == '\r' || !endsLine mark) = true := by decide
  by_contra hmark
  have hc := List.all_eq_true.mp hall c (by simpa [isMark] using hmark)
  simp_all

theorem filter_flatten_closedLines {text : List Char} (hreturn : '\r' ∉ text) :
    (closedLines text).flatten.filter isMark = text.filter isMark := by
  fun_induction closedLines text with
  | case1 => rfl
  | case2 rest => simp at hreturn
  | case3 c rest _ hends ih =>
      have hmark := isMark_of_endsLine hends (List.ne_of_not_mem_cons hreturn).symm
      rw [List.flatten_cons, List.nil_append, ih (List.not_mem_of_not_mem_cons hreturn),
        List.filter_cons_of_neg (by simp [hmark])]
  | case4 c rest _ _ hnil ih =>
      have hrest := ih (List.not_mem_of_not_mem_cons hreturn)
      rw [hnil] at hrest
      simp [List.filter_cons, ← hrest]
  | case5 c rest _ _ line lines hlines ih =>
      have hrest := ih (List.not_mem_of_not_mem_cons hreturn)
      rw [hlines] at hrest
      simp only [List.flatten_cons, List.cons_append, List.filter_cons] at hrest ⊢
      rw [hrest]

/-! ## Line ends -/

/-- Brackets nest, the last line is closed, and all lines are closed in one way: by line
feeds alone, or by line feeds that each have a carriage return in front of them. -/
structure WellFormed (text : List Char) : Prop where
  balanced : Balanced text
  terminated : text.getLast? = some '\n'
  noLoneReturn : ∀ before after, text = before ++ '\r' :: after → after.head? = some '\n'
  oneLineEnd : '\r' ∉ text ∨
    ∀ before after, text = before ++ '\n' :: after → before.getLast? = some '\r'

theorem Tidy.wellFormed {text : List Char} (htidy : Tidy text)
    (hlast : text.getLast? = some '\n') : WellFormed text := by
  refine ⟨htidy.balanced, hlast, ?_, .inl htidy.noReturn⟩
  rintro before after rfl
  exact absurd (by simp) htidy.noReturn

def withReturns (text : List Char) : List Char :=
  text.flatMap fun c => if c = '\n' then ['\r', '\n'] else [c]

theorem joinLines_returns (text : List Char) :
    joinLines ['\r', '\n'] (splitLines text) = withReturns text :=
  joinLines_splitAt ['\r', '\n'] '\n' text

theorem withReturns_cons (c : Char) (rest : List Char) :
    withReturns (c :: rest) =
      if c = '\n' then '\r' :: '\n' :: withReturns rest else c :: withReturns rest := by
  rw [withReturns, List.flatMap_cons]
  split <;> rfl

theorem foldlM_owedAfter_withReturns (text owed : List Char) :
    (withReturns text).foldlM owedAfter owed = text.foldlM owedAfter owed := by
  induction text generalizing owed with
  | nil => rfl
  | cons c rest ih =>
      rw [withReturns_cons]
      split
      · subst c
        exact ih owed
      · simp only [List.foldlM_cons, ih]

theorem lineFeed_after_return {text before after : List Char} (hreturn : '\r' ∉ text)
    (hcut : withReturns text = before ++ '\r' :: after) : after.head? = some '\n' := by
  induction text generalizing before with
  | nil => simp [withReturns] at hcut
  | cons c rest ih =>
      have hrest := List.not_mem_of_not_mem_cons hreturn
      rw [withReturns_cons] at hcut
      by_cases hc : c = '\n'
      · rw [if_pos hc] at hcut
        rcases before with _ | ⟨first, _ | ⟨second, before⟩⟩
        · rw [← (List.cons.inj hcut).2]
          rfl
        · simp at hcut
        · exact ih hrest (List.cons.inj (List.cons.inj hcut).2).2
      · rw [if_neg hc] at hcut
        cases before with
        | nil => exact absurd (List.cons.inj hcut).1.symm (List.ne_of_not_mem_cons hreturn)
        | cons first before => exact ih hrest (List.cons.inj hcut).2

theorem return_before_lineFeed {text before after : List Char}
    (hcut : withReturns text = before ++ '\n' :: after) : before.getLast? = some '\r' := by
  induction text generalizing before with
  | nil => simp [withReturns] at hcut
  | cons c rest ih =>
      rw [withReturns_cons] at hcut
      by_cases hc : c = '\n'
      · rw [if_pos hc] at hcut
        rcases before with _ | ⟨first, _ | ⟨second, before⟩⟩
        · simp at hcut
        · rw [← (List.cons.inj hcut).1]
          rfl
        · have hlast := ih (List.cons.inj (List.cons.inj hcut).2).2
          simp [List.getLast?_cons, hlast]
      · rw [if_neg hc] at hcut
        cases before with
        | nil => exact absurd (List.cons.inj hcut).1 hc
        | cons first before =>
            have hlast := ih (List.cons.inj hcut).2
            simp [List.getLast?_cons, hlast]

theorem Tidy.wellFormed_withReturns {text : List Char} (htidy : Tidy text)
    (hlast : text.getLast? = some '\n') : WellFormed (withReturns text) where
  balanced := (foldlM_owedAfter_withReturns text []).trans htidy.balanced
  terminated := by
    obtain ⟨front, rfl⟩ := List.getLast?_eq_some_iff.mp hlast
    simp [withReturns]
  noLoneReturn := fun _ _ => lineFeed_after_return htidy.noReturn
  oneLineEnd := .inr fun _ _ => return_before_lineFeed

end Text

end TokenSpacing
