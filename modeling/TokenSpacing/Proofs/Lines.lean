import Mathlib.Data.List.Basic
import TokenSpacing.Files.Workspace
import TokenSpacing.Proofs.Offsets

/-!
# Lines of a text, and where a start of it ends

Splitting a text at its line feeds loses nothing: joined again, the lines are the
text.  A text that is split after some start of it keeps the lines of that start,
except that the last one may go on.  Hence the position after the start is inside
the whole text, and its offset is the length of the start.
-/

namespace TokenSpacing

namespace Text

/-! ## Pieces -/

theorem splitAt_ne_nil (mark : Char) (text : List Char) : splitAt mark text ≠ [] := by
  cases text with
  | nil => simp [splitAt]
  | cons c rest =>
      simp only [splitAt]
      split
      · simp
      · split <;> simp

theorem splitAt_cons_mark (mark : Char) (rest : List Char) :
    splitAt mark (mark :: rest) = [] :: splitAt mark rest := by
  simp [splitAt]

theorem splitAt_cons_of_ne {mark c : Char} {rest piece : List Char}
    {pieces : List (List Char)} (hc : c ≠ mark) (hrest : splitAt mark rest = piece :: pieces) :
    splitAt mark (c :: rest) = (c :: piece) :: pieces := by
  simp [splitAt, hc, hrest]

theorem length_splitAt (mark : Char) (text : List Char) :
    (splitAt mark text).length = text.count mark + 1 := by
  induction text with
  | nil => rfl
  | cons c rest ih =>
      by_cases hc : c = mark
      · subst hc
        rw [splitAt_cons_mark, List.length_cons, ih, List.count_cons_self]
      · obtain ⟨piece, pieces, hrest⟩ := List.exists_cons_of_ne_nil (splitAt_ne_nil mark rest)
        rw [splitAt_cons_of_ne hc hrest, List.count_cons_of_ne hc, ← ih, hrest]
        rfl

theorem splitAt_of_not_mem {mark : Char} {text : List Char} (hmark : mark ∉ text) :
    splitAt mark text = [text] := by
  induction text with
  | nil => rfl
  | cons c rest ih =>
      have hc : c ≠ mark := fun heq => hmark (heq ▸ List.mem_cons_self)
      exact splitAt_cons_of_ne hc (ih fun hrest => hmark (List.mem_cons_of_mem c hrest))

theorem splitAt_append {mark : Char} {before after last first : List Char}
    {above below : List (List Char)} (hbefore : splitAt mark before = above ++ [last])
    (hafter : splitAt mark after = first :: below) :
    splitAt mark (before ++ after) = above ++ (last ++ first) :: below := by
  induction before generalizing above last with
  | nil =>
      have hempty : above = [] ∧ last = [] := by
        rcases List.append_eq_cons_iff.mp hbefore.symm with ⟨habove, hlast⟩ | ⟨rest, -, hrest⟩
        · exact ⟨habove, by simpa using hlast⟩
        · simp at hrest
      obtain ⟨rfl, rfl⟩ := hempty
      simpa using hafter
  | cons c before ih =>
      by_cases hc : c = mark
      · subst hc
        rw [splitAt_cons_mark] at hbefore
        cases above with
        | nil =>
            have hnil : splitAt c before = [] := (List.cons.inj hbefore).2
            exact absurd hnil (splitAt_ne_nil c before)
        | cons piece above =>
            obtain ⟨rfl, hrest⟩ := List.cons.inj hbefore
            rw [List.cons_append, splitAt_cons_mark, ih hrest]
            rfl
      · obtain ⟨piece, pieces, hrest⟩ :=
          List.exists_cons_of_ne_nil (splitAt_ne_nil mark before)
        rw [splitAt_cons_of_ne hc hrest] at hbefore
        cases above with
        | nil =>
            obtain ⟨rfl, rfl⟩ := List.cons.inj hbefore
            have hgoes := ih (show splitAt mark before = [] ++ [piece] from hrest)
            exact splitAt_cons_of_ne hc hgoes
        | cons line above =>
            obtain ⟨rfl, rfl⟩ := List.cons.inj hbefore
            have hgoes := ih (show splitAt mark before = (piece :: above) ++ [last] from hrest)
            exact splitAt_cons_of_ne hc hgoes

theorem mark_not_mem_of_mem_splitAt {mark : Char} {text piece : List Char}
    (hpiece : piece ∈ splitAt mark text) : mark ∉ piece := by
  induction text generalizing piece with
  | nil =>
      obtain rfl := List.mem_singleton.mp hpiece
      simp
  | cons c rest ih =>
      by_cases hc : c = mark
      · subst hc
        rw [splitAt_cons_mark] at hpiece
        rcases List.mem_cons.mp hpiece with rfl | hrest
        · simp
        · exact ih hrest
      · obtain ⟨first, pieces, hrest⟩ := List.exists_cons_of_ne_nil (splitAt_ne_nil mark rest)
        rw [splitAt_cons_of_ne hc hrest] at hpiece
        rcases List.mem_cons.mp hpiece with rfl | hlater
        · have hfirst : mark ∉ first := ih (by rw [hrest]; exact List.mem_cons_self)
          intro hmem
          rcases List.mem_cons.mp hmem with heq | hin
          · exact hc heq.symm
          · exact hfirst hin
        · exact ih (by rw [hrest]; exact List.mem_cons_of_mem _ hlater)

theorem takeWhile_reverse_append {α : Type} {keep : α → Bool} {before last : List α}
    (hbefore : ∀ mark ∈ before.getLast?, keep mark = false)
    (hlast : ∀ other ∈ last, keep other = true) :
    (before ++ last).reverse.takeWhile keep = last.reverse := by
  rw [List.reverse_append, List.takeWhile_append_of_pos (by simpa using hlast)]
  rcases List.eq_nil_or_concat before with rfl | ⟨earlier, mark, rfl⟩
  · simp
  · simp [hbefore mark (by simp)]

/-! ## Lines -/

theorem joinLines_splitAt (separator : List Char) (mark : Char) (text : List Char) :
    joinLines separator (splitAt mark text) =
      text.flatMap fun c => if c = mark then separator else [c] := by
  induction text with
  | nil => rfl
  | cons c rest ih =>
      obtain ⟨piece, pieces, hrest⟩ := List.exists_cons_of_ne_nil (splitAt_ne_nil mark rest)
      rw [hrest] at ih
      rw [List.flatMap_cons, ← ih]
      by_cases hc : c = mark
      · subst hc
        rw [splitAt_cons_mark, hrest, joinLines, if_pos rfl, List.nil_append]
      · rw [splitAt_cons_of_ne hc hrest, if_neg hc]
        cases pieces with
        | nil => rfl
        | cons next pieces => rfl

theorem joinLines_splitLines (text : List Char) : joinLines ['\n'] (splitLines text) = text := by
  have hkept : (fun c => if c = '\n' then ['\n'] else [c]) = fun c : Char => [c] := by
    funext c
    split <;> simp_all
  rw [splitLines, joinLines_splitAt, hkept, List.flatMap_singleton']

theorem splitLines_joinLines {lines : List (List Char)} (hnonempty : lines ≠ [])
    (hlines : ∀ line ∈ lines, '\n' ∉ line) : splitLines (joinLines ['\n'] lines) = lines := by
  induction lines with
  | nil => exact absurd rfl hnonempty
  | cons line lines ih =>
      obtain ⟨hline, hrest⟩ := List.forall_mem_cons.mp hlines
      have hsplit : splitAt '\n' line = [] ++ [line] := splitAt_of_not_mem hline
      cases lines with
      | nil => exact hsplit
      | cons next lines =>
          have hnext := ih (List.cons_ne_nil next lines) hrest
          have hjoined := splitAt_append hsplit
            (splitAt_cons_mark '\n' (joinLines ['\n'] (next :: lines)))
          simp only [splitLines] at hnext ⊢
          simpa [joinLines, hnext] using hjoined

/-- A text is its closed lines, each with its line feed, and a last line that is still
open. -/
theorem exists_splitLines_eq_concat (text : List Char) :
    ∃ closed last, splitLines text = closed ++ [last] ∧
      text = closed.flatMap (· ++ ['\n']) ++ last ∧ '\n' ∉ last := by
  rcases List.eq_nil_or_concat (splitLines text) with hnil | ⟨closed, last, hlines⟩
  · exact absurd hnil (splitAt_ne_nil '\n' text)
  · have hsplit : splitLines text = closed ++ [last] := by simpa using hlines
    refine ⟨closed, last, hsplit, ?_, ?_⟩
    · have hjoin := joinLines_splitLines text
      rw [hsplit, joinLines_around] at hjoin
      simpa using hjoin.symm
    · have hmem : last ∈ splitLines text := by simp [hsplit]
      exact mark_not_mem_of_mem_splitAt hmem

theorem count_of_splitLines {text last : List Char} {closed : List (List Char)}
    (hlines : splitLines text = closed ++ [last]) : text.count '\n' = closed.length := by
  have hlength := length_splitAt '\n' text
  rw [← splitLines, hlines] at hlength
  simpa using hlength.symm

theorem splitLines_append {before last : List Char} {closed : List (List Char)}
    (hbefore : splitLines before = closed ++ [last]) (after : List Char) :
    ∃ rest below, splitLines (before ++ after) = closed ++ (last ++ rest) :: below := by
  obtain ⟨first, below, hafter⟩ := List.exists_cons_of_ne_nil (splitAt_ne_nil '\n' after)
  exact ⟨first, below, splitAt_append hbefore hafter⟩

end Text

/-! ## The position after a start of a text -/

namespace Workspace

def positionAfter (text : List Char) : Position :=
  let lines := Text.splitLines text
  ⟨lines.length, (lines.getLast?.getD []).length + 1⟩

theorem positionAfter_of_splitLines {text last : List Char} {closed : List (List Char)}
    (hlines : Text.splitLines text = closed ++ [last]) :
    positionAfter text = ⟨closed.length + 1, last.length + 1⟩ := by
  simp [positionAfter, hlines]

theorem positionAfter_inside (before after : List Char) :
    (positionAfter before).Inside (Text.splitLines (before ++ after)) := by
  obtain ⟨closed, last, hlines, -, -⟩ := Text.exists_splitLines_eq_concat before
  obtain ⟨rest, below, hsplit⟩ := Text.splitLines_append hlines after
  rw [positionAfter_of_splitLines hlines, hsplit]
  have hlength : (SourceText.atLeastOneLine (closed ++ (last ++ rest) :: below)).length =
      closed.length + below.length + 1 := by
    cases closed <;> simp [SourceText.atLeastOneLine]
    omega
  refine ⟨⟨?_, ?_⟩, ?_, ?_⟩
  · change (1 : Int) ≤ closed.length + 1
    omega
  · rw [hlength]
    change (closed.length + 1 : Int) ≤ _
    omega
  · change (1 : Int) ≤ last.length + 1
    omega
  · change (last.length + 1 : Int) ≤ _
    have hline : (closed ++ (last ++ rest) :: below).getD closed.length [] = last ++ rest := by
      simp
    rw [Position.row_succ, hline, List.length_append]
    omega

theorem textBefore_positionAfter (before after : List Char) :
    (positionAfter before).textBefore (Text.splitLines (before ++ after)) ['\n'] = before := by
  obtain ⟨closed, last, hlines, hbefore, -⟩ := Text.exists_splitLines_eq_concat before
  obtain ⟨rest, below, hsplit⟩ := Text.splitLines_append hlines after
  rw [positionAfter_of_splitLines hlines, hsplit]
  rw [Position.textBefore, Position.row_succ, Position.indent_succ]
  simpa using hbefore.symm

theorem offsetOf_positionAfter (before after : List Char) :
    (SourceText.ofLines (Text.splitLines (before ++ after)) ['\n']).offsetOf
      (positionAfter before) = .ok before.length := by
  rw [SourceText.offsetOf_of_inside ['\n'] (positionAfter_inside before after),
    textBefore_positionAfter]

end Workspace

end TokenSpacing
