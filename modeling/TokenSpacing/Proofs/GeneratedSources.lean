import TokenSpacing.Corpus.Sources
import TokenSpacing.Proofs.WellFormedText

/-!
# Generated sources are well formed

What always holds of the results of a generator holds for every source of choices, and is
found step by step: from what always holds of the first result follows what holds of all
that is made with it.

The text of a template has the marks of its fixed parts, since gaps and identifiers have
none.  So it is enough to look at the templates, which are finitely many.
-/

namespace TokenSpacing.Corpus

open Text

variable {Source α β : Type}

/-! ## What always holds -/

/-- Holds of all that a generator makes, whatever its source chooses. -/
def Always (holds : α → Prop) (generate : Gen Source α) : Prop :=
  ∀ start, holds (generate start).1

variable {holds : α → Prop} {becomes : β → Prop}

theorem holds_getD {values : List α} {default : α} (hvalues : ∀ value ∈ values, holds value)
    (hdefault : holds default) (index : Nat) : holds (values.getD index default) := by
  rw [List.getD_eq_getElem?_getD]
  cases hvalue : values[index]? with
  | none => exact hdefault
  | some value => exact hvalues value (List.mem_of_getElem? hvalue)

namespace Always

theorem trivial (generate : Gen Source α) : Always (fun _ => True) generate :=
  fun _ => True.intro

theorem pure {value : α} (hvalue : holds value) :
    Always holds (Pure.pure value : Gen Source α) :=
  fun _ => hvalue

theorem bind {generate : Gen Source α} {next : α → Gen Source β} (hfirst : Always holds generate)
    (hnext : ∀ value, holds value → Always becomes (next value)) :
    Always becomes (generate >>= next) :=
  fun start => hnext _ (hfirst start) _

theorem pick (draws : Draws Source) {values : List α} {default : α}
    (hvalues : ∀ value ∈ values, holds value) (hdefault : holds default) :
    Always holds (draws.pick values default) :=
  fun start => holds_getD hvalues hdefault (draws.below values.length start).1

theorem between (draws : Draws Source) (least greatest : Nat) :
    Always (least ≤ ·) (draws.between least greatest) :=
  fun _ => Nat.le_add_right _ _

theorem repeated {generate : Gen Source α} (heach : Always holds generate) (count : Nat) :
    Always (fun values => values.length = count ∧ ∀ value ∈ values, holds value)
      (Draws.repeated generate count) := by
  induction count with
  | zero => exact pure (by simp)
  | succ count ih =>
      refine bind heach fun first hfirst => ?_
      refine bind ih fun rest hrest => pure ⟨?_, ?_⟩
      · simp [hrest.1]
      · exact List.forall_mem_cons.mpr ⟨hfirst, hrest.2⟩

end Always

/-! ## Templates -/

def IsWord (word : List Char) : Prop :=
  ∀ c ∈ word, isWord c = true

theorem isWord_avoidKeyword {word : List Char} (hword : IsWord word) :
    IsWord (avoidKeyword word) := by
  unfold avoidKeyword
  split
  · exact List.forall_mem_append.mpr ⟨hword, List.forall_mem_singleton.mpr rfl⟩
  · exact hword

theorem isWord_capitalize {word : List Char} (hword : IsWord word) : IsWord (capitalize word) := by
  have hupper : wordCharacters.all (isWord ·.toUpper) = true := by decide
  have hlower : wordCharacters.all (isWord ·.toLower) = true := by decide
  rw [List.all_eq_true] at hupper hlower
  cases word with
  | nil => exact hword
  | cons first rest =>
      obtain ⟨hfirst, hrest⟩ := List.forall_mem_cons.mp hword
      refine List.forall_mem_cons.mpr ⟨hupper first ((isWord_iff_mem first).mp hfirst), ?_⟩
      refine List.forall_mem_map.mpr fun c hc => hlower c ((isWord_iff_mem c).mp (hrest c hc))

theorem always_identifier (draws : Draws Source) : Always IsWord (identifier draws) := by
  have hsmall : ∀ c ∈ smallLetters, isWord c = true := List.all_eq_true.mp (by decide)
  have hletters : ∀ c ∈ letters, isWord c = true := List.all_eq_true.mp (by decide)
  refine .bind (.pick draws hsmall rfl) fun first hfirst => ?_
  refine .bind (.between draws 0 6) fun count _ => ?_
  refine .bind (.repeated (.pick draws hletters rfl) count) fun rest hrest => ?_
  exact .pure (isWord_avoidKeyword (List.forall_mem_cons.mpr ⟨hfirst, hrest.2⟩))

def Template.fixedText (template : Template) : List Char :=
  template.flatMap fun
    | .text fixed => fixed.toList
    | _ => []

theorem always_gap (draws : Draws Source) :
    Always (fun text => text.filter isMark = []) (gap draws) :=
  .pick draws (by decide) rfl

/-- A template has no marks but those of its fixed text. -/
theorem always_render (draws : Draws Source) {names : List (List Char)}
    (hnames : ∀ name ∈ names, IsWord name) (template : Template) :
    Always (fun text => text.filter isMark = template.fixedText.filter isMark)
      (Template.render draws names template) := by
  induction template with
  | nil => exact .pure rfl
  | cons piece rest ih =>
      have hpiece : Always (fun text => text.filter isMark =
          (Template.fixedText [piece]).filter isMark) (piece.render draws names) := by
        cases piece with
        | text fixed => exact .pure (by simp [Template.fixedText])
        | gap => exact always_gap draws
        | fresh => exact fun start => filter_isMark_of_isWord (always_identifier draws start)
        | freshCapital =>
            refine .bind (always_identifier draws) fun name hname => .pure ?_
            exact filter_isMark_of_isWord (isWord_capitalize hname)
        | chosen number =>
            have hnone : IsWord [] := fun c hc => absurd hc List.not_mem_nil
            exact .pure (filter_isMark_of_isWord (holds_getD hnames hnone number))
      refine .bind hpiece fun first hfirst => .bind ih fun later hlater => .pure ?_
      rw [List.filter_append, hfirst, hlater, ← List.filter_append]
      simp [Template.fixedText]

theorem always_render_tidy (draws : Draws Source) {names : List (List Char)}
    (hnames : ∀ name ∈ names, IsWord name) {template : Template}
    (htemplate : Tidy template.fixedText) : Always Tidy (Template.render draws names template) :=
  fun start => htemplate.of_filter_eq (always_render draws hnames template start)

/-! ## Statements, methods and classes -/

theorem always_statement (draws : Draws Source) : Always Tidy (statement draws) := by
  have htemplates : ∀ template ∈ statementTemplates, Tidy template.fixedText := by decide +kernel
  refine .bind (always_identifier draws) fun first hfirst => ?_
  refine .bind (always_identifier draws) fun second hsecond => ?_
  refine .bind (.pick draws htemplates (by decide)) fun template htemplate => ?_
  exact always_render_tidy draws (by simp [hfirst, hsecond]) htemplate

theorem tidy_fieldTemplate (fraction : Nat) : Tidy (fieldTemplate fraction).fixedText := by
  have htemplates : ∀ choice ∈ fieldTemplates, Tidy (Template.fixedText choice.2) := by
    decide +kernel
  have hchosen : ∀ found : Option (Nat × Template),
      (∀ choice ∈ found, Tidy (Template.fixedText choice.2)) →
        Tidy (Template.fixedText ((found.map Prod.snd).getD otherFieldTemplate)) := by
    intro found hfound
    cases found with
    | none =>
        change Tidy otherFieldTemplate.fixedText
        decide +kernel
    | some choice => exact hfound choice rfl
  exact hchosen _ fun choice hchoice => htemplates choice (List.mem_of_find?_eq_some hchoice)

theorem always_field (draws : Draws Source) : Always Tidy (field draws) := by
  refine .bind (.trivial draws.fraction) fun fraction _ => ?_
  refine .bind (always_identifier draws) fun name hname => ?_
  exact always_render_tidy draws (by simpa using hname) (tidy_fieldTemplate fraction)

theorem always_optional (draws : Draws Source) (count : Nat) {template : Template}
    (htemplate : Tidy template.fixedText) : Always Tidy (optional draws count template) := by
  refine .bind (.trivial (draws.chance count)) fun taken _ => ?_
  cases taken with
  | true => exact always_render_tidy draws (by simp) htemplate
  | false => exact .pure (by decide)

theorem filter_joinLines_isMark (lines : List (List Char)) :
    (joinLines lines).filter isMark = lines.flatten.filter isMark :=
  filter_joinLines rfl lines

theorem tidy_indent {text : List Char} (htext : Tidy text) : Tidy (indent text) := by
  refine htext.of_filter_eq ?_
  have hline : ∀ line : List Char,
      (if line.isEmpty then line else ' ' :: ' ' :: line).filter isMark = line.filter isMark := by
    intro line
    split
    · rfl
    · rfl
  rw [indent, filter_joinLines_isMark, ← filter_flatten_closedLines htext.noReturn,
    List.filter_flatten, List.filter_flatten, List.map_map]
  exact congrArg List.flatten (List.map_congr_left fun line _ => hline line)

theorem tidy_block (above : List (List Char)) {body : List (List Char)}
    {header front : List Char} (hfront : Tidy front)
    (hheader : (above.flatten ++ header).filter isMark = front.filter isMark ++ ['\x7b'])
    (hbody : ∀ text ∈ body, Tidy text) :
    Tidy (joinLines (above ++ header :: body ++ [['\x7d']])) := by
  have hblock : Tidy (['\x7b'] ++ body.flatten ++ ['\x7d']) :=
    (Tidy.flatten hbody).within rfl rfl (by decide)
  refine (hfront.append hblock).of_filter_eq ?_
  calc (joinLines (above ++ header :: body ++ [['\x7d']])).filter isMark
      = (above.flatten ++ header).filter isMark ++ (body.flatten ++ ['\x7d']).filter isMark := by
        simp [filter_joinLines_isMark]
    _ = front.filter isMark ++ ['\x7b'] ++ (body.flatten ++ ['\x7d']).filter isMark := by
        rw [hheader]
    _ = (front ++ (['\x7b'] ++ body.flatten ++ ['\x7d'])).filter isMark := by
        have hbrace : ['\x7b'].filter isMark = ['\x7b'] := by decide
        simp only [List.filter_append, hbrace, List.append_assoc]

theorem always_method (draws : Draws Source) : Always Tidy (method draws) := by
  refine .bind (always_identifier draws) fun name hname => ?_
  refine .bind (always_optional draws 5 (by decide +kernel)) fun parameters hparameters => ?_
  refine .bind (.between draws 1 10) fun count _ => ?_
  refine .bind (.repeated (always_statement draws) count) fun statements hstatements => .pure ?_
  have hfront : Tidy (['('] ++ parameters ++ [')']) :=
    hparameters.within rfl rfl (by decide)
  refine tidy_block [] hfront ?_ ?_
  · have hvoid : "void ".toList.filter isMark = [] := by decide
    have hparenthesis : isMark '(' = true := by decide
    have hopening : ") \x7b".toList.filter isMark = [')'].filter isMark ++ ['\x7b'] := by decide
    simp only [List.flatten_nil, List.nil_append, List.filter_append, hvoid, hopening,
      filter_isMark_of_isWord hname, List.filter_cons_of_pos hparenthesis, List.cons_append,
      List.append_assoc]
  · exact List.forall_mem_map.mpr fun text htext => tidy_indent (hstatements.2 text htext)

theorem always_classBody (draws : Draws Source) :
    Always (fun body => ∀ text ∈ body, Tidy text) (classBody draws) := by
  refine .bind (.between draws 0 3) fun fieldCount _ => ?_
  refine .bind (.repeated (always_field draws) fieldCount) fun fields hfields => ?_
  refine .bind (.between draws 1 3) fun methodCount _ => ?_
  refine .bind (.repeated (always_method draws) methodCount) fun methods hmethods => .pure ?_
  refine List.forall_mem_append.mpr ⟨?_, ?_⟩
  · refine List.forall_mem_map.mpr fun text htext => ?_
    exact (hfields.2 text htext).of_filter_eq rfl
  · exact List.forall_mem_map.mpr fun text htext => tidy_indent (hmethods.2 text htext)

theorem flatten_ifAny (text : List Char) : (ifAny text).flatten = text := by
  cases text <;> simp [ifAny]

theorem always_javaClass (draws : Draws Source) : Always Tidy (javaClass draws) := by
  refine .bind (always_identifier draws) fun name hname => ?_
  refine .bind (always_optional draws 4 (by decide +kernel)) fun mark hmark => ?_
  refine .bind (always_optional draws 3 (by decide +kernel)) fun parameters hparameters => ?_
  refine .bind (always_classBody draws) fun body hbody => .pure ?_
  refine tidy_block (ifAny mark) (hmark.append hparameters) ?_ hbody
  have hclass : "class ".toList.filter isMark = [] := by decide
  have hopening : " \x7b".toList.filter isMark = ['\x7b'] := by decide
  simp only [flatten_ifAny, List.filter_append, hclass, hopening, List.nil_append,
    filter_isMark_of_isWord (isWord_capitalize hname), List.append_assoc]

/-! ## Whole sources -/

theorem always_packageLines (draws : Draws Source) :
    Always (fun lines => ∀ line ∈ lines, Tidy line) (packageLines draws) := by
  refine .bind (.trivial (draws.chance 7)) fun declared _ => ?_
  cases declared with
  | false => exact .pure (by simp)
  | true =>
      refine .bind (always_identifier draws) fun name hname => ?_
      refine .bind (.between draws 0 3) fun count _ => ?_
      have hqualifier : Always Tidy (Template.render draws [] qualifierTemplate) :=
        always_render_tidy draws (by simp) (by decide +kernel)
      refine .bind (.repeated hqualifier count) fun qualifiers hqualifiers => .pure ?_
      have hline : Tidy ("package ".toList ++ name ++ qualifiers.flatten ++ [';']) := by
        refine (Tidy.flatten hqualifiers.2).of_filter_eq ?_
        have hpackage : "package ".toList.filter isMark = [] := by decide
        have hend : [';'].filter isMark = [] := by decide
        simp only [List.filter_append, hpackage, hend, filter_isMark_of_isWord hname,
          List.nil_append, List.append_nil]
      exact List.forall_mem_cons.mpr ⟨hline, List.forall_mem_singleton.mpr (by decide)⟩

theorem always_importLine (draws : Draws Source) : Always Tidy (importLine draws) := by
  refine .bind (.trivial (draws.chance 3)) fun wildcard _ => ?_
  refine always_render_tidy draws (by simp) ?_
  cases wildcard <;> decide +kernel

theorem always_importLines (draws : Draws Source) :
    Always (fun lines => ∀ line ∈ lines, Tidy line) (importLines draws) := by
  refine .bind (.between draws 0 3) fun count _ => ?_
  refine .bind (.repeated (always_importLine draws) count) fun imports himports => .pure ?_
  split
  · simp
  · exact List.forall_mem_append.mpr
      ⟨himports.2, List.forall_mem_singleton.mpr (by decide)⟩

theorem tidy_joinLines {lines : List (List Char)} (hlines : ∀ line ∈ lines, Tidy line) :
    Tidy (joinLines lines) :=
  (Tidy.flatten hlines).of_filter_eq (filter_joinLines_isMark lines)

theorem getLast?_joinLines {lines : List (List Char)} (hlines : lines ≠ []) :
    (joinLines (lines ++ [[]])).getLast? = some '\n' := by
  rw [joinLines, joinLines_around]
  rcases List.eq_nil_or_concat lines with hnil | ⟨above, last, rfl⟩
  · exact absurd hnil hlines
  · simp

theorem always_source (draws : Draws Source) : Always WellFormed (source draws) := by
  refine .bind (always_packageLines draws) fun package hpackage => ?_
  refine .bind (always_importLines draws) fun imports himports => ?_
  refine .bind (.between draws 1 2) fun count hcount => ?_
  refine .bind (.repeated (always_javaClass draws) count) fun classes hclasses => ?_
  have hlines : ∀ line ∈ package ++ imports ++ classes ++ [[]], Tidy line := by
    have hempty : Tidy [] := by decide
    simp only [List.forall_mem_append, List.forall_mem_singleton]
    exact ⟨⟨⟨hpackage, himports⟩, hclasses.2⟩, hempty⟩
  have htidy := tidy_joinLines hlines
  have hnonempty : package ++ imports ++ classes ≠ [] := by
    intro hnil
    have hlength := congrArg List.length hnil
    simp only [List.length_append, List.length_nil] at hlength
    omega
  have hlast := getLast?_joinLines hnonempty
  refine .bind (.trivial (draws.chance 1)) fun carriageReturns _ => .pure ?_
  cases carriageReturns with
  | false => exact htidy.wellFormed hlast
  | true =>
      change WellFormed (TokenSpacing.joinLines ['\r', '\n'] (splitLines _))
      rw [joinLines_returns]
      exact htidy.wellFormed_withReturns hlast

/-- Whatever is chosen, every source has nested brackets, ends with a line end and keeps to
one kind of line end.  The same holds of all sources made one after the other, and so of
the sources of any seed. -/
theorem generated_wellFormed (draws : Draws Source) (start : Source) (count : Nat) :
    WellFormed (source draws start).1 ∧
      (sourcesFrom draws count start).1.Forall WellFormed ∧
      ∀ seed : Int, (sources seed count).Forall WellFormed := by
  refine ⟨always_source draws start, ?_, ?_⟩
  · exact List.forall_iff_forall_mem.mpr (Always.repeated (always_source draws) count start).2
  · intro seed
    have hall := Always.repeated (always_source Twister.draws) count (Twister.ofSeed seed)
    exact List.forall_iff_forall_mem.mpr hall.2

end TokenSpacing.Corpus
