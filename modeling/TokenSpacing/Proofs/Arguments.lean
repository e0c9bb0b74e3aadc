import TokenSpacing.CommandLine.Checker
import TokenSpacing.Proofs.Outcomes

/-!
# What arguments ask for

The options that arguments give stand in one list, each by its full name and with its
value, whatever the spelling.  The request for a check holds what this list says: the items
that override settings in their order, and the last value of every other option.
-/

namespace TokenSpacing.CommandLine

variable {Request : Type}

abbrev Occurrence (Request : Type) := OptionSpec Request × String × Option String

namespace Grammar

variable {grammar : Grammar Request}

def given (grammar : Grammar Request) : List (Word Request) → List (Occurrence Request)
  | [] => []
  | .option spec name attached :: rest =>
      match grammar.expandWord spec name attached with
      | .error _ => []
      | .ok expansion =>
          match expansion.waiting, rest with
          | some (last, lastName), .plain value :: rest =>
              expansion.ready ++ (last, lastName, some value) :: grammar.given rest
          | _, rest => expansion.ready ++ grammar.given rest
  | _ :: rest => grammar.given rest

theorem given_plain (grammar : Grammar Request) (texts : List String) :
    grammar.given (texts.map .plain) = [] := by
  induction texts with
  | nil => rfl
  | cons text texts ih => simpa [given] using ih

/-! ## Words -/

def Names (grammar : Grammar Request) (spec : OptionSpec Request) (name : String) : Prop :=
  (name, spec) ∈ grammar.named

theorem names_of_lookup {name : String} {spec : OptionSpec Request}
    (hlookup : grammar.named.lookup name = some spec) : grammar.Names spec name := by
  obtain ⟨before, after, hsplit, -⟩ := List.lookup_eq_some_iff.mp hlookup
  simp [Names, hsplit]

theorem names_of_mem_candidates {text : List Char} {name : String} {spec : OptionSpec Request}
    {attached : Option (List Char)} (hmem : (name, spec, attached) ∈ grammar.candidates text) :
    grammar.Names spec name := by
  unfold candidates at hmem
  split at hmem
  · obtain ⟨⟨other, otherSpec⟩, hother, hsome⟩ := List.mem_filterMap.mp hmem
    simp only [Option.ite_none_right_eq_some, Option.some.injEq, Prod.mk.injEq] at hsome
    obtain ⟨-, rfl, rfl, -⟩ := hsome
    exact hother
  · obtain ⟨⟨other, otherSpec⟩, hother, hsome⟩ := List.mem_filterMap.mp hmem
    dsimp only at hsome
    split at hsome
    · cases hsome
      exact hother
    · simp only [Option.ite_none_right_eq_some, Option.some.injEq, Prod.mk.injEq] at hsome
      obtain ⟨-, rfl, rfl, -⟩ := hsome
      exact hother
  · cases hmem

inductive Reads (grammar : Grammar Request) (text : String) : Word Request → Prop
  | plain : Reads grammar text (.plain text)
  | unknown : Reads grammar text (.unknown text)
  | option {spec : OptionSpec Request} {name : String} (hnames : grammar.Names spec name)
      (attached : Option (List Char)) : Reads grammar text (.option spec name attached)

theorem reads_of_guess {text : String} {word : Word Request}
    (hguess : grammar.guess text = .ok word) : grammar.Reads text word := by
  unfold guess at hguess
  split at hguess
  next name spec attached hone =>
    have hmem : (name, spec, attached) ∈ grammar.candidates text.toList := by simp [hone]
    cases hguess
    exact .option (names_of_mem_candidates hmem) _
  next =>
    split at hguess
    · cases hguess
      exact .plain
    · cases hguess
      exact .unknown
  next => cases hguess

theorem reads_of_classify {text : String} {word : Word Request}
    (hclassify : grammar.classify text = .ok word) : grammar.Reads text word := by
  unfold classify at hclassify
  split at hclassify
  · split at hclassify
    next hlookup =>
      cases hclassify
      exact .option (names_of_lookup hlookup) _
    next =>
      dsimp only at hclassify
      split at hclassify
      next hlookup =>
        cases hclassify
        exact .option (names_of_lookup hlookup) _
      next => exact reads_of_guess hclassify
  · cases hclassify
    exact .plain

/-- The words of arguments: options by their names, and two dashes at most once, before
plain words only. -/
inductive WellFormed (grammar : Grammar Request) : List (Word Request) → Prop
  | none : WellFormed grammar []
  | separated (texts : List String) : WellFormed grammar (.separator :: texts.map .plain)
  | more {text : String} {word : Word Request} {rest : List (Word Request)}
      (htext : text ≠ "--") (hword : grammar.Reads text word) (hrest : WellFormed grammar rest) :
      WellFormed grammar (word :: rest)

namespace WellFormed

theorem option {spec : OptionSpec Request} {name : String} {attached : Option (List Char)}
    {rest : List (Word Request)}
    (hwords : grammar.WellFormed (.option spec name attached :: rest)) :
    grammar.Names spec name ∧ grammar.WellFormed rest := by
  cases hwords with
  | more _ hword hrest =>
      cases hword with
      | option hnames => exact ⟨hnames, hrest⟩

theorem plain {text : String} {rest : List (Word Request)}
    (hwords : grammar.WellFormed (.plain text :: rest)) : grammar.WellFormed rest := by
  cases hwords with
  | more _ _ hrest => exact hrest

end WellFormed

theorem wellFormed_of_words {arguments : List String} {words : List (Word Request)}
    (hwords : grammar.words arguments = .ok words) : grammar.WellFormed words := by
  induction arguments generalizing words with
  | nil =>
      cases hwords
      exact .none
  | cons text rest ih =>
      unfold Grammar.words at hwords
      split at hwords
      next =>
        cases hwords
        exact .separated rest
      next htext =>
        obtain ⟨word, hword, hmore⟩ := bind_eq_ok_iff.mp hwords
        obtain ⟨others, hothers, hdone⟩ := bind_eq_ok_iff.mp hmore
        cases hdone
        exact .more (by simpa using htext) (reads_of_classify hword) (ih hothers)

def Expansion.IsNamed (grammar : Grammar Request) (expansion : Expansion Request) : Prop :=
  (∀ occurrence ∈ expansion.ready, grammar.Names occurrence.1 occurrence.2.1) ∧
    ∀ last ∈ expansion.waiting, grammar.Names last.1 last.2

theorem isNamed_single {spec : OptionSpec Request} {name : String}
    (hnames : grammar.Names spec name) : (single spec name).IsNamed grammar := by
  unfold single
  split <;> simp [Expansion.IsNamed, hnames]

theorem isNamed_expand {spec : OptionSpec Request} {name : String} {text : List Char}
    {expansion : Expansion Request} (hnames : grammar.Names spec name)
    (hexpand : grammar.expand spec name text = .ok expansion) : expansion.IsNamed grammar := by
  induction text generalizing spec name expansion with
  | nil =>
      unfold expand at hexpand
      split at hexpand
      · cases hexpand
        simp [Expansion.IsNamed, hnames]
      · cases hexpand
  | cons letter tail ih =>
      unfold expand at hexpand
      dsimp only at hexpand
      split at hexpand
      · cases hexpand
        simp [Expansion.IsNamed, hnames]
      split at hexpand
      · cases hexpand
      split at hexpand
      · cases hexpand
      next nextSpec hlookup =>
        have hnext := names_of_lookup hlookup
        cases tail with
        | nil =>
            cases hexpand
            have hlast := isNamed_single hnext
            exact ⟨by simpa [hnames] using hlast.1, hlast.2⟩
        | cons second tail =>
            obtain ⟨others, hothers, hdone⟩ := bind_eq_ok_iff.mp hexpand
            cases hdone
            have hothers := ih hnext hothers
            exact ⟨by simpa [hnames] using hothers.1, hothers.2⟩

theorem isNamed_expandWord {spec : OptionSpec Request} {name : String}
    {attached : Option (List Char)} {expansion : Expansion Request}
    (hnames : grammar.Names spec name)
    (hexpand : grammar.expandWord spec name attached = .ok expansion) :
    expansion.IsNamed grammar := by
  cases attached with
  | none =>
      cases hexpand
      exact isNamed_single hnames
  | some text => exact isNamed_expand hnames hexpand

/-! ## Runs -/

/-- A property of the options so far and of the progress that every step of a run keeps. -/
structure Invariant (grammar : Grammar Request)
    (Holds : List (Occurrence Request) → Progress Request → Prop) : Prop where
  extras : ∀ {done progress} (extras : List String), Holds done progress →
    Holds done { progress with extras := extras }
  operands : ∀ {done progress operands texts}, grammar.operands = some operands → texts ≠ [] →
    Holds done progress →
    Holds done
      { progress with request := operands.apply texts progress.request, operandsSeen := true }
  options : ∀ {done progress spec name value changed}, grammar.Names spec name →
    spec.perform name value progress.request = .ok changed → Holds done progress →
    Holds (done ++ [(spec, name, value)]) { progress with request := changed }

namespace Invariant

variable {Holds : List (Occurrence Request) → Progress Request → Prop}
  {done : List (Occurrence Request)} {progress final : Progress Request}

theorem perform (hinvariant : grammar.Invariant Holds) {occurrences : List (Occurrence Request)}
    (hnamed : ∀ occurrence ∈ occurrences, grammar.Names occurrence.1 occurrence.2.1)
    (hperform : progress.perform occurrences = .ok final) (hholds : Holds done progress) :
    Holds (done ++ occurrences) final := by
  induction occurrences generalizing progress done with
  | nil =>
      cases hperform
      simpa using hholds
  | cons occurrence occurrences ih =>
      obtain ⟨request, hrequest, hmore⟩ := bind_eq_ok_iff.mp hperform
      obtain ⟨hnames, hnamed⟩ := List.forall_mem_cons.mp hnamed
      have hstep := hinvariant.options hnames hrequest hholds
      simpa using ih hnamed hmore hstep

def Leaves (segment : List String) (hasPlain : Bool) : Prop :=
  hasPlain = true → segment.erase "--" ≠ []

theorem takeOperands (hinvariant : grammar.Invariant Holds) {segment : List String}
    {hasPlain : Bool} (hleaves : Leaves segment hasPlain) (hholds : Holds done progress) :
    Holds done (grammar.takeOperands segment hasPlain progress) := by
  unfold Grammar.takeOperands
  split
  next operands hoperands hplain =>
    simp only [Bool.and_eq_true] at hplain
    exact hinvariant.operands hoperands (hleaves hplain.1) hholds
  next => exact hinvariant.extras _ hholds

theorem leaves_nil : Leaves [] false := by
  simp [Leaves]

theorem leaves_append {segment : List String} {hasPlain : Bool} (hleaves : Leaves segment hasPlain)
    (text : String) : Leaves (segment ++ [text]) hasPlain := by
  intro hplain
  have hsegment := hleaves hplain
  rw [List.erase_append]
  split <;> simp_all

theorem consume_plain (hinvariant : grammar.Invariant Holds) {segment texts : List String}
    {hasPlain : Bool} (hsegment : segment ≠ []) (hleaves : Leaves segment hasPlain)
    (hholds : Holds done progress)
    (hconsume : grammar.consume segment hasPlain progress (texts.map .plain) = .ok final) :
    Holds done final := by
  induction texts generalizing segment hasPlain with
  | nil =>
      cases hconsume
      exact hinvariant.takeOperands hleaves hholds
  | cons text texts ih =>
      refine ih (by simp) ?_ hconsume
      intro _ hempty
      have hlength := congrArg List.length hempty
      have hpos := List.length_pos_iff.mpr hsegment
      rw [List.length_erase] at hlength
      simp only [List.length_append, List.length_singleton, List.length_nil] at hlength
      split at hlength <;> omega

theorem consume (hinvariant : grammar.Invariant Holds) {words : List (Word Request)}
    {segment : List String} {hasPlain : Bool} (hwords : grammar.WellFormed words)
    (hleaves : Leaves segment hasPlain) (hholds : Holds done progress)
    (hconsume : grammar.consume segment hasPlain progress words = .ok final) :
    Holds (done ++ grammar.given words) final := by
  fun_induction Grammar.given grammar words generalizing segment hasPlain progress done with
  | case1 =>
      cases hconsume
      simpa using hinvariant.takeOperands hleaves hholds
  | case2 spec name attached rest stop hexpand =>
      simp [Grammar.consume, hexpand] at hconsume
  | case3 spec name attached expansion hexpand last lastName value rest hwaiting ih =>
      simp only [Grammar.consume, hexpand, hwaiting] at hconsume
      obtain ⟨after, hperform, hrest⟩ := bind_eq_ok_iff.mp hconsume
      obtain ⟨hnames, hmore⟩ := hwords.option
      have hnamed := isNamed_expandWord hnames hexpand
      have hall : ∀ occurrence ∈ expansion.ready ++ [(last, lastName, some value)],
          grammar.Names occurrence.1 occurrence.2.1 := by
        rw [List.forall_mem_append]
        exact ⟨hnamed.1, by simpa using hnamed.2 _ hwaiting⟩
      have hafter := hinvariant.perform hall hperform (hinvariant.takeOperands hleaves hholds)
      simpa using ih hmore.plain leaves_nil hafter hrest
  | case4 spec name attached expansion hexpand rest hwaiting ih =>
      simp only [Grammar.consume, hexpand] at hconsume
      obtain ⟨hnames, hmore⟩ := hwords.option
      have hnamed := isNamed_expandWord hnames hexpand
      split at hconsume
      next =>
        obtain ⟨after, hperform, hrest⟩ := bind_eq_ok_iff.mp hconsume
        have hafter := hinvariant.perform hnamed.1 hperform (hinvariant.takeOperands hleaves hholds)
        simpa using ih hmore leaves_nil hafter hrest
      next hlast => exact absurd rfl (hwaiting _ _ _ _ hlast)
      next => cases hconsume
  | case5 word rest hword ih =>
      cases hwords with
      | separated texts =>
          simp only [Grammar.consume] at hconsume
          rw [given_plain, List.append_nil]
          exact hinvariant.consume_plain (by simp) (leaves_append hleaves _) hholds hconsume
      | @more text _ _ htext hreads hrest =>
          cases hreads with
          | plain =>
              simp only [Grammar.consume] at hconsume
              refine ih hrest ?_ hholds hconsume
              intro _
              have hmem : text ∈ (segment ++ [text]).erase "--" :=
                (List.mem_erase_of_ne htext).mpr (by simp)
              exact List.ne_nil_of_mem hmem
          | unknown =>
              simp only [Grammar.consume] at hconsume
              exact ih hrest leaves_nil
                (hinvariant.extras _ (hinvariant.takeOperands hleaves hholds)) hconsume
          | option hnames attached => exact absurd rfl (hword _ _ _)

theorem parse (hinvariant : grammar.Invariant Holds) {arguments : List String}
    {defaults request : Request} (hstart : Holds [] ⟨defaults, false, []⟩)
    (hoperands : grammar.operands ≠ none)
    (hparse : grammar.parse defaults arguments = .ok request) :
    ∃ words, grammar.words arguments = .ok words ∧
      Holds (grammar.given words) ⟨request, true, []⟩ := by
  obtain ⟨words, hwords, hmore⟩ := bind_eq_ok_iff.mp hparse
  obtain ⟨final, hfinal, hdone⟩ := bind_eq_ok_iff.mp hmore
  have hholds := hinvariant.consume (wellFormed_of_words hwords) leaves_nil hstart hfinal
  obtain ⟨changed, seen, extras⟩ := final
  refine ⟨words, hwords, ?_⟩
  split at hdone
  next => cases hdone
  next hseen =>
    split at hdone
    next hextras =>
      obtain rfl : extras = [] := List.isEmpty_iff.mp hextras
      cases hdone
      cases seen with
      | true => exact hholds
      | false =>
          obtain ⟨operands, hsome⟩ := Option.ne_none_iff_exists'.mp hoperands
          exact absurd rfl (hseen operands hsome)
    next => cases hdone

end Invariant

end Grammar

theorem perform_flag_eq_ok {names : List String} {apply : String → Request → Request}
    {name : String} {value : Option String} {request changed : Request}
    (hperform : OptionSpec.perform ⟨names, .flag apply⟩ name value request = .ok changed) :
    changed = apply name request := by
  cases value <;> exact (Except.ok.inj hperform).symm

def Given.ofArgument (text : String) : Given String :=
  if text = "--" then .blank else .value text

theorem perform_storing_eq_ok {α : Type} {names : List String} {read : String → Except String α}
    {store : Given α → Request → Request} {name : String} {value : Option String}
    {request changed : Request}
    (hperform : OptionSpec.perform ⟨names, .storing read store⟩ name value request = .ok changed) :
    ∃ stored, changed = store stored request := by
  cases value with
  | none => cases hperform
  | some text =>
      simp only [OptionSpec.perform, OptionAction.storing] at hperform
      split at hperform
      · exact ⟨.blank, (Except.ok.inj hperform).symm⟩
      · cases hread : read text with
        | error reason => simp [hread, Except.map, OptionSpec.refuse] at hperform
        | ok found =>
            simp only [hread, Except.map] at hperform
            exact ⟨.value found, (Except.ok.inj hperform).symm⟩

theorem perform_text_eq_ok {names : List String} {store : Given String → Request → Request}
    {name : String} {value : Option String} {request changed : Request}
    (hperform : OptionSpec.perform ⟨names, .storing .ok store⟩ name value request = .ok changed) :
    ∃ text, value = some text ∧ changed = store (.ofArgument text) request := by
  cases value with
  | none => cases hperform
  | some text =>
      refine ⟨text, rfl, ?_⟩
      simp only [OptionSpec.perform, OptionAction.storing, Except.map] at hperform
      by_cases hdashes : text = "--" <;> simp_all [Given.ofArgument]

/-! ## The request for a check -/

namespace CheckRequest

def valuesOf (name : String) (occurrences : List (Occurrence CheckRequest)) :
    List (Given String) :=
  occurrences.filterMap fun (_, other, value) =>
    if other = name then value.map Given.ofArgument else none

def lineBreakFlags (occurrences : List (Occurrence CheckRequest)) : List Bool :=
  occurrences.filterMap fun (_, name, _) =>
    if name = "--allow-line-breaks" then some true
    else if name = "--no-allow-line-breaks" then some false
    else none

/-- A request says what the options say, and has paths once its operands are seen. -/
structure Reflects (occurrences : List (Occurrence CheckRequest))
    (progress : Grammar.Progress CheckRequest) : Prop where
  overrides : progress.request.overrides = valuesOf "--set" occurrences
  config : progress.request.config = (valuesOf "--config" occurrences).getLast?
  lineBreaks : progress.request.allowLineBreaks = (lineBreakFlags occurrences).getLast?
  paths : progress.operandsSeen = true → progress.request.paths ≠ []

theorem valuesOf_append (name : String) (first second : List (Occurrence CheckRequest)) :
    valuesOf name (first ++ second) = valuesOf name first ++ valuesOf name second := by
  simp [valuesOf]

theorem lineBreakFlags_append (first second : List (Occurrence CheckRequest)) :
    lineBreakFlags (first ++ second) = lineBreakFlags first ++ lineBreakFlags second := by
  simp [lineBreakFlags]

structure Changes (occurrence : Occurrence CheckRequest) (before after : CheckRequest) : Prop where
  overrides : after.overrides = before.overrides ++ valuesOf "--set" [occurrence]
  config : after.config = (valuesOf "--config" [occurrence]).getLast?.or before.config
  lineBreaks : after.allowLineBreaks =
    (lineBreakFlags [occurrence]).getLast?.or before.allowLineBreaks
  paths : after.paths = before.paths

theorem changes_of_perform {spec : OptionSpec CheckRequest} {name : String} {value : Option String}
    {request changed : CheckRequest} (hnames : grammar.Names spec name)
    (hperform : spec.perform name value request = .ok changed) :
    Changes (spec, name, value) request changed := by
  simp only [Grammar.Names, Grammar.named, grammar, List.flatMap_cons, List.flatMap_nil,
    List.map_cons, List.map_nil, List.cons_append, List.nil_append, List.mem_cons, Prod.mk.injEq,
    List.not_mem_nil, or_false] at hnames
  rcases hnames with ⟨rfl, rfl⟩ | ⟨rfl, rfl⟩ | ⟨rfl, rfl⟩ | ⟨rfl, rfl⟩ | ⟨rfl, rfl⟩ | ⟨rfl, rfl⟩ |
    ⟨rfl, rfl⟩ | ⟨rfl, rfl⟩ | ⟨rfl, rfl⟩ | ⟨rfl, rfl⟩
  · cases hperform
  · cases hperform
  · obtain ⟨text, rfl, rfl⟩ := perform_text_eq_ok hperform
    constructor <;> simp [valuesOf, lineBreakFlags]
  · obtain ⟨stored, rfl⟩ := perform_storing_eq_ok hperform
    constructor <;> simp [valuesOf, lineBreakFlags, addRule]
  · obtain ⟨text, rfl, rfl⟩ := perform_text_eq_ok hperform
    constructor <;> simp [valuesOf, lineBreakFlags]
  · obtain rfl := perform_flag_eq_ok hperform
    constructor <;> simp [valuesOf, lineBreakFlags]
  · obtain rfl := perform_flag_eq_ok hperform
    constructor <;> simp [valuesOf, lineBreakFlags]
  · obtain ⟨stored, rfl⟩ := perform_storing_eq_ok hperform
    constructor <;> simp [valuesOf, lineBreakFlags, setFormat]
  · obtain rfl := perform_flag_eq_ok hperform
    constructor <;> simp [valuesOf, lineBreakFlags]
  · obtain rfl := perform_flag_eq_ok hperform
    constructor <;> simp [valuesOf, lineBreakFlags]

theorem invariant_reflects : grammar.Invariant Reflects where
  extras := by
    intro occurrences progress extras hreflects
    exact ⟨hreflects.overrides, hreflects.config, hreflects.lineBreaks, hreflects.paths⟩
  operands := by
    intro occurrences progress operands texts hoperands htexts hreflects
    cases hoperands
    exact ⟨hreflects.overrides, hreflects.config, hreflects.lineBreaks, fun _ => htexts⟩
  options := by
    intro occurrences progress spec name value changed hnames hperform hreflects
    have hchanges := changes_of_perform hnames hperform
    constructor
    · rw [valuesOf_append, ← hreflects.overrides, hchanges.overrides]
    · rw [valuesOf_append, List.getLast?_append, ← hreflects.config, hchanges.config]
    · rw [lineBreakFlags_append, List.getLast?_append, ← hreflects.lineBreaks, hchanges.lineBreaks]
    · intro hseen
      rw [hchanges.paths]
      exact hreflects.paths hseen

theorem reflects_of_parse {arguments : List String} {request : CheckRequest}
    (haccepted : grammar.parse .defaults arguments = .ok request) :
    ∃ words, grammar.words arguments = .ok words ∧
      Reflects (grammar.given words) ⟨request, true, []⟩ := by
  have hstart : Reflects [] ⟨.defaults, false, []⟩ := by
    constructor <;> simp [defaults, valuesOf, lineBreakFlags]
  exact invariant_reflects.parse hstart (by simp [grammar]) haccepted

end CheckRequest

end TokenSpacing.CommandLine
