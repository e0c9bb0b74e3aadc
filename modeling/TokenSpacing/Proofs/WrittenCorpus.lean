import Mathlib.Data.String.Basic
import TokenSpacing.CommandLine.Generator
import TokenSpacing.Files.Workspace
import TokenSpacing.Proofs.FileNames

/-!
# A corpus on disk

Files that are written to new locations stand in front of those that were there.  A
listing sorts what it finds below a directory, and a sorted list is determined by its
members.  So a corpus with names in order is listed as it was generated.
-/

namespace TokenSpacing

/-! ## Listings -/

theorem Location.atOrBefore_iff_le {first second : Location} :
    first.atOrBefore second = true ↔ first ≤ second := by
  induction first generalizing second with
  | nil => simp [atOrBefore, ← not_lt]
  | cons name first ih =>
      cases second with
      | nil => simp [atOrBefore, ← not_lt]
      | cons next second =>
          rw [← not_lt, List.cons_lt_cons_iff]
          simp only [atOrBefore, Bool.or_eq_true, decide_eq_true_eq, Bool.and_eq_true, beq_iff_eq,
            ih]
          rcases lt_trichotomy name next with hless | rfl | hgreater
          · simp [hless, hless.not_gt, hless.ne']
          · simp
          · simp [hgreater, hgreater.not_gt, hgreater.ne']

namespace FileTree

def listed? (directory : Location) (ending : String) (file : Location) : Option Location :=
  if directory.isPrefixOf file && directory.length < file.length &&
      ending.toList.isSuffixOf (file.getLast?.getD "").toList then
    some (file.drop directory.length)
  else
    none

theorem filesBelow_eq (tree : FileTree) (directory : Location) (ending : String) :
    tree.filesBelow directory ending =
      (tree.files.filterMap fun entry => listed? directory ending entry.1).mergeSort
        Location.atOrBefore :=
  rfl

theorem listed?_of_outside {directory file : Location} (houtside : ¬ directory <+: file)
    (ending : String) : listed? directory ending file = none := by
  have hbelow : directory.isPrefixOf file = false := by
    simpa [← List.isPrefixOf_iff_prefix] using houtside
  simp [listed?, hbelow]

theorem listed?_child {directory : Location} {ending name : String}
    (hending : ending.toList <:+ name.toList) :
    listed? directory ending (directory ++ [name]) = some [name] := by
  simp [listed?, List.isPrefixOf_iff_prefix, List.isSuffixOf_iff_suffix, hending]

theorem filesBelow_eq_of_perm {tree : FileTree} {directory : Location} {ending : String}
    {listing : List Location}
    (hperm : (tree.files.filterMap fun entry => listed? directory ending entry.1).Perm listing)
    (hsorted : listing.Pairwise (· ≤ ·)) : tree.filesBelow directory ending = listing := by
  have hlisted : (tree.filesBelow directory ending).Pairwise (· ≤ ·) := by
    simp only [← Location.atOrBefore_iff_le]
    refine List.pairwise_mergeSort ?_ ?_ _
    · intro first second third
      simp only [Location.atOrBefore_iff_le]
      exact le_trans
    · intro first second
      simp only [Bool.or_eq_true, Location.atOrBefore_iff_le]
      exact le_total first second
  refine List.Perm.eq_of_pairwise (fun _ _ _ _ => le_antisymm) hlisted hsorted ?_
  rw [filesBelow_eq]
  exact (List.mergeSort_perm _ _).trans hperm

/-! ## Changes -/

/-- Nothing is in a directory, and no file is in its way.  It may have to be made first. -/
structure Vacant (tree : FileTree) (location : Location) : Prop where
  noFile : ∀ entry ∈ tree.files, ¬ location <+: entry.1 ∧ ¬ entry.1 <+: location
  noDirectory : ∀ directory ∈ tree.directories, location <+: directory → directory = location

theorem apply_write_of_new {tree : FileTree} {location : Location} (text : List Char)
    (hnew : location ∉ tree.files.map Prod.fst) :
    tree.apply (.write location text) =
      ⟨(location, Text.encode text) :: tree.files, tree.directories⟩ := by
  have hkept : tree.files.filter (fun entry => entry.1 != location) = tree.files := by
    refine List.filter_eq_self.mpr fun entry hentry => ?_
    have hne : entry.1 ≠ location := fun heq => hnew (heq ▸ List.mem_map_of_mem hentry)
    simpa using hne
  change FileTree.mk ((location, Text.encode text) ::
    tree.files.filter fun entry => entry.1 != location) tree.directories = _
  rw [hkept]

theorem foldl_apply_write {written : List (Location × List Char)} (tree : FileTree)
    (hdistinct : (written.map Prod.fst).Nodup)
    (hnew : ∀ location ∈ written.map Prod.fst, location ∉ tree.files.map Prod.fst) :
    (written.map fun entry => FileChange.write entry.1 entry.2).foldl apply tree =
      ⟨(written.map fun entry => (entry.1, Text.encode entry.2)).reverse ++ tree.files,
        tree.directories⟩ := by
  induction written generalizing tree with
  | nil => rfl
  | cons entry written ih =>
      obtain ⟨hfirst, hdistinct⟩ := List.nodup_cons.mp hdistinct
      obtain ⟨hentry, hrest⟩ := List.forall_mem_cons.mp hnew
      rw [List.map_cons, List.foldl_cons, apply_write_of_new entry.2 hentry, ih _ hdistinct]
      · simp
      · intro location hlocation hmem
        rcases List.mem_cons.mp hmem with rfl | hold
        · exact hfirst hlocation
        · exact hrest location hlocation hold

/-! ## Files in one directory -/

def placed (directory : Location) (texts : List (String × List Char)) :
    List (Location × List UInt8) :=
  (texts.map fun entry => (directory ++ [entry.1], Text.encode entry.2)).reverse

section

variable {directory : Location} {texts : List (String × List Char)}
  {others : List (Location × List UInt8)} {directories : List Location}

theorem filterMap_placed {ending : String}
    (hending : ∀ entry ∈ texts, ending.toList <:+ entry.1.toList) :
    (placed directory texts).filterMap (fun entry => listed? directory ending entry.1) =
      (texts.map fun entry => [entry.1]).reverse := by
  rw [placed, List.filterMap_reverse, List.filterMap_map, ← List.filterMap_eq_map]
  exact congrArg List.reverse
    (List.filterMap_congr fun entry hentry => listed?_child (hending entry hentry))

theorem filesBelow_placed {ending : String}
    (hending : ∀ entry ∈ texts, ending.toList <:+ entry.1.toList)
    (hnames : (texts.map Prod.fst).Pairwise (· < ·))
    (hothers : ∀ entry ∈ others, ¬ directory <+: entry.1) :
    FileTree.filesBelow ⟨placed directory texts ++ others, directories⟩ directory ending =
      texts.map fun entry => [entry.1] := by
  refine filesBelow_eq_of_perm ?_ ?_
  · have hnone : others.filterMap (fun entry => listed? directory ending entry.1) = [] :=
      List.filterMap_eq_nil_iff.mpr fun entry hentry =>
        listed?_of_outside (hothers entry hentry) ending
    rw [List.filterMap_append, filterMap_placed hending, hnone, List.append_nil]
    exact List.reverse_perm _
  · refine List.pairwise_map.mpr ((List.pairwise_map.mp hnames).imp fun hless => ?_)
    exact (List.cons_lt_cons_iff.mpr (.inl hless)).le

theorem read_placed (hnames : (texts.map Prod.fst).Nodup) {entry : String × List Char}
    (hentry : entry ∈ texts) :
    FileTree.read ⟨placed directory texts ++ others, directories⟩ (directory ++ [entry.1]) =
      .ok (Text.encode entry.2) := by
  obtain ⟨earlier, later, rfl⟩ := List.append_of_mem hentry
  rw [List.map_append, List.map_cons] at hnames
  have hlater := (List.nodup_cons.mp hnames.of_append_right).1
  have hlookup : (placed directory (earlier ++ entry :: later) ++ others).lookup
      (directory ++ [entry.1]) = some (Text.encode entry.2) := by
    refine List.lookup_eq_some_iff.mpr
      ⟨placed directory later, placed directory earlier ++ others, ?_, ?_⟩
    · simp [placed]
    · intro file hfile
      obtain ⟨other, hother, rfl⟩ := List.mem_map.mp (List.mem_reverse.mp hfile)
      have hne : entry.1 ≠ other.1 := by
        intro hsame
        exact hlater (hsame ▸ List.mem_map_of_mem hother)
      simpa using hne
  simp only [read, hlookup]

end

/-! ## Places -/

theorem isDirectory_of_above {tree : FileTree} {location directory : Location}
    (hdirectory : directory ∈ tree.directories) (habove : location <+: directory) :
    tree.isDirectory location = true := by
  have hany : tree.directories.any location.isPrefixOf = true :=
    List.any_eq_true.mpr ⟨directory, hdirectory, List.isPrefixOf_iff_prefix.mpr habove⟩
  simp [isDirectory, hany]

theorem walkTo_directory {tree : FileTree} (start : Location) {parts : List String}
    (hdirectory : start ++ parts ∈ tree.directories) (hparts : ".." ∉ parts) :
    tree.walkTo start parts = .ok (start ++ parts) := by
  induction parts generalizing start with
  | nil => simp [walkTo]
  | cons part parts ih =>
      have hstart : tree.isDirectory start = true :=
        isDirectory_of_above hdirectory (List.prefix_append _ _)
      have hstep : Path.step start part = start ++ [part] := by
        have hpart := (List.ne_of_not_mem_cons hparts).symm
        simp [Path.step, hpart]
      rw [walkTo, if_pos hstart, hstep, ih _ (by simpa using hdirectory)
        (List.not_mem_of_not_mem_cons hparts)]
      simp

theorem foldl_step_of_walkTo {tree : FileTree} {start location : Location} {parts : List String}
    (hwalk : tree.walkTo start parts = .ok location) : parts.foldl Path.step start = location := by
  induction parts generalizing start with
  | nil => exact Except.ok.inj hwalk
  | cons part parts ih =>
      rw [walkTo] at hwalk
      split at hwalk
      · exact ih hwalk
      · split at hwalk <;> cases hwalk

theorem resolve_of_locate {tree : FileTree} {current location : Location} {path : Path}
    (hlocate : tree.locate current path = .ok location) : path.resolve current = location :=
  foldl_step_of_walkTo hlocate

end FileTree

theorem Path.resolve_append {path : Path} {name : String} (hname : name ≠ "..")
    (current : Location) : (path.append [name]).resolve current = path.resolve current ++ [name] := by
  simp [resolve, append, List.foldl_append, step, hname]

theorem Path.user?_append {path : Path} {name : String} (huser : path.user? = none)
    (hname : name.toList.head? ≠ some '~') : (path.append [name]).user? = none := by
  obtain ⟨root, parts⟩ := path
  cases parts with
  | cons first rest => exact huser
  | nil =>
      simp only [user?, append, List.nil_append, List.head?_cons, Option.map_some]
      split
      next tail hroot htilde =>
        rw [Option.some.injEq] at htilde
        rw [htilde] at hname
        exact absurd rfl hname
      next => rfl

/-! ## The corpus of a request -/

namespace CommandLine

def Requests (arguments : List String) (current : Location) (request : CorpusRequest) : Prop :=
  ∃ options, CorpusOptions.grammar.parse .defaults arguments = .ok options ∧
    options.request? = some request ∧ request.isPossible current = true

theorem produce_of_requests {arguments : List String} {current : Location}
    {request : CorpusRequest} (hrequest : Requests arguments current request) :
    produce current arguments =
      (⟨.status 0, (request.directory current).text ++ "\n", ""⟩, request.changes current) := by
  obtain ⟨options, hparse, hoptions, hpossible⟩ := hrequest
  simp only [produce, hparse, hoptions, hpossible, if_true]

namespace CorpusRequest

variable {request : CorpusRequest} {current : Location} {tree : FileTree}

theorem map_fst_files (request : CorpusRequest) (current : Location) :
    (request.files current).map Prod.fst =
      ((Corpus.files request.seed request.count.toNat).map Prod.fst).map
        (request.directory current ++ [·]) := by
  rw [files, List.map_map, List.map_map]
  rfl

theorem nodup_map_fst_files (request : CorpusRequest) (current : Location) :
    ((request.files current).map Prod.fst).Nodup := by
  rw [map_fst_files]
  refine (Corpus.nodup_names _ _).map fun first second hsame => ?_
  simpa using hsame

theorem foldl_apply_changes (hvacant : tree.Vacant (request.directory current)) :
    (request.changes current).foldl FileTree.apply tree =
      ⟨FileTree.placed (request.directory current)
          (Corpus.files request.seed request.count.toNat) ++ tree.files,
        request.directory current :: tree.directories⟩ := by
  have hnew : ∀ location ∈ (request.files current).map Prod.fst,
      location ∉ tree.files.map Prod.fst := by
    intro location hlocation hold
    rw [map_fst_files] at hlocation
    obtain ⟨name, -, rfl⟩ := List.mem_map.mp hlocation
    obtain ⟨entry, hentry, hsame⟩ := List.mem_map.mp hold
    exact (hvacant.noFile entry hentry).1 (hsame ▸ List.prefix_append _ _)
  have hwritten := FileTree.foldl_apply_write
    (tree.apply (.makeDirectory (request.directory current)))
    (nodup_map_fst_files request current) hnew
  rw [changes, List.foldl_cons]
  refine hwritten.trans ?_
  rw [files, List.map_map]
  rfl

end CorpusRequest

end CommandLine

namespace Workspace

/-- A directory has the files of a corpus, and whatever path leads to it, they are listed in
the order of the corpus. -/
structure HoldsCorpus (workspace : Workspace) (directory : Location)
    (corpus : List (String × List Char)) : Prop where
  contents : ∀ entry ∈ corpus,
    workspace.readFile (directory ++ [entry.1]) = .ok (Text.encode entry.2)
  leads : ".." ∉ directory →
    workspace.files.locate workspace.current ⟨"/", directory⟩ = .ok directory
  inOrder : ∀ path expanded, workspace.expand path = .ok expanded →
    workspace.files.locate workspace.current expanded = .ok directory →
    workspace.javaFiles [path] = corpus.map (fun entry => expanded.append [entry.1]) ∧
      (expanded.user? = none → (workspace.javaFiles [path]).map workspace.resolve =
        corpus.map fun entry => .ok (directory ++ [entry.1]))

theorem expand_of_user? {workspace : Workspace} {path : Path} (huser : path.user? = none) :
    workspace.expand path = .ok path := by
  simp [expand, huser]

theorem holdsCorpus {workspace : Workspace} {directory : Location}
    {corpus : List (String × List Char)} {others : List (Location × List UInt8)}
    {directories : List Location}
    (hfiles : workspace.files =
      ⟨FileTree.placed directory corpus ++ others, directory :: directories⟩)
    (hothers : ∀ entry ∈ others, ¬ directory <+: entry.1)
    (hjava : ∀ entry ∈ corpus, ".java".toList <:+ entry.1.toList)
    (hheads : ∀ entry ∈ corpus, entry.1.toList.head? = some 'C')
    (hnames : (corpus.map Prod.fst).Pairwise (· < ·)) :
    workspace.HoldsCorpus directory corpus := by
  have hmade : directory ∈ workspace.files.directories := by simp [hfiles]
  refine ⟨?_, ?_, ?_⟩
  · intro entry hentry
    have hread : workspace.files.read (directory ++ [entry.1]) = .ok (Text.encode entry.2) := by
      rw [hfiles]
      exact FileTree.read_placed (hnames.imp String.ne_of_lt) hentry
    simp only [readFile, hread]
  · exact fun hplain => FileTree.walkTo_directory [] hmade hplain
  · intro path expanded hexpand hlocate
    have hdirectory := FileTree.isDirectory_of_above hmade (List.prefix_refl directory)
    have hat : workspace.javaFilesAt path =
        .ok (corpus.map fun entry => expanded.append [entry.1]) := by
      rw [javaFilesAt, hexpand, ok_bind, FileTree.directoryAt?, hlocate]
      simp only [hdirectory, if_true]
      rw [hfiles, FileTree.filesBelow_placed hjava hnames hothers, List.map_map]
      rfl
    have hlisted : workspace.javaFiles [path] =
        corpus.map fun entry => expanded.append [entry.1] := by
      simp [javaFiles, listing, hat]
    refine ⟨hlisted, fun huser => ?_⟩
    rw [hlisted, List.map_map]
    refine List.map_congr_left fun entry hentry => ?_
    have hdots : entry.1 ≠ ".." := by
      intro hname
      have hhead := hheads entry hentry
      rw [hname] at hhead
      cases hhead
    rw [Function.comp_apply, resolve,
      expand_of_user? (Path.user?_append huser (by simp [hheads entry hentry])), ok_bind,
      Path.resolve_append hdots, FileTree.resolve_of_locate hlocate]
    rfl

def after (workspace : Workspace) (changes : List FileChange) : Workspace :=
  { workspace with files := changes.foldl FileTree.apply workspace.files }

end Workspace

namespace CommandLine

/-- More sources continue fewer ones, and no two files of a corpus have the same name.  Up
to a million files, and no further, the names are in order.  A corpus of that size that is
written into an empty directory is then listed as it was generated. -/
theorem corpus_keeps_order (seed : Int) (count : Nat) :
    (∀ fewer ≤ count, Corpus.files seed fewer <+: Corpus.files seed count) ∧
      ((Corpus.files seed count).map Prod.fst).Nodup ∧
      (((Corpus.files seed count).map Prod.fst).Pairwise (· < ·) ↔ count ≤ 1000000) ∧
      ∀ (workspace : Workspace) (arguments : List String) (current : Location)
        (request : CorpusRequest),
        Requests arguments current request → request.seed = seed →
        request.count.toNat = count → count ≤ 1000000 →
        workspace.files.Vacant (request.directory current) →
        (produce current arguments).1.exit = .status 0 ∧
          (workspace.after (produce current arguments).2).HoldsCorpus
            (request.directory current) (Corpus.files seed count) := by
  refine ⟨fun fewer => Corpus.files_prefix_files seed, Corpus.nodup_names seed count,
    Corpus.pairwise_names_iff seed count, ?_⟩
  rintro workspace arguments current request hrequest rfl rfl hcount hvacant
  have hsorted := (Corpus.pairwise_names_iff request.seed request.count.toNat).mpr hcount
  have hothers := fun entry hentry => (hvacant.noFile entry hentry).1
  rw [produce_of_requests hrequest]
  refine ⟨rfl, Workspace.holdsCorpus (CorpusRequest.foldl_apply_changes hvacant) hothers ?_ ?_
    hsorted⟩
  · exact fun entry => Corpus.ends_with_java
  · exact fun entry => Corpus.head?_name

def notes : Workspace where
  files := ⟨[(["work", "notes.txt"], [])], [["work"]]⟩
  current := ["work"]
  parser _ := .leaf "program" 0 0

def smallCorpus : CorpusRequest :=
  ⟨7, 3, "corpus"⟩

theorem corpus_keeps_order_smallCorpus :
    let arguments := ["--seed", "7", "--count=3", "--out", "corpus"]
    Requests arguments notes.current smallCorpus ∧
      notes.files.Vacant (smallCorpus.directory notes.current) ∧
      (produce notes.current arguments).1.exit = .status 0 ∧
      ((notes.after (produce notes.current arguments).2).javaFiles
          [.ofText "/work/corpus/seed_7_count_3"]).map Path.text =
        ["/work/corpus/seed_7_count_3/Case000000.java",
         "/work/corpus/seed_7_count_3/Case000001.java",
         "/work/corpus/seed_7_count_3/Case000002.java"] := by
  intro arguments
  have hrequest : Requests arguments notes.current smallCorpus :=
    ⟨⟨.value 7, .value 3, .value "corpus"⟩, by decide +kernel, by decide +kernel,
      by decide +kernel⟩
  have hvacant : notes.files.Vacant (smallCorpus.directory notes.current) := by
    constructor <;> decide +kernel
  have hpath : Path.ofText "/work/corpus/seed_7_count_3" =
      ⟨"/", smallCorpus.directory notes.current⟩ := by
    decide +kernel
  obtain ⟨hexit, hholds⟩ := (corpus_keeps_order 7 3).2.2.2 notes arguments notes.current
    smallCorpus hrequest rfl rfl (by decide) hvacant
  obtain ⟨hlisted, -⟩ := hholds.inOrder _ _ (Workspace.expand_of_user? rfl)
    (hholds.leads (by decide +kernel))
  refine ⟨hrequest, hvacant, hexit, ?_⟩
  rw [hpath, hlisted, List.map_map]
  change (Corpus.files 7 3).map ((fun name =>
    (Path.append ⟨"/", smallCorpus.directory notes.current⟩ [name]).text) ∘ Prod.fst) = _
  rw [← List.map_map, Corpus.names_eq]
  decide +kernel

end CommandLine

end TokenSpacing
