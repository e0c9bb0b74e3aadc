import TokenSpacing.Proofs.Conversion

/-!
# The first error of a tree

The search for an error keeps a stack of nodes and never opens a child that is not flagged.
Where flags reach from every error up to the root, the children left out hold no error, and
the search ends at the first error in document order.
-/

namespace TokenSpacing.Java

namespace Concrete

/-! ## Errors and flags -/

def Faulty (tree : Concrete) : Prop :=
  tree.type = "ERROR" ∨ tree.info.isMissing = true

instance (tree : Concrete) : Decidable tree.Faulty :=
  inferInstanceAs (Decidable (_ ∨ _))

def Flagged (tree : Concrete) : Prop :=
  tree.info.hasError = true ∨ tree.info.isMissing = true

instance (tree : Concrete) : Decidable tree.Flagged :=
  inferInstanceAs (Decidable (_ ∨ _))

/-- Every node below the root with an error at or below it is flagged. -/
def FlagsFaults (root : Concrete) : Prop :=
  ∀ below ∈ nodesAmong root.children, (∃ fault ∈ below.nodes, fault.Faulty) → below.Flagged

instance (root : Concrete) : Decidable root.FlagsFaults :=
  inferInstanceAs (Decidable (∀ below ∈ nodesAmong root.children, _ → _))

theorem isFault_iff {tree : Concrete} : tree.isFault = true ↔ tree.Faulty := by
  simp [isFault, Faulty]

theorem isFlagged_iff {tree : Concrete} : tree.isFlagged = true ↔ tree.Flagged := by
  simp [isFlagged, Flagged]

theorem nodes_eq (tree : Concrete) : tree.nodes = tree :: nodesAmong tree.children := by
  cases tree
  rw [nodes]
  rfl

theorem nodesAmong_append (first second : List Concrete) :
    nodesAmong (first ++ second) = nodesAmong first ++ nodesAmong second := by
  induction first with
  | nil => simp [nodesAmong]
  | cons tree rest ih => simp [nodesAmong, ih]

theorem FlagsFaults.of_mem_children {tree child : Concrete} (hflags : tree.FlagsFaults)
    (hchild : child ∈ tree.children) : child.FlagsFaults := by
  intro below hbelow
  refine hflags below (mem_nodesAmong.mpr ⟨child, hchild, ?_⟩)
  rw [nodes_eq]
  exact List.mem_cons_of_mem _ hbelow

theorem FlagsFaults.find?_nodes {tree child : Concrete} (hflags : tree.FlagsFaults)
    (hchild : child ∈ tree.children) (hunflagged : child.isFlagged = false) :
    child.nodes.find? isFault = none := by
  rw [List.find?_eq_none]
  intro fault hfault hfaulty
  have hself : child ∈ nodesAmong tree.children :=
    mem_nodesAmong.mpr ⟨child, hchild, by simp [nodes_eq]⟩
  have hflagged := hflags child hself ⟨fault, hfault, isFault_iff.mp hfaulty⟩
  simp [isFlagged_iff.mpr hflagged] at hunflagged

/-! ## The search -/

theorem find?_nodesAmong_filter {keep : Concrete → Bool} {trees : List Concrete}
    (hdropped : ∀ tree ∈ trees, keep tree = false → tree.nodes.find? isFault = none) :
    (nodesAmong (trees.filter keep)).find? isFault = (nodesAmong trees).find? isFault := by
  induction trees with
  | nil => rfl
  | cons tree rest ih =>
      have hrest := ih fun other hother => hdropped other (List.mem_cons_of_mem _ hother)
      cases hkeep : keep tree with
      | true => simp [hkeep, nodesAmong, List.find?_append, hrest]
      | false =>
          have hnone := hdropped tree List.mem_cons_self hkeep
          simp [hkeep, nodesAmong, List.find?_append, hnone, hrest]

/-- The stack always holds, in document order, all that is left to search. -/
theorem firstFault?_eq_find? (waiting : List Concrete)
    (hflags : ∀ tree ∈ waiting, tree.FlagsFaults) :
    firstFault? waiting = (nodesAmong waiting).find? isFault := by
  fun_induction firstFault? waiting with
  | case1 => rfl
  | case2 tree waiting hfault =>
      rw [nodesAmong, nodes_eq, List.cons_append, List.find?_cons_of_pos hfault]
  | case3 tree waiting hfault ih =>
      obtain ⟨htree, hwaiting⟩ := List.forall_mem_cons.mp hflags
      have hpushed : ∀ next ∈ tree.children.filter isFlagged ++ waiting, next.FlagsFaults := by
        intro next hnext
        rcases List.mem_append.mp hnext with hchild | hlater
        · exact htree.of_mem_children (List.mem_of_mem_filter hchild)
        · exact hwaiting next hlater
      have hpruned : (nodesAmong (tree.children.filter isFlagged)).find? isFault =
          (nodesAmong tree.children).find? isFault :=
        find?_nodesAmong_filter fun child hchild => htree.find?_nodes hchild
      rw [ih hpushed, nodesAmong_append, List.find?_append, hpruned, nodesAmong, nodes_eq,
        List.cons_append, List.find?_cons_of_neg hfault, List.find?_append]

/-- The node that an error is reported at: the first error in document order, or the root
if there is none. -/
inductive Blames (root : Concrete) : Concrete → Prop
  | fault {earlier later : List Concrete} {fault : Concrete}
      (hnodes : root.nodes = earlier ++ fault :: later) (hfault : fault.Faulty)
      (hfirst : ∀ node ∈ earlier, ¬node.Faulty) : Blames root fault
  | root (hnone : ∀ node ∈ root.nodes, ¬node.Faulty) : Blames root root

theorem blames_iff {root blamed : Concrete} :
    root.Blames blamed ↔ (root.nodes.find? isFault).getD root = blamed := by
  constructor
  · rintro (⟨hnodes, hfault, hfirst⟩ | hnone)
    · have hfound : root.nodes.find? isFault = some blamed := by
        rw [List.find?_eq_some_iff_append]
        refine ⟨isFault_iff.mpr hfault, _, _, hnodes, ?_⟩
        simpa [← isFault_iff] using hfirst
      simp [hfound]
    · have hfound : root.nodes.find? isFault = none := by
        simpa [← isFault_iff] using hnone
      simp [hfound]
  · rintro rfl
    cases hfound : root.nodes.find? isFault with
    | none =>
        refine .root fun node hnode hfaulty => ?_
        exact List.find?_eq_none.mp hfound node hnode (isFault_iff.mpr hfaulty)
    | some fault =>
        obtain ⟨hfault, earlier, later, hnodes, hfirst⟩ := List.find?_eq_some_iff_append.mp hfound
        refine .fault hnodes (isFault_iff.mp hfault) ?_
        simpa [← isFault_iff] using hfirst

theorem errorNode_eq_iff {root : Concrete} (hflags : root.FlagsFaults) (blamed : Concrete) :
    root.errorNode = blamed ↔ root.Blames blamed := by
  have hsearch : firstFault? [root] = root.nodes.find? isFault := by
    rw [firstFault?_eq_find? [root] (by simpa using hflags), nodesAmong, nodesAmong,
      List.append_nil]
  rw [blames_iff, errorNode, hsearch]

end Concrete

/-! ## Rejected texts -/

def Concrete.Complains (blamed : Concrete) (fault : ParseFault) : Prop :=
  (blamed.info.isMissing = true ∧ fault = .missing blamed.type) ∨
    (blamed.info.isMissing = false ∧ fault = .unexpected)

theorem rejected_iff {file : String} {text : List Char} {root : Concrete} {error : ParseError} :
    parseText file text root = .error (.rejected error) ↔
      root.info.hasError = true ∧ error = parseErrorOf (.ofText file text) root := by
  unfold parseText
  cases root.info.hasError with
  | true => simp [eq_comm]
  | false => cases hconvert : root.convert (.ofText file text) <;> simp [hconvert]

theorem complains_parseErrorOf (source : SourceBytes) (root : Concrete) :
    root.errorNode.Complains (parseErrorOf source root).fault := by
  cases hmissing : root.errorNode.info.isMissing with
  | true => exact .inl ⟨hmissing, by simp [parseErrorOf, hmissing, Concrete.type]⟩
  | false => exact .inr ⟨hmissing, by simp [parseErrorOf, hmissing]⟩

/--
The pruned search finds the first error.  Where every node below the root is flagged that
has an error at or below it, the node of a report is the first error of the whole tree in
document order, and the root of a tree without errors.  A text is rejected exactly where the
root is flagged, with the span of that node and with the complaint it gives rise to.
-/
theorem parseText_blames_first (file : String) (text : List Char) (root : Concrete)
    (hflags : root.FlagsFaults) :
    (∀ blamed, root.errorNode = blamed ↔ root.Blames blamed) ∧
      ((∃ error, parseText file text root = .error (.rejected error)) ↔
        root.info.hasError = true) ∧
      ∀ error, parseText file text root = .error (.rejected error) →
        ∃ blamed, root.Blames blamed ∧ blamed.Complains error.fault ∧
          error.span = (SourceBytes.ofText file text).spanOf blamed.info := by
  refine ⟨Concrete.errorNode_eq_iff hflags, ?_, ?_⟩
  · simp [rejected_iff]
  · intro error herror
    obtain ⟨-, rfl⟩ := rejected_iff.mp herror
    exact ⟨root.errorNode, (Concrete.errorNode_eq_iff hflags _).mp rfl,
      complains_parseErrorOf _ root, rfl⟩

/-- A block whose second statement lacks its semicolon, with stray characters behind it. -/
def brokenBlock : Concrete :=
  .node { Info.inLine "program" 0 9 with hasError := true }
    [.node { Info.inLine "block" 0 8 with hasError := true }
      [.leaf "\x7b" 0 1,
       .node (.inLine "expression_statement" 1 3) [.leaf "identifier" 1 2, .leaf ";" 2 3],
       .node { Info.inLine "expression_statement" 4 5 with hasError := true }
         [.leaf "identifier" 4 5, .node { Info.inLine ";" 5 5 with isMissing := true } []],
       .node { Info.inLine "ERROR" 6 7 with hasError := true } [.leaf "#" 6 7],
       .leaf "\x7d" 7 8],
     .node { Info.inLine "ERROR" 8 9 with hasError := true } [.leaf "#" 8 9]]

def brokenText : List Char :=
  "\x7ba; b #\x7d#".toList

theorem parseText_blames_brokenBlock :
    brokenBlock.FlagsFaults ∧
      ∃ error, parseText "Block.java" brokenText brokenBlock = .error (.rejected error) ∧
        error.span = ⟨"Block.java", ⟨1, 6⟩, ⟨1, 6⟩⟩ ∧ error.fault = .missing ";" ∧
        ∃ blamed, brokenBlock.Blames blamed ∧ blamed.Complains error.fault := by
  have hflags : brokenBlock.FlagsFaults := by decide +kernel
  have hknown : parseErrorOf (.ofText "Block.java" brokenText) brokenBlock =
      ⟨⟨"Block.java", ⟨1, 6⟩, ⟨1, 6⟩⟩, .missing ";"⟩ := by
    decide +kernel
  obtain ⟨-, hrejects, hblames⟩ :=
    parseText_blames_first "Block.java" brokenText brokenBlock hflags
  obtain ⟨error, herror⟩ := hrejects.mpr (by decide)
  obtain ⟨blamed, hblamed, hcomplains, -⟩ := hblames error herror
  obtain ⟨-, rfl⟩ := rejected_iff.mp herror
  exact ⟨hflags, _, herror, by rw [hknown], by rw [hknown], blamed, hblamed, hcomplains⟩

end TokenSpacing.Java
