import TokenSpacing.Java.Conversion
import TokenSpacing.Proofs.Outcomes
import TokenSpacing.Proofs.Parents

/-!
# Building a tree is a recursion over the concrete one

The stack visits nodes in an order of its own, and hangs new items below nodes that were
made long before.  At any moment a draft stands for the tree that it will become: its
nodes owe the children that are still to be added, and every item that is added pays a
part of that.  So what the root stands for never changes, and it is at first what a
plain recursion makes of the concrete tree.
-/

namespace TokenSpacing.Java

/-! ## The recursion -/

namespace Concrete

def groupDimensions (source : SourceBytes) (start : Position) (pending : List (Tree Unit)) :
    List (Info × Tree Unit) → List (Tree Unit)
  | [] => pending
  | (info, piece) :: rest =>
      if info.type == "]" then
        let span : Span := ⟨source.file, start, source.positionOf info.stop⟩
        .node () ⟨"dimension", some .arrayType, span⟩ (pending ++ [piece]) ::
          groupDimensions source start [] rest
      else
        groupDimensions source start (pending ++ [piece]) rest

mutual

def convertItem (source : SourceBytes) (parent : Option Concrete) :
    Concrete → Except ConversionFault (Tree Unit)
  | node info children => do
      if children.isEmpty || (node info children).isAtomic then
        return .leaf () (← tokenOf source info)
      else
        return .node () (headOf source (node info children))
          (← convertChildren source parent (node info children) children)

def convertChildren (source : SourceBytes) (parent : Option Concrete) (owner : Concrete) :
    List Concrete → Except ConversionFault (List (Tree Unit))
  | [] => .ok []
  | node info children :: rest => do
      if (node info children).isComment then
        convertChildren source parent owner rest
      else if owner.splitsInto (node info children) then
        let pieces ← convertPieces source (node info children) children
        let start := source.positionOf (dimensionOrigin parent owner).start
        return groupDimensions source start [] pieces ++
          (← convertChildren source parent owner rest)
      else
        let item ← convertItem source (some owner) (node info children)
        return item :: (← convertChildren source parent owner rest)

def convertPieces (source : SourceBytes) (dimensions : Concrete) :
    List Concrete → Except ConversionFault (List (Info × Tree Unit))
  | [] => .ok []
  | node info children :: rest => do
      if (node info children).isComment then
        convertPieces source dimensions rest
      else
        let item ← convertItem source (some dimensions) (node info children)
        return (info, item) :: (← convertPieces source dimensions rest)

end

variable {source : SourceBytes}

theorem convertItem_eq (parent : Option Concrete) (tree : Concrete) :
    convertItem source parent tree =
      if tree.children.isEmpty || tree.isAtomic then do
        return .leaf () (← tokenOf source tree.info)
      else do
        return .node () (headOf source tree)
          (← convertChildren source parent tree tree.children) := by
  cases tree
  rw [convertItem]
  rfl

theorem convertChildren_cons (parent : Option Concrete) (owner tree : Concrete)
    (rest : List Concrete) :
    convertChildren source parent owner (tree :: rest) =
      if tree.isComment then convertChildren source parent owner rest
      else if owner.splitsInto tree then do
        let pieces ← convertPieces source tree tree.children
        let start := source.positionOf (dimensionOrigin parent owner).start
        return groupDimensions source start [] pieces ++
          (← convertChildren source parent owner rest)
      else do
        let item ← convertItem source (some owner) tree
        return item :: (← convertChildren source parent owner rest) := by
  cases tree
  rw [convertChildren]
  rfl

theorem convertPieces_cons (dimensions part : Concrete) (rest : List Concrete) :
    convertPieces source dimensions (part :: rest) =
      if part.isComment then convertPieces source dimensions rest
      else do
        let item ← convertItem source (some dimensions) part
        return (part.info, item) :: (← convertPieces source dimensions rest) := by
  cases part
  rw [convertPieces]
  rfl

end Concrete

/-! ## What a draft stands for -/

abbrev Promise := Except ConversionFault (List (Tree Unit))

mutual

/-- Whether an item stands for a tree.  The children of a node are those it has, and then
those it is owed. -/
def Stands (draft : Draft) (owed : Nat → Promise) : Tree Unit → Nat → Prop
  | .leaf _ token, item => draft.content? item = some (.token token)
  | .node _ head children, item =>
      draft.content? item = some (.head head) ∧
        StandAmong draft owed (owed item) children (draft.childrenOf item)

def StandAmong (draft : Draft) (owed : Nat → Promise) (rest : Promise) :
    List (Tree Unit) → List Nat → Prop
  | [], items => items = [] ∧ rest = .ok []
  | tree :: trees, [] => rest = .ok (tree :: trees)
  | tree :: trees, item :: items =>
      Stands draft owed tree item ∧ StandAmong draft owed rest trees items

end

section Stands

variable {draft later : Draft} {owed owedLater : Nat → Promise}

theorem standAmong_nil {rest : Promise} {trees : List (Tree Unit)} :
    StandAmong draft owed rest trees [] ↔ rest = .ok trees := by
  cases trees <;> simp [StandAmong]

theorem standAmong_cons {rest : Promise} {trees : List (Tree Unit)} {item : Nat}
    {items : List Nat} :
    StandAmong draft owed rest trees (item :: items) ↔
      ∃ first others, trees = first :: others ∧ Stands draft owed first item ∧
        StandAmong draft owed rest others items := by
  cases trees <;> simp [StandAmong]

theorem StandAmong.of_append {rest restLater : Promise} {trees : List (Tree Unit)}
    {items tail : List Nat}
    (hitems : ∀ tree ∈ trees, ∀ item ∈ items, Stands later owedLater tree item →
      Stands draft owed tree item)
    (htail : ∀ others, StandAmong later owedLater restLater others tail → rest = .ok others)
    (hstand : StandAmong later owedLater restLater trees (items ++ tail)) :
    StandAmong draft owed rest trees items := by
  induction items generalizing trees with
  | nil => exact standAmong_nil.mpr (htail trees hstand)
  | cons item items ih =>
      obtain ⟨first, others, rfl, hfirst, hothers⟩ := standAmong_cons.mp hstand
      refine standAmong_cons.mpr ⟨first, others, rfl, ?_, ?_⟩
      · exact hitems first List.mem_cons_self item List.mem_cons_self hfirst
      · refine ih ?_ hothers
        intro tree htree child hchild
        exact hitems tree (List.mem_cons_of_mem _ htree) child (List.mem_cons_of_mem _ hchild)

theorem StandAmong.mono {rest : Promise} {trees : List (Tree Unit)} {items : List Nat}
    (hitems : ∀ tree ∈ trees, ∀ item ∈ items, Stands later owedLater tree item →
      Stands draft owed tree item)
    (hstand : StandAmong later owedLater rest trees items) :
    StandAmong draft owed rest trees items := by
  rw [← List.append_nil items] at hstand
  exact hstand.of_append hitems fun others hothers => standAmong_nil.mp hothers

theorem StandAmong.of_concat {rest restLater : Promise} {trees : List (Tree Unit)}
    {items : List Nat} {last : Nat}
    (hitems : ∀ tree ∈ trees, ∀ item ∈ items, Stands later owedLater tree item →
      Stands draft owed tree item)
    (hpaid : ∀ new others, Stands later owedLater new last → restLater = .ok others →
      rest = .ok (new :: others))
    (hstand : StandAmong later owedLater restLater trees (items ++ [last])) :
    StandAmong draft owed rest trees items := by
  refine hstand.of_append hitems ?_
  intro trees hlast
  obtain ⟨new, others, rfl, hnew, hothers⟩ := standAmong_cons.mp hlast
  exact hpaid new others hnew (standAmong_nil.mp hothers)

theorem stands_of_add {parent : Nat} {content : Content} (hhangs : draft.HangsOnce)
    (hparent : parent < draft.size)
    (hsame : ∀ item, item < draft.size → item ≠ parent → owedLater item = owed item)
    (hpaid : ∀ new others, Stands (draft.add parent content) owedLater new draft.size →
      owedLater parent = .ok others → owed parent = .ok (new :: others))
    {tree : Tree Unit} {item : Nat} (hitem : item < draft.size)
    (hstands : Stands (draft.add parent content) owedLater tree item) :
    Stands draft owed tree item := by
  induction tree using Tree.induction generalizing item with
  | leaf mark token =>
      rw [Stands, Draft.content?_add hparent, if_neg (by omega)] at hstands
      rwa [Stands]
  | node mark head children ih =>
      rw [Stands, Draft.content?_add hparent, if_neg (by omega),
        Draft.childrenOf_add hparent, if_neg (by omega)] at hstands
      obtain ⟨hhead, hchildren⟩ := hstands
      have hbelow : ∀ tree ∈ children, ∀ child ∈ draft.childrenOf item,
          Stands (draft.add parent content) owedLater tree child →
            Stands draft owed tree child :=
        fun tree htree child hchild => ih tree htree (hhangs.child_bounds hchild).2
      rw [Stands]
      refine ⟨hhead, ?_⟩
      split at hchildren
      next hat =>
        subst hat
        exact hchildren.of_concat hbelow hpaid
      next hother =>
        rw [hsame item hitem hother] at hchildren
        exact hchildren.mono hbelow

theorem standAmong_map {children : List (Tree Nat)}
    (hchildren : ∀ child ∈ children, Stands draft owed child.unmarked child.mark) :
    StandAmong draft owed (.ok []) (children.map Tree.unmarked) (children.map Tree.mark) := by
  induction children with
  | nil => exact standAmong_nil.mpr rfl
  | cons child children ih =>
      obtain ⟨hchild, hrest⟩ := List.forall_mem_cons.mp hchildren
      exact standAmong_cons.mpr ⟨child.unmarked, _, rfl, hchild, ih hrest⟩

theorem stands_of_shows {tree : Tree Nat} (hshows : draft.Shows tree) :
    Stands draft (fun _ => .ok []) tree.unmarked tree.mark := by
  induction tree using Tree.induction with
  | leaf mark token =>
      rw [Tree.unmarked, Stands]
      exact (hshows _ (Tree.self_mem_walk _)).1
  | node mark head children ih =>
      obtain ⟨hhead, hchildren⟩ := hshows _ (Tree.self_mem_walk _)
      rw [Tree.unmarked_node, Stands]
      refine ⟨hhead, ?_⟩
      rw [hchildren, Tree.childMarks]
      apply standAmong_map
      intro child hchild
      apply ih child hchild
      intro item hitem
      exact hshows item (Tree.walk_subset_of_mem_children hchild hitem)

end Stands

/-! ## One visit -/

def owed (debts : List (Nat × Promise)) (item : Nat) : Promise :=
  (debts.lookup item).getD (.ok [])

section Owed

variable {debts : List (Nat × Promise)} {item other : Nat} {promise : Promise}

theorem owed_cons_self : owed ((item, promise) :: debts) item = promise := by
  simp [owed]

theorem owed_cons_of_ne (hother : other ≠ item) :
    owed ((item, promise) :: debts) other = owed debts other := by
  simp [owed, List.lookup_cons, beq_false_of_ne hother]

theorem lookup_eq_none (hitem : item ∉ debts.map Prod.fst) : debts.lookup item = none := by
  rw [List.lookup_eq_none_iff]
  intro debt hdebt
  exact bne_iff_ne.mpr fun heq => hitem (List.mem_map.mpr ⟨debt, hdebt, heq.symm⟩)

theorem owed_paid (hitem : item ∉ debts.map Prod.fst) :
    owed ((item, .ok []) :: debts) = owed debts := by
  funext other
  by_cases hother : other = item
  · rw [hother, owed_cons_self, owed, lookup_eq_none hitem]
    rfl
  · exact owed_cons_of_ne hother

theorem owed_middle {more : List (Nat × Promise)} (hitem : item ∉ debts.map Prod.fst) :
    owed (debts ++ (item, promise) :: more) = owed ((item, promise) :: (debts ++ more)) := by
  funext other
  by_cases hother : other = item
  · rw [hother, owed_cons_self, owed, List.lookup_append, lookup_eq_none hitem]
    simp
  · rw [owed_cons_of_ne hother, owed, owed, List.lookup_append, List.lookup_append]
    simp [List.lookup_cons, beq_false_of_ne hother]

end Owed

namespace Building

open Concrete

def debts (source : SourceBytes) (building : Building) : List (Nat × Promise) :=
  building.waiting.map fun job =>
    (job.item, convertChildren source job.parent job.owner job.owner.children)

structure Sound (building : Building) (active : List Nat) : Prop where
  hangs : building.draft.HangsOnce
  nodes : ∀ item ∈ active ++ building.waiting.map Job.item,
    ∃ head, building.draft.content? item = some (.head head)
  distinct : (active ++ building.waiting.map Job.item).Nodup

/-- Every item of a draft stands for the same tree as in a later one. -/
structure Foretells (source : SourceBytes) (building : Building)
    (active : List (Nat × Promise)) (next : Building) (activeNext : List (Nat × Promise)) :
    Prop where
  size_le : building.draft.size ≤ next.draft.size
  stands : ∀ tree item, item < building.draft.size →
    Stands next.draft (owed (activeNext ++ next.debts source)) tree item →
      Stands building.draft (owed (active ++ building.debts source)) tree item

/-- The visit of a node has added what was promised on top of the rest. -/
structure Serves (source : SourceBytes) (building : Building) (item : Nat)
    (others : List (Nat × Promise)) (promise : Promise → Promise) (next : Building) : Prop where
  sound : next.Sound (item :: others.map Prod.fst)
  foretells : ∀ rest, Foretells source building ((item, promise rest) :: others) next
    ((item, rest) :: others)

variable {source : SourceBytes} {building next : Building} {item : Nat} {active : List Nat}
  {others : List (Nat × Promise)}

theorem Foretells.trans {middle : Building} {first second third : List (Nat × Promise)}
    (hfirst : Foretells source building first middle second)
    (hsecond : Foretells source middle second next third) :
    Foretells source building first next third where
  size_le := Nat.le_trans hfirst.size_le hsecond.size_le
  stands := by
    intro tree item hitem hstands
    have hmiddle := Nat.lt_of_lt_of_le hitem hfirst.size_le
    exact hfirst.stands tree item hitem (hsecond.stands tree item hmiddle hstands)

theorem Foretells.of_owed_eq {first second : List (Nat × Promise)}
    (howed : owed (first ++ building.debts source) = owed (second ++ next.debts source))
    (hdraft : building.draft = next.draft) :
    Foretells source building first next second where
  size_le := by rw [hdraft]
  stands := by
    intro tree item _ hstands
    rwa [howed, hdraft]

theorem Serves.trans {middle : Building} {first second : Promise → Promise}
    (hfirst : Serves source building item others first middle)
    (hsecond : Serves source middle item others second next) :
    Serves source building item others (fun rest => first (second rest)) next where
  sound := hsecond.sound
  foretells := fun rest => (hfirst.foretells (second rest)).trans (hsecond.foretells rest)

namespace Sound

theorem lt_size (hsound : building.Sound active) (hitem : item ∈ active) :
    item < building.draft.size := by
  obtain ⟨head, hhead⟩ := hsound.nodes item (List.mem_append_left _ hitem)
  exact Draft.lt_size_of_content? hhead

theorem size_not_mem (hsound : building.Sound active) :
    building.draft.size ∉ active ++ building.waiting.map Job.item := by
  intro hmem
  obtain ⟨head, hhead⟩ := hsound.nodes _ hmem
  exact absurd (Draft.lt_size_of_content? hhead) (by omega)

theorem add (hsound : building.Sound active) (hitem : item ∈ active) (content : Content) :
    (⟨building.draft.add item content, building.waiting⟩ : Building).Sound active := by
  have hsize := hsound.lt_size hitem
  obtain ⟨head, hhead⟩ := hsound.nodes item (List.mem_append_left _ hitem)
  refine ⟨hsound.hangs.add hhead, ?_, hsound.distinct⟩
  intro other hother
  obtain ⟨kept, hkept⟩ := hsound.nodes other hother
  refine ⟨kept, ?_⟩
  rw [Draft.content?_add hsize, if_neg (Draft.lt_size_of_content? hkept).ne]
  exact hkept

theorem addNode (hsound : building.Sound active) (hitem : item ∈ active) (head : Head) :
    (⟨building.draft.add item (.head head), building.waiting⟩ : Building).Sound
      (building.draft.size :: active) := by
  have hadded := hsound.add hitem (.head head)
  refine ⟨hadded.hangs, ?_, List.nodup_cons.mpr ⟨hsound.size_not_mem, hsound.distinct⟩⟩
  rw [List.cons_append, List.forall_mem_cons]
  refine ⟨⟨head, ?_⟩, hadded.nodes⟩
  rw [Draft.content?_add (hsound.lt_size hitem), if_pos rfl]

theorem push {draft : Draft} {waiting : List Job} {parent : Option Concrete} {owner : Concrete}
    (hsound : (⟨draft, waiting⟩ : Building).Sound (item :: active)) :
    (⟨draft, ⟨parent, owner, item⟩ :: waiting⟩ : Building).Sound active := by
  have hperm : (active ++ item :: waiting.map Job.item).Perm
      (item :: active ++ waiting.map Job.item) := List.perm_middle
  refine ⟨hsound.hangs, ?_, ?_⟩
  · intro other hother
    exact hsound.nodes other (hperm.mem_iff.mp hother)
  · exact hperm.nodup_iff.mpr hsound.distinct

theorem pop {draft : Draft} {job : Job} {waiting : List Job}
    (hsound : (⟨draft, job :: waiting⟩ : Building).Sound []) :
    (⟨draft, waiting⟩ : Building).Sound [job.item] :=
  ⟨hsound.hangs, hsound.nodes, hsound.distinct⟩

theorem close (hsound : building.Sound (item :: active)) : building.Sound active :=
  ⟨hsound.hangs, fun other hother => hsound.nodes other (List.mem_cons_of_mem _ hother),
    hsound.distinct.of_cons⟩

end Sound

theorem foretells_token (hsound : building.Sound (item :: others.map Prod.fst)) (token : Token)
    (rest : Promise) :
    Foretells source building ((item, do return .leaf () token :: (← rest)) :: others)
      ⟨building.draft.add item (.token token), building.waiting⟩ ((item, rest) :: others) where
  size_le := by simp
  stands := by
    intro tree shown hshown hstands
    have hsize := hsound.lt_size List.mem_cons_self
    refine stands_of_add hsound.hangs hsize ?_ ?_ hshown hstands
    · intro other _ hother
      exact (owed_cons_of_ne hother).trans (owed_cons_of_ne hother).symm
    · intro new later hnew hlater
      rw [List.cons_append, owed_cons_self] at hlater ⊢
      rw [hlater]
      cases new with
      | leaf mark other =>
          rw [Stands, Draft.content?_add hsize, if_pos rfl] at hnew
          cases hnew
          rfl
      | node mark head children =>
          rw [Stands, Draft.content?_add hsize, if_pos rfl] at hnew
          cases hnew.1

theorem foretells_node (hsound : building.Sound (item :: others.map Prod.fst)) (head : Head)
    (below rest : Promise) :
    Foretells source building
      ((item, do let children ← below; return .node () head children :: (← rest)) :: others)
      ⟨building.draft.add item (.head head), building.waiting⟩
      ((building.draft.size, below) :: (item, rest) :: others) where
  size_le := by simp
  stands := by
    intro tree shown hshown hstands
    have hsize := hsound.lt_size List.mem_cons_self
    refine stands_of_add hsound.hangs hsize ?_ ?_ hshown hstands
    · intro other hmade hother
      exact (owed_cons_of_ne hmade.ne).trans
        ((owed_cons_of_ne hother).trans (owed_cons_of_ne hother).symm)
    · intro new later hnew hlater
      rw [List.cons_append, owed_cons_of_ne hsize.ne, List.cons_append, owed_cons_self] at hlater
      rw [List.cons_append, owed_cons_self, hlater]
      cases new with
      | leaf mark other =>
          rw [Stands, Draft.content?_add hsize, if_pos rfl] at hnew
          cases hnew
      | node mark other children =>
          rw [Stands, Draft.content?_add hsize, if_pos rfl, Draft.childrenOf_add hsize, if_pos rfl,
            List.cons_append, owed_cons_self, standAmong_nil] at hnew
          obtain ⟨hhead, rfl⟩ := hnew
          cases hhead
          rfl

theorem map_fst_debts : (building.debts source).map Prod.fst = building.waiting.map Job.item := by
  simp [debts]

theorem foretells_close (hsound : building.Sound (item :: others.map Prod.fst)) :
    Foretells source building ((item, .ok []) :: others) building others := by
  have hdone : item ∉ (others ++ building.debts source).map Prod.fst := by
    rw [List.map_append, map_fst_debts]
    exact (List.nodup_cons.mp hsound.distinct).1
  exact .of_owed_eq (owed_paid hdone) rfl

theorem addItem_serves {parent : Option Concrete} {tree : Concrete}
    (hsound : building.Sound (item :: others.map Prod.fst))
    (hadd : addItem source parent item tree building = .ok next) :
    Serves source building item others
      (fun rest => do
        let first ← convertItem source parent tree
        return first :: (← rest)) next := by
  unfold addItem at hadd
  split at hadd
  next hleaf =>
    obtain ⟨token, htoken, hnext⟩ := bind_eq_ok_iff.mp hadd
    cases hnext
    refine ⟨hsound.add List.mem_cons_self _, fun rest => ?_⟩
    rw [convertItem_eq, if_pos hleaf, htoken]
    exact foretells_token hsound token rest
  next hinner =>
    cases hadd
    have hnode := hsound.addNode List.mem_cons_self (headOf source tree)
    refine ⟨hnode.push, fun rest => ?_⟩
    have hpromise : (do
        let first ← convertItem source parent tree
        return first :: (← rest)) = (do
        let children ← convertChildren source parent tree tree.children
        return .node () (headOf source tree) children :: (← rest)) := by
      rw [convertItem_eq, if_neg hinner]
      simp
    rw [hpromise]
    refine (foretells_node hsound (headOf source tree) _ rest).trans (.of_owed_eq ?_ rfl)
    have hfresh : building.draft.size ∉ ((item, rest) :: others).map Prod.fst := by
      intro hmem
      exact hsound.size_not_mem (List.mem_append_left _ hmem)
    exact (owed_middle hfresh).symm

theorem addItems_serves {parent : Option Concrete} {trees : List Concrete}
    (hsound : building.Sound (item :: others.map Prod.fst))
    (hadd : addItems source parent item trees building = .ok next) :
    Serves source building item others
      (fun rest => do
        let first ← trees.mapM (convertItem source parent)
        return first ++ (← rest)) next := by
  induction trees generalizing building with
  | nil =>
      cases hadd
      refine ⟨hsound, fun rest => ?_⟩
      simpa using Foretells.of_owed_eq rfl rfl
  | cons tree trees ih =>
      obtain ⟨middle, hfirst, hlater⟩ := bind_eq_ok_iff.mp hadd
      have hserves := addItem_serves hsound hfirst
      have hall := hserves.trans (ih hserves.sound hlater)
      simpa using hall

theorem addDimensions_serves {dimensions : Concrete} {start : Position}
    {pending parts : List Concrete} (hsound : building.Sound (item :: others.map Prod.fst))
    (hadd : addDimensions source dimensions start item pending parts building = .ok next) :
    Serves source building item others
      (fun rest => do
        let first ← pending.mapM (convertItem source (some dimensions))
        let pieces ← convertPieces source dimensions parts
        return groupDimensions source start first pieces ++ (← rest)) next := by
  induction parts generalizing pending building with
  | nil =>
      have hpending := addItems_serves hsound hadd
      simpa [convertPieces, groupDimensions] using hpending
  | cons part parts ih =>
      rw [addDimensions] at hadd
      simp only [convertPieces_cons]
      split at hadd
      next hcomment =>
        simpa [hcomment] using ih hsound hadd
      next hcomment =>
        split at hadd
        next hclosing =>
          obtain ⟨filled, hfilled, hlater⟩ := bind_eq_ok_iff.mp hadd
          have hopened := hsound.addNode List.mem_cons_self
            ⟨"dimension", some .arrayType, source.file, start, source.positionOf part.info.stop⟩
          have hpieces (inner : Promise) :
              Serves source _ _ ((item, inner) :: others) _ filled :=
            addItems_serves hopened hfilled
          have hserves := ih (hpieces (.ok [])).sound.close hlater
          refine ⟨hserves.sound, fun rest => ?_⟩
          have hall := (foretells_node hsound _ _ _).trans
            (((hpieces _).foretells (.ok [])).trans
              ((foretells_close (hpieces _).sound).trans (hserves.foretells rest)))
          have htype : (part.info.type == "]") = true := hclosing
          simpa [hcomment, groupDimensions, htype] using hall
        next hopening =>
          have hlater := ih hsound hadd
          have htype : (part.info.type == "]") = false := by simpa [Concrete.type] using hopening
          simpa [hcomment, groupDimensions, htype] using hlater

theorem addChildren_serves {job : Job} {children : List Concrete}
    (hsound : building.Sound (job.item :: others.map Prod.fst))
    (hadd : addChildren source job children building = .ok next) :
    Serves source building job.item others
      (fun rest => do
        let items ← convertChildren source job.parent job.owner children
        return items ++ (← rest)) next := by
  induction children generalizing building with
  | nil =>
      cases hadd
      refine ⟨hsound, fun rest => ?_⟩
      simpa [convertChildren] using Foretells.of_owed_eq rfl rfl
  | cons child children ih =>
      rw [addChildren] at hadd
      simp only [convertChildren_cons]
      split at hadd
      next hcomment => simpa [hcomment] using ih hsound hadd
      next hcomment =>
        split at hadd
        next hsplits =>
          obtain ⟨middle, hmiddle, hlater⟩ := bind_eq_ok_iff.mp hadd
          have hserves := addDimensions_serves hsound hmiddle
          have hall := hserves.trans (ih hserves.sound hlater)
          simpa [hcomment, hsplits, -bind_pure_comp] using hall
        next hwhole =>
          obtain ⟨middle, hmiddle, hlater⟩ := bind_eq_ok_iff.mp hadd
          have hserves := addItem_serves hsound hmiddle
          have hall := hserves.trans (ih hserves.sound hlater)
          simpa [hcomment, hwhole] using hall

/-! ## A whole run -/

theorem finish_cons (draft : Draft) (job : Job) (waiting : List Job) :
    finish source ⟨draft, job :: waiting⟩ =
      addChildren source job job.owner.children ⟨draft, waiting⟩ >>= finish source := by
  rw [finish]
  split <;> simp_all

/-- What the items of a draft stand for is what they are at the end. -/
theorem finish_spec {final : Draft} (hsound : building.Sound [])
    (hfinish : finish source building = .ok final) :
    final.HangsOnce ∧ Foretells source building [] ⟨final, []⟩ [] := by
  induction building using finish.induct source with
  | case1 draft =>
      rw [finish] at hfinish
      cases hfinish
      exact ⟨hsound.hangs, .of_owed_eq rfl rfl⟩
  | case2 draft job waiting fault hadd =>
      rw [finish_cons, hadd] at hfinish
      cases hfinish
  | case3 draft job waiting next hadd ih =>
      rw [finish_cons, hadd, ok_bind] at hfinish
      have hserves : Serves source _ _ [] _ next := addChildren_serves hsound.pop hadd
      obtain ⟨hhangs, hlater⟩ := ih hserves.sound.close hfinish
      have hvisit := (hserves.foretells (.ok [])).trans (foretells_close hserves.sound)
      have hpop : Foretells source ⟨draft, job :: waiting⟩ [] ⟨draft, waiting⟩
          [(job.item, convertChildren source job.parent job.owner job.owner.children)] :=
        .of_owed_eq rfl rfl
      refine ⟨hhangs, hpop.trans (Foretells.trans ?_ hlater)⟩
      have hpaid : (convertChildren source job.parent job.owner job.owner.children >>=
          fun items => Except.ok items) =
            convertChildren source job.parent job.owner job.owner.children := bind_pure _
      simpa [hpaid] using hvisit

/-! ## Runs that fail -/

def Ready (source : SourceBytes) (building : Building) : Prop :=
  ∀ job ∈ building.waiting, ∃ items,
    convertChildren source job.parent job.owner job.owner.children = .ok items

theorem addItem_succeeds {parent : Option Concrete} {tree : Concrete} {first : Tree Unit}
    (hready : building.Ready source) (hfirst : convertItem source parent tree = .ok first) :
    ∃ next, addItem source parent item tree building = .ok next ∧ next.Ready source := by
  rw [convertItem_eq] at hfirst
  unfold addItem
  split at hfirst
  next hleaf =>
    obtain ⟨token, htoken, -⟩ := bind_eq_ok_iff.mp hfirst
    rw [if_pos hleaf, htoken]
    exact ⟨_, rfl, hready⟩
  next hinner =>
    obtain ⟨children, hchildren, -⟩ := bind_eq_ok_iff.mp hfirst
    rw [if_neg hinner]
    exact ⟨_, rfl, List.forall_mem_cons.mpr ⟨⟨children, hchildren⟩, hready⟩⟩

theorem addItems_succeeds {parent : Option Concrete} {trees : List Concrete}
    (hready : building.Ready source)
    (htrees : ∀ tree ∈ trees, ∃ first, convertItem source parent tree = .ok first) :
    ∃ next, addItems source parent item trees building = .ok next ∧ next.Ready source := by
  induction trees generalizing building with
  | nil => exact ⟨building, rfl, hready⟩
  | cons tree trees ih =>
      obtain ⟨⟨first, hfirst⟩, hlater⟩ := List.forall_mem_cons.mp htrees
      exact exists_bind_eq_ok (addItem_succeeds hready hfirst) fun middle hmiddle =>
        ih hmiddle hlater

theorem addDimensions_succeeds {dimensions : Concrete} {start : Position}
    {pending parts : List Concrete} {pieces : List (Info × Tree Unit)}
    (hready : building.Ready source)
    (hpending : ∀ part ∈ pending, ∃ first, convertItem source (some dimensions) part = .ok first)
    (hparts : convertPieces source dimensions parts = .ok pieces) :
    ∃ next, addDimensions source dimensions start item pending parts building = .ok next ∧
      next.Ready source := by
  induction parts generalizing pending building pieces with
  | nil => exact addItems_succeeds hready hpending
  | cons part parts ih =>
      rw [convertPieces_cons] at hparts
      rw [addDimensions]
      split
      next hcomment =>
        rw [if_pos hcomment] at hparts
        exact ih hready hpending hparts
      next hcomment =>
        rw [if_neg hcomment] at hparts
        obtain ⟨first, hfirst, hrest⟩ := bind_eq_ok_iff.mp hparts
        obtain ⟨later, hlater, -⟩ := bind_eq_ok_iff.mp hrest
        have hlonger : ∀ piece ∈ pending ++ [part], ∃ first,
            convertItem source (some dimensions) piece = .ok first := by
          rw [List.forall_mem_append, List.forall_mem_singleton]
          exact ⟨hpending, first, hfirst⟩
        split
        next =>
          exact exists_bind_eq_ok (addItems_succeeds hready hlonger) fun filled hfilled =>
            ih hfilled (by simp) hlater
        next => exact ih hready hlonger hlater

theorem addChildren_succeeds {job : Job} {children : List Concrete} {items : List (Tree Unit)}
    (hready : building.Ready source)
    (hchildren : convertChildren source job.parent job.owner children = .ok items) :
    ∃ next, addChildren source job children building = .ok next ∧ next.Ready source := by
  induction children generalizing building items with
  | nil => exact ⟨building, rfl, hready⟩
  | cons child children ih =>
      rw [convertChildren_cons] at hchildren
      rw [addChildren]
      split
      next hcomment =>
        rw [if_pos hcomment] at hchildren
        exact ih hready hchildren
      next hcomment =>
        rw [if_neg hcomment] at hchildren
        split
        next hsplits =>
          rw [if_pos hsplits] at hchildren
          obtain ⟨pieces, hpieces, hrest⟩ := bind_eq_ok_iff.mp hchildren
          obtain ⟨later, hlater, -⟩ := bind_eq_ok_iff.mp hrest
          exact exists_bind_eq_ok (addDimensions_succeeds hready (by simp) hpieces)
            fun middle hmiddle => ih hmiddle hlater
        next hwhole =>
          rw [if_neg hwhole] at hchildren
          obtain ⟨first, hfirst, hrest⟩ := bind_eq_ok_iff.mp hchildren
          obtain ⟨later, hlater, -⟩ := bind_eq_ok_iff.mp hrest
          exact exists_bind_eq_ok (addItem_succeeds hready hfirst) fun middle hmiddle =>
            ih hmiddle hlater

theorem Ready.visit {draft : Draft} {job : Job} {waiting : List Job}
    (hready : (⟨draft, job :: waiting⟩ : Building).Ready source) :
    ∃ next, addChildren source job job.owner.children ⟨draft, waiting⟩ = .ok next ∧
      next.Ready source := by
  obtain ⟨⟨items, hitems⟩, hwaiting⟩ := List.forall_mem_cons.mp hready
  have hrest : (⟨draft, waiting⟩ : Building).Ready source := hwaiting
  exact addChildren_succeeds hrest hitems

theorem finish_succeeds (hready : building.Ready source) :
    ∃ final, finish source building = .ok final := by
  induction building using finish.induct source with
  | case1 draft => exact ⟨draft, by rw [finish]⟩
  | case2 draft job waiting fault hadd =>
      obtain ⟨next, hnext, -⟩ := hready.visit
      rw [hadd] at hnext
      cases hnext
  | case3 draft job waiting next hadd ih =>
      obtain ⟨other, hother, hlater⟩ := hready.visit
      rw [hadd] at hother
      cases hother
      rw [finish_cons, hadd, ok_bind]
      exact ih hlater

def Undecodable {α : Type} (outcome : Except ConversionFault α) : Prop :=
  ∀ fault, outcome = .error fault → fault = .undecodableToken

theorem Undecodable.ok {α : Type} (value : α) :
    Undecodable (.ok value : Except ConversionFault α) := by
  intro fault hfault
  cases hfault

theorem Undecodable.bind {α β : Type} {first : Except ConversionFault α}
    {step : α → Except ConversionFault β} (hfirst : Undecodable first)
    (hstep : ∀ value, Undecodable (step value)) : Undecodable (first >>= step) := by
  intro fault hfault
  rcases bind_eq_error_iff.mp hfault with herror | ⟨value, -, herror⟩
  · exact hfirst fault herror
  · exact hstep value fault herror

theorem undecodable_tokenOf (source : SourceBytes) (info : Info) :
    Undecodable (tokenOf source info) := by
  intro fault hfault
  unfold tokenOf at hfault
  split at hfault
  · cases hfault
    rfl
  · cases hfault

theorem undecodable_addItem (parent : Option Concrete) (item : Nat) (tree : Concrete)
    (building : Building) : Undecodable (addItem source parent item tree building) := by
  unfold addItem
  split
  · exact (undecodable_tokenOf source tree.info).bind fun token => .ok _
  · exact .ok _

theorem undecodable_addItems (parent : Option Concrete) (item : Nat) (trees : List Concrete)
    (building : Building) : Undecodable (addItems source parent item trees building) := by
  induction trees generalizing building with
  | nil => exact .ok _
  | cons tree trees ih => exact (undecodable_addItem parent item tree building).bind ih

theorem undecodable_addDimensions (dimensions : Concrete) (start : Position) (item : Nat)
    (pending parts : List Concrete) (building : Building) :
    Undecodable (addDimensions source dimensions start item pending parts building) := by
  induction parts generalizing pending building with
  | nil => exact undecodable_addItems _ _ _ _
  | cons part parts ih =>
      rw [addDimensions]
      split
      · exact ih pending building
      · split
        · exact (undecodable_addItems _ _ _ _).bind (ih [])
        · exact ih _ building

theorem undecodable_addChildren (job : Job) (children : List Concrete) (building : Building) :
    Undecodable (addChildren source job children building) := by
  induction children generalizing building with
  | nil => exact .ok _
  | cons child children ih =>
      rw [addChildren]
      split
      · exact ih building
      · split
        · exact (undecodable_addDimensions _ _ _ _ _ _).bind ih
        · exact (undecodable_addItem _ _ _ _).bind ih

theorem undecodable_finish (building : Building) : Undecodable (finish source building) := by
  induction building using finish.induct source with
  | case1 draft =>
      rw [finish]
      exact .ok draft
  | case2 draft job waiting fault hadd =>
      rw [finish_cons, hadd]
      intro other hother
      cases hother
      exact undecodable_addChildren _ _ _ fault hadd
  | case3 draft job waiting next hadd ih =>
      rw [finish_cons, hadd]
      exact ih

mutual

theorem undecodable_convertItem :
    ∀ (tree : Concrete) (parent : Option Concrete), Undecodable (convertItem source parent tree)
  | node info children, parent => by
      rw [convertItem]
      split
      · exact (undecodable_tokenOf source info).bind fun token => .ok _
      · exact (undecodable_convertChildren parent _ children).bind fun items => .ok _

theorem undecodable_convertChildren (parent : Option Concrete) (owner : Concrete) :
    ∀ children : List Concrete, Undecodable (convertChildren source parent owner children)
  | [] => by
      rw [convertChildren]
      exact .ok _
  | node info children :: rest => by
      have hrest := undecodable_convertChildren parent owner rest
      rw [convertChildren]
      split
      · exact hrest
      · split
        · exact (undecodable_convertPieces _ children).bind fun pieces =>
            hrest.bind fun items => .ok _
        · exact (undecodable_convertItem (node info children) _).bind fun item =>
            hrest.bind fun items => .ok _

theorem undecodable_convertPieces (dimensions : Concrete) :
    ∀ parts : List Concrete, Undecodable (convertPieces source dimensions parts)
  | [] => by
      rw [convertPieces]
      exact .ok _
  | node info children :: rest => by
      have hrest := undecodable_convertPieces dimensions rest
      rw [convertPieces]
      split
      · exact hrest
      · exact (undecodable_convertItem (node info children) _).bind fun item =>
          hrest.bind fun items => .ok _

end

end Building

namespace Concrete

open Building

variable {source : SourceBytes} {root : Concrete}

theorem sound_start (source : SourceBytes) (root : Concrete) :
    (start source root).Sound [] where
  hangs := Draft.hangsOnce_make _
  nodes := by
    intro item hitem
    obtain rfl : item = 0 := by simpa [start] using hitem
    exact ⟨headOf source root, rfl⟩
  distinct := by simp [start]

theorem exists_tree_of_build {draft : Draft} (hbuild : root.build source = .ok draft) :
    draft.HangsOnce ∧ ∃ tree children, draft.tree? 0 = some tree ∧ tree.mark = 0 ∧
      draft.Shows tree ∧ tree.unmarked = .node () (headOf source root) children ∧
      convertChildren source none root root.children = .ok children := by
  unfold build at hbuild
  split at hbuild
  next => cases hbuild
  next =>
    obtain ⟨hhangs, hforetells⟩ := finish_spec (sound_start source root) hbuild
    have hsize : 0 < draft.size := Nat.lt_of_lt_of_le Nat.zero_lt_one hforetells.size_le
    obtain ⟨tree, htree, hmark, hshows⟩ := hhangs.exists_tree hsize
    have hfinal := stands_of_shows hshows
    rw [hmark] at hfinal
    have hstart := hforetells.stands tree.unmarked 0 Nat.zero_lt_one hfinal
    refine ⟨hhangs, tree, ?_⟩
    cases hunmarked : tree.unmarked with
    | leaf mark token =>
        rw [hunmarked, Stands] at hstart
        cases hstart
    | node mark head children =>
        rw [hunmarked, Stands] at hstart
        obtain ⟨hhead, hchildren⟩ := hstart
        cases hhead
        exact ⟨children, htree, hmark, hshows, rfl, standAmong_nil.mp hchildren⟩

theorem convert_of_build {draft : Draft} (hbuild : root.build source = .ok draft) :
    draft.HangsOnce ∧ ∃ tree, draft.tree? 0 = some tree ∧ tree.mark = 0 ∧ draft.Shows tree ∧
      root.convert source = .ok tree.unmarked := by
  obtain ⟨hhangs, tree, children, htree, hmark, hshows, -⟩ := exists_tree_of_build hbuild
  refine ⟨hhangs, tree, htree, hmark, hshows, ?_⟩
  rw [convert, hbuild]
  simp [htree]

/-- Building a tree and reading it is the recursion. -/
theorem convert_eq (source : SourceBytes) (root : Concrete) :
    root.convert source =
      if root.lacksOperator then .error .missingOperator
      else do
        return .node () (headOf source root)
          (← convertChildren source none root root.children) := by
  unfold convert
  split
  next hlacks =>
    rw [build, if_pos hlacks]
    rfl
  next hhas =>
    cases hbuild : root.build source with
    | ok draft =>
        obtain ⟨-, tree, children, htree, -, -, hunmarked, hchildren⟩ := exists_tree_of_build hbuild
        rw [hchildren]
        simp [htree, hunmarked]
    | error fault =>
        rw [build, if_neg hhas] at hbuild
        cases hchildren : convertChildren source none root root.children with
        | ok children =>
            have hready : (start source root).Ready source :=
              List.forall_mem_singleton.mpr ⟨children, hchildren⟩
            obtain ⟨final, hfinal⟩ := finish_succeeds hready
            rw [hbuild] at hfinal
            cases hfinal
        | error other =>
            rw [undecodable_finish _ fault hbuild, undecodable_convertChildren _ _ _ other hchildren]
            rfl

end Concrete

end TokenSpacing.Java
