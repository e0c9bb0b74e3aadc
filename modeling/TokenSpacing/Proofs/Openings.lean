import TokenSpacing.Proofs.Comments
import TokenSpacing.Proofs.Leaves

/-!
# Opened nodes of a concrete tree

A concrete node is opened if its children become the items of a node.  Dimensions are not
opened, except below the creation of an array: their parts are converted where their owner
is.  A tree can be converted if and only if the tokens directly below its opened nodes are
text.
-/

namespace TokenSpacing.Java

structure Opening where
  parent : Option Concrete
  owner : Concrete

namespace Concrete

/-- Induction that reaches two levels down, since the parts of dimensions are converted
where their owner is. -/
theorem induction {motive : Concrete → Prop}
    (step : ∀ info children,
      (∀ child ∈ children, motive child ∧ ∀ part ∈ child.children, motive part) →
        motive (node info children)) :
    ∀ tree : Concrete, motive tree ∧ ∀ child ∈ tree.children, motive child
  | node info children => by
      have hbelow : ∀ child ∈ children, motive child ∧ ∀ part ∈ child.children, motive part :=
        fun child _ => induction step child
      exact ⟨step info children hbelow, fun child hchild => (hbelow child hchild).1⟩

mutual

/-- The nodes that are opened at a node or below it, in document order. -/
def openings (parent : Option Concrete) : Concrete → List Opening
  | node info children =>
      if children.isEmpty || (node info children).isAtomic then []
      else ⟨parent, node info children⟩ :: openingsAmong (node info children) children

def openingsAmong (owner : Concrete) : List Concrete → List Opening
  | [] => []
  | node info children :: rest =>
      (if (node info children).isComment then []
        else if owner.splitsInto (node info children) then
          openingsOfParts (node info children) children
        else (node info children).openings (some owner)) ++ openingsAmong owner rest

def openingsOfParts (dimensions : Concrete) : List Concrete → List Opening
  | [] => []
  | part :: rest =>
      (if part.isComment then [] else part.openings (some dimensions)) ++
        openingsOfParts dimensions rest

end

def allOpenings (root : Concrete) : List Opening :=
  ⟨none, root⟩ :: openingsAmong root root.children

theorem openingsOfParts_eq (dimensions : Concrete) (parts : List Concrete) :
    openingsOfParts dimensions parts =
      (parts.filter (!·.isComment)).flatMap (openings (some dimensions)) := by
  induction parts with
  | nil => simp [openingsOfParts]
  | cons part rest ih => cases hcomment : part.isComment <;> simp [openingsOfParts, ih, hcomment]

def pieces (owner child : Concrete) : List Concrete :=
  if child.isComment then []
  else if owner.splitsInto child then child.children.filter (!·.isComment)
  else [child]

def holder (owner child : Concrete) : Concrete :=
  if owner.splitsInto child then child else owner

def Legible (source : SourceBytes) (tree : Concrete) : Prop :=
  (tree.children.isEmpty || tree.isAtomic) = true →
    ∃ text, Text.encode text = source.slice tree.info.startByte tree.info.stopByte

end Concrete

def Opening.Legible (source : SourceBytes) (place : Opening) : Prop :=
  ∀ child ∈ place.owner.children, ∀ piece ∈ place.owner.pieces child, piece.Legible source

namespace Concrete

def openingsFrom (owner child : Concrete) : List Opening :=
  (owner.pieces child).flatMap (openings (some (owner.holder child)))

theorem openingsAmong_eq (owner : Concrete) (children : List Concrete) :
    openingsAmong owner children = children.flatMap owner.openingsFrom := by
  induction children with
  | nil => simp [openingsAmong]
  | cons child rest ih =>
      cases child
      rw [openingsAmong, ih, openingsOfParts_eq, List.flatMap_cons, openingsFrom, pieces, holder]
      split
      next => rfl
      next =>
        split
        next => rfl
        next => rw [List.flatMap_singleton]

theorem pieces_of_split {owner child : Concrete} (htype : child.type = "dimensions")
    (howner : owner.type ≠ "array_creation_expression") :
    owner.pieces child = child.children.filter (!·.isComment) ∧ owner.holder child = child := by
  simp [pieces, holder, isComment, splitsInto, htype, howner]

theorem pieces_of_whole {owner child : Concrete} (hcomment : child.isComment = false)
    (hwhole : child.type = "dimensions" → owner.type = "array_creation_expression") :
    owner.pieces child = [child] ∧ owner.holder child = owner := by
  have hsplits : owner.splitsInto child = false := by simpa [splitsInto] using hwhole
  simp [pieces, holder, hcomment, hsplits]

theorem openingsFrom_of_split {owner child : Concrete} (htype : child.type = "dimensions")
    (howner : owner.type ≠ "array_creation_expression") :
    owner.openingsFrom child =
      (child.children.filter (!·.isComment)).flatMap (openings (some child)) := by
  obtain ⟨hpieces, hholder⟩ := pieces_of_split htype howner
  rw [openingsFrom, hpieces, hholder]

theorem openingsFrom_of_whole {owner child : Concrete} (hcomment : child.isComment = false)
    (hwhole : child.type = "dimensions" → owner.type = "array_creation_expression") :
    owner.openingsFrom child = child.openings (some owner) := by
  obtain ⟨hpieces, hholder⟩ := pieces_of_whole hcomment hwhole
  rw [openingsFrom, hpieces, hholder, List.flatMap_singleton]

theorem openings_eq (parent : Option Concrete) (tree : Concrete) :
    tree.openings parent =
      if tree.children.isEmpty || tree.isAtomic then []
      else ⟨parent, tree⟩ :: openingsAmong tree tree.children := by
  cases tree
  rw [openings]
  rfl

variable {source : SourceBytes}

/-! ## When a tree can be converted -/

theorem exists_convertPieces_iff {dimensions : Concrete} {parts : List Concrete} :
    (∃ pieces, convertPieces source dimensions parts = .ok pieces) ↔
      ∀ part ∈ parts.filter (!·.isComment), ∃ item,
        convertItem source (some dimensions) part = .ok item := by
  induction parts with
  | nil => simp [convertPieces]
  | cons part rest ih =>
      rw [convertPieces_cons]
      split
      next hcomment => simpa [hcomment] using ih
      next hcomment =>
        rw [exists_pair_eq_ok_iff, ih, List.filter_cons_of_pos (by simp [hcomment]),
          List.forall_mem_cons]

theorem exists_convertChildren_iff (parent : Option Concrete) {owner : Concrete}
    {children : List Concrete} :
    (∃ items, convertChildren source parent owner children = .ok items) ↔
      ∀ child ∈ children, ∀ piece ∈ owner.pieces child, ∃ item,
        convertItem source (some (owner.holder child)) piece = .ok item := by
  induction children with
  | nil => simp [convertChildren]
  | cons child rest ih =>
      rw [convertChildren_cons, List.forall_mem_cons, ← ih, pieces, holder]
      split
      next => simp
      next =>
        split
        next => rw [exists_pair_eq_ok_iff, exists_convertPieces_iff]
        next => rw [exists_pair_eq_ok_iff, List.forall_mem_singleton]

def Convertible (source : SourceBytes) (tree : Concrete) : Prop :=
  ∀ parent, (∃ item, convertItem source parent tree = .ok item) ↔
    tree.Legible source ∧ ∀ place ∈ tree.openings parent, place.Legible source

theorem forall_mem_pieces {motive : Concrete → Prop} {owner child : Concrete}
    (hbelow : motive child ∧ ∀ part ∈ child.children, motive part) :
    ∀ piece ∈ owner.pieces child, motive piece := by
  intro piece hpiece
  rw [pieces] at hpiece
  split at hpiece
  next => simp at hpiece
  next =>
    split at hpiece
    next => exact hbelow.2 piece (List.mem_of_mem_filter hpiece)
    next => exact List.mem_singleton.mp hpiece ▸ hbelow.1

theorem exists_convertChildren_iff_legible (place : Opening)
    (hbelow : ∀ child ∈ place.owner.children,
      child.Convertible source ∧ ∀ part ∈ child.children, part.Convertible source) :
    (∃ items,
        convertChildren source place.parent place.owner place.owner.children = .ok items) ↔
      ∀ inner ∈ place :: openingsAmong place.owner place.owner.children,
        inner.Legible source := by
  have hpieces : ∀ child ∈ place.owner.children, ∀ piece ∈ place.owner.pieces child,
      ((∃ item, convertItem source (some (place.owner.holder child)) piece = .ok item) ↔
        piece.Legible source ∧
          ∀ inner ∈ piece.openings (some (place.owner.holder child)), inner.Legible source) :=
    fun child hchild piece hpiece => forall_mem_pieces (hbelow child hchild) piece hpiece _
  rw [exists_convertChildren_iff, List.forall_mem_cons, openingsAmong_eq,
    List.forall_mem_flatMap]
  simp only [openingsFrom, List.forall_mem_flatMap, Opening.Legible, ← forall_and]
  exact forall₂_congr fun child hchild => forall₂_congr (hpieces child hchild)

theorem convertible (tree : Concrete) : tree.Convertible source := by
  refine (induction (motive := Convertible source) ?_ tree).1
  intro info children hbelow parent
  rw [convertItem_eq, openings_eq]
  split
  next hleaf =>
    simp only [exists_return_eq_ok_iff, exists_tokenOf_iff, Legible, hleaf, true_imp_iff,
      List.not_mem_nil, false_imp_iff, implies_true, and_true]
  next hopen =>
    have hchildren := exists_convertChildren_iff_legible ⟨parent, node info children⟩ hbelow
    rw [exists_return_eq_ok_iff, hchildren, and_iff_right]
    exact fun hleaf => absurd hleaf hopen

theorem exists_convert_iff_legible {root : Concrete} :
    (∃ tree, root.convert source = .ok tree) ↔
      root.lacksOperator = false ∧ ∀ place ∈ root.allOpenings, place.Legible source := by
  have hall : ∀ tree : Concrete, tree.Convertible source := convertible
  have hchildren := exists_convertChildren_iff_legible ⟨none, root⟩
    fun child _ => ⟨hall child, fun part _ => hall part⟩
  rw [convert_eq]
  split
  next hlacks => simp [hlacks]
  next hoperator =>
    rw [exists_return_eq_ok_iff, hchildren, and_iff_right (eq_false_of_ne_true hoperator)]
    rfl

end Concrete

end TokenSpacing.Java
