import TokenSpacing.Construct

/-!
Concrete trees, as a parser of the Java grammar gives them.

Rows and columns are counted from zero, and columns count bytes.  A tree can be
given as an outline, which lists its nodes in document order with their depths.
-/

namespace TokenSpacing.Java

structure Point where
  row : Nat
  column : Nat
  deriving DecidableEq, Repr

/-- What a concrete node says about itself.  `hasError` marks a node with an error at
or below it, `isMissing` a node that the parser had to invent, and `fillsType` a node
that is the type of the declaration above it. -/
structure Info where
  type : String
  start : Point
  stop : Point
  startByte : Nat
  stopByte : Nat
  hasError : Bool
  isMissing : Bool
  fillsType : Bool
  deriving DecidableEq, Repr

def Info.inRow (row first : Nat) (type : String) (start stop : Nat) : Info :=
  ⟨type, ⟨row, start⟩, ⟨row, stop⟩, first + start, first + stop, false, false, false⟩

def Info.inLine (type : String) (start stop : Nat) : Info :=
  inRow 0 0 type start stop

inductive Concrete where
  | node (info : Info) (children : List Concrete)

namespace Concrete

def leaf (type : String) (start stop : Nat) : Concrete :=
  node (.inLine type start stop) []

def info : Concrete → Info
  | node info _ => info

def children : Concrete → List Concrete
  | node _ children => children

def type (tree : Concrete) : String :=
  tree.info.type

def isComment (tree : Concrete) : Bool :=
  tree.type == "line_comment" || tree.type == "block_comment"

/-- Whether a node reads as one token although the parser sees parts in it. -/
def isAtomic (tree : Concrete) : Bool :=
  ["string_literal", "text_block", "character_literal"].contains tree.type

/-! ## Outlines -/

def forest : List (Nat × Info) → List (Nat × Concrete)
  | [] => []
  | (depth, info) :: rest =>
      let later := forest rest
      let below := later.takeWhile fun (level, _) => depth < level
      let beside := later.dropWhile fun (level, _) => depth < level
      (depth, node info (below.map Prod.snd)) :: beside

def ofOutline? (outline : List (Nat × Info)) : Option Concrete :=
  (forest outline).head?.map Prod.snd

/-! ## Constructs -/

def constructOfType? (type : String) : Option Construct :=
  [("annotation", Construct.annotationMark), ("marker_annotation", .annotationMark),
   ("array_access", .arrayAccess), ("array_initializer", .newArray),
   ("cast_expression", .typeCast), ("class_literal", .memberSelect),
   ("field_access", .memberSelect), ("labeled_statement", .labeledStatement),
   ("method_reference", .methodReference), ("scoped_identifier", .memberSelect),
   ("scoped_type_identifier", .memberSelect),
   ("synchronized_statement", .synchronizedStatement)].lookup type

def unaryConstruct? (operator : String) : Option Construct :=
  [("+", Construct.unaryPlus), ("-", .unaryMinus), ("!", .logicalComplement),
   ("~", .bitwiseComplement)].lookup operator

def leadingUpdate? (operator : String) : Option Construct :=
  [("++", Construct.prefixIncrement), ("--", .prefixDecrement)].lookup operator

def trailingUpdate? (operator : String) : Option Construct :=
  [("++", Construct.postfixIncrement), ("--", .postfixDecrement)].lookup operator

def firstType? (tree : Concrete) : Option String :=
  tree.children.head?.map type

def lastType? (tree : Concrete) : Option String :=
  tree.children.getLast?.map type

def construct? (tree : Concrete) : Option Construct :=
  match constructOfType? tree.type with
  | some construct => some construct
  | none =>
      if tree.type == "unary_expression" then
        tree.firstType?.bind unaryConstruct?
      else if tree.type == "update_expression" then
        match tree.firstType?.bind leadingUpdate? with
        | some construct => some construct
        | none => tree.lastType?.bind trailingUpdate?
      else if tree.type == "method_invocation" && tree.children.any (·.type == ".") then
        some .memberSelect
      else
        none

def lacksOperator (tree : Concrete) : Bool :=
  (tree.type == "unary_expression" || tree.type == "update_expression") && tree.children.isEmpty

/-! ## Errors -/

def isFault (tree : Concrete) : Bool :=
  tree.type == "ERROR" || tree.info.isMissing

def isFlagged (tree : Concrete) : Bool :=
  tree.info.hasError || tree.info.isMissing

theorem sizeOf_filter_append_lt (keep : Concrete → Bool) (tree : Concrete)
    (waiting : List Concrete) :
    sizeOf (tree.children.filter keep ++ waiting) < sizeOf (tree :: waiting) := by
  have hlist : ∀ children : List Concrete,
      sizeOf (children.filter keep ++ waiting) < sizeOf children + sizeOf waiting := by
    intro children
    induction children with
    | nil => simp
    | cons child rest ih =>
        by_cases hkeep : keep child = true
        · simp [hkeep]
          omega
        · simp [hkeep]
          omega
  cases tree with
  | node info children =>
      have hchildren := hlist children
      simp [Concrete.children]
      omega

/-- The first error at or below the waiting nodes, searching flagged children only. -/
def firstFault? : List Concrete → Option Concrete
  | [] => none
  | tree :: waiting =>
      if tree.isFault then some tree
      else firstFault? (tree.children.filter isFlagged ++ waiting)
termination_by waiting => sizeOf waiting
decreasing_by exact sizeOf_filter_append_lt isFlagged tree waiting

def errorNode (tree : Concrete) : Concrete :=
  (firstFault? [tree]).getD tree

end Concrete

end TokenSpacing.Java
