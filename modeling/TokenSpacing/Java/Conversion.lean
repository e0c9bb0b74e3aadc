import TokenSpacing.Draft
import TokenSpacing.Java.Concrete
import TokenSpacing.Violation
import TokenSpacing.Text.Layout
import TokenSpacing.Text.Utf8

/-!
From concrete trees to trees of tokens.

Byte positions become character positions, comments disappear, and every pair of
brackets of an array type becomes a node of its own.
-/

namespace TokenSpacing.Java

structure SourceBytes where
  file : String
  lines : Array (List Char)
  bytes : List UInt8

abbrev EncodedLines := List (Nat × List UInt8)

namespace SourceBytes

def ofText (file : String) (text : List Char) : SourceBytes :=
  ⟨file, (Text.splitLines text).toArray, Text.encode text⟩

/-- The bytes of a line.  They are kept when they are asked for the first time. -/
def encodedLine (source : SourceBytes) (row : Nat) (kept : EncodedLines) :
    List UInt8 × EncodedLines :=
  match kept.lookup row with
  | some bytes => (bytes, kept)
  | none =>
      let bytes := Text.encode (source.lines.getD row [])
      (bytes, (row, bytes) :: kept)

/-- Bytes and characters agree on an ASCII line.  On any other line the characters in front
of the column are counted; one that the column cuts is left out. -/
def locate (source : SourceBytes) (point : Point) (kept : EncodedLines) :
    Position × EncodedLines :=
  if (source.lines.getD point.row []).all Text.isAscii then
    (⟨point.row + 1, point.column + 1⟩, kept)
  else
    let (bytes, kept) := source.encodedLine point.row kept
    (⟨point.row + 1, (Text.decodeIgnoring (bytes.take point.column)).length + 1⟩, kept)

def positionOf (source : SourceBytes) (point : Point) : Position :=
  (source.locate point []).1

def spanOf (source : SourceBytes) (info : Info) : Span :=
  let (start, kept) := source.locate info.start []
  ⟨source.file, start, (source.locate info.stop kept).1⟩

def slice (source : SourceBytes) (start stop : Nat) : List UInt8 :=
  (source.bytes.drop start).take (stop - start)

end SourceBytes

inductive ConversionFault where
  | undecodableToken
  | missingOperator
  deriving DecidableEq, Repr

namespace Concrete

def tokenOf (source : SourceBytes) (info : Info) : Except ConversionFault Token :=
  match Text.decode? (source.slice info.startByte info.stopByte) with
  | none => .error .undecodableToken
  | some text => .ok ⟨String.ofList text, source.spanOf info⟩

def headOf (source : SourceBytes) (tree : Concrete) : Head :=
  ⟨tree.type, tree.construct?, source.spanOf tree.info⟩

/-- The node whose start is the start of the array type that `owner`'s dimensions
extend.  Dimensions of a declarator extend the type of the enclosing declaration. -/
def dimensionOrigin (parent : Option Concrete) (owner : Concrete) : Info :=
  let declaration := if owner.type == "variable_declarator" then parent else some owner
  let declared := declaration.bind fun tree => tree.children.find? (·.info.fillsType)
  (declared.map info).getD owner.info

/-- Whether a child's brackets become nodes of their own.  The dimensions of a new array
belong to its expression instead. -/
def splitsInto (owner child : Concrete) : Bool :=
  child.type == "dimensions" && owner.type != "array_creation_expression"

end Concrete

/-! ## Building the tree -/

/-- A node of a draft that waits for its children.  It is made of `owner`, which hangs
below `parent` in the concrete tree. -/
structure Job where
  parent : Option Concrete
  owner : Concrete
  item : Nat

structure Building where
  draft : Draft
  waiting : List Job

namespace Building

open Concrete

def addItem (source : SourceBytes) (parent : Option Concrete) (item : Nat) (tree : Concrete)
    (building : Building) : Except ConversionFault Building :=
  if tree.children.isEmpty || tree.isAtomic then do
    let token ← tokenOf source tree.info
    return { building with draft := building.draft.add item (.token token) }
  else
    .ok ⟨building.draft.add item (.head (headOf source tree)),
      ⟨parent, tree, building.draft.size⟩ :: building.waiting⟩

def addItems (source : SourceBytes) (parent : Option Concrete) (item : Nat) :
    List Concrete → Building → Except ConversionFault Building
  | [], building => .ok building
  | tree :: rest, building => do
      addItems source parent item rest (← addItem source parent item tree building)

/-- Adds one array type node for each closing bracket, holding the pieces up to it.
Pieces after the last closing bracket stand for themselves. -/
def addDimensions (source : SourceBytes) (dimensions : Concrete) (start : Position)
    (item : Nat) (pending : List Concrete) :
    List Concrete → Building → Except ConversionFault Building
  | [], building => addItems source (some dimensions) item pending building
  | part :: rest, building => do
      if part.isComment then
        addDimensions source dimensions start item pending rest building
      else if part.type == "]" then
        let span : Span := ⟨source.file, start, source.positionOf part.info.stop⟩
        let opened := building.draft.add item (.head ⟨"dimension", some .arrayType, span⟩)
        let filled ← addItems source (some dimensions) building.draft.size (pending ++ [part])
          ⟨opened, building.waiting⟩
        addDimensions source dimensions start item [] rest filled
      else
        addDimensions source dimensions start item (pending ++ [part]) rest building

def addChildren (source : SourceBytes) (job : Job) :
    List Concrete → Building → Except ConversionFault Building
  | [], building => .ok building
  | child :: rest, building => do
      if child.isComment then
        addChildren source job rest building
      else if job.owner.splitsInto child then
        let start := source.positionOf (dimensionOrigin job.parent job.owner).start
        let added ← addDimensions source child start job.item [] child.children building
        addChildren source job rest added
      else
        let added ← addItem source (some job.owner) job.item child building
        addChildren source job rest added

def owners (building : Building) : List Concrete :=
  building.waiting.map Job.owner

/-! A visit leaves less to visit than the node that it is for. -/

section Weight

variable {source : SourceBytes}

theorem exists_of_bind_eq_ok {ε α β : Type} {first : Except ε α} {next : α → Except ε β}
    {result : β} (hresult : first >>= next = .ok result) :
    ∃ value, first = .ok value ∧ next value = .ok result := by
  cases first with
  | error fault => cases hresult
  | ok value => exact ⟨value, rfl, hresult⟩

theorem sizeOf_children_lt (tree : Concrete) : sizeOf tree.children < sizeOf tree := by
  cases tree with
  | node info children =>
      simp only [Concrete.children, Concrete.node.sizeOf_spec]
      omega

theorem sizeOf_append (first second : List Concrete) :
    sizeOf (first ++ second) + 1 = sizeOf first + sizeOf second := by
  induction first with
  | nil => simp [Nat.add_comm]
  | cons tree rest ih =>
      simp only [List.cons_append, List.cons.sizeOf_spec]
      omega

theorem sizeOf_owners_addItem {parent : Option Concrete} {item : Nat} {tree : Concrete}
    {building next : Building} (hadd : addItem source parent item tree building = .ok next) :
    sizeOf next.owners ≤ sizeOf building.owners + sizeOf tree + 1 := by
  unfold addItem at hadd
  split at hadd
  · obtain ⟨token, -, hnext⟩ := exists_of_bind_eq_ok hadd
    cases hnext
    simp only [owners]
    omega
  · cases hadd
    simp only [owners, List.map_cons, List.cons.sizeOf_spec]
    omega

theorem sizeOf_owners_addItems {parent : Option Concrete} {item : Nat} {trees : List Concrete}
    {building next : Building} (hadd : addItems source parent item trees building = .ok next) :
    sizeOf next.owners + 1 ≤ sizeOf building.owners + sizeOf trees := by
  induction trees generalizing building with
  | nil =>
      cases hadd
      simp only [List.nil.sizeOf_spec]
      omega
  | cons tree rest ih =>
      obtain ⟨added, hadded, hlater⟩ := exists_of_bind_eq_ok hadd
      have hitem := sizeOf_owners_addItem hadded
      have hrest := ih hlater
      simp only [List.cons.sizeOf_spec]
      omega

theorem sizeOf_owners_addDimensions {dimensions : Concrete} {start : Position} {item : Nat}
    {pending parts : List Concrete} {building next : Building}
    (hadd : addDimensions source dimensions start item pending parts building = .ok next) :
    sizeOf next.owners + 2 ≤ sizeOf building.owners + sizeOf pending + sizeOf parts := by
  induction parts generalizing pending building with
  | nil =>
      have hpending := sizeOf_owners_addItems hadd
      simp only [List.nil.sizeOf_spec]
      omega
  | cons part rest ih =>
      have hlonger := sizeOf_append pending [part]
      simp only [List.cons.sizeOf_spec, List.nil.sizeOf_spec] at hlonger ⊢
      rw [addDimensions] at hadd
      split at hadd
      · have hrest := ih hadd
        omega
      · split at hadd
        · obtain ⟨filled, hfilled, hlater⟩ := exists_of_bind_eq_ok hadd
          have hpieces := sizeOf_owners_addItems hfilled
          have hrest := ih hlater
          simp only [owners, List.nil.sizeOf_spec] at hpieces hrest ⊢
          omega
        · have hrest := ih hadd
          omega

theorem sizeOf_owners_addChildren {job : Job} {children : List Concrete}
    {building next : Building} (hadd : addChildren source job children building = .ok next) :
    sizeOf next.owners + 1 ≤ sizeOf building.owners + sizeOf children := by
  induction children generalizing building with
  | nil =>
      cases hadd
      simp only [List.nil.sizeOf_spec]
      omega
  | cons child rest ih =>
      simp only [List.cons.sizeOf_spec]
      rw [addChildren] at hadd
      split at hadd
      · have hrest := ih hadd
        omega
      · split at hadd
        · obtain ⟨added, hadded, hlater⟩ := exists_of_bind_eq_ok hadd
          have hparts := sizeOf_owners_addDimensions hadded
          have hrest := ih hlater
          have hchild := sizeOf_children_lt child
          simp only [List.nil.sizeOf_spec] at hparts
          omega
        · obtain ⟨added, hadded, hlater⟩ := exists_of_bind_eq_ok hadd
          have hitem := sizeOf_owners_addItem hadded
          have hrest := ih hlater
          omega

end Weight

def start (source : SourceBytes) (root : Concrete) : Building :=
  ⟨Draft.empty.make (.head (headOf source root)), [⟨none, root, 0⟩]⟩

/-- Visits the waiting nodes, the latest first, until none is left. -/
def finish (source : SourceBytes) : Building → Except ConversionFault Draft
  | ⟨draft, []⟩ => .ok draft
  | ⟨draft, job :: waiting⟩ =>
      match _hadd : addChildren source job job.owner.children ⟨draft, waiting⟩ with
      | .error fault => .error fault
      | .ok next => finish source next
termination_by building => sizeOf building.owners
decreasing_by
  have hless := sizeOf_owners_addChildren _hadd
  have hchildren := sizeOf_children_lt job.owner
  simp only [owners, List.map_cons, List.cons.sizeOf_spec] at hless ⊢
  omega

end Building

namespace Concrete

def build (source : SourceBytes) (root : Concrete) : Except ConversionFault Draft :=
  if root.lacksOperator then
    .error .missingOperator
  else
    (Building.start source root).finish source

def convert (source : SourceBytes) (root : Concrete) : Except ConversionFault (Tree Unit) := do
  let draft ← root.build source
  return ((draft.tree? 0).map Tree.unmarked).getD (.node () (headOf source root) [])

end Concrete

inductive ParseFailure where
  | rejected (error : ParseError)
  | unconvertible (fault : ConversionFault)
  deriving DecidableEq, Repr

def parseErrorOf (source : SourceBytes) (root : Concrete) : ParseError :=
  let info := root.errorNode.info
  ⟨source.spanOf info, if info.isMissing then .missing info.type else .unexpected⟩

def parseText (file : String) (text : List Char) (root : Concrete) :
    Except ParseFailure (SourceUnit Unit) :=
  let source := SourceBytes.ofText file text
  if root.info.hasError then
    .error (.rejected (parseErrorOf source root))
  else
    match root.convert source with
    | .error fault => .error (.unconvertible fault)
    | .ok tree => .ok ⟨file, source.lines.toList, ['\n'], tree⟩

end TokenSpacing.Java
