import TokenSpacing.Proofs.SpaceBefore

/-!
# Semicolons of `for` statements

A `for` statement with nothing but two semicolons in its header exempts semicolons from
the rule for white space before a token.  The exemption is granted by the statement and
not by the place in it: the two semicolons that separate the clauses have it, and so has
every other one directly below the statement, such as its empty body.
-/

namespace TokenSpacing

variable {Mark : Type}

namespace Node

/-- A `for` statement with nothing but two semicolons between its first opening
parenthesis and the next closing one, or the end. -/
structure EmptyFor (node : Node Mark) (front rest : List (Tree Mark)) : Prop where
  statement : node.head.type = "for_statement"
  parts : ∃ opening first second,
    node.children = front ++ opening :: first :: second :: rest ∧
      opening.isToken "(" = true ∧ first.isToken ";" = true ∧ second.isToken ";" = true
  opens : ∀ child ∈ front, child.isToken "(" = false
  closes : ∀ child ∈ rest.head?, child.isToken ")" = true

end Node

def SeparatesClauses (parent : Option (Node Mark)) (index : Nat) : Prop :=
  ∃ node front rest, parent = some node ∧ node.EmptyFor front rest ∧
    (index = front.length + 1 ∨ index = front.length + 2)

/-- A token in front of the parentheses of an empty header, or behind them. -/
def StraysFromHeader (parent : Option (Node Mark)) (index : Nat) : Prop :=
  ∃ node front rest, parent = some node ∧ node.EmptyFor front rest ∧
    (index < front.length ∨ front.length + 3 < index)

/-! ## Headers -/

theorem Tree.isToken_of_ne {item : Tree Mark} {text : String}
    (hspelled : item.isToken text = true) (other : String) (hother : other ≠ text) :
    item.isToken other = false := by
  cases item with
  | leaf mark token =>
      rw [isToken, beq_iff_eq] at hspelled
      simpa [isToken, hspelled] using hother.symm
  | node mark head children => rfl

theorem Tree.cut_at_token (text : String) (items : List (Tree Mark)) :
    items = items.takeWhile (!·.isToken text) ++ items.dropWhile (!·.isToken text) ∧
      (∀ item ∈ items.takeWhile (!·.isToken text), item.isToken text = false) ∧
      ∀ item ∈ (items.dropWhile (!·.isToken text)).head?, item.isToken text = true := by
  refine ⟨List.takeWhile_append_dropWhile.symm, ?_, ?_⟩
  · intro item hitem
    simpa using List.mem_takeWhile_imp hitem
  · intro item hitem
    have hhead := List.head?_dropWhile_not (!·.isToken text) items
    rw [Option.mem_def.mp hitem] at hhead
    simpa using hhead

namespace Node

variable {node : Node Mark} {front rest : List (Tree Mark)}

theorem EmptyFor.front_eq (hempty : node.EmptyFor front rest) :
    front = node.children.takeWhile (!·.isToken "(") := by
  obtain ⟨opening, first, second, hchildren, hopening, -, -⟩ := hempty.parts
  rw [hchildren, List.takeWhile_append_of_pos (by simpa using hempty.opens),
    List.takeWhile_cons_of_neg (by simp [hopening]), List.append_nil]

theorem EmptyFor.parenthesized_eq (hempty : node.EmptyFor front rest) :
    ∃ first second, node.parenthesized = [first, second] ∧
      first.isToken ";" = true ∧ second.isToken ";" = true := by
  obtain ⟨opening, first, second, hchildren, hopening, hfirst, hsecond⟩ := hempty.parts
  have hopened : node.children.dropWhile (!·.isToken "(") = opening :: first :: second :: rest := by
    rw [hchildren, List.dropWhile_append_of_pos (by simpa using hempty.opens),
      List.dropWhile_cons_of_neg (by simp [hopening])]
  have hended : rest.takeWhile (!·.isToken ")") = [] := by
    cases rest with
    | nil => rfl
    | cons closing later => simpa using hempty.closes closing rfl
  have hinside : ∀ item : Tree Mark, item.isToken ";" = true → item.isToken ")" = false :=
    fun item hitem => Tree.isToken_of_ne hitem _ (by decide)
  refine ⟨first, second, ?_, hfirst, hsecond⟩
  rw [parenthesized, hopened, List.drop_one, List.tail_cons,
    List.takeWhile_cons_of_pos (by simp [hinside first hfirst]),
    List.takeWhile_cons_of_pos (by simp [hinside second hsecond]), hended]

theorem emptyFor_of_parenthesized {first second : Tree Mark}
    (hstatement : node.head.type = "for_statement")
    (hheader : node.parenthesized = [first, second])
    (hfirst : first.isToken ";" = true) (hsecond : second.isToken ";" = true) :
    ∃ front rest, node.EmptyFor front rest := by
  obtain ⟨hchildren, hfront, hopens⟩ := Tree.cut_at_token "(" node.children
  rw [parenthesized] at hheader
  cases hopened : node.children.dropWhile (!·.isToken "(") with
  | nil => simp [hopened] at hheader
  | cons opening inside =>
      rw [hopened] at hchildren hopens hheader
      obtain ⟨hinside, -, hcloses⟩ := Tree.cut_at_token ")" inside
      rw [List.drop_one, List.tail_cons] at hheader
      rw [hheader] at hinside
      refine ⟨_, _, hstatement, ⟨opening, first, second, ?_, hopens opening rfl, hfirst, hsecond⟩,
        hfront, hcloses⟩
      rw [hinside] at hchildren
      exact hchildren

theorem hasEmptyForHeader_iff :
    node.hasEmptyForHeader = true ↔ ∃ front rest, node.EmptyFor front rest := by
  simp only [hasEmptyForHeader, Bool.and_eq_true, beq_iff_eq, List.length_eq_two]
  constructor
  · rintro ⟨⟨hstatement, first, second, hheader⟩, hall⟩
    rw [hheader, List.all_eq_true] at hall
    exact emptyFor_of_parenthesized hstatement hheader (hall first (by simp))
      (hall second (by simp))
  · rintro ⟨front, rest, hempty⟩
    obtain ⟨first, second, hheader, hfirst, hsecond⟩ := hempty.parenthesized_eq
    exact ⟨⟨hempty.statement, first, second, hheader⟩, by simp [hheader, hfirst, hsecond]⟩

theorem EmptyFor.place (hempty : node.EmptyFor front rest) {index : Nat} {item : Tree Mark}
    (hplaced : node.children[index]? = some item) (hspelled : item.isToken ";" = true) :
    (index = front.length + 1 ∨ index = front.length + 2) ∨
      (index < front.length ∨ front.length + 3 < index) := by
  obtain ⟨opening, first, second, hchildren, hopening, -, -⟩ := hempty.parts
  have hnotOpening : index ≠ front.length := by
    rintro rfl
    obtain rfl : opening = item := by simpa [hchildren] using hplaced
    simp [Tree.isToken_of_ne hspelled "(" (by decide)] at hopening
  have hnotClosing : index ≠ front.length + 3 := by
    rintro rfl
    rw [hchildren, List.getElem?_append_right (Nat.le_add_right _ _),
      Nat.add_sub_cancel_left] at hplaced
    have hclosing := hempty.closes item (by simpa [List.head?_eq_getElem?] using hplaced)
    simp [Tree.isToken_of_ne hspelled ")" (by decide)] at hclosing
  omega

end Node

theorem inEmptyForHeader_iff {parent : Option (Node Mark)} :
    inEmptyForHeader parent = true ↔
      ∃ node front rest, parent = some node ∧ node.EmptyFor front rest := by
  cases parent with
  | none => simp [inEmptyForHeader]
  | some node => simp [inEmptyForHeader, Node.hasEmptyForHeader_iff]

theorem literalConstruct?_semicolon (parent : Option (Node Mark)) {token : Token}
    (htext : token.text = ";") :
    literalConstruct? parent token =
      if inEmptyForHeader parent then none else some .semicolon := by
  have hspelled : Construct.ofLiteral? ";" = some .semicolon := by decide
  rw [literalConstruct?, htext, hspelled]

/-! ## The exemption -/

theorem exempt_iff_place {parent : Option (Node Mark)} {index : Nat} {item : Tree Mark}
    (hplaced : ∀ node ∈ parent, node.children[index]? = some item)
    (hspelled : item.isToken ";" = true) :
    inEmptyForHeader parent = true ↔
      SeparatesClauses parent index ∨ StraysFromHeader parent index := by
  rw [inEmptyForHeader_iff]
  constructor
  · rintro ⟨node, front, rest, hparent, hempty⟩
    rcases hempty.place (hplaced node hparent) hspelled with hheader | hstray
    · exact .inl ⟨node, front, rest, hparent, hempty, hheader⟩
    · exact .inr ⟨node, front, rest, hparent, hempty, hstray⟩
  · rintro (⟨node, front, rest, hparent, hempty, -⟩ | ⟨node, front, rest, hparent, hempty, -⟩)
    · exact ⟨node, front, rest, hparent, hempty⟩
    · exact ⟨node, front, rest, hparent, hempty⟩

theorem not_separates_of_strays {parent : Option (Node Mark)} {index : Nat}
    (hstrays : StraysFromHeader parent index) : ¬SeparatesClauses parent index := by
  obtain ⟨node, front, rest, rfl, hempty, hstray⟩ := hstrays
  rintro ⟨other, otherFront, otherRest, hsame, hother, hheader⟩
  obtain rfl := Option.some.inj hsame
  have hfront : front = otherFront := hempty.front_eq.trans hother.front_eq.symm
  rw [hfront] at hstray
  omega

/--
A semicolon is exempt if it separates the clauses of an empty header, and also if it
stands elsewhere below a `for` statement with such a header.  Every other semicolon is a
construct.
-/
theorem semicolon_exempt_exact (parent : Option (Node Mark)) (index : Nat) (mark : Mark)
    (token : Token)
    (hplaced : ∀ node ∈ parent, node.children[index]? = some (.leaf mark token))
    (htext : token.text = ";") :
    (inEmptyForHeader parent = true ↔
        SeparatesClauses parent index ∨ StraysFromHeader parent index) ∧
      (StraysFromHeader parent index → ¬SeparatesClauses parent index) ∧
      (literalConstruct? parent token = none ↔
        SeparatesClauses parent index ∨ StraysFromHeader parent index) ∧
      (literalConstruct? parent token = some .semicolon ↔
        ¬SeparatesClauses parent index ∧ ¬StraysFromHeader parent index) := by
  have hexempt := exempt_iff_place hplaced (by simpa [Tree.isToken] using htext)
  have hconstruct := literalConstruct?_semicolon parent htext
  refine ⟨hexempt, not_separates_of_strays, ?_, ?_⟩
  · rw [hconstruct, ← hexempt]
    simp
  · rw [hconstruct, ← not_or, ← hexempt]
    simp

def emptyLoop : Node Nat :=
  let span (start stop : Int) : Span := ⟨"Loop.java", ⟨1, start⟩, ⟨1, stop⟩⟩
  let token (mark : Nat) (text : String) (start stop : Int) : Tree Nat :=
    .leaf mark ⟨text, span start stop⟩
  ⟨0, ⟨"for_statement", none, span 1 11⟩,
    [token 1 "for" 1 4, token 2 "(" 5 6, token 3 ";" 6 7, token 4 ";" 7 8, token 5 ")" 8 9,
     token 6 ";" 10 11]⟩

def emptyBody : Token :=
  ⟨";", "Loop.java", ⟨1, 10⟩, ⟨1, 11⟩⟩

theorem emptyLoop_emptyFor : emptyLoop.EmptyFor (emptyLoop.children.take 1)
    (emptyLoop.children.drop 4) where
  statement := rfl
  parts := ⟨_, _, _, rfl, rfl, rfl, rfl⟩
  opens := by decide
  closes := by decide

theorem straysFromHeader_emptyBody : StraysFromHeader (some emptyLoop) 5 :=
  ⟨emptyLoop, _, _, rfl, emptyLoop_emptyFor, by decide⟩

theorem semicolon_exempt_emptyBody :
    (∀ node ∈ some emptyLoop, node.children[5]? = some (.leaf 6 emptyBody)) ∧
      emptyBody.text = ";" ∧ StraysFromHeader (some emptyLoop) 5 ∧
      ¬SeparatesClauses (some emptyLoop) 5 ∧
      literalConstruct? (some emptyLoop) emptyBody = none := by
  have hplaced : ∀ node ∈ some emptyLoop, node.children[5]? = some (.leaf 6 emptyBody) := by
    rintro _ ⟨⟩
    rfl
  have hstrays := straysFromHeader_emptyBody
  obtain ⟨-, hapart, hnone, -⟩ := semicolon_exempt_exact (some emptyLoop) 5 6 emptyBody hplaced rfl
  exact ⟨hplaced, rfl, hstrays, hapart hstrays, hnone.mpr (.inr hstrays)⟩

/-- The exemption does not cover exactly the header. -/
theorem emptyBody_exempt_outside_header :
    emptyLoop.children[5]? = some (.leaf 6 emptyBody) ∧ emptyBody.text = ";" ∧
      ¬(inEmptyForHeader (some emptyLoop) = true ↔ SeparatesClauses (some emptyLoop) 5) ∧
      literalConstruct? (some emptyLoop) emptyBody ≠ some .semicolon := by
  have hoff := not_separates_of_strays straysFromHeader_emptyBody
  refine ⟨rfl, rfl, ?_, by decide⟩
  intro hexact
  exact hoff (hexact.mp (by decide))

end TokenSpacing
