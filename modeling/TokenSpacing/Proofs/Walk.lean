import Mathlib.Data.List.Basic
import TokenSpacing.Tree

/-!
# Walks over trees

The walk of a node is the node and then the walks of its children.  A site of a
tree holds an item of its walk, and hangs below another item of it unless it is the
whole tree.
-/

namespace TokenSpacing

variable {Mark : Type}

namespace Tree

@[elab_as_elim]
theorem induction {motive : Tree Mark → Prop}
    (leaf : ∀ mark token, motive (.leaf mark token))
    (node : ∀ mark head children, (∀ child ∈ children, motive child) →
      motive (.node mark head children)) :
    ∀ tree, motive tree
  | .leaf mark token => leaf mark token
  | .node mark head children =>
      node mark head children fun child _ => induction leaf node child

/-! ## Sites and items -/

theorem sitesAmong_eq_flatMap (parent : Node Mark) (children : List (Tree Mark)) :
    sitesAmong parent children = children.flatMap (sites (some parent)) := by
  induction children with
  | nil => simp [sitesAmong]
  | cons child rest ih => simp [sitesAmong, ih]

@[simp] theorem sites_leaf (parent : Option (Node Mark)) (mark : Mark) (token : Token) :
    (leaf mark token).sites parent = [⟨parent, leaf mark token⟩] := by
  simp [sites]

theorem sites_node (parent : Option (Node Mark)) (mark : Mark) (head : Head)
    (children : List (Tree Mark)) :
    (node mark head children).sites parent =
      ⟨parent, node mark head children⟩ ::
        children.flatMap (sites (some ⟨mark, head, children⟩)) := by
  rw [sites, sitesAmong_eq_flatMap]

theorem map_item_sites (parent : Option (Node Mark)) (tree : Tree Mark) :
    (tree.sites parent).map Site.item = tree.walk := by
  cases tree with
  | leaf mark token => simp [walk]
  | node mark head children => simp [walk, sites_node]

@[simp] theorem walk_leaf (mark : Mark) (token : Token) :
    (leaf mark token).walk = [leaf mark token] := by
  simp [walk]

@[simp] theorem walk_node (mark : Mark) (head : Head) (children : List (Tree Mark)) :
    (node mark head children).walk = node mark head children :: children.flatMap walk := by
  rw [← map_item_sites none, sites_node, List.map_cons, List.map_flatMap]
  congr 2
  funext child
  exact map_item_sites _ child

theorem self_mem_walk (tree : Tree Mark) : tree ∈ tree.walk := by
  cases tree <;> simp

theorem walk_subset_of_mem_children {mark : Mark} {head : Head} {children : List (Tree Mark)}
    {child : Tree Mark} (hchild : child ∈ children) :
    child.walk ⊆ (node mark head children).walk := by
  intro item hitem
  rw [walk_node]
  exact List.mem_cons_of_mem _ (List.mem_flatMap.mpr ⟨child, hchild, hitem⟩)

theorem walk_subset_of_mem_walk {tree item : Tree Mark} (hitem : item ∈ tree.walk) :
    item.walk ⊆ tree.walk := by
  induction tree using induction with
  | leaf mark token =>
      obtain rfl : item = leaf mark token := by simpa using hitem
      exact List.Subset.refl _
  | node mark head children ih =>
      rw [walk_node] at hitem
      rcases List.mem_cons.mp hitem with rfl | hbelow
      · exact List.Subset.refl _
      · obtain ⟨child, hchild, hmem⟩ := List.mem_flatMap.mp hbelow
        exact List.Subset.trans (ih child hchild hmem) (walk_subset_of_mem_children hchild)

theorem item_mem_walk_of_mem_sites {parent : Option (Node Mark)} {tree : Tree Mark}
    {site : Site Mark} (hsite : site ∈ tree.sites parent) : site.item ∈ tree.walk := by
  rw [← map_item_sites parent tree]
  exact List.mem_map_of_mem hsite

theorem eq_or_mem_children_of_mem_sites {parent : Option (Node Mark)} {tree : Tree Mark}
    {site : Site Mark} (hsite : site ∈ tree.sites parent) :
    site = ⟨parent, tree⟩ ∨
      ∃ above, site.parent = some above ∧ above.toTree ∈ tree.walk ∧
        site.item ∈ above.children := by
  induction tree using induction generalizing parent with
  | leaf mark token => exact .inl (by simpa using hsite)
  | node mark head children ih =>
      rw [sites_node] at hsite
      rcases List.mem_cons.mp hsite with rfl | hbelow
      · exact .inl rfl
      · right
        obtain ⟨child, hchild, hmem⟩ := List.mem_flatMap.mp hbelow
        rcases ih child hchild hmem with rfl | ⟨above, hparent, habove, hitem⟩
        · exact ⟨⟨mark, head, children⟩, rfl, self_mem_walk _, hchild⟩
        · exact ⟨above, hparent, walk_subset_of_mem_children hchild habove, hitem⟩

theorem parent_of_mem_sites {parent : Option (Node Mark)} {tree : Tree Mark}
    {site : Site Mark} (hsite : site ∈ tree.sites parent) :
    site.parent = parent ∨ ∃ above, site.parent = some above ∧ above.toTree ∈ tree.walk := by
  rcases eq_or_mem_children_of_mem_sites hsite with rfl | ⟨above, hparent, habove, -⟩
  · exact .inl rfl
  · exact .inr ⟨above, hparent, habove⟩

/-! ## Tokens of a walk -/

def tokens (tree : Tree Mark) : List Token :=
  tree.walk.filterMap fun item => item.toLeaf?.map Leaf.token

@[simp] theorem tokens_leaf (mark : Mark) (token : Token) :
    (leaf mark token).tokens = [token] := by
  simp [tokens, toLeaf?]

@[simp] theorem tokens_node (mark : Mark) (head : Head) (children : List (Tree Mark)) :
    (node mark head children).tokens = children.flatMap tokens := by
  rw [tokens, walk_node, List.filterMap_cons_none rfl, List.filterMap_flatMap]
  rfl

theorem mem_tokens_iff {tree : Tree Mark} {token : Token} :
    token ∈ tree.tokens ↔ ∃ mark, leaf mark token ∈ tree.walk := by
  rw [tokens, List.mem_filterMap]
  constructor
  · rintro ⟨item, hitem, hleaf⟩
    cases item with
    | leaf mark other =>
        cases hleaf
        exact ⟨mark, hitem⟩
    | node mark head children => cases hleaf
  · rintro ⟨mark, hleaf⟩
    exact ⟨leaf mark token, hleaf, rfl⟩

theorem mem_walk_of_firstToken? {tree : Tree Mark} {first : Leaf Mark}
    (hfirst : tree.firstToken? = some first) : leaf first.mark first.token ∈ tree.walk := by
  induction tree using induction with
  | leaf mark token =>
      cases hfirst
      simp
  | node mark head children ih =>
      cases children with
      | nil => simp [firstToken?] at hfirst
      | cons child rest =>
          have hbelow := ih child List.mem_cons_self hfirst
          exact walk_subset_of_mem_children List.mem_cons_self hbelow

theorem lastTokenAmong?_concat (children : List (Tree Mark)) (last : Tree Mark) :
    lastTokenAmong? (children ++ [last]) = last.lastToken? := by
  induction children with
  | nil => simp [lastTokenAmong?]
  | cons child children ih =>
      cases children with
      | nil => simp [lastTokenAmong?]
      | cons next children => simpa [lastTokenAmong?] using ih

theorem mem_walk_of_lastToken? {tree : Tree Mark} {last : Leaf Mark}
    (hlast : tree.lastToken? = some last) : leaf last.mark last.token ∈ tree.walk := by
  induction tree using induction with
  | leaf mark token =>
      obtain rfl : last = ⟨mark, token⟩ := by simpa [lastToken?] using hlast.symm
      simp
  | node mark head children ih =>
      rw [lastToken?] at hlast
      rcases List.eq_nil_or_concat children with rfl | ⟨earlier, child, rfl⟩
      · simp [lastTokenAmong?] at hlast
      · rw [List.concat_eq_append, lastTokenAmong?_concat] at hlast
        have hmem : child ∈ earlier.concat child := by simp
        exact walk_subset_of_mem_children hmem (ih child hmem hlast)

end Tree

namespace Node

theorem mem_children_of_token? {node : Node Mark} {text : String} {found : Leaf Mark}
    (hfound : node.token? text = some found) :
    Tree.leaf found.mark found.token ∈ node.children := by
  have hmem := List.mem_of_find?_eq_some hfound
  obtain ⟨child, hchild, hleaf⟩ := List.mem_filterMap.mp hmem
  cases child with
  | leaf mark token =>
      cases hleaf
      exact hchild
  | node mark head children => cases hleaf

theorem mem_walk_of_token? {node : Node Mark} {text : String} {found : Leaf Mark}
    (hfound : node.token? text = some found) :
    Tree.leaf found.mark found.token ∈ node.toTree.walk :=
  Tree.walk_subset_of_mem_children (mem_children_of_token? hfound) (Tree.self_mem_walk _)

end Node

end TokenSpacing
