import Mathlib.Data.List.Flatten
import Mathlib.Data.List.Nodup
import Mathlib.Data.List.Perm.Basic
import Mathlib.Data.List.Range
import TokenSpacing.Draft
import TokenSpacing.Proofs.Walk

/-!
# Every item hangs in one place

A draft that only grows by adding items below its nodes stays a tree.  An item is found
once, in one list of children: that of the node it has for a parent.  So the walk from
the first item meets every item of the draft, each of them once.
-/

namespace TokenSpacing

variable {Mark : Type}

namespace Tree

theorem unmarkedAmong_eq (children : List (Tree Mark)) :
    unmarkedAmong children = children.map unmarked := by
  induction children with
  | nil => simp [unmarkedAmong]
  | cons child rest ih => simp [unmarkedAmong, ih]

@[simp] theorem unmarked_node (mark : Mark) (head : Head) (children : List (Tree Mark)) :
    (node mark head children).unmarked = node () head (children.map unmarked) := by
  rw [unmarked, unmarkedAmong_eq]

theorem tokens_unmarked (tree : Tree Mark) : tree.unmarked.tokens = tree.tokens := by
  induction tree using induction with
  | leaf mark token => simp [unmarked]
  | node mark head children ih =>
      rw [unmarked_node, tokens_node, tokens_node, List.flatMap_map]
      exact List.flatMap_congr ih

def content : Tree Mark → Content
  | leaf _ token => .token token
  | node _ head _ => .head head

def childMarks : Tree Mark → List Mark
  | leaf _ _ => []
  | node _ _ children => children.map mark

theorem perm_childMarks (tree : Tree Mark) :
    (tree.mark :: tree.walk.flatMap childMarks).Perm (tree.walk.map mark) := by
  induction tree using induction with
  | leaf mark token => simp [childMarks, Tree.mark]
  | node mark head children ih =>
      simp only [walk_node, List.flatMap_cons, List.map_cons, childMarks, List.flatMap_assoc,
        List.map_flatMap]
      have hchildren := List.map_append_flatMap_perm children Tree.mark
        fun child => child.walk.flatMap childMarks
      exact (hchildren.trans (List.Perm.flatMap_left children ih)).cons _

end Tree

namespace Draft

variable {draft : Draft} {parent item : Nat} {content : Content}

/-! ## Adding an item -/

theorem lt_size_of_content? (hcontent : draft.content? item = some content) :
    item < draft.size := by
  simp only [content?, Option.map_eq_some_iff] at hcontent
  obtain ⟨entry, hentry, -⟩ := hcontent
  exact (Array.getElem?_eq_some_iff.mp hentry).1

theorem entries_add (hparent : parent < draft.size) :
    (draft.add parent content).entries[item]? =
      if item = draft.size then some ⟨content, [], some parent⟩
      else if item = parent then
        draft.entries[item]?.map fun entry =>
          { entry with children := entry.children ++ [draft.size] }
      else draft.entries[item]? := by
  simp only [size] at hparent ⊢
  simp only [add, make, attach, size, Array.getElem?_modify, Array.getElem?_push]
  grind

@[simp] theorem size_add : (draft.add parent content).size = draft.size + 1 := by
  simp [add, make, attach, size]

theorem content?_add (hparent : parent < draft.size) :
    (draft.add parent content).content? item =
      if item = draft.size then some content else draft.content? item := by
  rw [content?, content?, entries_add hparent]
  split
  · rfl
  · split
    · rw [Option.map_map]
      rfl
    · rfl

theorem parent?_add (hparent : parent < draft.size) :
    (draft.add parent content).parent? item =
      if item = draft.size then some parent else draft.parent? item := by
  rw [parent?, parent?, entries_add hparent]
  split
  · rfl
  · split
    · cases draft.entries[item]? <;> rfl
    · rfl

theorem childrenOf_add (hparent : parent < draft.size) :
    (draft.add parent content).childrenOf item =
      if item = draft.size then []
      else if item = parent then draft.childrenOf item ++ [draft.size]
      else draft.childrenOf item := by
  rw [childrenOf, childrenOf, entries_add hparent]
  split
  · rfl
  · split
    · subst item
      rw [size] at hparent
      simp [Array.getElem?_eq_getElem hparent]
    · rfl

/-! ## Parents and children -/

/--
The first item is the root, every later one hangs below an earlier one, and a token has
no children.  An item stands in the list of children of its parent, once, and in no
other list.
-/
structure HangsOnce (draft : Draft) : Prop where
  root : draft.parent? 0 = none
  below : ∀ item, 0 < item → item < draft.size →
    ∃ parent, draft.parent? item = some parent ∧ parent < item
  count : ∀ item parent, (draft.childrenOf parent).count item =
    if draft.parent? item = some parent then 1 else 0
  bare : ∀ item token, draft.content? item = some (.token token) → draft.childrenOf item = []

theorem hangsOnce_make (head : Head) : (empty.make (.head head)).HangsOnce where
  root := rfl
  below := by
    intro item hpositive hitem
    simp only [make, empty, size, List.push_toArray, List.nil_append, List.size_toArray,
      List.length_singleton] at hitem
    omega
  count := by
    intro item parent
    cases item <;> cases parent <;> simp [make, empty, childrenOf, parent?]
  bare := by
    intro item token htoken
    cases item <;> simp [make, empty, content?] at htoken

theorem parent?_eq_none_of_size_le (hitem : draft.size ≤ item) : draft.parent? item = none := by
  rw [parent?, Array.getElem?_eq_none (by simpa [size] using hitem)]
  rfl

theorem childrenOf_size (draft : Draft) : draft.childrenOf draft.size = [] := by
  rw [childrenOf, size, Array.getElem?_eq_none (le_refl _)]
  rfl

namespace HangsOnce

theorem parent?_eq (hhangs : draft.HangsOnce) (hchild : item ∈ draft.childrenOf parent) :
    draft.parent? item = some parent := by
  have hcount := hhangs.count item parent
  by_contra hother
  rw [if_neg hother] at hcount
  exact List.count_eq_zero.mp hcount hchild

theorem child_bounds (hhangs : draft.HangsOnce) (hchild : item ∈ draft.childrenOf parent) :
    parent < item ∧ item < draft.size := by
  have hparent := hhangs.parent?_eq hchild
  have hitem : item < draft.size := by
    by_contra hlarge
    rw [parent?_eq_none_of_size_le (by omega)] at hparent
    contradiction
  have hpositive : 0 < item := by
    by_contra hzero
    obtain rfl : item = 0 := by omega
    rw [hhangs.root] at hparent
    contradiction
  obtain ⟨above, habove, hless⟩ := hhangs.below item hpositive hitem
  rw [hparent] at habove
  cases habove
  exact ⟨hless, hitem⟩

theorem add (hhangs : draft.HangsOnce) {head : Head}
    (hparent : draft.content? parent = some (.head head)) :
    (draft.add parent content).HangsOnce := by
  have hsize := lt_size_of_content? hparent
  have hfresh : draft.parent? draft.size = none := parent?_eq_none_of_size_le (le_refl _)
  constructor
  case root =>
    rw [parent?_add hsize, if_neg (by omega)]
    exact hhangs.root
  case below =>
    intro item hpositive hitem
    rw [parent?_add hsize]
    split
    next hnew => exact ⟨parent, rfl, by omega⟩
    next hold =>
      rw [size_add] at hitem
      exact hhangs.below item hpositive (by omega)
  case count =>
    intro item above
    have hcount := hhangs.count item above
    have hempty := childrenOf_size draft
    rw [childrenOf_add hsize, parent?_add hsize]
    grind
  case bare =>
    intro item token htoken
    rw [content?_add hsize] at htoken
    rw [childrenOf_add hsize]
    split
    next => rfl
    next hold =>
      rw [if_neg hold] at htoken
      split
      next hat =>
        subst hat
        rw [hparent] at htoken
        cases htoken
      next => exact hhangs.bare item token htoken

end HangsOnce

/-! ## Reading the tree -/

/-- Whether the items of a tree are those of the draft that they are named after. -/
def Shows (draft : Draft) (tree : Tree Nat) : Prop :=
  ∀ item ∈ tree.walk, draft.content? item.mark = some item.content ∧
    draft.childrenOf item.mark = item.childMarks

theorem exists_content? (hitem : item < draft.size) :
    ∃ content, draft.content? item = some content := by
  rw [content?, Array.getElem?_eq_getElem hitem]
  exact ⟨_, rfl⟩

theorem filterMap_reads {read : Nat → Option (Tree Nat)} {items : List Nat}
    (hread : ∀ item ∈ items, ∃ tree, read item = some tree ∧ tree.mark = item ∧ draft.Shows tree) :
    (items.filterMap read).map Tree.mark = items ∧
      ∀ tree ∈ items.filterMap read, draft.Shows tree := by
  induction items with
  | nil => simp
  | cons item rest ih =>
      obtain ⟨⟨tree, htree, hmark, hshows⟩, hlater⟩ := List.forall_mem_cons.mp hread
      obtain ⟨hmarks, hall⟩ := ih hlater
      rw [List.filterMap_cons_some htree, List.map_cons, hmark, hmarks]
      exact ⟨rfl, List.forall_mem_cons.mpr ⟨hshows, hall⟩⟩

namespace HangsOnce

theorem exists_treeWithin (hhangs : draft.HangsOnce) {depth : Nat} (hitem : item < draft.size)
    (hdepth : draft.size ≤ item + depth) :
    ∃ tree, draft.treeWithin depth item = some tree ∧ tree.mark = item ∧ draft.Shows tree := by
  induction depth generalizing item with
  | zero => omega
  | succ depth ih =>
      obtain ⟨content, hcontent⟩ := exists_content? hitem
      rw [treeWithin, hcontent]
      cases content with
      | token token =>
          refine ⟨_, rfl, rfl, ?_⟩
          simpa [Shows, Tree.mark, Tree.content, Tree.childMarks, hcontent] using
            hhangs.bare item token hcontent
      | head head =>
          have hbelow : ∀ child ∈ draft.childrenOf item, ∃ tree,
              draft.treeWithin depth child = some tree ∧ tree.mark = child ∧
                draft.Shows tree := by
            intro child hchild
            obtain ⟨hlater, hmade⟩ := hhangs.child_bounds hchild
            exact ih hmade (by omega)
          obtain ⟨hmarks, hall⟩ := filterMap_reads hbelow
          refine ⟨_, rfl, rfl, ?_⟩
          rw [Shows, Tree.walk_node, List.forall_mem_cons]
          refine ⟨⟨hcontent, hmarks.symm⟩, ?_⟩
          intro shown hshown
          obtain ⟨tree, htree, hmem⟩ := List.mem_flatMap.mp hshown
          exact hall tree htree shown hmem

theorem exists_tree (hhangs : draft.HangsOnce) (hsize : 0 < draft.size) :
    ∃ tree, draft.tree? 0 = some tree ∧ tree.mark = 0 ∧ draft.Shows tree :=
  hhangs.exists_treeWithin hsize (by omega)

theorem count_childMarks (hhangs : draft.HangsOnce) {items : List (Tree Nat)}
    (hitems : ∀ shown ∈ items, draft.childrenOf shown.mark = shown.childMarks) (item : Nat) :
    (items.flatMap Tree.childMarks).count item =
      (items.map Tree.mark).countP fun mark => draft.parent? item = some mark := by
  induction items with
  | nil => rfl
  | cons shown rest ih =>
      obtain ⟨hshown, hrest⟩ := List.forall_mem_cons.mp hitems
      rw [List.flatMap_cons, List.count_append, ← hshown, hhangs.count, ih hrest, List.map_cons,
        List.countP_cons, Nat.add_comm]
      simp

-- By induction on the item: the walk meets it once for each time it meets its parent, which
-- is an earlier item.
theorem count_walk (hhangs : draft.HangsOnce) {tree : Tree Nat} (hshows : draft.Shows tree)
    (hroot : tree.mark = 0) (hitem : item < draft.size) :
    (tree.walk.map Tree.mark).count item = 1 := by
  have hcount : ∀ item, (tree.walk.map Tree.mark).count item =
      (tree.walk.map Tree.mark).countP (fun mark => draft.parent? item = some mark) +
        if 0 = item then 1 else 0 := by
    intro item
    rw [← (tree.perm_childMarks).count_eq item, List.count_cons, hroot,
      hhangs.count_childMarks (fun shown hshown => (hshows shown hshown).2)]
    simp only [beq_iff_eq]
  induction item using Nat.strong_induction_on with
  | h item ih =>
      rw [hcount]
      rcases Nat.eq_zero_or_pos item with rfl | hpositive
      · simp [hhangs.root]
      · obtain ⟨parent, hparent, hless⟩ := hhangs.below item hpositive hitem
        have hone := ih parent hless (by omega)
        rw [List.count_eq_countP] at hone
        rw [if_neg (by omega), hparent, Nat.add_zero, ← hone]
        refine List.countP_congr fun mark _ => ?_
        simpa using eq_comm

theorem walk_perm_range (hhangs : draft.HangsOnce) {tree : Tree Nat}
    (hshows : draft.Shows tree) (hroot : tree.mark = 0) :
    (tree.walk.map Tree.mark).Perm (List.range draft.size) := by
  rw [List.perm_iff_count]
  intro item
  by_cases hitem : item < draft.size
  · rw [hhangs.count_walk hshows hroot hitem,
      List.count_eq_one_of_mem List.nodup_range (List.mem_range.mpr hitem)]
  · have habsent : item ∉ tree.walk.map Tree.mark := by
      rintro hmem
      obtain ⟨shown, hshown, rfl⟩ := List.mem_map.mp hmem
      exact hitem (lt_size_of_content? (hshows shown hshown).1)
    rw [List.count_eq_zero.mpr habsent, List.count_eq_zero.mpr (by simpa using hitem)]

end HangsOnce

/-! ## Sites -/

theorem Shows.of_mem_walk {tree below : Tree Nat} (hshows : draft.Shows tree)
    (hbelow : below ∈ tree.walk) : draft.Shows below :=
  fun shown hshown => hshows shown (Tree.walk_subset_of_mem_walk hbelow hshown)

theorem eq_of_map_mark_eq {trees others : List (Tree Nat)}
    (hmarks : trees.map Tree.mark = others.map Tree.mark)
    (hsame : ∀ tree ∈ trees, ∀ other ∈ others, tree.mark = other.mark → tree = other) :
    trees = others := by
  induction trees generalizing others with
  | nil => exact (List.map_eq_nil_iff.mp hmarks.symm).symm
  | cons tree trees ih =>
      obtain ⟨other, later, rfl, hmark, hlater⟩ := List.map_eq_cons_iff.mp hmarks.symm
      have hfirst := hsame tree List.mem_cons_self other List.mem_cons_self hmark.symm
      have hrest := ih hlater.symm fun one hone two htwo =>
        hsame one (List.mem_cons_of_mem _ hone) two (List.mem_cons_of_mem _ htwo)
      rw [hfirst, hrest]

theorem Shows.same_root {tree other : Tree Nat} (htree : draft.Shows tree)
    (hother : draft.Shows other) (hmark : tree.mark = other.mark) :
    tree.content = other.content ∧ tree.childMarks = other.childMarks := by
  obtain ⟨hcontent, hchildren⟩ := htree tree tree.self_mem_walk
  obtain ⟨hsame, hitems⟩ := hother other other.self_mem_walk
  rw [hmark, hsame, Option.some.injEq] at hcontent
  rw [hmark, hitems] at hchildren
  exact ⟨hcontent.symm, hchildren.symm⟩

theorem Shows.eq {tree other : Tree Nat} (htree : draft.Shows tree) (hother : draft.Shows other)
    (hmark : tree.mark = other.mark) : tree = other := by
  obtain ⟨hcontent, hchildren⟩ := htree.same_root hother hmark
  induction tree using Tree.induction generalizing other with
  | leaf mark token =>
      cases other with
      | leaf =>
          cases hmark
          cases hcontent
          rfl
      | node => cases hcontent
  | node mark head children ih =>
      cases other with
      | leaf => cases hcontent
      | node mark' head' others =>
          cases hmark
          cases hcontent
          have hsame : children = others := by
            refine eq_of_map_mark_eq hchildren ?_
            intro child hchild twin htwin hmark
            have hshown := htree.of_mem_walk
              (Tree.walk_subset_of_mem_children hchild child.self_mem_walk)
            have htwin := hother.of_mem_walk
              (Tree.walk_subset_of_mem_children htwin twin.self_mem_walk)
            obtain ⟨hcontent, hmarks⟩ := hshown.same_root htwin hmark
            exact ih child hchild hshown htwin hmark hcontent hmarks
          rw [hsame]

namespace HangsOnce

theorem tree?_mark (hhangs : draft.HangsOnce) {tree : Tree Nat} (hshows : draft.Shows tree) :
    draft.tree? tree.mark = some tree := by
  have hsize := lt_size_of_content? (hshows tree tree.self_mem_walk).1
  obtain ⟨other, hother, hmark, hshown⟩ := hhangs.exists_treeWithin hsize (Nat.le_add_left _ _)
  rw [tree?, hother, hshown.eq hshows hmark]

/-- The parents that a draft remembers are the nodes above in its tree. -/
theorem sites_eq (hhangs : draft.HangsOnce) {tree : Tree Nat} (hshows : draft.Shows tree)
    (hroot : tree.mark = 0) : draft.sites 0 = tree.sites none := by
  have hsite : ∀ site ∈ tree.sites none, draft.site? site.item.mark = some site := by
    intro site hsite
    have hitem := hshows.of_mem_walk (Tree.item_mem_walk_of_mem_sites hsite)
    rw [site?, hhangs.tree?_mark hitem, Option.map_some]
    rcases Tree.eq_or_mem_children_of_mem_sites hsite with rfl | ⟨above, hparent, habove, hchild⟩
    · rw [hroot, hhangs.root]
      rfl
    · have hshown := hshows.of_mem_walk habove
      have hchildren := (hshown _ (Tree.self_mem_walk _)).2
      have hmark : site.item.mark ∈ draft.childrenOf above.toTree.mark := by
        rw [hchildren]
        exact List.mem_map_of_mem hchild
      rw [hhangs.parent?_eq hmark, Option.bind_some, node?, hhangs.tree?_mark hshown]
      cases site
      cases hparent
      rfl
  have htree := hhangs.tree?_mark hshows
  rw [hroot] at htree
  rw [sites, walk, htree, Option.map_some, Option.getD_some, Tree.walk, List.map_map,
    List.filterMap_map]
  exact (List.filterMap_congr hsite).trans List.filterMap_some

end HangsOnce

end Draft

end TokenSpacing
