import TokenSpacing.Java.Concrete

/-!
# What makes a node a construct

The construct of a concrete node follows from its type, from the operator at one of its ends
or from a dot among its children.  No node is an array type by itself.
-/

namespace TokenSpacing

namespace Construct

def leadingOperator? : Construct → Option String
  | unaryPlus => some "+"
  | unaryMinus => some "-"
  | logicalComplement => some "!"
  | bitwiseComplement => some "~"
  | prefixIncrement => some "++"
  | prefixDecrement => some "--"
  | _ => none

def trailingOperator? : Construct → Option String
  | postfixIncrement => some "++"
  | postfixDecrement => some "--"
  | _ => none

theorem trailingOperator?_of_leading {construct : Construct} {operator : String}
    (hleading : construct.leadingOperator? = some operator) :
    construct.trailingOperator? = none := by
  cases construct <;> simp [leadingOperator?] at hleading <;> rfl

end Construct

namespace Java.Concrete

theorem forall_of_lookup {table : List (String × Construct)} {motive : String → Construct → Prop}
    (hrows : ∀ row ∈ table, motive row.1 row.2) {key : String} {construct : Construct}
    (hfound : table.lookup key = some construct) : motive key construct := by
  obtain ⟨before, after, rfl, -⟩ := List.lookup_eq_some_iff.mp hfound
  exact hrows (key, construct) (by simp)

/-- Where the construct of a node comes from: its type, the operator at one of its ends, or
a dot. -/
inductive Tags (tree : Concrete) (construct : Construct) : Prop
  | type (htype : constructOfType? tree.type = some construct)
  | leading {operator : String} (hfirst : tree.firstType? = some operator)
      (hoperator : construct.leadingOperator? = some operator)
  | trailing {operator : String} (hlast : tree.lastType? = some operator)
      (hoperator : construct.trailingOperator? = some operator)
  | invocation (hconstruct : construct = .memberSelect)
      (hdot : ∃ child ∈ tree.children, child.type = ".")

theorem tags_of_construct? {tree : Concrete} {construct : Construct}
    (hconstruct : tree.construct? = some construct) : tree.Tags construct := by
  unfold construct? at hconstruct
  split at hconstruct
  next found htype =>
    cases hconstruct
    exact .type htype
  next =>
    split at hconstruct
    next =>
      obtain ⟨operator, hfirst, hunary⟩ := Option.bind_eq_some_iff.mp hconstruct
      exact .leading hfirst (forall_of_lookup
        (motive := fun key found => found.leadingOperator? = some key) (by decide) hunary)
    next =>
      split at hconstruct
      next =>
        split at hconstruct
        next found hleading =>
          cases hconstruct
          obtain ⟨operator, hfirst, hupdate⟩ := Option.bind_eq_some_iff.mp hleading
          exact .leading hfirst (forall_of_lookup
            (motive := fun key found => found.leadingOperator? = some key) (by decide) hupdate)
        next =>
          obtain ⟨operator, hlast, hupdate⟩ := Option.bind_eq_some_iff.mp hconstruct
          exact .trailing hlast (forall_of_lookup
            (motive := fun key found => found.trailingOperator? = some key) (by decide) hupdate)
      next =>
        split at hconstruct
        next hdot =>
          cases hconstruct
          exact .invocation rfl (by simpa using (Bool.and_eq_true_iff.mp hdot).2)
        next => cases hconstruct

theorem operator?_of_constructOfType? {type : String} {construct : Construct}
    (htype : constructOfType? type = some construct) :
    construct.leadingOperator? = none ∧ construct.trailingOperator? = none :=
  forall_of_lookup (motive := fun _ found =>
    found.leadingOperator? = none ∧ found.trailingOperator? = none) (by decide) htype

variable {tree : Concrete} {construct : Construct} {operator : String}

theorem Tags.firstType? (htags : tree.Tags construct)
    (hleading : construct.leadingOperator? = some operator) :
    tree.firstType? = some operator := by
  cases htags with
  | type htype => simp [(operator?_of_constructOfType? htype).1] at hleading
  | leading hfirst hoperator => rw [hfirst, ← hoperator, hleading]
  | trailing hlast hoperator => simp [Construct.trailingOperator?_of_leading hleading] at hoperator
  | invocation hconstruct hdot => simp [hconstruct, Construct.leadingOperator?] at hleading

theorem Tags.lastType? (htags : tree.Tags construct)
    (htrailing : construct.trailingOperator? = some operator) :
    tree.lastType? = some operator := by
  cases htags with
  | type htype => simp [(operator?_of_constructOfType? htype).2] at htrailing
  | leading hfirst hoperator => simp [Construct.trailingOperator?_of_leading hoperator] at htrailing
  | trailing hlast hoperator => rw [hlast, ← hoperator, htrailing]
  | invocation hconstruct hdot => simp [hconstruct, Construct.trailingOperator?] at htrailing

theorem Tags.exists_dot (htags : tree.Tags .memberSelect)
    (htype : tree.type = "method_invocation") : ∃ child ∈ tree.children, child.type = "." := by
  cases htags with
  | type hfound =>
      rw [htype] at hfound
      exact absurd hfound (by decide)
  | leading hfirst hoperator => simp [Construct.leadingOperator?] at hoperator
  | trailing hlast hoperator => simp [Construct.trailingOperator?] at hoperator
  | invocation hconstruct hdot => exact hdot

theorem construct?_ne_arrayType (tree : Concrete) : tree.construct? ≠ some .arrayType := by
  intro harray
  cases tags_of_construct? harray with
  | type htype =>
      exact forall_of_lookup (motive := fun _ found => found ≠ .arrayType) (by decide) htype rfl
  | leading hfirst hoperator => simp [Construct.leadingOperator?] at hoperator
  | trailing hlast hoperator => simp [Construct.trailingOperator?] at hoperator
  | invocation hconstruct hdot => cases hconstruct

end Java.Concrete

end TokenSpacing
