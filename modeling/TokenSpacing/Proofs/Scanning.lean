import Mathlib.Data.List.Basic
import TokenSpacing.Proofs.Outcomes
import TokenSpacing.Proofs.Walk
import TokenSpacing.Scan

/-!
# A scan is one response for each check and site

Feeding all sites to all checks in one walk gives what each check says about each
site on its own.  The scan succeeds if and only if no check meets a violation at any
site, and the findings of a check are then its responses in document order.
-/

namespace TokenSpacing

variable {Mark : Type}

namespace Check

def respond (check : Check) (source : SourceText) (site : Site Mark) :
    Except Violation (Option (Finding Mark)) :=
  if check.asksFor site.item then check.visit source site else .ok none

def Clear (check : Check) (source : SourceText) (site : Site Mark) : Prop :=
  ∃ found, check.respond source site = .ok found

def found? (check : Check) (source : SourceText) (site : Site Mark) :
    Option (Finding Mark) :=
  match check.respond source site with
  | .ok found => found
  | .error _ => none

theorem found?_of_respond {check : Check} {source : SourceText} {site : Site Mark}
    {found : Option (Finding Mark)} (hrespond : check.respond source site = .ok found) :
    check.found? source site = found := by
  simp [found?, hrespond]

end Check

/-! ## One site -/

namespace Pass

def grow (pass : Pass Mark) (more : List (Finding Mark)) : Pass Mark :=
  { pass with findings := pass.findings ++ more }

@[simp] theorem grow_nil (pass : Pass Mark) : pass.grow [] = pass := by
  simp [grow]

theorem grow_grow (pass : Pass Mark) (first second : List (Finding Mark)) :
    (pass.grow first).grow second = pass.grow (first ++ second) := by
  simp [grow]

theorem feed_of_respond {pass : Pass Mark} {source : SourceText} {site : Site Mark}
    {found : Option (Finding Mark)} (hrespond : pass.check.respond source site = .ok found) :
    pass.feed source site = .ok (pass.grow found.toList) := by
  unfold Check.respond at hrespond
  unfold feed
  split
  next hasks =>
    rw [if_pos hasks] at hrespond
    rw [visit, hrespond]
    rfl
  next hasks =>
    rw [if_neg hasks] at hrespond
    cases hrespond
    rw [Option.toList_none, grow_nil]

theorem feed_of_violation {pass : Pass Mark} {source : SourceText} {site : Site Mark}
    {violation : Violation} (hrespond : pass.check.respond source site = .error violation) :
    pass.feed source site = .error violation := by
  unfold Check.respond at hrespond
  unfold feed
  split
  next hasks =>
    rw [if_pos hasks] at hrespond
    rw [visit, hrespond]
    rfl
  next hasks =>
    rw [if_neg hasks] at hrespond
    contradiction

theorem feed_eq_ok_iff {pass fed : Pass Mark} {source : SourceText} {site : Site Mark} :
    pass.feed source site = .ok fed ↔
      pass.check.Clear source site ∧
        fed = pass.grow (pass.check.found? source site).toList := by
  cases hrespond : pass.check.respond source site with
  | error violation =>
      rw [feed_of_violation hrespond]
      constructor
      · intro hfed
        contradiction
      · rintro ⟨⟨found, hfound⟩, -⟩
        rw [hrespond] at hfound
        contradiction
  | ok found =>
      rw [feed_of_respond hrespond, Check.found?_of_respond hrespond]
      constructor
      · intro hfed
        exact ⟨⟨found, hrespond⟩, (Except.ok.inj hfed).symm⟩
      · rintro ⟨-, rfl⟩
        rfl

end Pass

/-! ## All checks at one site, and all sites -/

theorem feedAll_eq_ok_iff {source : SourceText} {site : Site Mark}
    {passes result : List (Pass Mark)} :
    feedAll source site passes = .ok result ↔
      (∀ pass ∈ passes, pass.check.Clear source site) ∧
        result = passes.map fun pass => pass.grow (pass.check.found? source site).toList := by
  induction passes generalizing result with
  | nil => simp [feedAll, eq_comm]
  | cons pass rest ih =>
      simp only [feedAll, bind_eq_ok_iff, pure_eq_ok_iff, Pass.feed_eq_ok_iff, ih,
        List.forall_mem_cons, List.map_cons]
      constructor
      · rintro ⟨fed, ⟨hclear, rfl⟩, others, ⟨hrest, rfl⟩, rfl⟩
        exact ⟨⟨hclear, hrest⟩, rfl⟩
      · rintro ⟨⟨hclear, hrest⟩, rfl⟩
        exact ⟨_, ⟨hclear, rfl⟩, _, ⟨hrest, rfl⟩, rfl⟩

/-- What a whole run gives: every pass has grown by its findings, site after site. -/
theorem feedSites_eq_ok_iff {source : SourceText} {sites : List (Site Mark)}
    {passes result : List (Pass Mark)} :
    feedSites source sites passes = .ok result ↔
      (∀ pass ∈ passes, ∀ site ∈ sites, pass.check.Clear source site) ∧
        result = passes.map fun pass =>
          pass.grow (sites.filterMap (pass.check.found? source)) := by
  induction sites generalizing passes with
  | nil => simp [feedSites, eq_comm]
  | cons site rest ih =>
      rw [feedSites, bind_eq_ok_iff]
      have hgrow : ∀ pass : Pass Mark,
          (pass.grow (pass.check.found? source site).toList).grow
              (rest.filterMap (pass.check.found? source)) =
            pass.grow ((site :: rest).filterMap (pass.check.found? source)) := by
        intro pass
        rw [Pass.grow_grow, List.filterMap_cons]
        cases pass.check.found? source site <;> rfl
      constructor
      · rintro ⟨fed, hfed, hresult⟩
        obtain ⟨hsite, rfl⟩ := feedAll_eq_ok_iff.mp hfed
        obtain ⟨hrest, rfl⟩ := ih.mp hresult
        refine ⟨?_, ?_⟩
        · intro pass hpass
          have hlater := hrest (pass.grow (pass.check.found? source site).toList)
            (List.mem_map.mpr ⟨pass, hpass, rfl⟩)
          exact List.forall_mem_cons.mpr ⟨hsite pass hpass, hlater⟩
        · rw [List.map_map]
          exact List.map_congr_left fun pass _ => hgrow pass
      · rintro ⟨hclear, rfl⟩
        have hsite : ∀ pass ∈ passes, pass.check.Clear source site :=
          fun pass hpass => hclear pass hpass site List.mem_cons_self
        refine ⟨_, feedAll_eq_ok_iff.mpr ⟨hsite, rfl⟩, ih.mpr ⟨?_, ?_⟩⟩
        · intro grown hgrown later hlater
          obtain ⟨pass, hpass, rfl⟩ := List.mem_map.mp hgrown
          exact hclear pass hpass later (List.mem_cons_of_mem _ hlater)
        · rw [List.map_map]
          exact List.map_congr_left fun pass _ => (hgrow pass).symm

namespace SourceUnit

theorem scan_eq_ok_iff {unit : SourceUnit Mark} {checks : List Check}
    {passes : List (Pass Mark)} :
    unit.scan checks = .ok passes ↔
      (∀ check ∈ checks, ∀ site ∈ unit.root.sites none, check.Clear unit.source site) ∧
        passes = checks.map fun check =>
          ⟨check, (unit.root.sites none).filterMap (check.found? unit.source)⟩ := by
  rw [scan, feedSites_eq_ok_iff, List.map_map]
  refine and_congr ?_ Iff.rfl
  simp [Pass.start]

end SourceUnit

end TokenSpacing
