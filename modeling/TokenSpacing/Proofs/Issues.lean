import Mathlib.Data.List.Basic
import TokenSpacing.Scan
import TokenSpacing.Proofs.Probes

/-!
# Issues in terms of probes

Sorting is stable, so leaving items out before or after it makes no difference.  The
issues of a unit are therefore the probes that its checks report, sorted by where they
are reported, and what leaves out probes leaves out issues.
-/

namespace TokenSpacing

variable {Mark : Type}

/-! ## Stable sorting -/

section Sorting

variable {α : Type} {le : α → α → Bool}

private theorem mergeSort_cons_eq (htrans : ∀ a b c, le a b = true → le b c = true → le a c = true)
    (htotal : ∀ a b, (le a b || le b a) = true) (item : α) (items : List α) :
    items.mergeSort le =
        (items.mergeSort le).filter (!le item ·) ++ (items.mergeSort le).filter (le item) ∧
      (item :: items).mergeSort le =
        (items.mergeSort le).filter (!le item ·) ++
          item :: (items.mergeSort le).filter (le item) := by
  obtain ⟨before, after, hcons, hitems, hbefore⟩ :=
    List.mergeSort_cons htrans htotal item items
  have hsorted := List.pairwise_mergeSort htrans htotal (item :: items)
  rw [hcons] at hsorted
  have hafter : ∀ other ∈ after, le item other = true :=
    (List.pairwise_cons.mp (List.pairwise_append.mp hsorted).2.1).1
  have hlow : (before ++ after).filter (!le item ·) = before := by
    rw [List.filter_append, List.filter_eq_self.mpr hbefore, List.filter_eq_nil_iff.mpr,
      List.append_nil]
    intro other hother
    simp [hafter other hother]
  have hhigh : (before ++ after).filter (le item) = after := by
    rw [List.filter_append, List.filter_eq_self.mpr hafter, List.filter_eq_nil_iff.mpr,
      List.nil_append]
    intro other hother
    simpa using hbefore other hother
  rw [hcons, hitems, hlow, hhigh]
  exact ⟨rfl, rfl⟩

theorem filter_mergeSort (htrans : ∀ a b c, le a b = true → le b c = true → le a c = true)
    (htotal : ∀ a b, (le a b || le b a) = true) (keep : α → Bool) (items : List α) :
    (items.mergeSort le).filter keep = (items.filter keep).mergeSort le := by
  induction items with
  | nil => simp
  | cons item items ih =>
      obtain ⟨-, hcons⟩ := mergeSort_cons_eq htrans htotal item items
      obtain ⟨hsame, hkept⟩ := mergeSort_cons_eq htrans htotal item (items.filter keep)
      have hlow : ((items.mergeSort le).filter (!le item ·)).filter keep =
          ((items.filter keep).mergeSort le).filter (!le item ·) := by
        rw [← ih, List.filter_comm]
      have hhigh : ((items.mergeSort le).filter (le item)).filter keep =
          ((items.filter keep).mergeSort le).filter (le item) := by
        rw [← ih, List.filter_comm]
      rw [hcons, List.filter_append, List.filter_cons, List.filter_cons, hlow, hhigh]
      split
      · exact hkept.symm
      · exact hsame.symm

end Sorting

namespace Position

theorem atOrBefore_trans (first second third : Position)
    (hfirst : first.atOrBefore second = true) (hsecond : second.atOrBefore third = true) :
    first.atOrBefore third = true := by
  rw [atOrBefore_iff] at *
  omega

theorem atOrBefore_total (first second : Position) :
    (first.atOrBefore second || second.atOrBefore first) = true := by
  rw [Bool.or_eq_true, atOrBefore_iff, atOrBefore_iff]
  omega

variable {α : Type} (position : α → Position)

theorem pairwise_sort_by (items : List α) :
    (items.mergeSort fun first second => (position first).atOrBefore (position second)).Pairwise
      fun first second => (position first).atOrBefore (position second) = true := by
  refine List.pairwise_mergeSort ?_ ?_ items
  · intro first second third
    exact atOrBefore_trans _ _ _
  · intro first second
    exact atOrBefore_total _ _

theorem filter_sort_by (keep : α → Bool) (items : List α) :
    (items.mergeSort fun first second => (position first).atOrBefore (position second)).filter
        keep =
      (items.filter keep).mergeSort fun first second =>
        (position first).atOrBefore (position second) := by
  refine filter_mergeSort ?_ ?_ keep items
  · intro first second third
    exact atOrBefore_trans _ _ _
  · intro first second
    exact atOrBefore_total _ _

end Position

/-! ## Probes that are reported -/

namespace Probe

def issue (file : String) (probe : Probe Mark) : Issue :=
  ⟨probe.rule, file, probe.anchor.span.start, probe.rule.message probe.label⟩

def sort (probes : List (Probe Mark)) : List (Probe Mark) :=
  probes.mergeSort fun first second =>
    first.anchor.span.start.atOrBefore second.anchor.span.start

theorem map_issue_sort (file : String) (probes : List (Probe Mark)) :
    (sort probes).map (issue file) = Issue.sort (probes.map (issue file)) :=
  List.map_mergeSort fun _ _ _ _ => rfl

theorem filter_sort (keep : Probe Mark → Bool) (probes : List (Probe Mark)) :
    (sort probes).filter keep = sort (probes.filter keep) :=
  Position.filter_sort_by _ keep probes

end Probe

namespace SourceUnit

def probes (unit : SourceUnit Mark) (rule : Rule) : List (Probe Mark) :=
  (unit.root.sites none).filterMap (rule.probeAt? unit.source)

def reported (unit : SourceUnit Mark) (check : Check) : List (Probe Mark) :=
  (unit.probes check.rule).filter (check.reports unit.source)

/-- What all checks report, in the order of the issues. -/
def allReported (unit : SourceUnit Mark) (checks : List Check) : List (Probe Mark) :=
  Probe.sort (checks.flatMap unit.reported)

def Clear (unit : SourceUnit Mark) (check : Check) : Prop :=
  ∀ site ∈ unit.root.sites none, check.Clear unit.source site

variable {unit : SourceUnit Mark}

theorem mem_probes_iff {rule : Rule} {probe : Probe Mark} :
    probe ∈ unit.probes rule ↔
      ∃ site ∈ unit.root.sites none, rule.probe? unit.source site = .ok (some probe) := by
  simp only [probes, List.mem_filterMap, Rule.probeAt?_eq_some_iff]

theorem mem_allReported_iff {checks : List Check} {probe : Probe Mark} :
    probe ∈ unit.allReported checks ↔
      ∃ check ∈ checks, probe ∈ unit.probes check.rule ∧
        check.reports unit.source probe = true := by
  simp only [allReported, Probe.sort, reported, List.mem_mergeSort, List.mem_flatMap,
    List.mem_filter]

theorem label?_of_mem_probes {rule : Rule} {probe : Probe Mark}
    (hprobe : probe ∈ unit.probes rule) :
    probe.rule = rule ∧ rule.label? probe.construct = some probe.label := by
  obtain ⟨site, -, hchosen⟩ := mem_probes_iff.mp hprobe
  exact Rule.label?_of_probe? hchosen

theorem filterMap_found?_of_clear {check : Check} (hclear : unit.Clear check) :
    (unit.root.sites none).filterMap (check.found? unit.source) =
      (unit.reported check).map Probe.finding := by
  have hsite : ∀ site ∈ unit.root.sites none,
      check.found? unit.source site =
        ((check.rule.probeAt? unit.source site).filter (check.reports unit.source)).map
          Probe.finding :=
    fun site hsite => Check.found?_of_clear (hclear site hsite)
  rw [List.filterMap_congr hsite, reported, probes, List.filter_filterMap, List.map_filterMap]

theorem issues_eq_ok_iff {checks : List Check} {issues : List Issue} :
    unit.issues checks = .ok issues ↔
      (∀ check ∈ checks, unit.Clear check) ∧
        issues = (unit.allReported checks).map (Probe.issue unit.file) := by
  have hpass : ∀ check, unit.Clear check →
      (⟨check, (unit.root.sites none).filterMap (check.found? unit.source)⟩ : Pass Mark).issues
        unit.file = (unit.reported check).map (Probe.issue unit.file) := by
    intro check hclear
    rw [filterMap_found?_of_clear hclear, Pass.issues, List.map_map]
    refine List.map_congr_left fun probe hprobe => ?_
    have hrule := (label?_of_mem_probes (List.mem_filter.mp hprobe).1).1
    simp [Probe.issue, Probe.finding, hrule]
  have hsorted : ∀ passes : List (Pass Mark), (∀ check ∈ checks, unit.Clear check) →
      passes = checks.map (fun check =>
        ⟨check, (unit.root.sites none).filterMap (check.found? unit.source)⟩) →
      issuesOf unit.file passes = (unit.allReported checks).map (Probe.issue unit.file) := by
    rintro passes hclear rfl
    rw [allReported, Probe.map_issue_sort, issuesOf, List.flatMap_map, List.map_flatMap]
    congr 1
    exact List.flatMap_congr fun check hcheck => hpass check (hclear check hcheck)
  rw [SourceUnit.issues, bind_eq_ok_iff]
  simp only [pure_eq_ok_iff, scan_eq_ok_iff]
  constructor
  · rintro ⟨passes, ⟨hclear, hpasses⟩, rfl⟩
    exact ⟨hclear, hsorted passes hclear hpasses⟩
  · rintro ⟨hclear, rfl⟩
    exact ⟨_, ⟨hclear, rfl⟩, hsorted _ hclear rfl⟩

theorem exists_issues_iff {checks : List Check} :
    (∃ issues, unit.issues checks = .ok issues) ↔ ∀ check ∈ checks, unit.Clear check := by
  simp only [issues_eq_ok_iff, exists_and_left, exists_eq, and_true]

end SourceUnit

end TokenSpacing
