import MmAudit.Isolation.Lockfile

/-!
# The advisory scan

The advisories are folded into a map by package and version.  The map has a key for every
version that some advisory names, so no advised package slips through; but where two advisories
name one version, the map keeps the later one only.
-/

namespace MmAudit

namespace Dependencies

open Fallible

/-- The advisory names the version of the package. -/
def SnapshotAdvisory.Names (advisory : SnapshotAdvisory) (name version : List Char) : Prop :=
  advisory.packageName = name ∧ version ∈ advisory.versions

theorem mem_advised_iff {advisories : List SnapshotAdvisory} {name version : List Char}
    {advisory : SnapshotAdvisory} :
    ((name, version), advisory) ∈ advised advisories ↔
      advisory ∈ advisories ∧ advisory.Names name version := by
  rw [advised, List.mem_flatMap]
  constructor
  · rintro ⟨other, member, listed⟩
    obtain ⟨version, inside, same⟩ := List.mem_map.mp listed
    cases same
    exact ⟨member, rfl, inside⟩
  · rintro ⟨member, rfl, inside⟩
    exact ⟨advisory, member, List.mem_map.mpr ⟨version, inside, rfl⟩⟩

theorem of_get?_affectedVersions {advisories : List SnapshotAdvisory} {name version : List Char}
    {advisory : SnapshotAdvisory}
    (found : (affectedVersions advisories).get? (name, version) = some advisory) :
    advisory ∈ advisories ∧ advisory.Names name version :=
  mem_advised_iff.mp ((Dict.get?_assign_cases found).resolve_left (by simp))

/-- Every version that an advisory names is affected. -/
theorem exists_get?_affectedVersions {advisories : List SnapshotAdvisory} {name version : List Char}
    {advisory : SnapshotAdvisory} (member : advisory ∈ advisories)
    (names : advisory.Names name version) :
    ∃ kept, (affectedVersions advisories).get? (name, version) = some kept := by
  rw [← Dict.mem_iff_exists_get?, affectedVersions, Dict.mem_assign_iff]
  exact .inr (List.mem_map.mpr ⟨_, mem_advised_iff.mpr ⟨member, names⟩, rfl⟩)

section Scan

variable {Digest : Type}

/-- A validator returns what it was given. -/
theorem mapM_validator {Value : Type} {validate : Value → Except Failure Value}
    (returnsIt : ∀ value result, validate value = .ok result → result = value)
    {values results : List Value} (validated : values.mapM validate = .ok results) :
    results = values := by
  have observed := (mapM_eq_ok_iff values).mp validated
  induction values generalizing results with
  | nil => exact (List.map_eq_nil_iff.mp observed.symm)
  | cons value values ih =>
      cases results with
      | nil => cases observed
      | cons result results =>
          obtain ⟨first, rest⟩ := List.cons.inj observed
          rw [returnsIt value result first, ih ((mapM_eq_ok_iff values).mpr rest) rest]

theorem validate_finding_eq_ok {finding result : DependencyAdvisoryFinding}
    (validated : finding.validate = .ok result) : result = finding := by
  unfold DependencyAdvisoryFinding.validate at validated
  exact (Except.ok.inj (raiseIf_bind_eq_ok_iff.mp validated).2).symm

theorem scanAdvisories_eq_ok {packages : List (ValidatedPackage Digest)}
    {advisories : List SnapshotAdvisory} {findings : List DependencyAdvisoryFinding}
    (scanned : scanAdvisories packages advisories = .ok findings) :
    findings.Perm (packages.filterMap (findingOf (affectedVersions advisories))) := by
  unfold scanAdvisories at scanned
  obtain ⟨validated, returned, rest⟩ := bind_eq_ok_iff.mp scanned
  obtain rfl := Except.ok.inj rest
  rw [mapM_validator (fun _ _ => validate_finding_eq_ok) returned]
  exact List.perm_insertionSort _ _

/-- The finding comes from a package and the advisory that the map keeps on it. -/
theorem mem_findings_iff {packages : List (ValidatedPackage Digest)}
    {advisories : List SnapshotAdvisory} {findings : List DependencyAdvisoryFinding}
    (scanned : scanAdvisories packages advisories = .ok findings)
    (finding : DependencyAdvisoryFinding) :
    finding ∈ findings ↔ ∃ package ∈ packages, ∃ advisory,
      (affectedVersions advisories).get? (package.evidence.name, package.evidence.version) =
        some advisory ∧
      finding = ⟨advisory.advisoryId, package.evidence.name, package.evidence.version,
        advisory.severity, advisory.summary⟩ := by
  rw [(scanAdvisories_eq_ok scanned).mem_iff, List.mem_filterMap]
  simp only [findingOf, Option.map_eq_some_iff]
  constructor
  · rintro ⟨package, member, advisory, found, rfl⟩
    exact ⟨package, member, advisory, found, rfl⟩
  · rintro ⟨package, member, advisory, found, rfl⟩
    exact ⟨package, member, advisory, found, rfl⟩

/-- No advisory names a package that the scan lets through. -/
theorem not_names_of_no_findings {packages : List (ValidatedPackage Digest)}
    {advisories : List SnapshotAdvisory} (scanned : scanAdvisories packages advisories = .ok [])
    {package : ValidatedPackage Digest} (member : package ∈ packages) {advisory : SnapshotAdvisory}
    (listed : advisory ∈ advisories) :
    ¬ advisory.Names package.evidence.name package.evidence.version := by
  intro names
  obtain ⟨kept, found⟩ := exists_get?_affectedVersions listed names
  exact List.not_mem_nil ((mem_findings_iff scanned _).mpr ⟨package, member, kept, found, rfl⟩)

/-- Every advisory on every package is among the findings. -/
def FindingsComplete (advisories : List SnapshotAdvisory)
    (evidence : List (DependencyPackageEvidence Digest))
    (findings : List DependencyAdvisoryFinding) : Prop :=
  ∀ package ∈ evidence, ∀ advisory ∈ advisories, advisory.Names package.name package.version →
    ∃ finding ∈ findings, finding.advisoryId = advisory.advisoryId ∧
      finding.packageName = package.name ∧ finding.version = package.version

/-- No version of a package is named by two advisories. -/
def AdvisoriesDisjoint (advisories : List SnapshotAdvisory)
    (packages : List (SnapshotPackage Digest)) : Prop :=
  ∀ package ∈ packages, ∀ advisory ∈ advisories, ∀ other ∈ advisories,
    advisory.Names package.name package.version → other.Names package.name package.version →
      advisory = other

/-- The findings are complete exactly when no two advisories overlap on a package. -/
theorem findingsComplete_iff {snapshot : DependencySnapshot Digest}
    {packages : List (SnapshotPackage Digest)} {validated : List (ValidatedPackage Digest)}
    {findings : List DependencyAdvisoryFinding}
    (scanned : scanAdvisories validated snapshot.advisories = .ok findings)
    (same : List.Forall₂ (fun (package : SnapshotPackage Digest) (checked : ValidatedPackage Digest) =>
      checked.evidence.name = package.name ∧ checked.evidence.version = package.version)
      packages validated) :
    FindingsComplete snapshot.advisories (validated.map (·.evidence)) findings ↔
      AdvisoriesDisjoint snapshot.advisories packages := by
  constructor
  · intro complete package member advisory listed other otherListed names otherNames
    obtain ⟨checked, checkedMember, sameName, sameVersion⟩ := Pairing.exists_right same member
    rw [← sameName, ← sameVersion] at names otherNames
    obtain ⟨kept, found⟩ := exists_get?_affectedVersions listed names
    -- Every finding on the package carries the ID of the advisory that the map keeps.
    have identified : ∀ advisory ∈ snapshot.advisories,
        advisory.Names checked.evidence.name checked.evidence.version →
        advisory.advisoryId = kept.advisoryId := by
      intro advisory listed names
      obtain ⟨finding, findingMember, sameId, sameName, sameVersion⟩ := complete checked.evidence
        (List.mem_map_of_mem checkedMember) advisory listed names
      obtain ⟨source, -, stored, storedFound, rfl⟩ := (mem_findings_iff scanned _).mp findingMember
      rw [show source.evidence.name = checked.evidence.name from sameName,
        show source.evidence.version = checked.evidence.version from sameVersion, found]
        at storedFound
      rw [← sameId, Option.some.inj storedFound]
    exact List.inj_on_of_nodup_map snapshot.advisoryIdsSorted.nodup listed otherListed
      ((identified advisory listed names).trans (identified other otherListed otherNames).symm)
  · intro disjoint evidence member advisory listed names
    obtain ⟨checked, checkedMember, rfl⟩ := List.mem_map.mp member
    obtain ⟨package, packageMember, sameName, sameVersion⟩ :=
      Pairing.exists_left same checkedMember
    obtain ⟨kept, found⟩ := exists_get?_affectedVersions listed names
    obtain ⟨keptListed, keptNames⟩ := of_get?_affectedVersions found
    rw [sameName, sameVersion] at names keptNames
    obtain rfl := disjoint package packageMember kept keptListed advisory listed keptNames names
    exact ⟨_, (mem_findings_iff scanned _).mpr ⟨checked, checkedMember, kept, found, rfl⟩, rfl, rfl,
      rfl⟩

end Scan

end Dependencies

end MmAudit
