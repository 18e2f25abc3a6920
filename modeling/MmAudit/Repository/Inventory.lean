import MmAudit.Repository.Withholding

/-!
# The inventory of a discovery

A discovery comes to a file once, and only under a path that normalization accepts.  So the
paths of the files that it maps are distinct and supported, also after the prior audit was
withheld.
-/

namespace MmAudit

namespace Discovery

open Ignore Collecting Fallible

section Files

variable {Digest : Type} (mapping : Mapping Digest) (tree : FileTree) (rules : Rules)
  (config : DiscoveryConfig) (changed : Finset (List Char))

/-- A file is mapped under the path that was visited. -/
theorem relativePath_of_item {visit : Visit} {file : MappedFile Digest}
    (outcome : visitOutcome mapping tree rules config changed visit = .item file) :
    visit = .file file.relativePath ∧ rules.normalizes file.relativePath = .ok () := by
  cases visit with
  | note text => cases outcome
  | failure error => cases outcome
  | file path =>
      obtain ⟨target, data, rfl⟩ := fileOutcome_item mapping tree rules config changed outcome
      refine ⟨rfl, ?_⟩
      change fileOutcome mapping tree rules config changed path = _ at outcome
      unfold fileOutcome at outcome
      split at outcome
      · cases outcome
      · next accepted => exact accepted

/-- The paths of the mapped files stand among the visits, in their order. -/
theorem relativePaths_sublist (visits : List Visit) :
    (((visits.map (visitOutcome mapping tree rules config changed)).filterMap
      Outcome.item?).map fun file => Visit.file file.relativePath).Sublist visits := by
  induction visits with
  | nil => exact List.Sublist.refl _
  | cons visit visits ih =>
      rw [List.map_cons, List.filterMap_cons]
      cases outcome : visitOutcome mapping tree rules config changed visit with
      | nothing => exact ih.cons _
      | note note => exact ih.cons _
      | failure error => exact ih.cons _
      | item file =>
          obtain ⟨rfl, -⟩ := relativePath_of_item mapping tree rules config changed outcome
          exact ih.cons_cons _

/-- Discovery maps no path twice. -/
theorem discoverRepository_nodup {gitCommit : Option String} {result : DiscoveryResult Digest}
    (discovered : discoverRepository mapping tree rules config changed gitCommit = .ok result) :
    (result.files.map fun file => file.relativePath).Nodup := by
  obtain ⟨collected, found, rfl⟩ := map_eq_ok_iff.mp discovered
  have within := collect_sublist (fileLimits config)
    (fun file : MappedFile Digest => Visit.file file.relativePath) (fun _ => rfl) found
  have visited := within.trans (relativePaths_sublist mapping tree rules config changed _)
  have distinct : (collected.1.map fun file => Visit.file file.relativePath).Nodup := by
    refine List.nodup_iff_count_le_one.mpr fun visit => ?_
    by_cases member : visit ∈ collected.1.map fun file => Visit.file file.relativePath
    · obtain ⟨file, -, rfl⟩ := List.mem_map.mp member
      refine (visited.count_le _).trans ((count_walkWithin_le tree rules config _ _ _ _ _).trans ?_)
      exact (List.countP_le_length).trans (le_refl _)
    · rw [List.count_eq_zero.mpr member]
      exact Nat.zero_le _
  refine List.Nodup.of_map Visit.file ?_
  rwa [List.map_map]

/-- Discovery maps supported paths only. -/
theorem discoverRepository_normalizes {gitCommit : Option String}
    {result : DiscoveryResult Digest}
    (discovered : discoverRepository mapping tree rules config changed gitCommit = .ok result)
    {file : MappedFile Digest} (member : file ∈ result.files) :
    rules.normalizes file.relativePath = .ok () := by
  obtain ⟨collected, found, rfl⟩ := map_eq_ok_iff.mp discovered
  have within := collect_sublist (fileLimits config)
    (fun file : MappedFile Digest => file.relativePath) (fun _ => rfl) found
  obtain ⟨mapped, mappedMember, same⟩ := List.mem_map.mp
    (within.subset (List.mem_map_of_mem member (f := fun file => file.relativePath)))
  obtain ⟨outcome, outcomeMember, isItem⟩ := List.mem_filterMap.mp mappedMember
  obtain ⟨visit, -, rfl⟩ := List.mem_map.mp outcomeMember
  cases item : visitOutcome mapping tree rules config changed visit with
  | nothing => rw [item] at isItem; cases isItem
  | note note => rw [item] at isItem; cases isItem
  | failure error => rw [item] at isItem; cases isItem
  | item visited =>
      rw [item] at isItem
      cases isItem
      rw [← same]
      exact (relativePath_of_item mapping tree rules config changed item).2

end Files

/-- Withholding keeps some of the files as they are. -/
theorem withhold_files_sublist {Digest : Type} (discovery : DiscoveryResult Digest)
    (configuredPath : Option PriorAuditPath) :
    (withholdPriorAuditFromDiscovery discovery configuredPath).1.files.Sublist
      discovery.files := by
  cases configuredPath with
  | none => exact List.Sublist.refl _
  | some prior => exact List.filter_sublist

end Discovery

end MmAudit
