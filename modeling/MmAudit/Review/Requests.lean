import MmAudit.Library.Dict
import MmAudit.Library.Fallible
import MmAudit.Repository.Locations

/-!
# Surfaces, roles and lineages

A surface request asks a model to review one part of the source.  The roles that are
scheduled for reviews depend on the profile and on the specialists that are configured.
What makes two roles independent is the root lineage of their primary models: the operator
registers the lineages and approves them.
-/

namespace MmAudit

namespace Review

open Context

structure ValueError where
  message : String
deriving DecidableEq, Repr

/-! ## Requests -/

inductive ModelReviewSurfaceKind where
  | sourceFile
  | contract
  | entryPoint
  | internalFunction
  | privilegeFunction
  | assetFunction
  | call
  | state
  | invariant
  | template
deriving DecidableEq, Repr

inductive ModelSurfaceReviewPriority where
  | standard
  | elevatedCoverageGap
deriving DecidableEq, Repr

def isHexDigit (char : Char) : Bool :=
  decide ('0' ≤ char ∧ char ≤ '9' ∨ 'a' ≤ char ∧ char ≤ 'f')

/-- The pattern of a surface ID. -/
def IsSurfaceId (text : String) : Prop :=
  "model-surface:".toList <+: text.toList ∧ text.toList.length = 14 + 64 ∧
    ((text.toList.drop 14).all isHexDigit) = true

instance (text : String) : Decidable (IsSurfaceId text) :=
  inferInstanceAs (Decidable (_ ∧ _ ∧ _))

/-- The priority is elevated exactly when there are gaps. -/
structure ModelSurfaceReviewRequest (Digest : Type) where
  surfaceId : String
  kind : ModelReviewSurfaceKind
  subjectId : String
  contract : String
  functionOrStateSurface : String
  critical : Bool
  allowedLocations : List (Location Digest)
  allowedSymbols : List String
  invariantConsidered : String
  priority : ModelSurfaceReviewPriority
  coverageGapIds : List String
  stableId : IsSurfaceId surfaceId
  gapsElevate : priority = .elevatedCoverageGap ↔ coverageGapIds ≠ []
deriving DecidableEq, Repr

/-! ## Configuration -/

inductive AuditProfile where
  | quick
  | standard
  | deep
  | maximumAssurance
deriving DecidableEq, Repr

structure ModelRoleConfig where
  primary : String
  fallbacks : List String
deriving DecidableEq, Repr

structure ModelLineageConfig where
  rootLineage : String
  canonicalModelId : String
  aliases : List String
deriving DecidableEq, Repr

/-- `ModelLineageConfig.model_ids` -/
def ModelLineageConfig.modelIds (entry : ModelLineageConfig) : List String :=
  entry.canonicalModelId :: entry.aliases

/-- What the reviews read of the configuration. -/
structure AuditConfig where
  profile : AuditProfile
  sourceAudit : ModelRoleConfig
  businessLogic : ModelRoleConfig
  configuration : ModelRoleConfig
  specialists : Dict String ModelRoleConfig
  registry : List ModelLineageConfig
  approvedModelLineages : List String

/-! ## Roles -/

/-- `_BASE_REVIEW_ROLES` -/
def baseReviewRoles : List String :=
  ["source_audit", "business_logic", "configuration"]

/-- `SPECIALIST_INVESTIGATOR_ROLES` -/
def specialistInvestigatorRoles : List String :=
  ["access_control", "reentrancy_control_flow", "economic_game_theory",
    "oracle_price_manipulation", "accounting_invariant", "token_standard", "erc4626_vault",
    "amm_dex_liquidity", "lending_liquidation", "governance_timelock", "upgradeability_storage",
    "initialization_deployment", "signature_permit_replay", "mev_ordering",
    "denial_of_service_griefing", "precision_rounding", "cross_chain_bridge",
    "dependency_supply_chain", "formal_methods_property", "false_negative_hunter"]

/-- `_COVERAGE_GAP_HUNTER_ROLE` -/
def coverageGapHunterRole : String :=
  "specialist:false_negative_hunter"

/-- `text.removeprefix(start)` -/
def removePrefix (start text : String) : String :=
  if start.toList <+: text.toList then String.ofList (text.toList.drop start.toList.length)
  else text

/-- The configuration of the role when it is one of the base roles. -/
def baseRoleConfig? (config : AuditConfig) (role : String) : Option ModelRoleConfig :=
  if role = "source_audit" then some config.sourceAudit
  else if role = "business_logic" then some config.businessLogic
  else if role = "configuration" then some config.configuration
  else none

def specialistConfig? (config : AuditConfig) (role : String) : Option ModelRoleConfig :=
  config.specialists.get? (removePrefix "specialist:" role)

/-- `_scheduled_model_surface_review_roles` -/
def scheduledReviewRoles (config : AuditConfig) : List String :=
  let specialists :=
    if config.profile = .deep ∨ config.profile = .maximumAssurance then
      (specialistInvestigatorRoles.filter (· ∈ config.specialists)).map ("specialist:" ++ ·)
    else []
  (baseReviewRoles ++ specialists).insertionSort (· ≤ ·)

/-- `_configured_models_for_role` -/
def configuredModelsForRole (config : AuditConfig) (role : String) : List String :=
  match baseRoleConfig? config role with
  | some roleConfig => roleConfig.primary :: roleConfig.fallbacks
  | none =>
      if "specialist:".toList <+: role.toList then
        match specialistConfig? config role with
        | some roleConfig => roleConfig.primary :: roleConfig.fallbacks
        | none => []
      else []

/-! ## Lineages -/

section Lineages

variable (lower : String → String)

/-- `model_lineage_index` -/
def modelLineageIndex (config : AuditConfig) : Dict String ModelLineageConfig :=
  (config.registry.flatMap fun entry => entry.modelIds.map fun modelId => (lower modelId, entry)).foldl
    (fun index item => index.insert item.1 item.2) Dict.empty

/-- The root lineage of a model, when it is registered and approved. -/
def approvedLineage (config : AuditConfig) (model : String) : Option String :=
  match (modelLineageIndex lower config).get? (lower model) with
  | none => none
  | some lineage =>
      if lineage.rootLineage ∈ config.approvedModelLineages then some lineage.rootLineage else none

/-- `_approved_registered_primary_lineage` -/
def approvedRegisteredPrimaryLineage (config : AuditConfig) (role : String) : Option String :=
  match baseRoleConfig? config role with
  | some roleConfig => approvedLineage lower config roleConfig.primary
  | none =>
      if "specialist:".toList <+: role.toList then
        match specialistConfig? config role with
        | some roleConfig => approvedLineage lower config roleConfig.primary
        | none => none
      else none

/-- The role with its root lineage, when the planner can use it. -/
def candidateOf (config : AuditConfig) (role : String) : Option (String × String) :=
  if (configuredModelsForRole config role).isEmpty then none
  else
    ((baseRoleConfig? config role).or (specialistConfig? config role)).bind fun roleConfig =>
      (approvedLineage lower config roleConfig.primary).map fun lineage => (role, lineage)

/-- The planner and the gate find the same lineage for a role. -/
theorem candidateOf_eq (config : AuditConfig) (role : String) :
    candidateOf lower config role =
      (approvedRegisteredPrimaryLineage lower config role).map fun lineage => (role, lineage) := by
  unfold candidateOf configuredModelsForRole approvedRegisteredPrimaryLineage
  cases base : baseRoleConfig? config role with
  | some roleConfig => rfl
  | none =>
      by_cases isSpecialist : "specialist:".toList <+: role.toList
      · rw [if_pos isSpecialist, if_pos isSpecialist]
        cases specialistConfig? config role with
        | some roleConfig => rfl
        | none => rfl
      · rw [if_neg isSpecialist, if_neg isSpecialist]
        rfl

end Lineages

theorem nodup_scheduledReviewRoles (config : AuditConfig) :
    (scheduledReviewRoles config).Nodup := by
  have all : (baseReviewRoles ++ specialistInvestigatorRoles.map ("specialist:" ++ ·)).Nodup := by
    decide
  unfold scheduledReviewRoles
  rw [(List.perm_insertionSort _ _).nodup_iff]
  refine (List.Sublist.append (List.Sublist.refl _) ?_).nodup all
  split
  · exact List.filter_sublist.map _
  · exact List.nil_sublist _

end Review

end MmAudit
