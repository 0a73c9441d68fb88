import PokerDeliberation.Identifiers

/-!
# Versioned range definitions

The request side of the range grammar: a definition with its provenance and
the game conditions it is bound to. The validators are fields; the grammar and
schema versions, which a definition can only have at their one supported value,
are left out.
-/

namespace PokerDeliberation.Ranges

open Lib

def MAX_RANGE_NOTATION_BYTES : Nat := 16384
def MAX_RANGE_TOKENS : Nat := 1326
def MAX_EXPANDED_COMBOS : Nat := 1326
def MAX_RANGE_DIAGNOSTICS : Nat := 64
def MAX_RANGE_ACTION_PREFIX : Nat := 512
def WEIGHT_SCALE : Nat := 1000000

/-- `_PORTABLE_ID_PATTERN`. -/
def rangeId : String → Bool :=
  fullClass Char.isAlphanum (fun c => c.isAlphanum || c == '.' || c == '_' || c == '-') 127

/-- `_POSITION_PATTERN`. -/
def positionPattern : String → Bool :=
  fullClass Char.isAlphanum (fun c => c.isAlphanum || c == '_' || c == '+' || c == '-') 31

inductive SourceKind where
  | userSupplied | repositoryFixture
  deriving DecidableEq, Repr

inductive LicenseClassification where
  | userSuppliedPrivateAnalysis | repositoryOwnedMit
  deriving DecidableEq, Repr

inductive UsageClassification where
  | localAnalysisOnly | redistributionAllowed
  deriving DecidableEq, Repr

inductive ContentStatus where
  | userClaim | assumption
  deriving DecidableEq, Repr

/-- The rights a source of a kind must declare. -/
def SourceKind.rights : SourceKind → LicenseClassification × UsageClassification
  | .userSupplied => (.userSuppliedPrivateAnalysis, .localAnalysisOnly)
  | .repositoryFixture => (.repositoryOwnedMit, .redistributionAllowed)

@[ext]
structure RangeSourceProvenanceV1 where
  sourceId : String
  sourceKind : SourceKind
  licenseClassification : LicenseClassification
  usageClassification : UsageClassification
  contentStatus : ContentStatus
  contentSha256 : String
  source_id_valid : rangeId sourceId = true
  content_hash_valid : isSha256 contentSha256 = true
  rights : (licenseClassification, usageClassification) = sourceKind.rights
  deriving Repr

instance : DecidableEq RangeSourceProvenanceV1 := fun _ _ =>
  decidable_of_iff _ RangeSourceProvenanceV1.ext_iff.symm

inductive HandFormat where
  | cash | tournament
  deriving DecidableEq, Repr

inductive RangeStreet where
  | preflop | flop | turn | river
  deriving DecidableEq, Repr

@[ext]
structure RangeGameConditionsV1 where
  format : HandFormat
  tableSize : Nat
  targetPosition : String
  street : RangeStreet
  startingStackMinBbMilli : Nat
  startingStackMaxBbMilli : Nat
  asOfActionIndex : Nat
  actionPrefixSha256 : String
  table_size_range : 2 ≤ tableSize ∧ tableSize ≤ 10
  position_valid : positionPattern targetPosition = true
  stack_le : startingStackMinBbMilli ≤ 10000000 ∧ startingStackMaxBbMilli ≤ 10000000
  index_le : asOfActionIndex ≤ MAX_RANGE_ACTION_PREFIX
  action_hash_valid : isSha256 actionPrefixSha256 = true
  stack_ordered : startingStackMinBbMilli ≤ startingStackMaxBbMilli
  deriving Repr

instance : DecidableEq RangeGameConditionsV1 := fun _ _ =>
  decidable_of_iff _ RangeGameConditionsV1.ext_iff.symm

@[ext]
structure VersionedRangeDefinitionV1 where
  rangeId : String
  targetPlayerId : String
  rangeNotation : String
  source : RangeSourceProvenanceV1
  gameConditions : RangeGameConditionsV1
  range_id_valid : Ranges.rangeId rangeId = true
  target_valid : Ranges.rangeId targetPlayerId = true
  notation_nonempty : rangeNotation ≠ ""
  deriving Repr

instance : DecidableEq VersionedRangeDefinitionV1 := fun _ _ =>
  decidable_of_iff _ VersionedRangeDefinitionV1.ext_iff.symm

end PokerDeliberation.Ranges
