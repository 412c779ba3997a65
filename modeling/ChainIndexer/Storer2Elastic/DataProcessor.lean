import ChainIndexer.Storer2Elastic.UniqueMiniBlocks

/-! # The data processor and its collaborators

A `dataProcessor` keeps one nodes coordinator per shard and talks to an elastic
indexer, a ratings processor and a TPS benchmark updater. The coordinators are
outside this excerpt: their state is a parameter `σ` and `NodesCoordinator`
holds the methods called on them. The other collaborators only receive calls,
so the processor records every call it makes, in order.
-/
namespace ChainIndexer.Storer2Elastic

/-- `indexer.RoundInfo`; `timestamp` is the `time.Duration`, an `int64`. -/
structure RoundInfo where
  index : UInt64
  signersIndexes : List UInt64
  blockWasProposed : Bool
  shardId : UInt32
  timestamp : Int
  deriving DecidableEq, Repr

/-- A call of the data processor on a collaborator. A nil `[]string` of
notarized headers is `none`, as Go tells it apart from an empty one. -/
inductive Call where
  | epochStartPrepare (shardID : UInt32) (metaBlock : MetaBlock) (body : Body)
  | saveValidatorsPubKeys (validatorsPubKeys : GoMap UInt32 (List Bytes)) (epoch : UInt32)
  | indexRatingsForEpochStartMetaBlock (metaBlock : MetaBlock)
  | saveBlock (body : Body) (header : Header) (txPool : GoMap String Bytes)
      (signersIndexes : List UInt64) (notarizedHeaders : Option (List String))
  | saveRoundsInfos (roundsInfos : List RoundInfo)
  | indexTPSForMetaBlock (metaBlock : Option MetaBlock)
  deriving DecidableEq, Repr

/-- The methods of a `NodesCoordinator` the data processor calls; an error is
its `Error()` text. `GetAllEligibleValidatorsPublicKeys` keeps Go's pair, as one
caller uses the map it returns beside an error. -/
structure NodesCoordinator (σ : Type) where
  epochStartPrepare : σ → MetaBlock → Body → σ
  getAllEligibleValidatorsPublicKeys : σ → UInt32 → GoMap UInt32 (List Bytes) × Option String
  getConsensusValidatorsPublicKeys :
    σ → Bytes → UInt64 → UInt32 → UInt32 → Except String (List String)
  getValidatorsIndexes : σ → List String → UInt32 → Except String (List UInt64)

/-- `calculateHash` is `core.CalculateHash` over the processor's marshalizer and
hasher; `ratingsProcessor = none` is a nil `*ratingsProcessor`; `calls` lists
what the collaborators received, oldest first. -/
structure DataProcessor (σ : Type) where
  calculateHash : MiniBlock → Option Bytes
  nodesCoordinators : GoMap UInt32 σ
  ratingsProcessor : Option Unit
  calls : List Call

variable {σ : Type}

namespace DataProcessor

def call (dp : DataProcessor σ) (c : Call) : DataProcessor σ := { dp with calls := dp.calls ++ [c] }

@[simp] theorem call_calls (dp : DataProcessor σ) (c : Call) : (dp.call c).calls = dp.calls ++ [c] :=
  rfl

@[simp] theorem call_nodesCoordinators (dp : DataProcessor σ) (c : Call) :
    (dp.call c).nodesCoordinators = dp.nodesCoordinators := rfl

@[simp] theorem call_calculateHash (dp : DataProcessor σ) (c : Call) :
    (dp.call c).calculateHash = dp.calculateHash := rfl

@[simp] theorem call_ratingsProcessor (dp : DataProcessor σ) (c : Call) :
    (dp.call c).ratingsProcessor = dp.ratingsProcessor := rfl

end DataProcessor

/-- How a method ends: it returns, or Go panics. Either way the calls made so
far stay made. -/
inductive Outcome (σ : Type) where
  | returned (dp : DataProcessor σ)
  | panicked (dp : DataProcessor σ)

/-- The processor as the method left it. -/
def Outcome.dp : Outcome σ → DataProcessor σ
  | returned dp | panicked dp => dp

@[simp] theorem Outcome.dp_returned (dp : DataProcessor σ) : (Outcome.returned dp).dp = dp := rfl

@[simp] theorem Outcome.dp_panicked (dp : DataProcessor σ) : (Outcome.panicked dp).dp = dp := rfl

/-- Go on from a return; a panic ends it all. -/
def Outcome.bind (o : Outcome σ) (f : DataProcessor σ → Outcome σ) : Outcome σ :=
  match o with
  | returned dp => f dp
  | panicked dp => panicked dp

@[simp] theorem Outcome.returned_bind (dp : DataProcessor σ) (f : DataProcessor σ → Outcome σ) :
    (Outcome.returned dp).bind f = f dp := rfl

@[simp] theorem Outcome.panicked_bind (dp : DataProcessor σ) (f : DataProcessor σ → Outcome σ) :
    (Outcome.panicked dp).bind f = .panicked dp := rfl

end ChainIndexer.Storer2Elastic
