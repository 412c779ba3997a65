import ChainIndexer.Storer2Elastic.DataProcessor

/-! # Indexing one header

`indexData` asks the coordinator of the header's shard for the signers'
indexes, and only then saves the block, without its receipt miniblocks, and the
round. A failure leaves the indexer untouched. Notarized headers are the hex
hashes of a metablock's shard info, and Go's nil for a metablock without any.
-/
namespace ChainIndexer.Storer2Elastic

variable {σ : Type} (k : Constants) (nc : NodesCoordinator σ)

def hexDigit (n : Nat) : Char := Char.ofNat (if n < 10 then n + 48 else n + 87)

/-- `hex.EncodeToString`: two lower-case digits per byte, high half first. -/
def encodeToString (bs : Bytes) : String :=
  ⟨bs.flatMap fun b => [hexDigit (b.toNat / 16), hexDigit (b.toNat % 16)]⟩

/-- Go's `time.Duration(t)` of a `uint64`: the same 64 bits read as an `int64`. -/
def toDuration (t : UInt64) : Int := if t.toNat < 2 ^ 63 then t.toNat else t.toNat - 2 ^ 64

def computeSignersIndexes (dp : DataProcessor σ) (hdr : Header) : Except String (List UInt64) :=
  let shardID := hdr.getShardID k
  match dp.nodesCoordinators.find? shardID with
  | none => .error ("nodes coordinator not found for shard " ++ toString shardID)
  | some nodesCoordinator => do
    let publicKeys ← nc.getConsensusValidatorsPublicKeys nodesCoordinator hdr.getPrevRandSeed
      hdr.getRound shardID hdr.getEpoch
    nc.getValidatorsIndexes nodesCoordinator publicKeys hdr.getEpoch

/-- `[]string{}` for a shard header, nil for a metablock without shard info. -/
def computeNotarizedHeaders (hdr : Header) : Option (List String) :=
  match hdr.asMetaBlock with
  | none => some []
  | some metaBlock =>
    let notarizedHdrs := metaBlock.shardInfo.map (encodeToString ·.headerHash)
    if notarizedHdrs.length > 0 then some notarizedHdrs else none

def indexRoundInfo (dp : DataProcessor σ) (signersIndexes : List UInt64) (hdr : Header) :
    DataProcessor σ :=
  dp.call (.saveRoundsInfos
    [⟨hdr.getRound, signersIndexes, false, hdr.getShardID k, toDuration hdr.getTimeStamp⟩])

/-- The body `indexData` saves: the `continue` on receipt miniblocks is a filter. -/
def indexedBody (body : Body) : Body := ⟨body.miniBlocks.filter (·.type ≠ k.receiptBlock)⟩

/-- `logHeaderInfo` only logs and is left out. -/
def indexData (dp : DataProcessor σ) (data : HeaderData) : Except String (DataProcessor σ) := do
  let signersIndexes ← computeSignersIndexes k nc dp data.header
  let notarizedHeaders := computeNotarizedHeaders data.header
  let dp := dp.call (.saveBlock (indexedBody k data.body) data.header data.bodyTransactions
    signersIndexes notarizedHeaders)
  return indexRoundInfo k dp signersIndexes data.header

/-! ## Durations -/

theorem toDuration_spec (t : UInt64) :
    -2 ^ 63 ≤ toDuration t ∧ toDuration t < 2 ^ 63 ∧ toDuration t % 2 ^ 64 = t.toNat := by
  have ht : t.toNat < 2 ^ 64 := t.toNat_lt_size
  unfold toDuration
  split <;> omega

/-! ## What `indexData` does -/

variable {k nc}

theorem computeSignersIndexes_notFound {dp : DataProcessor σ} {hdr : Header}
    (h : dp.nodesCoordinators.find? (hdr.getShardID k) = none) :
    computeSignersIndexes k nc dp hdr =
      .error ("nodes coordinator not found for shard " ++ toString (hdr.getShardID k)) := by
  simp [computeSignersIndexes, h]

theorem indexData_error {dp : DataProcessor σ} {data : HeaderData} {e : String} :
    indexData k nc dp data = .error e ↔ computeSignersIndexes k nc dp data.header = .error e := by
  cases h : computeSignersIndexes k nc dp data.header <;>
    simp [indexData, h, bind, Except.bind, pure, Except.pure]

theorem indexData_ok {dp : DataProcessor σ} {data : HeaderData} {signersIndexes : List UInt64}
    (h : computeSignersIndexes k nc dp data.header = .ok signersIndexes) :
    indexData k nc dp data = .ok ((dp.call (.saveBlock (indexedBody k data.body) data.header
      data.bodyTransactions signersIndexes (computeNotarizedHeaders data.header))).call
        (.saveRoundsInfos [⟨data.header.getRound, signersIndexes, false, data.header.getShardID k,
          toDuration data.header.getTimeStamp⟩])) := by
  simp [indexData, h, indexRoundInfo, bind, Except.bind, pure, Except.pure]

theorem mem_indexedBody {body : Body} {mb : MiniBlock} :
    mb ∈ (indexedBody k body).miniBlocks ↔ mb ∈ body.miniBlocks ∧ mb.type ≠ k.receiptBlock := by
  simp [indexedBody]

theorem computeNotarizedHeaders_eq_none {hdr : Header} :
    computeNotarizedHeaders hdr = none ↔ ∃ m, hdr = .meta m ∧ m.shardInfo = [] := by
  cases hdr with
  | meta m => cases hs : m.shardInfo <;> simp [computeNotarizedHeaders, Header.asMetaBlock, hs]
  | shard h => simp [computeNotarizedHeaders, Header.asMetaBlock]

end ChainIndexer.Storer2Elastic
