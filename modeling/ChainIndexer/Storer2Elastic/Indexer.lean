import ChainIndexer.Storer2Elastic.Replay

/-! # What the indexer receives over a replay

Over a replay the indexer's block and round calls come in pairs, one pair per
header whose signers' indexes are known, for headers of the rounds the replay
gets through, in the order `processData` visits them, each at most once and
only for shards that have a coordinator.
-/
namespace ChainIndexer.Storer2Elastic

variable {σ : Type} (k : Constants) (nc : NodesCoordinator σ)

def Call.isBlockIndexing : Call → Bool
  | .saveBlock .. | .saveRoundsInfos _ => true
  | _ => false

/-- The `SaveBlock` and `SaveRoundsInfos` calls among `calls`, oldest first. -/
def indexerCalls (calls : List Call) : List Call := calls.filter Call.isBlockIndexing

/-- The two calls `indexData` makes for a header whose signers are known. -/
def blockCalls (data : HeaderData) (signersIndexes : List UInt64) : List Call :=
  [.saveBlock (indexedBody k data.body) data.header data.bodyTransactions signersIndexes
      (computeNotarizedHeaders data.header),
    .saveRoundsInfos [⟨data.header.getRound, signersIndexes, false, data.header.getShardID k,
      toDuration data.header.getTimeStamp⟩]]

/-- The headers `processData` visits in a round: the metablock, then the shard
headers in the map's order. -/
def roundHeaders (r : RoundPersistedData) : List HeaderData :=
  r.metaBlockData :: r.shardHeaders.entries.flatMap (·.2)

@[simp] theorem indexerCalls_append (c c' : List Call) :
    indexerCalls (c ++ c') = indexerCalls c ++ indexerCalls c' :=
  List.filter_append _ _

@[simp] theorem indexerCalls_blockCalls (data : HeaderData) (signersIndexes : List UInt64) :
    indexerCalls (blockCalls k data signersIndexes) = blockCalls k data signersIndexes := rfl

@[simp] theorem indexerCalls_map (ids : List UInt32) (metaBlock : MetaBlock) (body : Body) :
    indexerCalls (ids.map (.epochStartPrepare · metaBlock body)) = [] := by
  induction ids <;> simp_all [indexerCalls, Call.isBlockIndexing]

/-- `dp'` is `dp` after visiting the headers `hs`: the same shards have a
coordinator, and the indexer got the block and round of some of these headers,
in order, each of a shard with a coordinator. -/
structure Indexes (hs : List HeaderData) (dp dp' : DataProcessor σ) : Prop where
  keys : dp'.nodesCoordinators.keys = dp.nodesCoordinators.keys
  blocks : ∃ items : List (HeaderData × List UInt64), (items.map Prod.fst).Sublist hs ∧
    (∀ p ∈ items, p.1.header.getShardID k ∈ dp.nodesCoordinators.keys) ∧
    indexerCalls dp'.calls = indexerCalls dp.calls ++ items.flatMap fun p => blockCalls k p.1 p.2

variable {k}

theorem Indexes.refl (dp : DataProcessor σ) : Indexes k [] dp dp := ⟨rfl, [], by simp, by simp, by simp⟩

theorem Indexes.trans {hs hs' : List HeaderData} {dp dp' dp'' : DataProcessor σ} (h : Indexes k hs dp dp')
    (h' : Indexes k hs' dp' dp'') : Indexes k (hs ++ hs') dp dp'' := by
  obtain ⟨hk, items, hsub, hshard, hcalls⟩ := h
  obtain ⟨hk', items', hsub', hshard', hcalls'⟩ := h'
  refine ⟨hk'.trans hk, items ++ items', by simpa using hsub.append hsub', fun p hp => ?_, by
    simp [hcalls', hcalls]⟩
  rcases List.mem_append.1 hp with hp | hp
  exacts [hshard p hp, hk ▸ hshard' p hp]

/-- A call that is not to the indexer's blocks or rounds. -/
theorem Indexes.call {dp : DataProcessor σ} {c : Call} (hc : c.isBlockIndexing = false) :
    Indexes k [] dp (dp.call c) :=
  ⟨rfl, [], by simp, by simp, by simp [indexerCalls, hc]⟩

theorem Indexes.mono {hs hs' : List HeaderData} {dp dp' : DataProcessor σ} (h : Indexes k hs dp dp')
    (hsub : hs.Sublist hs') : Indexes k hs' dp dp' :=
  let ⟨hk, items, hi, hshard, hcalls⟩ := h
  ⟨hk, items, hi.trans hsub, hshard, hcalls⟩

theorem Indexes.foldl {α : Type} {f : DataProcessor σ → α → DataProcessor σ} {g : α → List HeaderData}
    (hf : ∀ dp a, Indexes k (g a) dp (f dp a)) (l : List α) (dp : DataProcessor σ) :
    Indexes k (l.flatMap g) dp (l.foldl f dp) := by
  induction l generalizing dp with
  | nil => exact .refl dp
  | cons a l ih => simpa using (hf dp a).trans (ih (f dp a))

/-! ## Each step of a replay -/

variable (k)

theorem indexOrLog_indexes (dp : DataProcessor σ) (data : HeaderData) :
    Indexes k [data] dp (indexOrLog k nc dp data) := by
  unfold indexOrLog
  cases hs : computeSignersIndexes k nc dp data.header with
  | error e =>
    rw [indexData_error.2 hs]
    exact ⟨rfl, [], by simp, by simp, by simp⟩
  | ok s =>
    rw [indexData_ok hs]
    have hshard : data.header.getShardID k ∈ dp.nodesCoordinators.keys := by
      by_contra hn
      rw [computeSignersIndexes_notFound (GoMap.find?_eq_none.2 hn)] at hs
      cases hs
    exact ⟨rfl, [(data, s)], by simp, by simpa using hshard,
      by simp [blockCalls, indexRoundInfo, indexerCalls, Call.isBlockIndexing]⟩

theorem indexRound_indexes (dp : DataProcessor σ) (r : RoundPersistedData) :
    Indexes k (roundHeaders r) dp (indexRound k nc dp r) :=
  ((indexOrLog_indexes k nc dp _).trans (Indexes.call (by rfl))).trans
    (Indexes.foldl (fun dp (e : UInt32 × List HeaderData) => by
      simpa using Indexes.foldl (fun dp data => indexOrLog_indexes k nc dp data) e.2 dp) _ _)

theorem processValidatorsForEpoch_indexes (dp : DataProcessor σ) (metaBlock : MetaBlock) (body : Body) :
    Indexes k [] dp (processValidatorsForEpoch k nc dp metaBlock body).dp := by
  by_cases h0 : metaBlock.epoch = 0
  · simpa [processValidatorsForEpoch, h0] using (Indexes.refl dp : Indexes k [] dp dp)
  rcases processValidatorsForEpoch_dp k nc dp metaBlock body h0 with hd | ⟨keys, -, hd⟩ <;> rw [hd]
  · exact ⟨by simp, [], by simp, by simp, by simp⟩
  · exact ⟨by simp, [], by simp, by simp, by simp [indexerCalls, Call.isBlockIndexing]⟩

/-- One round: the headers it visits are its own unless it panics first. -/
theorem processData_indexes {dp : DataProcessor σ} (hm : k.metachainShardId ∈ dp.nodesCoordinators.keys)
    (r : RoundPersistedData) :
    Indexes k (if RoundPanics dp.ratingsProcessor r then [] else roundHeaders r) dp (processData k nc dp r).1.dp := by
  rcases processData_cases nc hm r with ⟨hc, ho⟩ | ⟨hc, hmeta, ho⟩ | ⟨metaBlock, dp', hc, hmeta, hdp', -, hrest⟩
  · have hb : ¬RoundPanics dp.ratingsProcessor r := fun hb => hc hb.1
    simpa [ho, hb] using indexRound_indexes k nc dp r
  · simpa [ho, RoundPanics, hc, hmeta] using (Indexes.refl dp : Indexes k [] dp dp)
  · have hv := processValidatorsForEpoch_indexes k nc dp metaBlock r.metaBlockData.body
    rw [hdp', Outcome.dp_returned] at hv
    rcases hrest with ⟨hr, ho⟩ | ⟨hr, ho⟩
    · simpa [ho, RoundPanics, hc, hr] using hv
    · have hb : ¬RoundPanics dp.ratingsProcessor r := by simp [RoundPanics, hmeta, hr]
      simpa [ho, hb] using (hv.trans (Indexes.call rfl : Indexes k [] dp'
        (dp'.call (.indexRatingsForEpochStartMetaBlock metaBlock)))).trans (indexRound_indexes k nc _ r)

/-- From a processor with a metachain coordinator, a replay visits headers of
the rounds before the first that panics; with a ratings processor, all of them. -/
theorem index_indexes {dp : DataProcessor σ} (hm : k.metachainShardId ∈ dp.nodesCoordinators.keys)
    (rounds : List RoundPersistedData) :
    Indexes k ((replayed rounds).flatMap roundHeaders) dp (index k nc dp rounds).dp := by
  induction rounds generalizing dp with
  | nil => exact .refl dp
  | cons r rest ih =>
    have hp := processData_indexes k nc hm r
    rcases ho : (processData k nc dp r).1 with dp' | dp'
    · have hnot := not_roundPanics_of_returned nc hm ho
      have hnot' : ¬EpochStartWithoutMetaBlock r := fun hb => hnot (hb.roundPanics _)
      rw [ho, Outcome.dp_returned, if_neg hnot] at hp
      simpa [index, processData_eq nc ho, hnot'] using hp.trans (ih (hp.keys ▸ hm))
    · rw [ho, Outcome.dp_panicked, if_pos ((processData_panicked nc hm r).1 ⟨dp', ho⟩)] at hp
      simpa [index, processData_eq nc ho] using hp.mono (List.nil_sublist _)

/-! ## Replays of a built processor -/

end ChainIndexer.Storer2Elastic
