import ChainIndexer.Storer2Elastic.ValidatorsForEpoch
import ChainIndexer.Storer2Elastic.IndexData
import ChainIndexer.Storer2Elastic.NewDataProcessor

/-! # Replaying the stored rounds

`Index` hands the stored rounds to `processData` in the order the data replayer
reads them. A built processor panics only at an epoch-start slot that holds no
metablock, or at any epoch-start slot when its ratings processor is nil; every
call it makes is `WellFormed`.
-/
namespace ChainIndexer.Storer2Elastic

variable {σ : Type} (k : Constants) (nc : NodesCoordinator σ)

def indexOrLog (dp : DataProcessor σ) (data : HeaderData) : DataProcessor σ :=
  match indexData k nc dp data with
  | .ok dp => dp
  | .error _ => dp

def indexShardHeaders (dp : DataProcessor σ) (shardHeaders : GoMap UInt32 (List HeaderData)) :
    DataProcessor σ :=
  shardHeaders.entries.foldl (fun dp e => e.2.foldl (indexOrLog k nc) dp) dp

/-- `dp.ratingsProcessor.IndexRatingsForEpochStartMetaBlock(metaBlock)`, its
error only logged. The method, outside this excerpt, reads its receiver, so on a
nil ratings processor Go panics. -/
def indexRatingsForEpochStartMetaBlock (dp : DataProcessor σ) (metaBlock : MetaBlock) : Outcome σ :=
  match dp.ratingsProcessor with
  | none => .panicked dp
  | some _ => .returned (dp.call (.indexRatingsForEpochStartMetaBlock metaBlock))

/-- The first statement of `processData`. A header that is no metablock makes
`processValidatorsForEpoch` read the epoch of a nil metablock, and Go panics. -/
def processEpochStart (dp : DataProcessor σ) (metaPersistedData : HeaderData) : Outcome σ :=
  let header := metaPersistedData.header
  if header.isStartOfEpochBlock || header.getNonce = 0 then
    match header.asMetaBlock with
    | none => .panicked dp
    | some metaBlock =>
      (processValidatorsForEpoch k nc dp metaBlock metaPersistedData.body).bind
        (indexRatingsForEpochStartMetaBlock · metaBlock)
  else .returned dp

/-- The rest of `processData`: the metablock, its TPS, then the shard headers. -/
def indexRound (dp : DataProcessor σ) (persistedData : RoundPersistedData) : DataProcessor σ :=
  let metaPersistedData := persistedData.metaBlockData
  let dp := (indexOrLog k nc dp metaPersistedData).call
    (.indexTPSForMetaBlock metaPersistedData.header.asMetaBlock)
  indexShardHeaders k nc dp persistedData.shardHeaders

/-- `processData`, with its answer to `Range`. -/
def processData (dp : DataProcessor σ) (persistedData : RoundPersistedData) : Outcome σ × Bool :=
  ((processEpochStart k nc dp persistedData.metaBlockData).bind fun dp =>
    .returned (indexRound k nc dp persistedData), true)

/-- `Index`: `Range` over the rounds, stopping at a false answer. -/
def index (dp : DataProcessor σ) : List RoundPersistedData → Outcome σ
  | [] => .returned dp
  | r :: rest =>
    match processData k nc dp r with
    | (.returned dp, true) => index dp rest
    | (o, _) => o

/-- `Index` as Go runs it. Each `range` over the coordinators visits them in an
order Go draws anew, so before each round the map's entries may be listed in any
order; `processData` always answers true. -/
inductive IndexRun : DataProcessor σ → List RoundPersistedData → Outcome σ → Prop
  | nil (dp : DataProcessor σ) : IndexRun dp [] (.returned dp)
  | returned {dp dp' : DataProcessor σ} (m : GoMap UInt32 σ) {r : RoundPersistedData}
      {rest : List RoundPersistedData} {o : Outcome σ} (hm : m.entries.Perm dp.nodesCoordinators.entries)
      (h : (processData k nc { dp with nodesCoordinators := m } r).1 = .returned dp')
      (hrest : IndexRun dp' rest o) : IndexRun dp (r :: rest) o
  | panicked {dp dp' : DataProcessor σ} (m : GoMap UInt32 σ) {r : RoundPersistedData}
      {rest : List RoundPersistedData} (hm : m.entries.Perm dp.nodesCoordinators.entries)
      (h : (processData k nc { dp with nodesCoordinators := m } r).1 = .panicked dp') :
      IndexRun dp (r :: rest) (.panicked dp')

/-! ## Well-formed calls -/

/-- What every call of a replay satisfies, for the processor's hash. -/
def Call.WellFormed (calculateHash : MiniBlock → Option Bytes) : Call → Prop
  | .epochStartPrepare _ metaBlock body => metaBlock.epoch ≠ 0 ∧
      body.miniBlocks.Pairwise (fun a b => calculateHash a ≠ calculateHash b) ∧
      ∀ mb ∈ body.miniBlocks, ListedPeer k calculateHash metaBlock mb
  | .saveValidatorsPubKeys keys epoch => epoch ≠ 0 → keys.size ≠ 0
  | .saveBlock body .. => ∀ mb ∈ body.miniBlocks, mb.type ≠ k.receiptBlock
  | _ => True

/-- `dp'` is `dp` with more calls, all well formed, and coordinators for the
same shards. -/
structure Grows (dp dp' : DataProcessor σ) : Prop where
  hash : dp'.calculateHash = dp.calculateHash
  ratingsProcessor : dp'.ratingsProcessor = dp.ratingsProcessor
  keys : dp'.nodesCoordinators.keys = dp.nodesCoordinators.keys
  calls : ∃ extra, dp'.calls = dp.calls ++ extra ∧ ∀ c ∈ extra, c.WellFormed k dp.calculateHash

variable {k}

theorem Grows.refl (dp : DataProcessor σ) : Grows k dp dp := ⟨rfl, rfl, rfl, [], by simp, by simp⟩

theorem Grows.trans {dp dp' dp'' : DataProcessor σ} (h : Grows k dp dp') (h' : Grows k dp' dp'') :
    Grows k dp dp'' := by
  obtain ⟨hh, hr, hk, e, he, hwf⟩ := h
  obtain ⟨hh', hr', hk', e', he', hwf'⟩ := h'
  refine ⟨hh'.trans hh, hr'.trans hr, hk'.trans hk, e ++ e', by simp [he', he], fun c hc => ?_⟩
  rcases List.mem_append.1 hc with hc | hc
  exacts [hwf c hc, hh ▸ hwf' c hc]

theorem Grows.call {dp : DataProcessor σ} {c : Call} (hc : c.WellFormed k dp.calculateHash) :
    Grows k dp (dp.call c) := ⟨rfl, rfl, rfl, [c], rfl, by simpa using hc⟩

theorem Grows.foldl {α : Type} {f : DataProcessor σ → α → DataProcessor σ}
    (hf : ∀ dp a, Grows k dp (f dp a)) (l : List α) (dp : DataProcessor σ) :
    Grows k dp (l.foldl f dp) := by
  induction l generalizing dp with
  | nil => exact .refl dp
  | cons a l ih => exact (hf dp a).trans (ih (f dp a))

theorem Grows.bind {dp : DataProcessor σ} {o : Outcome σ} {f : DataProcessor σ → Outcome σ}
    (ho : Grows k dp o.dp) (hf : ∀ dp, Grows k dp (f dp).dp) : Grows k dp (o.bind f).dp := by
  cases o with
  | returned dp' => exact ho.trans (hf dp')
  | panicked dp' => exact ho

/-! ## Each step grows the processor -/

theorem indexOrLog_grows (dp : DataProcessor σ) (data : HeaderData) :
    Grows k dp (indexOrLog k nc dp data) := by
  unfold indexOrLog
  cases hs : computeSignersIndexes k nc dp data.header with
  | error e => rw [indexData_error.2 hs]; exact .refl dp
  | ok s =>
    rw [indexData_ok hs]
    refine (Grows.call ?_).trans (Grows.call ?_)
    exacts [fun _ hmb => (mem_indexedBody.1 hmb).2, trivial]

theorem indexRound_grows (dp : DataProcessor σ) (r : RoundPersistedData) :
    Grows k dp (indexRound k nc dp r) := by
  refine ((indexOrLog_grows nc dp _).trans (Grows.call ?_)).trans
    (Grows.foldl (fun dp (e : UInt32 × List HeaderData) => Grows.foldl (indexOrLog_grows nc) e.2 dp) _ _)
  trivial

theorem epochStartPrepareAll_grows (dp : DataProcessor σ) {metaBlock : MetaBlock} (body : Body)
    (h : metaBlock.epoch ≠ 0) :
    Grows k dp (epochStartPrepareAll nc dp metaBlock (peerBlock k dp.calculateHash metaBlock body)) :=
  ⟨rfl, rfl, by simp, _, rfl, by
    simpa using fun _ _ => ⟨h, peerBlock_pairwise _ _ _, fun _ hmb => (mem_peerBlock hmb).2⟩⟩

theorem processValidatorsForEpoch_grows (dp : DataProcessor σ) (metaBlock : MetaBlock) (body : Body) :
    Grows k dp (processValidatorsForEpoch k nc dp metaBlock body).dp := by
  by_cases h : metaBlock.epoch = 0
  · simpa [processValidatorsForEpoch, h] using Grows.refl dp
  · rcases processValidatorsForEpoch_dp k nc dp metaBlock body h with hd | ⟨keys, hs, hd⟩ <;>
      rw [hd]
    · exact epochStartPrepareAll_grows nc dp body h
    · exact (epochStartPrepareAll_grows nc dp body h).trans (Grows.call fun _ => hs)

theorem indexRatingsForEpochStartMetaBlock_grows (dp : DataProcessor σ) (metaBlock : MetaBlock) :
    Grows k dp (indexRatingsForEpochStartMetaBlock dp metaBlock).dp := by
  unfold indexRatingsForEpochStartMetaBlock
  split
  · exact .refl dp
  · exact .call trivial

theorem processData_grows (dp : DataProcessor σ) (r : RoundPersistedData) :
    Grows k dp (processData k nc dp r).1.dp := by
  refine Grows.bind ?_ fun dp => indexRound_grows nc dp r
  dsimp only [processEpochStart]
  split
  · split
    · exact .refl dp
    · exact (processValidatorsForEpoch_grows nc dp _ _).bind fun dp => indexRatingsForEpochStartMetaBlock_grows dp _
  · exact .refl dp

theorem index_grows (dp : DataProcessor σ) (rounds : List RoundPersistedData) :
    Grows k dp (index k nc dp rounds).dp := by
  induction rounds generalizing dp with
  | nil => exact .refl dp
  | cons r rest ih =>
    have hr : Grows k dp (processData k nc dp r).1.dp := processData_grows nc dp r
    unfold index
    split
    · rename_i dp' heq
      rw [heq] at hr
      exact hr.trans (ih dp')
    · rename_i heq
      rwa [heq] at hr

/-! ## Where a replay panics -/

/-- An epoch-start or nonce-zero slot holding a header that is no metablock. -/
def EpochStartWithoutMetaBlock (r : RoundPersistedData) : Prop :=
  (r.metaBlockData.header.isStartOfEpochBlock || r.metaBlockData.header.getNonce = 0) = true ∧
    r.metaBlockData.header.asMetaBlock = none

/-- A round that makes `processData` panic: an epoch-start or nonce-zero slot
holding a header that is no metablock, or any such slot when the ratings
processor is nil. -/
def RoundPanics (ratingsProcessor : Option Unit) (r : RoundPersistedData) : Prop :=
  (r.metaBlockData.header.isStartOfEpochBlock || r.metaBlockData.header.getNonce = 0) = true ∧
    (r.metaBlockData.header.asMetaBlock = none ∨ ratingsProcessor = none)

theorem EpochStartWithoutMetaBlock.roundPanics {r : RoundPersistedData} (h : EpochStartWithoutMetaBlock r)
    (ratingsProcessor : Option Unit) : RoundPanics ratingsProcessor r :=
  ⟨h.1, .inl h.2⟩

theorem processValidatorsForEpoch_returned {dp : DataProcessor σ}
    (hm : k.metachainShardId ∈ dp.nodesCoordinators.keys) (metaBlock : MetaBlock) (body : Body) :
    ∃ dp', processValidatorsForEpoch k nc dp metaBlock body = .returned dp' := by
  dsimp only [processValidatorsForEpoch]
  split
  · exact ⟨_, rfl⟩
  · split
    · rename_i hf
      simp [GoMap.find?_eq_none] at hf
      exact absurd hm hf
    · split <;> exact ⟨_, rfl⟩

theorem processValidatorsForEpoch_returned_ratingsProcessor {dp dp' : DataProcessor σ} {metaBlock : MetaBlock}
    {body : Body} (h : processValidatorsForEpoch k nc dp metaBlock body = .returned dp') :
    dp'.ratingsProcessor = dp.ratingsProcessor := by
  have hg : Grows k dp (processValidatorsForEpoch k nc dp metaBlock body).dp := processValidatorsForEpoch_grows nc dp _ _
  rw [h] at hg
  exact hg.ratingsProcessor

/-- What `processData` does with a round, from a processor with a metachain
coordinator: it indexes a round that starts no epoch; it panics at once on an
epoch-start slot without a metablock; otherwise it prepares the epoch and then
panics on a nil ratings processor, or indexes the ratings and the round. -/
theorem processData_cases {dp : DataProcessor σ} (hm : k.metachainShardId ∈ dp.nodesCoordinators.keys)
    (r : RoundPersistedData) :
    let start := (r.metaBlockData.header.isStartOfEpochBlock || r.metaBlockData.header.getNonce = 0) = true
    (¬start ∧ (processData k nc dp r).1 = .returned (indexRound k nc dp r)) ∨
      (start ∧ r.metaBlockData.header.asMetaBlock = none ∧ (processData k nc dp r).1 = .panicked dp) ∨
      ∃ metaBlock dp', start ∧ r.metaBlockData.header.asMetaBlock = some metaBlock ∧
        processValidatorsForEpoch k nc dp metaBlock r.metaBlockData.body = .returned dp' ∧
        dp'.ratingsProcessor = dp.ratingsProcessor ∧
        ((dp.ratingsProcessor = none ∧ (processData k nc dp r).1 = .panicked dp') ∨
          (dp.ratingsProcessor ≠ none ∧ (processData k nc dp r).1 =
            .returned (indexRound k nc (dp'.call (.indexRatingsForEpochStartMetaBlock metaBlock)) r))) := by
  by_cases hc : (r.metaBlockData.header.isStartOfEpochBlock || r.metaBlockData.header.getNonce = 0) = true
  · cases hmeta : r.metaBlockData.header.asMetaBlock with
    | none => exact .inr (.inl ⟨hc, rfl, by simp [processData, processEpochStart, hc, hmeta]⟩)
    | some metaBlock =>
      obtain ⟨dp', hdp'⟩ := processValidatorsForEpoch_returned nc hm metaBlock r.metaBlockData.body
      have hrp := processValidatorsForEpoch_returned_ratingsProcessor nc hdp'
      refine .inr (.inr ⟨metaBlock, dp', hc, rfl, hdp', hrp, ?_⟩)
      cases h : dp.ratingsProcessor <;>
        simp [processData, processEpochStart, indexRatingsForEpochStartMetaBlock, hc, hmeta, hdp', hrp, h]
  · exact .inl ⟨hc, by simp [processData, processEpochStart, hc]⟩

theorem processData_panicked {dp : DataProcessor σ}
    (hm : k.metachainShardId ∈ dp.nodesCoordinators.keys) (r : RoundPersistedData) :
    (∃ dp', (processData k nc dp r).1 = .panicked dp') ↔ RoundPanics dp.ratingsProcessor r := by
  rcases processData_cases nc hm r with ⟨hc, ho⟩ | ⟨hc, hmeta, ho⟩ | ⟨m, dp', hc, hmeta, -, -, ⟨hr, ho⟩ | ⟨hr, ho⟩⟩
  · simp [ho, RoundPanics, hc]
  · simp [ho, RoundPanics, hc, hmeta]
  · simp [ho, RoundPanics, hc, hr]
  · simp [ho, RoundPanics, hc, hmeta, hr]

theorem not_roundPanics_of_returned {dp dp' : DataProcessor σ} (hm : k.metachainShardId ∈ dp.nodesCoordinators.keys)
    {r : RoundPersistedData} (h : (processData k nc dp r).1 = .returned dp') : ¬RoundPanics dp.ratingsProcessor r :=
  fun hb => by
    obtain ⟨d, hd⟩ := (processData_panicked nc hm r).2 hb
    rw [h] at hd
    cases hd

theorem processData_eq {dp : DataProcessor σ} {r : RoundPersistedData} {o : Outcome σ}
    (h : (processData k nc dp r).1 = o) : processData k nc dp r = (o, true) := Prod.ext h rfl

theorem index_eq {dp : DataProcessor σ} (hm : k.metachainShardId ∈ dp.nodesCoordinators.keys)
    (rounds : List RoundPersistedData) :
    ((∃ dp', index k nc dp rounds = .panicked dp') ↔ ∃ r ∈ rounds, RoundPanics dp.ratingsProcessor r) ∧
      ((∀ r ∈ rounds, ¬RoundPanics dp.ratingsProcessor r) →
        index k nc dp rounds = .returned (rounds.foldl (fun dp r => (processData k nc dp r).1.dp) dp)) := by
  induction rounds generalizing dp with
  | nil => simp [index]
  | cons r rest ih =>
    have hg : Grows k dp (processData k nc dp r).1.dp := processData_grows nc dp r
    rcases ho : (processData k nc dp r).1 with dp' | dp'
    · have hnot := not_roundPanics_of_returned nc hm ho
      rw [ho, Outcome.dp_returned] at hg
      obtain ⟨ihp, ihr⟩ := ih (hg.keys ▸ hm)
      rw [hg.ratingsProcessor] at ihp ihr
      simp only [index, processData_eq nc ho, List.foldl_cons, ho, Outcome.dp_returned]
      exact ⟨by simp [ihp, hnot], fun hgood => ihr fun r' hr' => hgood r' (List.mem_cons_of_mem r hr')⟩
    · have hb := (processData_panicked nc hm r).1 ⟨dp', ho⟩
      simp only [index, processData_eq nc ho]
      exact ⟨⟨fun _ => ⟨r, List.mem_cons_self r rest, hb⟩, fun _ => ⟨dp', rfl⟩⟩,
        fun hgood => (hgood r (List.mem_cons_self r rest) hb).elim⟩

/-- `index` is the run of `IndexRun` that keeps the coordinators' order. -/
theorem index_indexRun (dp : DataProcessor σ) (rounds : List RoundPersistedData) :
    IndexRun k nc dp rounds (index k nc dp rounds) := by
  induction rounds generalizing dp with
  | nil => exact .nil dp
  | cons r rest ih =>
    rcases ho : (processData k nc dp r).1 with dp' | dp'
    · rw [index, processData_eq nc ho]
      exact .returned dp.nodesCoordinators (.refl _) ho (ih dp')
    · rw [index, processData_eq nc ho]
      exact .panicked dp.nodesCoordinators (.refl _) ho

/-! ## Replays of a built processor -/

/-- A built processor panics over a replay exactly when one of its rounds has an
epoch-start or nonce-zero slot holding no metablock, or has such a slot at all
when the processor was given a nil ratings processor; otherwise it processes
every round. -/
theorem index_newDataProcessor {args : ArgsDataProcessor σ} {dp : DataProcessor σ}
    (h : newDataProcessor k nc args = .ok dp) (rounds : List RoundPersistedData) :
    ((∃ dp', index k nc dp rounds = .panicked dp') ↔ ∃ r ∈ rounds, RoundPanics args.ratingsProcessor r) ∧
      ((∀ r ∈ rounds, ¬RoundPanics args.ratingsProcessor r) →
        index k nc dp rounds = .returned (rounds.foldl (fun dp r => (processData k nc dp r).1.dp) dp)) := by
  obtain ⟨n, -, -, hk, -⟩ := newDataProcessor_ok h
  rw [← newDataProcessor_ratingsProcessor h]
  exact index_eq nc ((hk _).2 (metachain_mem_getShardIDs n)) rounds

/-- An epoch-start round of epoch one, then a shard header in an epoch-start slot. -/
theorem index_newDataProcessor_shardHeader :
    let k : Constants := ⟨60, 150, 4294967295⟩
    let nc : NodesCoordinator Nat :=
      ⟨fun s _ _ => s + 1, fun _ _ => (.empty, none), fun _ _ _ _ _ => .ok [], fun _ _ _ => .ok []⟩
    let args : ArgsDataProcessor Nat :=
      ⟨some (), some (), some fun _ => .ok 0, some 1, some (), some (), some (), some (), fun m => some m.reserved, 1⟩
    let dp : DataProcessor Nat := ⟨fun m => some m.reserved, ⟨[(0, 0), (4294967295, 0)], by decide⟩, some (), []⟩
    let rounds : List RoundPersistedData :=
      [⟨⟨.meta ⟨1, 1, 1, 0, [], [⟨[7]⟩], [], true⟩, ⟨[⟨[], 0, 4294967295, 60, [7]⟩]⟩, .empty⟩, .empty⟩,
        ⟨⟨.shard ⟨0, 5, 1, 5, 0, [], true⟩, ⟨[]⟩, .empty⟩, .empty⟩]
    newDataProcessor k nc args = .ok dp ∧
      ((∃ dp', index k nc dp rounds = .panicked dp') ↔ ∃ r ∈ rounds, RoundPanics args.ratingsProcessor r) ∧
        ((∀ r ∈ rounds, ¬RoundPanics args.ratingsProcessor r) →
          index k nc dp rounds = .returned (rounds.foldl (fun dp r => (processData k nc dp r).1.dp) dp)) :=
  by intro k nc args dp rounds; exact ⟨rfl, @index_newDataProcessor Nat k nc args dp rfl rounds⟩

/-- Every call a built processor makes, through any replay and whether or not it
panics, is well formed: in particular no receipt miniblock is ever indexed. -/
theorem index_calls_wellFormed {args : ArgsDataProcessor σ} {dp : DataProcessor σ}
    (h : newDataProcessor k nc args = .ok dp) (rounds : List RoundPersistedData) :
    ∀ c ∈ (index k nc dp rounds).dp.calls, c.WellFormed k args.calculateHash := by
  obtain ⟨n, -, hh, -, -, hsaves⟩ := newDataProcessor_ok h
  obtain ⟨-, -, -, extra, he, hwf⟩ := index_grows nc dp rounds
  intro c hc
  rw [he] at hc
  rcases List.mem_append.1 hc with hc | hc
  · obtain ⟨keys, rfl⟩ := hsaves c hc
    exact fun h0 => (h0 rfl).elim
  · exact hh ▸ hwf c hc

/-- An epoch-start round of epoch one, whose body holds a receipt miniblock. -/
theorem index_calls_wellFormed_epochOne :
    let k : Constants := ⟨60, 150, 4294967295⟩
    let nc : NodesCoordinator Nat :=
      ⟨fun s _ _ => s + 1, fun _ _ => (.empty, none), fun _ _ _ _ _ => .ok [], fun _ _ _ => .ok []⟩
    let args : ArgsDataProcessor Nat :=
      ⟨some (), some (), some fun _ => .ok 0, some 1, some (), some (), some (), some (), fun m => some m.reserved, 1⟩
    let dp : DataProcessor Nat := ⟨fun m => some m.reserved, ⟨[(0, 0), (4294967295, 0)], by decide⟩, some (), []⟩
    let rounds : List RoundPersistedData :=
      [⟨⟨.meta ⟨1, 1, 1, 0, [], [⟨[7]⟩], [], true⟩,
        ⟨[⟨[], 0, 4294967295, 60, [7]⟩, ⟨[[1]], 0, 4294967295, 150, [8]⟩]⟩, .empty⟩, .empty⟩]
    newDataProcessor k nc args = .ok dp ∧
      ∀ c ∈ (index k nc dp rounds).dp.calls, c.WellFormed k args.calculateHash :=
  by intro k nc args dp rounds; exact ⟨rfl, @index_calls_wellFormed Nat k nc args dp rfl rounds⟩

end ChainIndexer.Storer2Elastic
