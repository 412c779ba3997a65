import ChainIndexer.Storer2Elastic.DataProcessor

/-! # The peer body handed to the nodes coordinators at an epoch start

`processValidatorsForEpoch` collects the peer miniblocks of the body whose hash
some miniblock header of the metablock carries (an inner loop that breaks at
the first match), keeps one per hash with `uniqueMiniBlocksSlice`, and hands
the result to the `EpochStartPrepare` of every coordinator. The collection is a
filter by `ListedPeer`, so the body handed over is `dedupFirst` of that filter.
-/
namespace ChainIndexer.Storer2Elastic

variable {σ : Type} (k : Constants) (nc : NodesCoordinator σ)
variable (calculateHash : MiniBlock → Option Bytes)

/-- The loop over `metaBlock.MiniBlockHeaders`: the first header of hash
`mbHash` appends `mb` and breaks. -/
def appendIfListed (mb : MiniBlock) (mbHash : Bytes) :
    List MiniBlockHeader → List MiniBlock → List MiniBlock
  | [], peer => peer
  | hash :: rest, peer =>
    if hash.hash = mbHash then peer ++ [mb] else appendIfListed mb mbHash rest peer

/-- One iteration of the loop over `body.MiniBlocks`. -/
def peerStep (miniBlockHeaders : List MiniBlockHeader) (peer : List MiniBlock)
    (mb : MiniBlock) : List MiniBlock :=
  if mb.type ≠ k.peerBlock then peer
  else match calculateHash mb with
    | none => peer
    | some mbHash => appendIfListed mb mbHash miniBlockHeaders peer

def peerMiniBlocks (metaBlock : MetaBlock) (body : Body) : List MiniBlock :=
  body.miniBlocks.foldl (peerStep k calculateHash metaBlock.miniBlockHeaders) []

/-- The local `peerBlock`. -/
def peerBlock (metaBlock : MetaBlock) (body : Body) : Body :=
  ⟨uniqueMiniBlocksSlice calculateHash (peerMiniBlocks k calculateHash metaBlock body)⟩

/-- The `range` over the coordinators, calling `EpochStartPrepare` on each in
the order of the map's entries. Go draws that order anew for each `range`;
`IndexRun` lets a replay list the entries anew before each round. -/
def epochStartPrepareAll (dp : DataProcessor σ) (metaBlock : MetaBlock) (body : Body) :
    DataProcessor σ :=
  { dp with
    nodesCoordinators := dp.nodesCoordinators.mapValues (nc.epochStartPrepare · metaBlock body)
    calls := dp.calls ++ dp.nodesCoordinators.keys.map (.epochStartPrepare · metaBlock body) }

/-- With no coordinator under `core.MetachainShardId` the map yields a nil
interface, and the method call on it panics. -/
def processValidatorsForEpoch (dp : DataProcessor σ) (metaBlock : MetaBlock) (body : Body) :
    Outcome σ :=
  if metaBlock.epoch = 0 then .returned dp
  else
    let dp := epochStartPrepareAll nc dp metaBlock (peerBlock k dp.calculateHash metaBlock body)
    match dp.nodesCoordinators.find? k.metachainShardId with
    | none => .panicked dp
    | some meta =>
      let (validatorsPubKeys, err) := nc.getAllEligibleValidatorsPublicKeys meta metaBlock.epoch
      if err.isSome || validatorsPubKeys.size = 0 then .returned dp
      else .returned (dp.call (.saveValidatorsPubKeys validatorsPubKeys metaBlock.epoch))

/-! ## The collection loop is a filter -/

/-- A peer miniblock whose hash succeeds and is the hash of a miniblock header
of `metaBlock`. -/
def ListedPeer (metaBlock : MetaBlock) (mb : MiniBlock) : Prop :=
  mb.type = k.peerBlock ∧
    ∃ x, calculateHash mb = some x ∧ ∃ hdr ∈ metaBlock.miniBlockHeaders, hdr.hash = x

instance (metaBlock : MetaBlock) : DecidablePred (ListedPeer k calculateHash metaBlock) :=
  fun mb => decidable_of_iff (mb.type = k.peerBlock ∧
      (calculateHash mb).any fun x => metaBlock.miniBlockHeaders.any (·.hash = x))
    (by cases h : calculateHash mb <;> simp [ListedPeer, h])

variable {k calculateHash}

theorem appendIfListed_eq (mb : MiniBlock) (mbHash : Bytes) (hdrs : List MiniBlockHeader)
    (peer : List MiniBlock) :
    appendIfListed mb mbHash hdrs peer =
      if ∃ hdr ∈ hdrs, hdr.hash = mbHash then peer ++ [mb] else peer := by
  induction hdrs with
  | nil => simp [appendIfListed]
  | cons hdr rest ih => by_cases h : hdr.hash = mbHash <;> simp [appendIfListed, h, ih]

theorem peerStep_eq (metaBlock : MetaBlock) (peer : List MiniBlock) (mb : MiniBlock) :
    peerStep k calculateHash metaBlock.miniBlockHeaders peer mb =
      if ListedPeer k calculateHash metaBlock mb then peer ++ [mb] else peer := by
  split_ifs with hl
  · obtain ⟨ht, x, hx, hhdr⟩ := hl
    simp [peerStep, ht, hx, appendIfListed_eq, hhdr]
  · simp only [ListedPeer, not_and, not_exists] at hl
    by_cases ht : mb.type = k.peerBlock
    · cases hx : calculateHash mb with
      | none => simp [peerStep, ht, hx]
      | some x => simpa [peerStep, ht, hx, appendIfListed_eq] using hl ht x hx
    · simp [peerStep, ht]

theorem peerMiniBlocks_eq_filter (metaBlock : MetaBlock) (body : Body) :
    peerMiniBlocks k calculateHash metaBlock body =
      body.miniBlocks.filter (ListedPeer k calculateHash metaBlock) := by
  suffices h : ∀ (l peer : List MiniBlock), l.foldl (peerStep k calculateHash
      metaBlock.miniBlockHeaders) peer = peer ++ l.filter (ListedPeer k calculateHash metaBlock) by
    simpa using h body.miniBlocks []
  intro l
  induction l with
  | nil => simp
  | cons mb rest ih =>
    intro peer
    rw [List.foldl_cons, ih, peerStep_eq]
    by_cases h : ListedPeer k calculateHash metaBlock mb <;> simp [h]

theorem peerBlock_eq_dedupFirst (metaBlock : MetaBlock) (body : Body) :
    peerBlock k calculateHash metaBlock body =
      ⟨dedupFirst calculateHash (body.miniBlocks.filter (ListedPeer k calculateHash metaBlock))⟩ := by
  rw [peerBlock, uniqueMiniBlocksSlice_eq_dedupFirst, peerMiniBlocks_eq_filter]

/-! ## What one call does -/

/-- The `EpochStartPrepare` calls among `calls`, oldest first. -/
def epochStartPrepares (calls : List Call) : List (UInt32 × MetaBlock × Body) :=
  calls.filterMap fun
    | .epochStartPrepare shardID metaBlock body => some (shardID, metaBlock, body)
    | _ => none

@[simp] theorem epochStartPrepares_append (c c' : List Call) :
    epochStartPrepares (c ++ c') = epochStartPrepares c ++ epochStartPrepares c' :=
  List.filterMap_append _ _ _

@[simp] theorem epochStartPrepares_saveValidatorsPubKeys (keys : GoMap UInt32 (List Bytes))
    (epoch : UInt32) : epochStartPrepares [.saveValidatorsPubKeys keys epoch] = [] := rfl

@[simp] theorem epochStartPrepares_map (ids : List UInt32) (metaBlock : MetaBlock) (body : Body) :
    epochStartPrepares (ids.map (.epochStartPrepare · metaBlock body)) =
      ids.map (fun id => (id, metaBlock, body)) := by
  induction ids <;> simp_all [epochStartPrepares]

@[simp] theorem epochStartPrepareAll_nodesCoordinators (dp : DataProcessor σ) (metaBlock : MetaBlock)
    (body : Body) : (epochStartPrepareAll nc dp metaBlock body).nodesCoordinators =
      dp.nodesCoordinators.mapValues (nc.epochStartPrepare · metaBlock body) := rfl

@[simp] theorem epochStartPrepareAll_calls (dp : DataProcessor σ) (metaBlock : MetaBlock)
    (body : Body) : (epochStartPrepareAll nc dp metaBlock body).calls =
      dp.calls ++ dp.nodesCoordinators.keys.map (.epochStartPrepare · metaBlock body) := rfl

@[simp] theorem epochStartPrepareAll_calculateHash (dp : DataProcessor σ) (metaBlock : MetaBlock)
    (body : Body) : (epochStartPrepareAll nc dp metaBlock body).calculateHash = dp.calculateHash :=
  rfl

@[simp] theorem epochStartPrepareAll_ratingsProcessor (dp : DataProcessor σ) (metaBlock : MetaBlock)
    (body : Body) : (epochStartPrepareAll nc dp metaBlock body).ratingsProcessor = dp.ratingsProcessor :=
  rfl

variable (k)

/-- Past epoch zero every coordinator is prepared with `peerBlock`; what may
follow is one record of a non-empty set of the metachain's eligible validators. -/
theorem processValidatorsForEpoch_dp (dp : DataProcessor σ) (metaBlock : MetaBlock) (body : Body)
    (h : metaBlock.epoch ≠ 0) :
    let prepared := epochStartPrepareAll nc dp metaBlock (peerBlock k dp.calculateHash metaBlock body)
    (processValidatorsForEpoch k nc dp metaBlock body).dp = prepared ∨
      ∃ keys : GoMap UInt32 (List Bytes), keys.size ≠ 0 ∧
        (processValidatorsForEpoch k nc dp metaBlock body).dp =
          prepared.call (.saveValidatorsPubKeys keys metaBlock.epoch) := by
  simp only [processValidatorsForEpoch, if_neg h]
  split
  · simp
  · split
    · simp
    · rename_i hne
      exact .inr ⟨_, by simp at hne; exact hne.2, rfl⟩

variable {k}

theorem mem_peerBlock {calculateHash : MiniBlock → Option Bytes} {metaBlock : MetaBlock}
    {body : Body} {mb : MiniBlock} (h : mb ∈ (peerBlock k calculateHash metaBlock body).miniBlocks) :
    mb ∈ body.miniBlocks ∧ ListedPeer k calculateHash metaBlock mb := by
  rw [peerBlock_eq_dedupFirst] at h
  simpa using List.mem_filter.1 ((dedupFirst_sublist _).subset h)

theorem peerBlock_pairwise (calculateHash : MiniBlock → Option Bytes) (metaBlock : MetaBlock)
    (body : Body) : (peerBlock k calculateHash metaBlock body).miniBlocks.Pairwise
      (fun a b => calculateHash a ≠ calculateHash b) := by
  rw [peerBlock_eq_dedupFirst]
  exact dedupFirst_pairwise _

variable (k)

/-- The peer body every coordinator is prepared with: the first miniblock of
each hash among the peer miniblocks of the body whose hash the metablock lists.
So its hashes are distinct, it is drawn from the body, and each listed hash of a
peer miniblock of the body is in it exactly once. -/
theorem processValidatorsForEpoch_peerBlock (dp : DataProcessor σ) (metaBlock : MetaBlock)
    (body : Body) (hepoch : metaBlock.epoch ≠ 0) :
    let peer := dedupFirst dp.calculateHash
      (body.miniBlocks.filter (ListedPeer k dp.calculateHash metaBlock))
    let after := (processValidatorsForEpoch k nc dp metaBlock body).dp
    epochStartPrepares after.calls = epochStartPrepares dp.calls ++
        dp.nodesCoordinators.keys.map (fun id => (id, metaBlock, ⟨peer⟩)) ∧
      after.nodesCoordinators =
        dp.nodesCoordinators.mapValues (nc.epochStartPrepare · metaBlock ⟨peer⟩) ∧
      peer.Pairwise (fun a b => dp.calculateHash a ≠ dp.calculateHash b) ∧
      (∀ mb ∈ peer, mb ∈ body.miniBlocks ∧ ListedPeer k dp.calculateHash metaBlock mb) ∧
      ∀ mb ∈ body.miniBlocks, ListedPeer k dp.calculateHash metaBlock mb →
        ∀ x, dp.calculateHash mb = some x →
          peer.countP (fun m => dp.calculateHash m = some x) = 1 := by
  intro peer after
  have hpeer := @peerBlock_eq_dedupFirst k dp.calculateHash metaBlock body
  refine ⟨?_, ?_, dedupFirst_pairwise _, fun mb hmb => mem_peerBlock (hpeer ▸ hmb),
    fun mb hmb hl x hx => dedupFirst_countP (List.mem_filter.2 ⟨hmb, by simpa using hl⟩) hx⟩
  · rcases processValidatorsForEpoch_dp k nc dp metaBlock body hepoch with h | ⟨keys, -, h⟩ <;>
      simp [after, h, hpeer, peer]
  · rcases processValidatorsForEpoch_dp k nc dp metaBlock body hepoch with h | ⟨keys, -, h⟩ <;>
      simp [after, h, hpeer, peer]

/-- A body holding one listed peer miniblock twice, at epoch one. -/
theorem processValidatorsForEpoch_peerBlock_twice :
    let k : Constants := ⟨60, 150, 4294967295⟩
    let nc : NodesCoordinator Nat :=
      ⟨fun s _ _ => s + 1, fun _ _ => (.empty, none), fun _ _ _ _ _ => .ok [], fun _ _ _ => .ok []⟩
    let dp : DataProcessor Nat := ⟨fun m => some m.reserved, ⟨[(0, 0), (4294967295, 0)], by decide⟩, some (), []⟩
    let mb : MiniBlock := ⟨[], 0, 4294967295, 60, [7]⟩
    let metaBlock : MetaBlock := ⟨1, 1, 1, 0, [], [⟨[7]⟩], [], true⟩
    let body : Body := ⟨[mb, mb]⟩
    metaBlock.epoch ≠ 0 ∧
      let peer := dedupFirst dp.calculateHash
        (body.miniBlocks.filter (ListedPeer k dp.calculateHash metaBlock))
      let after := (processValidatorsForEpoch k nc dp metaBlock body).dp
      (epochStartPrepares after.calls = epochStartPrepares dp.calls ++
          dp.nodesCoordinators.keys.map (fun id => (id, metaBlock, ⟨peer⟩)) ∧
        after.nodesCoordinators =
          dp.nodesCoordinators.mapValues (nc.epochStartPrepare · metaBlock ⟨peer⟩) ∧
        peer.Pairwise (fun a b => dp.calculateHash a ≠ dp.calculateHash b) ∧
        (∀ mb ∈ peer, mb ∈ body.miniBlocks ∧ ListedPeer k dp.calculateHash metaBlock mb) ∧
        ∀ mb ∈ body.miniBlocks, ListedPeer k dp.calculateHash metaBlock mb →
          ∀ x, dp.calculateHash mb = some x →
            peer.countP (fun m => dp.calculateHash m = some x) = 1) :=
  ⟨by decide, processValidatorsForEpoch_peerBlock _ _ _ _ _ (by decide)⟩

end ChainIndexer.Storer2Elastic
