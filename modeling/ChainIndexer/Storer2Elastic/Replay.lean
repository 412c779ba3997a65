import ChainIndexer.Storer2Elastic.ProcessData
import Mathlib.Data.List.Forall2

/-! # What the collaborators receive over a replay

Over any run every coordinator goes through the epoch starts of the rounds
reached, in order, each range over the coordinators in whatever order Go draws;
the validator records follow the metachain coordinator along them, and the TPS
and ratings calls follow the rounds the run gets through. `Replays` relates a
processor before and after such a stretch.
-/
namespace ChainIndexer.Storer2Elastic

variable {σ : Type} (k : Constants) (nc : NodesCoordinator σ)

/-- The epoch start a round prepares the coordinators with, if any. -/
def roundPrepare (calculateHash : MiniBlock → Option Bytes) (r : RoundPersistedData) :
    Option (MetaBlock × Body) :=
  if r.metaBlockData.header.isStartOfEpochBlock || r.metaBlockData.header.getNonce = 0 then
    match r.metaBlockData.header.asMetaBlock with
    | some metaBlock =>
      if metaBlock.epoch = 0 then none
      else some (metaBlock, peerBlock k calculateHash metaBlock r.metaBlockData.body)
    | none => none
  else none

instance : DecidablePred EpochStartWithoutMetaBlock := fun _ => inferInstanceAs (Decidable (_ ∧ _))

instance (ratingsProcessor : Option Unit) : DecidablePred (RoundPanics ratingsProcessor) :=
  fun _ => inferInstanceAs (Decidable (_ ∧ (_ ∨ _)))

/-- The rounds a replay from a processor with a metachain coordinator gets
through: those before the first that panics, with a ratings processor
(`replayed`) or with a given one (`replayedBy`). -/
def replayed (rounds : List RoundPersistedData) : List RoundPersistedData :=
  rounds.takeWhile fun r => !decide (EpochStartWithoutMetaBlock r)

@[simp] theorem replayed_cons (r : RoundPersistedData) (rounds : List RoundPersistedData) :
    replayed (r :: rounds) = if EpochStartWithoutMetaBlock r then [] else r :: replayed rounds := by
  by_cases h : EpochStartWithoutMetaBlock r <;> simp [replayed, List.takeWhile_cons, h]

def replayedBy (ratingsProcessor : Option Unit) (rounds : List RoundPersistedData) : List RoundPersistedData :=
  rounds.takeWhile fun r => !decide (RoundPanics ratingsProcessor r)

@[simp] theorem replayedBy_cons (ratingsProcessor : Option Unit) (r : RoundPersistedData)
    (rounds : List RoundPersistedData) : replayedBy ratingsProcessor (r :: rounds) =
      if RoundPanics ratingsProcessor r then [] else r :: replayedBy ratingsProcessor rounds := by
  by_cases h : RoundPanics ratingsProcessor r <;> simp [replayedBy, List.takeWhile_cons, h]

/-- The rounds a replay calls `processData` on: those it gets through, and the
one that panics. -/
def reached (ratingsProcessor : Option Unit) : List RoundPersistedData → List RoundPersistedData
  | [] => []
  | r :: rest => if RoundPanics ratingsProcessor r then [r] else r :: reached ratingsProcessor rest

def prepareAll (s : σ) (ps : List (MetaBlock × Body)) : σ :=
  ps.foldl (fun s p => nc.epochStartPrepare s p.1 p.2) s

/-- The validator records the metachain coordinator gives along a sequence of
prepares: after each, its eligible validators of that epoch, unless it errs or
has none. -/
def epochSaves (metaCoord : σ) : List (MetaBlock × Body) → List (GoMap UInt32 (List Bytes) × UInt32)
  | [] => []
  | (metaBlock, body) :: ps =>
    let metaCoord := nc.epochStartPrepare metaCoord metaBlock body
    let (validatorsPubKeys, err) := nc.getAllEligibleValidatorsPublicKeys metaCoord metaBlock.epoch
    (if err.isSome || validatorsPubKeys.size = 0 then [] else [(validatorsPubKeys, metaBlock.epoch)]) ++
      epochSaves metaCoord ps

def validatorSaves (calls : List Call) : List (GoMap UInt32 (List Bytes) × UInt32) :=
  calls.filterMap fun
    | .saveValidatorsPubKeys validatorsPubKeys epoch => some (validatorsPubKeys, epoch)
    | _ => none

def tpsIndexed (calls : List Call) : List (Option MetaBlock) :=
  calls.filterMap fun
    | .indexTPSForMetaBlock metaBlock => some metaBlock
    | _ => none

def ratingsIndexed (calls : List Call) : List MetaBlock :=
  calls.filterMap fun
    | .indexRatingsForEpochStartMetaBlock metaBlock => some metaBlock
    | _ => none

def epochStartMetaBlock (r : RoundPersistedData) : Option MetaBlock :=
  if r.metaBlockData.header.isStartOfEpochBlock || r.metaBlockData.header.getNonce = 0 then
    r.metaBlockData.header.asMetaBlock
  else none

@[simp] theorem tpsIndexed_append (c c' : List Call) : tpsIndexed (c ++ c') = tpsIndexed c ++ tpsIndexed c' :=
  List.filterMap_append _ _ _

@[simp] theorem ratingsIndexed_append (c c' : List Call) :
    ratingsIndexed (c ++ c') = ratingsIndexed c ++ ratingsIndexed c' :=
  List.filterMap_append _ _ _

@[simp] theorem tpsIndexed_map (ids : List UInt32) (metaBlock : MetaBlock) (body : Body) :
    tpsIndexed (ids.map (.epochStartPrepare · metaBlock body)) = [] := by
  induction ids <;> simp_all [tpsIndexed]

@[simp] theorem ratingsIndexed_map (ids : List UInt32) (metaBlock : MetaBlock) (body : Body) :
    ratingsIndexed (ids.map (.epochStartPrepare · metaBlock body)) = [] := by
  induction ids <;> simp_all [ratingsIndexed]

@[simp] theorem validatorSaves_append (c c' : List Call) :
    validatorSaves (c ++ c') = validatorSaves c ++ validatorSaves c' :=
  List.filterMap_append _ _ _

@[simp] theorem validatorSaves_saveValidatorsPubKeys (validatorsPubKeys : GoMap UInt32 (List Bytes))
    (epoch : UInt32) : validatorSaves [.saveValidatorsPubKeys validatorsPubKeys epoch] = [(validatorsPubKeys, epoch)] :=
  rfl

@[simp] theorem validatorSaves_map (ids : List UInt32) (metaBlock : MetaBlock) (body : Body) :
    validatorSaves (ids.map (.epochStartPrepare · metaBlock body)) = [] := by
  induction ids <;> simp_all [validatorSaves]

@[simp] theorem prepareAll_nil (s : σ) : prepareAll nc s [] = s := rfl

@[simp] theorem prepareAll_append (s : σ) (ps ps' : List (MetaBlock × Body)) :
    prepareAll nc s (ps ++ ps') = prepareAll nc (prepareAll nc s ps) ps' :=
  List.foldl_append _ _ _ _

theorem epochSaves_append (s : σ) (ps ps' : List (MetaBlock × Body)) :
    epochSaves nc s (ps ++ ps') = epochSaves nc s ps ++ epochSaves nc (prepareAll nc s ps) ps' := by
  induction ps generalizing s with
  | nil => simp [epochSaves]
  | cons p ps ih => simp [epochSaves, ih, prepareAll]

/-- `dp'` is `dp` after the prepares `ps`, the TPS calls `tps` and the ratings
calls `ratings`: every coordinator went through the prepares in order, each
prepare was made once per shard in some order, and the validator records are
those the metachain coordinator gave along them. -/
structure Replays (ps : List (MetaBlock × Body)) (tps : List (Option MetaBlock)) (ratings : List MetaBlock)
    (dp dp' : DataProcessor σ) : Prop where
  hash : dp'.calculateHash = dp.calculateHash
  ratingsProcessor : dp'.ratingsProcessor = dp.ratingsProcessor
  keys : dp'.nodesCoordinators.keys.Perm dp.nodesCoordinators.keys
  coordinators : ∀ id, dp'.nodesCoordinators.find? id = (dp.nodesCoordinators.find? id).map (prepareAll nc · ps)
  prepares : ∃ waves : List (List (UInt32 × MetaBlock × Body)),
    List.Forall₂ (fun p wave => wave.Perm (dp.nodesCoordinators.keys.map fun id => (id, p.1, p.2))) ps waves ∧
    epochStartPrepares dp'.calls = epochStartPrepares dp.calls ++ waves.flatten
  saves : ∀ metaCoord, dp.nodesCoordinators.find? k.metachainShardId = some metaCoord →
    validatorSaves dp'.calls = validatorSaves dp.calls ++ epochSaves nc metaCoord ps
  tps : tpsIndexed dp'.calls = tpsIndexed dp.calls ++ tps
  ratings : ratingsIndexed dp'.calls = ratingsIndexed dp.calls ++ ratings

variable {k nc}

theorem Replays.quiet {dp dp' : DataProcessor σ} (hh : dp'.calculateHash = dp.calculateHash)
    (hr : dp'.ratingsProcessor = dp.ratingsProcessor) (hm : dp'.nodesCoordinators.entries.Perm dp.nodesCoordinators.entries)
    (hp : epochStartPrepares dp'.calls = epochStartPrepares dp.calls)
    (hs : validatorSaves dp'.calls = validatorSaves dp.calls) (ht : tpsIndexed dp'.calls = tpsIndexed dp.calls)
    (hra : ratingsIndexed dp'.calls = ratingsIndexed dp.calls) : Replays k nc [] [] [] dp dp' :=
  ⟨hh, hr, hm.map Prod.fst, fun id => by simp [GoMap.find?_perm hm], ⟨[], .nil, by simp [hp]⟩,
    fun _ _ => by simp [hs, epochSaves], by simp [ht], by simp [hra]⟩

theorem Replays.refl (dp : DataProcessor σ) : Replays k nc [] [] [] dp dp :=
  .quiet rfl rfl (.refl _) rfl rfl rfl rfl

/-- Go lists the coordinators anew before a `range`. -/
theorem Replays.redraw {dp : DataProcessor σ} {m : GoMap UInt32 σ} (hm : m.entries.Perm dp.nodesCoordinators.entries) :
    Replays k nc [] [] [] dp { dp with nodesCoordinators := m } :=
  .quiet rfl rfl hm rfl rfl rfl rfl

theorem Replays.trans {ps ps' : List (MetaBlock × Body)} {tps tps' : List (Option MetaBlock)}
    {ratings ratings' : List MetaBlock} {dp dp' dp'' : DataProcessor σ}
    (h : Replays k nc ps tps ratings dp dp') (h' : Replays k nc ps' tps' ratings' dp' dp'') :
    Replays k nc (ps ++ ps') (tps ++ tps') (ratings ++ ratings') dp dp'' := by
  refine ⟨h'.hash.trans h.hash, h'.ratingsProcessor.trans h.ratingsProcessor, h'.keys.trans h.keys,
    fun id => by simp [h'.coordinators, h.coordinators, Option.map_map, Function.comp_def], ?_,
    fun s hs => ?_, by simp [h'.tps, h.tps], by simp [h'.ratings, h.ratings]⟩
  · obtain ⟨w, hw, he⟩ := h.prepares
    obtain ⟨w', hw', he'⟩ := h'.prepares
    exact ⟨w ++ w', List.rel_append hw (hw'.imp fun p _ hp => hp.trans (h.keys.map _)), by simp [he', he]⟩
  · have hs' : dp'.nodesCoordinators.find? k.metachainShardId = some (prepareAll nc s ps) := by
      simp [h.coordinators, hs]
    rw [h'.saves _ hs', h.saves s hs, epochSaves_append, List.append_assoc]

theorem Replays.call {dp : DataProcessor σ} {c : Call} (hp : epochStartPrepares [c] = [])
    (hs : validatorSaves [c] = []) (ht : tpsIndexed [c] = []) (hr : ratingsIndexed [c] = []) :
    Replays k nc [] [] [] dp (dp.call c) :=
  .quiet rfl rfl (.refl _) (by simp [hp]) (by simp [hs]) (by simp [ht]) (by simp [hr])

theorem Replays.call_tps (dp : DataProcessor σ) (metaBlock : Option MetaBlock) :
    Replays k nc [] [metaBlock] [] dp (dp.call (.indexTPSForMetaBlock metaBlock)) :=
  ⟨rfl, rfl, .refl _, fun _ => by simp, ⟨[], .nil, by simp [epochStartPrepares]⟩,
    fun _ _ => by simp [validatorSaves, epochSaves], by simp [tpsIndexed], by simp [ratingsIndexed]⟩

theorem Replays.call_ratings (dp : DataProcessor σ) (metaBlock : MetaBlock) :
    Replays k nc [] [] [metaBlock] dp (dp.call (.indexRatingsForEpochStartMetaBlock metaBlock)) :=
  ⟨rfl, rfl, .refl _, fun _ => by simp, ⟨[], .nil, by simp [epochStartPrepares]⟩,
    fun _ _ => by simp [validatorSaves, epochSaves], by simp [tpsIndexed], by simp [ratingsIndexed]⟩

theorem Replays.foldl {α : Type} {f : DataProcessor σ → α → DataProcessor σ}
    (hf : ∀ dp a, Replays k nc [] [] [] dp (f dp a)) (l : List α) (dp : DataProcessor σ) :
    Replays k nc [] [] [] dp (l.foldl f dp) := by
  induction l generalizing dp with
  | nil => exact .refl dp
  | cons a l ih => exact (hf dp a).trans (ih (f dp a))

/-! ## Each step of a replay -/

variable (k nc)

theorem indexOrLog_replays (dp : DataProcessor σ) (data : HeaderData) :
    Replays k nc [] [] [] dp (indexOrLog k nc dp data) := by
  unfold indexOrLog
  cases hs : computeSignersIndexes k nc dp data.header with
  | error e => rw [indexData_error.2 hs]; exact .refl dp
  | ok s =>
    rw [indexData_ok hs]
    exact (Replays.call (by rfl) (by rfl) (by rfl) (by rfl)).trans (Replays.call (by rfl) (by rfl) (by rfl) (by rfl))

theorem indexRound_replays (dp : DataProcessor σ) (r : RoundPersistedData) :
    Replays k nc [] [r.metaBlockData.header.asMetaBlock] [] dp (indexRound k nc dp r) :=
  ((indexOrLog_replays k nc dp _).trans (Replays.call_tps _ _)).trans
    (Replays.foldl (fun dp (e : UInt32 × List HeaderData) =>
      Replays.foldl (indexOrLog_replays k nc) e.2 dp) _ _)

theorem processValidatorsForEpoch_replays {dp : DataProcessor σ}
    (hm : k.metachainShardId ∈ dp.nodesCoordinators.keys) (metaBlock : MetaBlock) (body : Body) :
    Replays k nc (if metaBlock.epoch = 0 then [] else [(metaBlock, peerBlock k dp.calculateHash metaBlock body)])
      [] [] dp (processValidatorsForEpoch k nc dp metaBlock body).dp := by
  by_cases h0 : metaBlock.epoch = 0
  · simpa [processValidatorsForEpoch, h0] using Replays.refl dp
  obtain ⟨metaCoord, hmeta⟩ := GoMap.exists_find?_of_mem hm
  simp only [processValidatorsForEpoch, if_neg h0, epochStartPrepareAll_nodesCoordinators,
    GoMap.find?_mapValues, hmeta, Option.map_some']
  refine ⟨by split <;> rfl, by split <;> rfl, by split <;> simp, fun id => by split <;> simp [prepareAll],
    ⟨[_], .cons (.refl _) .nil, by split <;> simp⟩, fun s hs => ?_, by split <;> simp [tpsIndexed],
    by split <;> simp [ratingsIndexed]⟩
  obtain rfl := Option.some_injective _ (hmeta.symm.trans hs)
  simp only [epochSaves]
  split <;> simp_all

theorem processData_replays {dp : DataProcessor σ} (hm : k.metachainShardId ∈ dp.nodesCoordinators.keys)
    (r : RoundPersistedData) :
    Replays k nc (roundPrepare k dp.calculateHash r).toList
      (if RoundPanics dp.ratingsProcessor r then [] else [r.metaBlockData.header.asMetaBlock])
      (if RoundPanics dp.ratingsProcessor r then [] else (epochStartMetaBlock r).toList)
      dp (processData k nc dp r).1.dp := by
  rcases processData_cases nc hm r with ⟨hc, ho⟩ | ⟨hc, hmeta, ho⟩ | ⟨metaBlock, dp', hc, hmeta, hdp', -, hrest⟩
  · have hb : ¬RoundPanics dp.ratingsProcessor r := fun hb => hc hb.1
    simpa [ho, roundPrepare, epochStartMetaBlock, hc, hb] using indexRound_replays k nc dp r
  · simpa [ho, roundPrepare, hc, hmeta, RoundPanics] using (Replays.refl dp : Replays k nc [] [] [] dp dp)
  · have hv := processValidatorsForEpoch_replays k nc hm metaBlock r.metaBlockData.body
    have hprep : (if metaBlock.epoch = 0 then [] else
        [(metaBlock, peerBlock k dp.calculateHash metaBlock r.metaBlockData.body)]) =
        (roundPrepare k dp.calculateHash r).toList := by
      by_cases h0 : metaBlock.epoch = 0 <;> simp [roundPrepare, hc, hmeta, h0]
    rw [hdp', Outcome.dp_returned, hprep] at hv
    rcases hrest with ⟨hr, ho⟩ | ⟨hr, ho⟩
    · simpa [ho, RoundPanics, hc, hr] using hv
    · have hb : ¬RoundPanics dp.ratingsProcessor r := by simp [RoundPanics, hmeta, hr]
      simpa [ho, epochStartMetaBlock, hc, hmeta, hb] using
        (hv.trans (Replays.call_ratings dp' metaBlock)).trans (indexRound_replays k nc _ r)

variable {k nc}

/-- From a processor with a metachain coordinator, a run prepares every
coordinator with the epoch starts of the rounds it reaches, and indexes the TPS
of each round it gets through and the ratings of each epoch start among them. -/
theorem IndexRun.replays {dp : DataProcessor σ} {rounds : List RoundPersistedData} {o : Outcome σ}
    (hrun : IndexRun k nc dp rounds o) (hm : k.metachainShardId ∈ dp.nodesCoordinators.keys) :
    Replays k nc ((reached dp.ratingsProcessor rounds).filterMap (roundPrepare k dp.calculateHash))
      ((replayedBy dp.ratingsProcessor rounds).map (·.metaBlockData.header.asMetaBlock))
      ((replayedBy dp.ratingsProcessor rounds).filterMap epochStartMetaBlock) dp o.dp := by
  induction hrun with
  | nil dp => exact .refl dp
  | @returned dp dp' m r rest o hperm h _ ih =>
    have hmm : k.metachainShardId ∈ ({ dp with nodesCoordinators := m } : DataProcessor σ).nodesCoordinators.keys :=
      (hperm.map Prod.fst).mem_iff.2 hm
    have hnot : ¬RoundPanics dp.ratingsProcessor r := not_roundPanics_of_returned nc hmm h
    have hp := processData_replays k nc hmm r
    simp only [h, Outcome.dp_returned, hnot, if_false] at hp
    have ih' := ih (hp.keys.mem_iff.2 hmm)
    rw [hp.hash, hp.ratingsProcessor] at ih'
    have hr := ((Replays.redraw hperm).trans hp).trans ih'
    simp only [reached, replayedBy_cons, if_neg hnot]
    cases hpr : roundPrepare k dp.calculateHash r <;> cases he : epochStartMetaBlock r <;>
      simpa [hpr, he] using hr
  | @panicked dp dp' m r rest hperm h =>
    have hmm : k.metachainShardId ∈ ({ dp with nodesCoordinators := m } : DataProcessor σ).nodesCoordinators.keys :=
      (hperm.map Prod.fst).mem_iff.2 hm
    have hb : RoundPanics dp.ratingsProcessor r := (processData_panicked nc hmm r).1 ⟨dp', h⟩
    have hp := processData_replays k nc hmm r
    simp only [h, Outcome.dp_panicked, hb, if_true] at hp
    cases hpr : roundPrepare k dp.calculateHash r <;>
      simpa [reached, hb, hpr] using (Replays.redraw hperm).trans hp

/-! ## Runs of a built processor -/

theorem GenesisSaves.quiet {calls : List Call} (h : GenesisSaves calls) :
    epochStartPrepares calls = [] ∧ tpsIndexed calls = [] ∧ ratingsIndexed calls = [] := by
  refine ⟨List.filterMap_eq_nil_iff.2 fun c hc => ?_, List.filterMap_eq_nil_iff.2 fun c hc => ?_,
    List.filterMap_eq_nil_iff.2 fun c hc => ?_⟩ <;>
  · obtain ⟨keys, rfl⟩ := h c hc
    rfl

/-- Over any run of a built processor, whatever order Go draws for each range
over the coordinators, every coordinator goes through the same prepares: the
epoch starts past epoch zero of the rounds the run reaches, each with its peer
body, in round order. Each is prepared once per shard, all of one before any of
the next, and the validator records that follow construction's are those the
metachain coordinator gives along them. -/
theorem indexRun_newDataProcessor_prepares {args : ArgsDataProcessor σ} {dp : DataProcessor σ}
    (h : newDataProcessor k nc args = .ok dp) {rounds : List RoundPersistedData} {o : Outcome σ}
    (hrun : IndexRun k nc dp rounds o) :
    let ps := (reached args.ratingsProcessor rounds).filterMap (roundPrepare k args.calculateHash)
    (∀ id, o.dp.nodesCoordinators.find? id = (dp.nodesCoordinators.find? id).map (prepareAll nc · ps)) ∧
      (∃ waves : List (List (UInt32 × MetaBlock × Body)),
        List.Forall₂ (fun p wave => wave.Perm (dp.nodesCoordinators.keys.map fun id => (id, p.1, p.2))) ps waves ∧
        epochStartPrepares o.dp.calls = waves.flatten) ∧
      ∃ metaCoord, dp.nodesCoordinators.find? k.metachainShardId = some metaCoord ∧
        validatorSaves o.dp.calls = validatorSaves dp.calls ++ epochSaves nc metaCoord ps := by
  obtain ⟨n, -, hh, hk, -, hsaves⟩ := newDataProcessor_ok h
  have hm := (hk _).2 (metachain_mem_getShardIDs n)
  have hp := hrun.replays hm
  rw [hh, newDataProcessor_ratingsProcessor h] at hp
  obtain ⟨metaCoord, hmeta⟩ := GoMap.exists_find?_of_mem hm
  obtain ⟨waves, hw, he⟩ := hp.prepares
  exact ⟨hp.coordinators, ⟨waves, hw, by rw [he, hsaves.quiet.1, List.nil_append]⟩, metaCoord, hmeta,
    hp.saves _ hmeta⟩

/-- One epoch-start round of epoch one, replayed by `index`. -/
theorem indexRun_newDataProcessor_prepares_epochOne :
    let k : Constants := ⟨60, 150, 4294967295⟩
    let nc : NodesCoordinator Nat :=
      ⟨fun s _ _ => s + 1, fun _ _ => (.empty, none), fun _ _ _ _ _ => .ok [], fun _ _ _ => .ok []⟩
    let args : ArgsDataProcessor Nat :=
      ⟨some (), some (), some fun _ => .ok 0, some 1, some (), some (), some (), some (), fun m => some m.reserved, 1⟩
    let dp : DataProcessor Nat := ⟨fun m => some m.reserved, ⟨[(0, 0), (4294967295, 0)], by decide⟩, some (), []⟩
    let rounds : List RoundPersistedData :=
      [⟨⟨.meta ⟨1, 1, 1, 0, [], [⟨[7]⟩], [], true⟩, ⟨[⟨[], 0, 4294967295, 60, [7]⟩]⟩, .empty⟩, .empty⟩]
    let o := index k nc dp rounds
    newDataProcessor k nc args = .ok dp ∧ IndexRun k nc dp rounds o ∧
      let ps := (reached args.ratingsProcessor rounds).filterMap (roundPrepare k args.calculateHash)
      ((∀ id, o.dp.nodesCoordinators.find? id = (dp.nodesCoordinators.find? id).map (prepareAll nc · ps)) ∧
        (∃ waves : List (List (UInt32 × MetaBlock × Body)),
          List.Forall₂ (fun p wave => wave.Perm (dp.nodesCoordinators.keys.map fun id => (id, p.1, p.2))) ps waves ∧
          epochStartPrepares o.dp.calls = waves.flatten) ∧
        ∃ metaCoord, dp.nodesCoordinators.find? k.metachainShardId = some metaCoord ∧
          validatorSaves o.dp.calls = validatorSaves dp.calls ++ epochSaves nc metaCoord ps) :=
  by
  intro k nc args dp rounds o
  exact ⟨rfl, index_indexRun nc dp rounds,
    @indexRun_newDataProcessor_prepares Nat k nc args dp rfl rounds o (index_indexRun nc dp rounds)⟩

/-- Over any run of a built processor, the TPS benchmark updater gets one call
per round the run gets through, in order, with the round's metablock, or nil
where the metachain slot holds another kind of header; the ratings processor
gets the metablock of each epoch-start or nonce-zero round among them, epoch
zero included, in order. With a nil ratings processor the run gets through no
such round. -/
theorem indexRun_newDataProcessor_tpsRatings {args : ArgsDataProcessor σ} {dp : DataProcessor σ}
    (h : newDataProcessor k nc args = .ok dp) {rounds : List RoundPersistedData} {o : Outcome σ}
    (hrun : IndexRun k nc dp rounds o) :
    tpsIndexed o.dp.calls = (replayedBy args.ratingsProcessor rounds).map (·.metaBlockData.header.asMetaBlock) ∧
      ratingsIndexed o.dp.calls = (replayedBy args.ratingsProcessor rounds).filterMap epochStartMetaBlock := by
  obtain ⟨n, -, -, hk, -, hsaves⟩ := newDataProcessor_ok h
  have hp := hrun.replays ((hk _).2 (metachain_mem_getShardIDs n))
  rw [newDataProcessor_ratingsProcessor h] at hp
  obtain ⟨-, ht, hr⟩ := hsaves.quiet
  exact ⟨by rw [hp.tps, ht, List.nil_append], by rw [hp.ratings, hr, List.nil_append]⟩

/-- A nil ratings processor; a round whose metachain slot holds a shard header,
then an epoch-start round of epoch one, where the run panics. -/
theorem indexRun_newDataProcessor_tpsRatings_nilRatings :
    let k : Constants := ⟨60, 150, 4294967295⟩
    let nc : NodesCoordinator Nat :=
      ⟨fun s _ _ => s + 1, fun _ _ => (.empty, none), fun _ _ _ _ _ => .ok [], fun _ _ _ => .ok []⟩
    let args : ArgsDataProcessor Nat :=
      ⟨some (), some (), some fun _ => .ok 0, some 1, some (), some (), some (), none, fun m => some m.reserved, 1⟩
    let dp : DataProcessor Nat := ⟨fun m => some m.reserved, ⟨[(0, 0), (4294967295, 0)], by decide⟩, none, []⟩
    let rounds : List RoundPersistedData :=
      [⟨⟨.shard ⟨0, 5, 1, 5, 0, [], false⟩, ⟨[]⟩, .empty⟩, .empty⟩,
        ⟨⟨.meta ⟨1, 1, 1, 0, [], [⟨[7]⟩], [], true⟩, ⟨[⟨[], 0, 4294967295, 60, [7]⟩]⟩, .empty⟩, .empty⟩]
    let o := index k nc dp rounds
    newDataProcessor k nc args = .ok dp ∧ IndexRun k nc dp rounds o ∧
      (tpsIndexed o.dp.calls = (replayedBy args.ratingsProcessor rounds).map (·.metaBlockData.header.asMetaBlock) ∧
        ratingsIndexed o.dp.calls = (replayedBy args.ratingsProcessor rounds).filterMap epochStartMetaBlock) :=
  by
  intro k nc args dp rounds o
  exact ⟨rfl, index_indexRun nc dp rounds,
    @indexRun_newDataProcessor_tpsRatings Nat k nc args dp rfl rounds o (index_indexRun nc dp rounds)⟩

end ChainIndexer.Storer2Elastic
