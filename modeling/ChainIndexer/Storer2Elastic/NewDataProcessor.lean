import ChainIndexer.Storer2Elastic.DataProcessor

/-! # Building a data processor

`NewDataProcessor` rejects a nil collaborator, checking them in the order of
the source, then creates one nodes coordinator per shard and one for the
metachain. At starting epoch zero it saves the eligible validators of each
coordinator as soon as it is created, whatever the coordinator answers; so a
construction that fails part way has already reached the indexer.
-/
namespace ChainIndexer.Storer2Elastic

variable {σ : Type} (k : Constants) (nc : NodesCoordinator σ)

/-- The package's errors, whose texts are outside this excerpt, and an error
passed up from creating a coordinator. -/
inductive DataProcessorError where
  | errNilElasticIndexer
  | errNilDataReplayer
  | errNilGenesisNodesSetup
  | errNilShardCoordinator
  | errNilMarshalizer
  | errNilHasher
  | errNilTPSBenchmarkUpdater
  | createNodesCoordinator (err : String)
  deriving DecidableEq, Repr

/-- `ArgsDataProcessor` by what the constructor reads of each field; `none` is a
nil interface or pointer. `genesisNodesSetup` is what
`createNodesCoordinatorForShard` builds from the setup for each shard,
`shardCoordinator` its `NumberOfShards()`, and `calculateHash` is
`core.CalculateHash` over the given marshalizer and hasher. The ratings
processor is kept without a nil check. -/
structure ArgsDataProcessor (σ : Type) where
  elasticIndexer : Option Unit
  dataReplayer : Option Unit
  genesisNodesSetup : Option (UInt32 → Except String σ)
  shardCoordinator : Option UInt32
  marshalizer : Option Unit
  hasher : Option Unit
  tpsBenchmarkUpdater : Option Unit
  ratingsProcessor : Option Unit
  calculateHash : MiniBlock → Option Bytes
  startingEpoch : UInt32

def getShardIDs (numberOfShards : UInt32) : List UInt32 :=
  (List.range numberOfShards.toNat).map UInt32.ofNat ++ [k.metachainShardId]

/-- The loop of `createNodesCoordinators` over the shards left, with the map and
the calls so far; an error carries the calls already made. A coordinator's error
comes with the nil map, which is empty. -/
def createNodesCoordinatorsLoop (createForShard : UInt32 → Except String σ)
    (startingEpoch : UInt32) : List UInt32 → GoMap UInt32 σ → List Call →
      Except (String × List Call) (GoMap UInt32 σ × List Call)
  | [], m, calls => .ok (m, calls)
  | shardID :: rest, m, calls =>
    match createForShard shardID with
    | .error err => .error (err, calls)
    | .ok nodeCoordForShard =>
      let calls := if startingEpoch = 0 then
          calls ++ [.saveValidatorsPubKeys (nc.getAllEligibleValidatorsPublicKeys nodeCoordForShard 0).1 0]
        else calls
      createNodesCoordinatorsLoop createForShard startingEpoch rest
        (m.insert shardID nodeCoordForShard) calls

def createNodesCoordinators (createForShard : UInt32 → Except String σ) (numberOfShards : UInt32)
    (startingEpoch : UInt32) : Except (String × List Call) (GoMap UInt32 σ × List Call) :=
  createNodesCoordinatorsLoop nc createForShard startingEpoch (getShardIDs k numberOfShards) .empty []

/-- An error comes with the calls made before it. -/
def newDataProcessor (args : ArgsDataProcessor σ) :
    Except (DataProcessorError × List Call) (DataProcessor σ) :=
  if args.elasticIndexer.isNone then .error (.errNilElasticIndexer, [])
  else if args.dataReplayer.isNone then .error (.errNilDataReplayer, [])
  else match args.genesisNodesSetup with
  | none => .error (.errNilGenesisNodesSetup, [])
  | some createForShard =>
    match args.shardCoordinator with
    | none => .error (.errNilShardCoordinator, [])
    | some numberOfShards =>
      if args.marshalizer.isNone then .error (.errNilMarshalizer, [])
      else if args.hasher.isNone then .error (.errNilHasher, [])
      else if args.tpsBenchmarkUpdater.isNone then .error (.errNilTPSBenchmarkUpdater, [])
      else match createNodesCoordinators k nc createForShard numberOfShards args.startingEpoch with
      | .error (err, calls) => .error (.createNodesCoordinator err, calls)
      | .ok (nodesCoordinators, calls) => .ok ⟨args.calculateHash, nodesCoordinators, args.ratingsProcessor, calls⟩

/-- The first nil argument, in the order the constructor checks them. -/
def firstNilArg (args : ArgsDataProcessor σ) : Option DataProcessorError :=
  ([(args.elasticIndexer.isNone, DataProcessorError.errNilElasticIndexer),
    (args.dataReplayer.isNone, .errNilDataReplayer),
    (args.genesisNodesSetup.isNone, .errNilGenesisNodesSetup),
    (args.shardCoordinator.isNone, .errNilShardCoordinator),
    (args.marshalizer.isNone, .errNilMarshalizer), (args.hasher.isNone, .errNilHasher),
    (args.tpsBenchmarkUpdater.isNone, .errNilTPSBenchmarkUpdater)].find? (·.1)).map (·.2)

/-- Records of epoch zero's eligible validators, the only calls a construction makes. -/
def GenesisSaves (rest : List Call) : Prop := ∀ c ∈ rest, ∃ keys, c = .saveValidatorsPubKeys keys 0

@[simp] theorem genesisSaves_cons {keys : GoMap UInt32 (List Bytes)} {rest : List Call} :
    GenesisSaves (.saveValidatorsPubKeys keys 0 :: rest) ↔ GenesisSaves rest := by
  simp [GenesisSaves]

def genesisRecord (c : σ) : Call := .saveValidatorsPubKeys (nc.getAllEligibleValidatorsPublicKeys c 0).1 0

variable {k nc}

theorem ok_of_forall₂ {f : UInt32 → Except String σ} {ids : List UInt32} {cs : List σ}
    (h : List.Forall₂ (fun id c => f id = .ok c) ids cs) {id : UInt32} (hid : id ∈ ids) :
    ∃ c, f id = .ok c := by
  induction h with
  | nil => simp at hid
  | cons hc _ ih =>
    rcases List.mem_cons.1 hid with rfl | hid
    exacts [⟨_, hc⟩, ih hid]

theorem createNodesCoordinatorsLoop_ok {f : UInt32 → Except String σ} {e : UInt32}
    {ids : List UInt32} {m m' : GoMap UInt32 σ} {calls calls' : List Call}
    (h : createNodesCoordinatorsLoop nc f e ids m calls = .ok (m', calls')) :
    ∃ cs, List.Forall₂ (fun id c => f id = .ok c) ids cs ∧
      calls' = calls ++ (if e = 0 then cs.map (genesisRecord nc) else []) ∧
      ∀ id, m'.find? id = if id ∈ ids then (f id).toOption else m.find? id := by
  induction ids generalizing m calls with
  | nil =>
    simp only [createNodesCoordinatorsLoop, Except.ok.injEq, Prod.mk.injEq] at h
    obtain ⟨rfl, rfl⟩ := h
    exact ⟨[], .nil, by simp, by simp⟩
  | cons id ids ih =>
    cases hf : f id with
    | error => simp [createNodesCoordinatorsLoop, hf] at h
    | ok c =>
      simp only [createNodesCoordinatorsLoop, hf] at h
      obtain ⟨cs, hcs, rfl, hfind⟩ := ih h
      refine ⟨c :: cs, .cons hf hcs, by by_cases he : e = 0 <;> simp [he, genesisRecord], fun x => ?_⟩
      rw [hfind, GoMap.find?_insert]
      by_cases hx : x ∈ ids
      · simp [hx]
      · by_cases hxi : x = id
        · subst hxi
          simp [hf, Except.toOption]
        · simp [hx, hxi]

theorem createNodesCoordinatorsLoop_error {f : UInt32 → Except String σ} {e : UInt32}
    {ids : List UInt32} {m : GoMap UInt32 σ} {calls calls' : List Call} {err : String}
    (h : createNodesCoordinatorsLoop nc f e ids m calls = .error (err, calls')) :
    ∃ pre id post cs, ids = pre ++ id :: post ∧ List.Forall₂ (fun id c => f id = .ok c) pre cs ∧
      f id = .error err ∧ calls' = calls ++ (if e = 0 then cs.map (genesisRecord nc) else []) := by
  induction ids generalizing m calls with
  | nil => simp [createNodesCoordinatorsLoop] at h
  | cons id ids ih =>
    cases hf : f id with
    | error err' =>
      simp only [createNodesCoordinatorsLoop, hf, Except.error.injEq, Prod.mk.injEq] at h
      obtain ⟨rfl, rfl⟩ := h
      exact ⟨[], id, ids, [], rfl, .nil, hf, by simp⟩
    | ok c =>
      simp only [createNodesCoordinatorsLoop, hf] at h
      obtain ⟨pre, id', post, cs, rfl, hpre, hid, rfl⟩ := ih h
      exact ⟨id :: pre, id', post, c :: cs, rfl, .cons hf hpre, hid,
        by by_cases he : e = 0 <;> simp [he, genesisRecord]⟩

theorem newDataProcessor_cases (args : ArgsDataProcessor σ) :
    (∃ e, firstNilArg args = some e ∧ newDataProcessor k nc args = .error (e, [])) ∨
      ∃ createForShard n, firstNilArg args = none ∧ args.genesisNodesSetup = some createForShard ∧
        args.shardCoordinator = some n ∧
        newDataProcessor k nc args = match createNodesCoordinators k nc createForShard n args.startingEpoch with
          | .error (err, calls) => .error (.createNodesCoordinator err, calls)
          | .ok (nodesCoordinators, calls) => .ok ⟨args.calculateHash, nodesCoordinators, args.ratingsProcessor, calls⟩ := by
  obtain ⟨ei, dr, gs, sc, ma, ha, tps, rp, ch, se⟩ := args
  cases ei
  · exact .inl ⟨_, rfl, rfl⟩
  cases dr
  · exact .inl ⟨_, rfl, rfl⟩
  cases gs
  · exact .inl ⟨_, rfl, rfl⟩
  cases sc
  · exact .inl ⟨_, rfl, rfl⟩
  cases ma
  · exact .inl ⟨_, rfl, rfl⟩
  cases ha
  · exact .inl ⟨_, rfl, rfl⟩
  cases tps
  · exact .inl ⟨_, rfl, rfl⟩
  exact .inr ⟨_, _, rfl, rfl, rfl, rfl⟩

theorem firstNilArg_ne_createNodesCoordinator (args : ArgsDataProcessor σ) (err : String) :
    firstNilArg args ≠ some (.createNodesCoordinator err) := by
  simp only [firstNilArg, ne_eq, Option.map_eq_some', not_exists, not_and]
  intro p hp
  have hmem := List.mem_of_find?_eq_some hp
  simp only [List.mem_cons, List.mem_singleton, List.not_mem_nil, or_false] at hmem
  rcases hmem with rfl | rfl | rfl | rfl | rfl | rfl | rfl <;> simp

theorem newDataProcessor_eq_ok {args : ArgsDataProcessor σ} {dp : DataProcessor σ}
    (h : newDataProcessor k nc args = .ok dp) :
    ∃ createForShard n, args.genesisNodesSetup = some createForShard ∧ args.shardCoordinator = some n ∧
      dp.calculateHash = args.calculateHash ∧ dp.ratingsProcessor = args.ratingsProcessor ∧
      createNodesCoordinatorsLoop nc createForShard args.startingEpoch (getShardIDs k n) .empty [] =
        .ok (dp.nodesCoordinators, dp.calls) := by
  rcases newDataProcessor_cases args with ⟨e, -, hn⟩ | ⟨f, n, -, hf, hsc, hn⟩
  · rw [hn] at h; cases h
  rw [hn] at h
  split at h
  · cases h
  · cases h
    exact ⟨f, n, hf, hsc, rfl, rfl, ‹_›⟩

theorem newDataProcessor_ratingsProcessor {args : ArgsDataProcessor σ} {dp : DataProcessor σ}
    (h : newDataProcessor k nc args = .ok dp) : dp.ratingsProcessor = args.ratingsProcessor := by
  obtain ⟨-, -, -, -, -, hr, -⟩ := newDataProcessor_eq_ok h
  exact hr

/-- A processor that is built has a coordinator for exactly the shard ids of
`getShardIDs`, the metachain's among them, and has made one record of epoch
zero's validators per coordinator at starting epoch zero, none otherwise. -/
theorem newDataProcessor_ok {args : ArgsDataProcessor σ} {dp : DataProcessor σ}
    (h : newDataProcessor k nc args = .ok dp) :
    ∃ n, args.shardCoordinator = some n ∧ dp.calculateHash = args.calculateHash ∧
      (∀ id, id ∈ dp.nodesCoordinators.keys ↔ id ∈ getShardIDs k n) ∧
      dp.calls.length = (if args.startingEpoch = 0 then (getShardIDs k n).length else 0) ∧
      GenesisSaves dp.calls := by
  obtain ⟨f, n, -, hsc, hh, -, hc⟩ := newDataProcessor_eq_ok h
  obtain ⟨cs, hcs, hcalls, hfind⟩ := createNodesCoordinatorsLoop_ok hc
  rw [List.nil_append] at hcalls
  refine ⟨n, hsc, hh, fun id => ?_, ?_, ?_⟩
  · rw [← not_iff_not, ← GoMap.find?_eq_none, hfind]
    split_ifs with hid
    · obtain ⟨c, hc⟩ := ok_of_forall₂ hcs hid
      simp [hid, hc, Except.toOption]
    · simp [hid]
  · by_cases he : args.startingEpoch = 0 <;> simp [hcalls, he, hcs.length_eq]
  · by_cases he : args.startingEpoch = 0 <;> simp [hcalls, he, GenesisSaves, genesisRecord]

/-- A built processor keeps under each shard id of `getShardIDs` the coordinator
created for it, and nothing under any other; at starting epoch zero the indexer
got each created coordinator's validators of epoch zero, in shard order, and
nothing otherwise. -/
theorem newDataProcessor_coordinators {args : ArgsDataProcessor σ} {dp : DataProcessor σ}
    (h : newDataProcessor k nc args = .ok dp) :
    ∃ createForShard n cs, args.genesisNodesSetup = some createForShard ∧ args.shardCoordinator = some n ∧
      List.Forall₂ (fun id c => createForShard id = .ok c) (getShardIDs k n) cs ∧
      (∀ id, dp.nodesCoordinators.find? id =
        if id ∈ getShardIDs k n then (createForShard id).toOption else none) ∧
      dp.calls = if args.startingEpoch = 0 then cs.map (genesisRecord nc) else [] := by
  obtain ⟨f, n, hf, hsc, -, -, hc⟩ := newDataProcessor_eq_ok h
  obtain ⟨cs, hcs, hcalls, hfind⟩ := createNodesCoordinatorsLoop_ok hc
  exact ⟨f, n, cs, hf, hsc, hcs, by simpa using hfind, hcalls⟩

theorem newDataProcessor_coordinators_oneShard :
    let k : Constants := ⟨60, 150, 4294967295⟩
    let nc : NodesCoordinator Nat :=
      ⟨fun s _ _ => s + 1, fun _ _ => (.empty, none), fun _ _ _ _ _ => .ok [], fun _ _ _ => .ok []⟩
    let args : ArgsDataProcessor Nat :=
      ⟨some (), some (), some fun _ => .ok 0, some 1, some (), some (), some (), some (), fun m => some m.reserved, 0⟩
    let dp : DataProcessor Nat := ⟨fun m => some m.reserved, ⟨[(0, 0), (4294967295, 0)], by decide⟩, some (),
      [.saveValidatorsPubKeys .empty 0, .saveValidatorsPubKeys .empty 0]⟩
    newDataProcessor k nc args = .ok dp ∧
      ∃ createForShard n cs, args.genesisNodesSetup = some createForShard ∧ args.shardCoordinator = some n ∧
        List.Forall₂ (fun id c => createForShard id = .ok c) (getShardIDs k n) cs ∧
        (∀ id, dp.nodesCoordinators.find? id =
          if id ∈ getShardIDs k n then (createForShard id).toOption else none) ∧
        dp.calls = if args.startingEpoch = 0 then cs.map (genesisRecord nc) else [] :=
  by intro k nc args dp; exact ⟨rfl, @newDataProcessor_coordinators Nat k nc args dp rfl⟩

/-- Creating the coordinators fails, once every argument passed its check, at
the first shard of `getShardIDs` whose coordinator cannot be created, with its
error. By then, at starting epoch zero, the indexer has the validators of epoch
zero of every coordinator created before it, in shard order; nothing otherwise. -/
theorem newDataProcessor_createNodesCoordinator_error {args : ArgsDataProcessor σ} {err : String}
    {calls : List Call} (h : newDataProcessor k nc args = .error (.createNodesCoordinator err, calls)) :
    firstNilArg args = none ∧ ∃ createForShard n pre id post cs,
      args.genesisNodesSetup = some createForShard ∧ args.shardCoordinator = some n ∧
      getShardIDs k n = pre ++ id :: post ∧ List.Forall₂ (fun id c => createForShard id = .ok c) pre cs ∧
      createForShard id = .error err ∧
      calls = if args.startingEpoch = 0 then cs.map (genesisRecord nc) else [] := by
  rcases newDataProcessor_cases args with ⟨e, he, hn⟩ | ⟨f, n, hnone, hf, hsc, hn⟩
  · rw [hn] at h
    cases h
    exact absurd he (firstNilArg_ne_createNodesCoordinator args err)
  rw [hn] at h
  split at h
  · rename_i hc
    cases h
    obtain ⟨pre, id, post, cs, hids, hpre, hid, rfl⟩ := createNodesCoordinatorsLoop_error hc
    exact ⟨hnone, f, n, pre, id, post, cs, hf, hsc, hids, hpre, hid, List.nil_append _⟩
  · cases h

theorem newDataProcessor_createNodesCoordinator_error_secondShard :
    let k : Constants := ⟨60, 150, 4294967295⟩
    let nc : NodesCoordinator Nat :=
      ⟨fun s _ _ => s + 1, fun _ _ => (.empty, none), fun _ _ _ _ _ => .ok [], fun _ _ _ => .ok []⟩
    let args : ArgsDataProcessor Nat :=
      ⟨some (), some (), some fun id => if id = 0 then .ok 0 else .error "no nodes", some 2, some (), some (),
        some (), some (), fun m => some m.reserved, 0⟩
    newDataProcessor k nc args = .error (.createNodesCoordinator "no nodes", [.saveValidatorsPubKeys .empty 0]) ∧
      firstNilArg args = none ∧ ∃ createForShard n pre id post cs,
        args.genesisNodesSetup = some createForShard ∧ args.shardCoordinator = some n ∧
        getShardIDs k n = pre ++ id :: post ∧ List.Forall₂ (fun id c => createForShard id = .ok c) pre cs ∧
        createForShard id = .error "no nodes" ∧
        [.saveValidatorsPubKeys .empty 0] = if args.startingEpoch = 0 then cs.map (genesisRecord nc) else [] :=
  by intro k nc args; exact ⟨rfl, @newDataProcessor_createNodesCoordinator_error Nat k nc args _ _ rfl⟩

theorem metachain_mem_getShardIDs (n : UInt32) : k.metachainShardId ∈ getShardIDs k n := by
  simp [getShardIDs]

end ChainIndexer.Storer2Elastic
