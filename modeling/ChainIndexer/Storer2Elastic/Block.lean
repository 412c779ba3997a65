import Mathlib.Data.List.Nodup
import Mathlib.Algebra.Group.Int

/-! # Blocks, bodies and persisted rounds as the data processor reads them

Byte slices are `List UInt8`. A Go map is an association list without repeated
keys, listed in the order the next `range` over it visits them; Go draws that
order anew for each `range`. Only the fields the data processor reads are kept;
a miniblock keeps all of its protobuf fields, since its hash reads them all.
-/
namespace ChainIndexer.Storer2Elastic

structure GoMap (κ ν : Type) where
  entries : List (κ × ν)
  nodup : (entries.map Prod.fst).Nodup
  deriving DecidableEq, Repr

namespace GoMap
variable {κ ν ν' : Type}

def empty : GoMap κ ν := ⟨[], List.nodup_nil⟩

def keys (m : GoMap κ ν) : List κ := m.entries.map Prod.fst

/-- `len(m)`. -/
def size (m : GoMap κ ν) : Nat := m.entries.length

/-- `v, ok := m[k]`, with `none` for `!ok`. -/
def find? [DecidableEq κ] (m : GoMap κ ν) (k : κ) : Option ν := (m.entries.find? (·.1 = k)).map Prod.snd

/-- Every value rewritten in place; the keys stay. -/
def mapValues (f : ν → ν') (m : GoMap κ ν) : GoMap κ ν' :=
  ⟨m.entries.map fun e => (e.1, f e.2), by simpa [Function.comp_def] using m.nodup⟩

/-- `m[k] = v`: overwrite the value of `k`, or add `k` last. -/
def insert [DecidableEq κ] (m : GoMap κ ν) (k : κ) (v : ν) : GoMap κ ν :=
  if h : k ∈ m.keys then
    ⟨m.entries.map fun e => if e.1 = k then (k, v) else e, by
      have : (m.entries.map fun e => if e.1 = k then (k, v) else e).map Prod.fst = m.keys := by
        simp only [keys, List.map_map]
        exact List.map_congr_left fun e _ => by by_cases he : e.1 = k <;> simp [he]
      exact this ▸ m.nodup⟩
  else ⟨m.entries ++ [(k, v)], by simpa [List.nodup_append, keys] using And.intro m.nodup h⟩

@[simp] theorem keys_mapValues (f : ν → ν') (m : GoMap κ ν) : (m.mapValues f).keys = m.keys := by
  simp [keys, mapValues, Function.comp_def]

@[simp] theorem mapValues_id (m : GoMap κ ν) : m.mapValues (fun v => v) = m := by
  cases m; simp [mapValues]

@[simp] theorem mapValues_mapValues {ν'' : Type} (f : ν → ν') (g : ν' → ν'') (m : GoMap κ ν) :
    (m.mapValues f).mapValues g = m.mapValues fun v => g (f v) := by
  simp [mapValues, Function.comp_def]

@[simp] theorem find?_mapValues [DecidableEq κ] (f : ν → ν') (m : GoMap κ ν) (k : κ) :
    (m.mapValues f).find? k = (m.find? k).map f := by
  simp [find?, mapValues, List.find?_map, Function.comp_def]

theorem find?_eq_none [DecidableEq κ] {m : GoMap κ ν} {k : κ} : m.find? k = none ↔ k ∉ m.keys := by
  simp only [find?, keys, Option.map_eq_none', List.find?_eq_none, List.mem_map]
  exact ⟨fun h ⟨e, he, hk⟩ => by simpa [hk] using h e he, fun h e he hk => h ⟨e, he, by simpa using hk⟩⟩

theorem exists_find?_of_mem [DecidableEq κ] {m : GoMap κ ν} {k : κ} (h : k ∈ m.keys) : ∃ v, m.find? k = some v :=
  Option.ne_none_iff_exists'.1 (mt find?_eq_none.1 (not_not.2 h))

@[simp] theorem keys_empty : (empty : GoMap κ ν).keys = [] := rfl

theorem keys_insert [DecidableEq κ] (m : GoMap κ ν) (k : κ) (v : ν) :
    (m.insert k v).keys = if k ∈ m.keys then m.keys else m.keys ++ [k] := by
  unfold insert
  split
  · rename_i h
    simp only [keys, List.map_map, if_pos h]
    exact List.map_congr_left fun e _ => by by_cases he : e.1 = k <;> simp [he]
  · rename_i h
    simp [keys, if_neg h]

theorem mem_keys_insert [DecidableEq κ] (m : GoMap κ ν) (k k' : κ) (v : ν) :
    k' ∈ (m.insert k v).keys ↔ k' = k ∨ k' ∈ m.keys := by
  rw [keys_insert]
  split <;> simp_all [or_comm]

@[simp] theorem find?_empty [DecidableEq κ] (k : κ) : (empty : GoMap κ ν).find? k = none := rfl

private theorem find?_overwrite_self [DecidableEq κ] {k : κ} {v : ν} {l : List (κ × ν)}
    (h : k ∈ l.map Prod.fst) : (l.map fun e => if e.1 = k then (k, v) else e).find? (·.1 = k) = some (k, v) := by
  induction l with
  | nil => simp at h
  | cons e l ih =>
    by_cases he : e.1 = k
    · simp [he]
    · simp only [List.map_cons, List.mem_cons, he, if_false, List.find?_cons, decide_False] at h ⊢
      exact ih (h.resolve_left (Ne.symm he))

private theorem find?_overwrite_ne [DecidableEq κ] {k k' : κ} {v : ν} (hk : k' ≠ k) (l : List (κ × ν)) :
    (l.map fun e => if e.1 = k then (k, v) else e).find? (·.1 = k') = l.find? (·.1 = k') := by
  induction l with
  | nil => rfl
  | cons e l ih =>
    by_cases he : e.1 = k
    · simp [he, Ne.symm hk, ih]
    · simp only [List.map_cons, he, if_false, List.find?_cons, ih]

theorem find?_insert [DecidableEq κ] (m : GoMap κ ν) (k k' : κ) (v : ν) :
    (m.insert k v).find? k' = if k' = k then some v else m.find? k' := by
  unfold insert find?
  split
  · split
    · subst_vars
      simp [find?_overwrite_self ‹_›]
    · simp [find?_overwrite_ne ‹_›]
  · rename_i h
    simp only [keys, List.mem_map, not_exists, not_and] at h
    rw [List.find?_append]
    by_cases hk : k' = k
    · subst hk
      rw [List.find?_eq_none.2 (fun e he hek => h e he (by simpa using hek))]
      simp
    · simp [hk, Ne.symm hk]

theorem find?_of_mem [DecidableEq κ] {m : GoMap κ ν} {k : κ} {v : ν} (h : (k, v) ∈ m.entries) :
    m.find? k = some v := by
  obtain ⟨entries, nodup⟩ := m
  simp only [find?]
  induction entries with
  | nil => simp at h
  | cons e l ih =>
    simp only [List.map_cons, List.nodup_cons, List.mem_map] at nodup
    rcases List.mem_cons.1 h with rfl | hl
    · simp
    · have hk : e.1 ≠ k := fun he => nodup.1 ⟨(k, v), hl, he.symm⟩
      simpa [hk] using ih nodup.2 hl

theorem mem_of_find? [DecidableEq κ] {m : GoMap κ ν} {k : κ} {v : ν} (h : m.find? k = some v) :
    (k, v) ∈ m.entries := by
  obtain ⟨e, he, rfl⟩ := Option.map_eq_some'.1 h
  obtain rfl : e.1 = k := by simpa using List.find?_some he
  exact List.mem_of_find?_eq_some he

/-- Listing the entries in another order finds the same values. -/
theorem find?_perm [DecidableEq κ] {m m' : GoMap κ ν} (h : m'.entries.Perm m.entries) (k : κ) :
    m'.find? k = m.find? k := by
  cases hk : m.find? k with
  | none => exact find?_eq_none.2 fun hk' => find?_eq_none.1 hk ((h.map Prod.fst).mem_iff.1 hk')
  | some v => exact find?_of_mem (h.mem_iff.2 (mem_of_find? hk))

end GoMap

/-- A Go `[]byte`: hashes, seeds and public keys. -/
abbrev Bytes := List UInt8

/-- The protobuf enum `block.Type`, an `int32`. -/
abbrev BlockType := Int

/-- Constants of packages outside this excerpt: `block.PeerBlock`,
`block.ReceiptBlock` and `core.MetachainShardId`. Every result holds for all of
their values. -/
structure Constants where
  peerBlock : BlockType
  receiptBlock : BlockType
  metachainShardId : UInt32
  deriving DecidableEq, Repr

structure MiniBlock where
  txHashes : List Bytes
  receiverShardID : UInt32
  senderShardID : UInt32
  type : BlockType
  reserved : Bytes
  deriving DecidableEq, Repr

/-- `block.MiniBlockHeader`; the data processor reads only its `Hash`. -/
structure MiniBlockHeader where
  hash : Bytes
  deriving DecidableEq, Repr

/-- `block.ShardData`, an entry of `MetaBlock.ShardInfo`; only `HeaderHash` is read. -/
structure ShardData where
  headerHash : Bytes
  deriving DecidableEq, Repr

/-- `startOfEpochBlock` is what `IsStartOfEpochBlock` answers; its body is
outside this excerpt. -/
structure MetaBlock where
  nonce : UInt64
  epoch : UInt32
  round : UInt64
  timeStamp : UInt64
  prevRandSeed : Bytes
  miniBlockHeaders : List MiniBlockHeader
  shardInfo : List ShardData
  startOfEpochBlock : Bool
  deriving DecidableEq, Repr

/-- `block.Header`, a shard block header. -/
structure ShardHeader where
  shardID : UInt32
  nonce : UInt64
  epoch : UInt32
  round : UInt64
  timeStamp : UInt64
  prevRandSeed : Bytes
  startOfEpochBlock : Bool
  deriving DecidableEq, Repr

/-- A `data.HeaderHandler`: one of its two block implementations. -/
inductive Header where
  | meta (m : MetaBlock)
  | shard (h : ShardHeader)
  deriving DecidableEq, Repr

namespace Header

def getShardID (k : Constants) : Header → UInt32
  | meta _ => k.metachainShardId
  | shard h => h.shardID

def getNonce : Header → UInt64
  | meta m => m.nonce
  | shard h => h.nonce

def getRound : Header → UInt64
  | meta m => m.round
  | shard h => h.round

def getEpoch : Header → UInt32
  | meta m => m.epoch
  | shard h => h.epoch

def getTimeStamp : Header → UInt64
  | meta m => m.timeStamp
  | shard h => h.timeStamp

def getPrevRandSeed : Header → Bytes
  | meta m => m.prevRandSeed
  | shard h => h.prevRandSeed

def isStartOfEpochBlock : Header → Bool
  | meta m => m.startOfEpochBlock
  | shard h => h.startOfEpochBlock

/-- The type assertion `hdr.(*block.MetaBlock)`; `none` is Go's nil. -/
def asMetaBlock : Header → Option MetaBlock
  | meta m => some m
  | shard _ => none

end Header

structure Body where
  miniBlocks : List MiniBlock
  deriving DecidableEq, Repr

/-- `storer2ElasticData.HeaderData`. Transactions go to the indexer untouched,
so each is kept as its marshalled bytes under its hash. -/
structure HeaderData where
  header : Header
  body : Body
  bodyTransactions : GoMap String Bytes
  deriving DecidableEq, Repr

/-- One replayed round: the metachain block and the shard headers it notarizes,
keyed by shard. -/
structure RoundPersistedData where
  metaBlockData : HeaderData
  shardHeaders : GoMap UInt32 (List HeaderData)
  deriving DecidableEq, Repr

end ChainIndexer.Storer2Elastic
