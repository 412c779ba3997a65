import ChainIndexer.Storage.StorerMock

/-! # The chain storer mock

`ChainStorerMock` holds eight storers and `GetStorer` routes each unit type to
one of them, every unit type above `ShardHdrNonceHashDataUnit` to the metachain
header-nonce storer. Its storers are outside this excerpt, so the results hold
for every storer that reads its own writes, as the update package's mock does.
-/
namespace ChainIndexer.Storage

open Storer2Elastic (GoMap Bytes)

/-- The `dataRetriever.UnitType` constants `GetStorer` compares with, outside
this excerpt. They are distinct keys of one map literal, and
`ShardHdrNonceHashDataUnit` is the last: the units above it are one per shard. -/
structure UnitTypes where
  miniBlockUnit : UInt8
  transactionUnit : UInt8
  rewardTransactionUnit : UInt8
  unsignedTransactionUnit : UInt8
  txLogsUnit : UInt8
  metaHdrNonceHashDataUnit : UInt8
  shardHdrNonceHashDataUnit : UInt8
  distinct : [miniBlockUnit, transactionUnit, rewardTransactionUnit, unsignedTransactionUnit, txLogsUnit,
    metaHdrNonceHashDataUnit, shardHdrNonceHashDataUnit].Nodup
  below : ∀ t ∈ [miniBlockUnit, transactionUnit, rewardTransactionUnit, unsignedTransactionUnit, txLogsUnit,
    metaHdrNonceHashDataUnit], t < shardHdrNonceHashDataUnit

inductive StorerField where
  | miniblocks
  | transactions
  | rewards
  | unsigned
  | logs
  | metaHdrNonce
  | shardHdrNonce
  | others
  deriving DecidableEq, Repr

/-- The two methods of `storage.Storer` that the chain storer calls. -/
structure Storer (τ : Type) where
  get : τ → Bytes → Except String Bytes
  put : τ → Bytes → Bytes → τ × Option String

/-- A storer reads its own writes, and a write changes no other key. -/
structure Storer.Lawful {τ : Type} (s : Storer τ) : Prop where
  get_put_self : ∀ st key data, s.get (s.put st key data).1 key = .ok data
  get_put_ne : ∀ st key key' data, key' ≠ key → s.get (s.put st key data).1 key' = s.get st key'

/-! ## The update package's mock as a storer -/

def storerMock : Storer StorerMock := ⟨StorerMock.get, StorerMock.put⟩

theorem storerMock_lawful : storerMock.Lawful where
  get_put_self st key data := by
    simp [storerMock, StorerMock.get_eq, StorerMock.store, StorerMock.put, GoMap.find?_insert]
  get_put_ne st key key' data h := by
    simp [storerMock, StorerMock.get_eq, StorerMock.store, StorerMock.put, GoMap.find?_insert, h]

structure ChainStorerMock (τ : Type) where
  miniblocks : τ
  transactions : τ
  rewards : τ
  unsigned : τ
  logs : τ
  metaHdrNonce : τ
  shardHdrNonce : τ
  others : τ

namespace ChainStorerMock

variable {τ : Type}

def storer (sm : ChainStorerMock τ) : StorerField → τ
  | .miniblocks => sm.miniblocks
  | .transactions => sm.transactions
  | .rewards => sm.rewards
  | .unsigned => sm.unsigned
  | .logs => sm.logs
  | .metaHdrNonce => sm.metaHdrNonce
  | .shardHdrNonce => sm.shardHdrNonce
  | .others => sm.others

def setStorer (sm : ChainStorerMock τ) (st : τ) : StorerField → ChainStorerMock τ
  | .miniblocks => { sm with miniblocks := st }
  | .transactions => { sm with transactions := st }
  | .rewards => { sm with rewards := st }
  | .unsigned => { sm with unsigned := st }
  | .logs => { sm with logs := st }
  | .metaHdrNonce => { sm with metaHdrNonce := st }
  | .shardHdrNonce => { sm with shardHdrNonce := st }
  | .others => { sm with others := st }

@[simp] theorem storer_setStorer (sm : ChainStorerMock τ) (st : τ) (f f' : StorerField) :
    (sm.setStorer st f).storer f' = if f' = f then st else sm.storer f' := by
  cases f <;> cases f' <;> rfl

variable (u : UnitTypes) (s : Storer τ)

def getStorer (unitType : UInt8) : StorerField :=
  if unitType = u.miniBlockUnit then .miniblocks
  else if unitType = u.transactionUnit then .transactions
  else if unitType = u.rewardTransactionUnit then .rewards
  else if unitType = u.unsignedTransactionUnit then .unsigned
  else if unitType = u.txLogsUnit then .logs
  else if unitType = u.metaHdrNonceHashDataUnit then .metaHdrNonce
  else if unitType = u.shardHdrNonceHashDataUnit then .shardHdrNonce
  -- According to: dataRetriever/interface.go
  else if unitType > u.shardHdrNonceHashDataUnit then .metaHdrNonce
  else .others

def get (sm : ChainStorerMock τ) (unitType : UInt8) (key : Bytes) : Except String Bytes :=
  s.get (sm.storer (getStorer u unitType)) key

def put (sm : ChainStorerMock τ) (unitType : UInt8) (key value : Bytes) : ChainStorerMock τ × Option String :=
  let field := getStorer u unitType
  let (st, err) := s.put (sm.storer field) key value
  (sm.setStorer st field, err)

def getAllLoop (storer : τ) : List Bytes → GoMap Bytes Bytes → Except String (GoMap Bytes Bytes)
  | [], data => .ok data
  | key :: keys, data =>
    match s.get storer key with
    | .error err => .error err
    | .ok buff => getAllLoop storer keys (data.insert key buff)

def getAll (sm : ChainStorerMock τ) (unitType : UInt8) (keys : List Bytes) : Except String (GoMap Bytes Bytes) :=
  getAllLoop s (sm.storer (getStorer u unitType)) keys .empty

/-- The map literal of `GetAllStorers`, as pairs in its order. -/
def getAllStorers : List (UInt8 × StorerField) :=
  [(u.miniBlockUnit, .miniblocks), (u.transactionUnit, .transactions), (u.rewardTransactionUnit, .rewards),
    (u.unsignedTransactionUnit, .unsigned), (u.txLogsUnit, .logs),
    (u.metaHdrNonceHashDataUnit, .metaHdrNonce), (u.shardHdrNonceHashDataUnit, .shardHdrNonce)]

/-! ## Routing -/

theorem getAllStorers_getStorer : ∀ p ∈ getAllStorers u, getStorer u p.1 = p.2 := by
  obtain ⟨mb, tx, rw, us, lg, mh, sh, hd, _⟩ := u
  simp only [List.nodup_cons, List.mem_cons, List.mem_singleton, not_or] at hd
  simp [getAllStorers, getStorer, hd, Ne.symm, eq_comm]

/-- Every unit type above `ShardHdrNonceHashDataUnit` shares the storer of
`MetaHdrNonceHashDataUnit`. -/
theorem getStorer_above {unitType : UInt8} (h : u.shardHdrNonceHashDataUnit < unitType) :
    getStorer u unitType = .metaHdrNonce ∧ getStorer u u.metaHdrNonceHashDataUnit = .metaHdrNonce := by
  obtain ⟨mb, tx, rw, us, lg, mh, sh, hd, hb⟩ := u
  have hne : ∀ t ∈ [mb, tx, rw, us, lg, mh], unitType ≠ t := fun t ht he =>
    Nat.lt_irrefl _ (UInt8.lt_trans h (he ▸ hb t ht))
  have hsh : unitType ≠ sh := fun he => Nat.lt_irrefl _ (he ▸ h)
  simp only [List.mem_cons, List.mem_singleton, forall_eq_or_imp, forall_eq] at hne
  simp only [List.nodup_cons, List.mem_cons, List.mem_singleton, not_or] at hd
  exact ⟨by simp [getStorer, hne, hsh, h], by simp [getStorer, hd, eq_comm]⟩

/-! ## Reads and writes -/

variable {s}

theorem get_put (hs : s.Lawful) (sm : ChainStorerMock τ) (unitType unitType' : UInt8) (key key' value : Bytes) :
    get u s (put u s sm unitType key value).1 unitType' key' =
      if getStorer u unitType' = getStorer u unitType ∧ key' = key then .ok value
      else get u s sm unitType' key' := by
  simp only [get, put, storer_setStorer]
  by_cases hf : getStorer u unitType' = getStorer u unitType
  · by_cases hk : key' = key
    · simp [hf, hk, hs.get_put_self]
    · simp [hf, hk, hs.get_put_ne _ _ _ _ hk]
  · simp [hf]

/-! ## Runs of writes -/

variable (s)

def putRun (sm : ChainStorerMock τ) (puts : List (UInt8 × Bytes × Bytes)) : ChainStorerMock τ :=
  puts.foldl (fun sm p => (put u s sm p.1 p.2.1 p.2.2).1) sm

/-- The value of the last `Put` of `key` to a unit routed to `field`. -/
def lastWrite (field : StorerField) (key : Bytes) : List (UInt8 × Bytes × Bytes) → Option Bytes
  | [] => none
  | (unitType, k, v) :: puts =>
    (lastWrite field key puts).or (if getStorer u unitType = field ∧ k = key then some v else none)

variable {s}

theorem getAllLoop_ok {storer : τ} {keys : List Bytes} {data data' : GoMap Bytes Bytes}
    (h : getAllLoop s storer keys data = .ok data') (k : Bytes) :
    (k ∈ keys → ∃ v, s.get storer k = .ok v ∧ data'.find? k = some v) ∧
      (k ∉ keys → data'.find? k = data.find? k) := by
  induction keys generalizing data with
  | nil =>
    cases h
    exact ⟨fun h => absurd h (List.not_mem_nil k), fun _ => rfl⟩
  | cons key keys ih =>
    simp only [getAllLoop] at h
    split at h
    · cases h
    · rename_i buff hget
      obtain ⟨hin, hout⟩ := ih h
      by_cases hk : k ∈ keys
      · exact ⟨fun _ => hin hk, fun h' => absurd (List.mem_cons_of_mem _ hk) h'⟩
      · by_cases hkey : k = key
        · subst hkey
          exact ⟨fun _ => ⟨buff, hget, by rw [hout hk, GoMap.find?_insert, if_pos rfl]⟩,
            fun h' => absurd (List.mem_cons_self _ _) h'⟩
        · refine ⟨fun h' => absurd h' (by simp [hk, hkey]), fun _ => ?_⟩
          rw [hout hk, GoMap.find?_insert, if_neg hkey]

theorem getAllLoop_error {storer : τ} {keys : List Bytes} {data : GoMap Bytes Bytes} {err : String}
    (h : getAllLoop s storer keys data = .error err) :
    ∃ pre k post, keys = pre ++ k :: post ∧ (∀ k' ∈ pre, ∃ v, s.get storer k' = .ok v) ∧
      s.get storer k = .error err := by
  induction keys generalizing data with
  | nil => cases h
  | cons key keys ih =>
    simp only [getAllLoop] at h
    split at h
    · rename_i err' hget
      cases h
      exact ⟨[], key, keys, rfl, by simp, hget⟩
    · rename_i buff hget
      obtain ⟨pre, k, post, rfl, hpre, hk⟩ := ih h
      exact ⟨key :: pre, k, post, rfl, by simpa using ⟨⟨buff, hget⟩, hpre⟩, hk⟩

/-- `GetAll` succeeds exactly when every key's `Get` does, mapping each key to
its value and nothing else; otherwise it fails with the error of the first key
whose `Get` fails. -/
theorem getAll_spec (sm : ChainStorerMock τ) (unitType : UInt8) (keys : List Bytes) :
    (∀ data, getAll u s sm unitType keys = .ok data → ∀ k,
      (k ∈ keys → ∃ v, get u s sm unitType k = .ok v ∧ data.find? k = some v) ∧
        (k ∉ keys → data.find? k = none)) ∧
    (∀ err, getAll u s sm unitType keys = .error err →
      ∃ pre k post, keys = pre ++ k :: post ∧ (∀ k' ∈ pre, ∃ v, get u s sm unitType k' = .ok v) ∧
        get u s sm unitType k = .error err) :=
  ⟨fun _ h k => getAllLoop_ok h k, fun _ h => getAllLoop_error h⟩

end ChainStorerMock

end ChainIndexer.Storage
