import ChainIndexer.Storer2Elastic.Block
import ChainIndexer.Storage.Base64

/-! # The storer mock

`StorerMock` of the update package keeps a Go map behind a mutex, so each method
is one atomic step on the map. Over any sequence of calls it is the key-value
store that `Put` updates pointwise, and `Get` names a missing key in base64.
-/
namespace ChainIndexer.Storage

open Storer2Elastic (GoMap Bytes)

/-- A Go string converted from a byte slice holds the same bytes, so the keys
stay `Bytes`. -/
structure StorerMock where
  data : GoMap Bytes Bytes

def newStorerMock : StorerMock := ⟨.empty⟩

/-- `fmt.Errorf("key: %s not found", base64.StdEncoding.EncodeToString(key))`. -/
def keyNotFound (key : Bytes) : String := "key: " ++ Base64.encodeToString key ++ " not found"

namespace StorerMock

def put (sm : StorerMock) (key data : Bytes) : StorerMock × Option String := (⟨sm.data.insert key data⟩, none)

def get (sm : StorerMock) (key : Bytes) : Except String Bytes :=
  match sm.data.find? key with
  | some val => .ok val
  | none => .error (keyNotFound key)

def getFromEpoch (sm : StorerMock) (key : Bytes) (_ : UInt32) : Except String Bytes := sm.get key

def has (_ : StorerMock) (_ : Bytes) : Option String := some "not implemented"

def hasInEpoch (sm : StorerMock) (key : Bytes) (_ : UInt32) : Option String := sm.has key

def remove (_ : StorerMock) (_ : Bytes) : Option String := some "not implemented"

def searchFirst (_ : StorerMock) (_ : Bytes) : Except String Bytes := .error "not implemented"

def rangeLoop (handler : Bytes → Bytes → Bool) : List (Bytes × Bytes) → List (Bytes × Bytes)
  | [] => []
  | (k, v) :: rest => (k, v) :: if handler k v then rangeLoop handler rest else []

/-- `RangeKeys` by the calls it makes of its handler; a nil handler is never
called. -/
def rangeKeys (sm : StorerMock) (handler : Option (Bytes → Bytes → Bool)) : List (Bytes × Bytes) :=
  match handler with
  | none => []
  | some handler => rangeLoop handler sm.data.entries

end StorerMock

/-- A call on the mock. `Close`, `ClearCache` and `DestroyUnit` do nothing and
return nil. -/
inductive StorerOp where
  | getFromEpoch (key : Bytes) (epoch : UInt32)
  | hasInEpoch (key : Bytes) (epoch : UInt32)
  | put (key data : Bytes)
  | get (key : Bytes)
  | searchFirst (key : Bytes)
  | close
  | has (key : Bytes)
  | remove (key : Bytes)
  | clearCache
  | destroyUnit
  | rangeKeys (handler : Option (Bytes → Bytes → Bool))

namespace StorerMock

def step (sm : StorerMock) : StorerOp → StorerMock
  | .put key data => (sm.put key data).1
  | _ => sm

def run (sm : StorerMock) (ops : List StorerOp) : StorerMock := ops.foldl step sm

end StorerMock

/-! ## The store the mock implements -/

abbrev Store := Bytes → Option Bytes

def Store.apply (s : Store) : StorerOp → Store
  | .put key data => Function.update s key (some data)
  | _ => s

def lastPut (key : Bytes) : List StorerOp → Option Bytes
  | [] => none
  | .put k data :: ops => (lastPut key ops).or (if k = key then some data else none)
  | _ :: ops => lastPut key ops

theorem foldl_apply (key : Bytes) (ops : List StorerOp) (s : Store) :
    ops.foldl Store.apply s key = (lastPut key ops).or (s key) := by
  induction ops generalizing s with
  | nil => rfl
  | cons op ops ih =>
    cases op <;> simp only [List.foldl_cons, Store.apply, lastPut, ih]
    rename_i k data
    by_cases hk : key = k
    · subst hk
      cases lastPut key ops <;> simp
    · simp [hk, Ne.symm hk]

namespace StorerMock

def store (sm : StorerMock) : Store := sm.data.find?

@[simp] theorem store_newStorerMock : newStorerMock.store = fun _ => none := rfl

theorem store_step (sm : StorerMock) (op : StorerOp) : (sm.step op).store = sm.store.apply op := by
  cases op <;> try rfl
  funext k
  simp [step, put, store, Store.apply, GoMap.find?_insert, Function.update_apply]

theorem store_run (sm : StorerMock) (ops : List StorerOp) :
    (sm.run ops).store = ops.foldl Store.apply sm.store := by
  induction ops generalizing sm with
  | nil => rfl
  | cons op ops ih => rw [run, List.foldl_cons, ← run, ih, store_step]; rfl

theorem get_eq (sm : StorerMock) (key : Bytes) :
    sm.get key = match sm.store key with
      | some v => .ok v
      | none => .error (keyNotFound key) := rfl

/-- From a new mock, over any sequence of calls, `Get` answers the data of the
last `Put` of its key, and an error naming the key when there was none. -/
theorem get_run_newStorerMock (ops : List StorerOp) (key : Bytes) :
    (newStorerMock.run ops).get key = match lastPut key ops with
      | some data => .ok data
      | none => .error (keyNotFound key) := by
  rw [get_eq, store_run, foldl_apply, store_newStorerMock]
  cases lastPut key ops <;> rfl

theorem rangeLoop_eq (handler : Bytes → Bytes → Bool) (l : List (Bytes × Bytes)) :
    rangeLoop handler l = l.take (l.findIdx (fun p => !handler p.1 p.2) + 1) := by
  induction l with
  | nil => rfl
  | cons p l ih =>
    obtain ⟨k, v⟩ := p
    cases h : handler k v <;> simp [rangeLoop, h, ih, List.findIdx_cons]

/-- Each pair given to the handler is a key and the value `Get` answers for it,
and no key is given twice. -/
theorem rangeKeys_get (sm : StorerMock) (handler : Option (Bytes → Bytes → Bool)) :
    (∀ p ∈ sm.rangeKeys handler, sm.get p.1 = .ok p.2) ∧ ((sm.rangeKeys handler).map Prod.fst).Nodup := by
  have hsub : (sm.rangeKeys handler).Sublist sm.data.entries := by
    cases handler with
    | none => exact List.nil_sublist _
    | some handler =>
      show (rangeLoop handler sm.data.entries).Sublist _
      rw [rangeLoop_eq]
      exact List.take_sublist _ _
  refine ⟨fun p hp => ?_, sm.data.nodup.sublist (hsub.map _)⟩
  rw [get, GoMap.find?_of_mem (hsub.subset hp)]

end StorerMock

theorem keyNotFound_injective : Function.Injective keyNotFound := fun a b h => by
  have h' : ("key: ".data ++ Base64.encode a) ++ " not found".data =
      ("key: ".data ++ Base64.encode b) ++ " not found".data := congrArg String.data h
  exact Base64.encode_injective (List.append_cancel_left (List.append_cancel_right h'))

end ChainIndexer.Storage
