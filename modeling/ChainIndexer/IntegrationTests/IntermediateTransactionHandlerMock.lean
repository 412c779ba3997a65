import Mathlib.Data.List.Basic

/-! # The intermediate transaction handler mock

The mock keeps the transactions added while no add hook is set and drops them on
`Clean` and `CreateBlockStarted`. Go tells a nil slice from an empty one: over
any sequence of calls the list holds what was added since the last reset, and it
is nil exactly while nothing has made it otherwise.
-/
namespace ChainIndexer.IntegrationTests

/-- `ε` is `data.TransactionHandler`; `intermediateTransactions = none` is the
nil slice. The hooks are test closures outside this excerpt: the add hook's
answer is a parameter, and no hook touches the mock's list. -/
structure IntermediateTransactionHandlerMock (ε : Type) where
  addIntermediateTransactionsCalled : Option (List ε → Option String)
  intermediateTransactions : Option (List ε)

namespace IntermediateTransactionHandlerMock

variable {ε : Type}

/-- `append(s, txs...)`: with nothing to append the slice is returned as it is. -/
def goAppend (s : Option (List ε)) (txs : List ε) : Option (List ε) :=
  if txs.isEmpty then s else some (s.getD [] ++ txs)

def addIntermediateTransactions (ith : IntermediateTransactionHandlerMock ε) (txs : List ε) :
    IntermediateTransactionHandlerMock ε × Option String :=
  match ith.addIntermediateTransactionsCalled with
  | none => ({ ith with intermediateTransactions := goAppend ith.intermediateTransactions txs }, none)
  | some f => (ith, f txs)

def getIntermediateTransactions (ith : IntermediateTransactionHandlerMock ε) : Option (List ε) :=
  ith.intermediateTransactions

def clean (ith : IntermediateTransactionHandlerMock ε) : IntermediateTransactionHandlerMock ε :=
  { ith with intermediateTransactions := some [] }

/-- The hook `CreateBlockStartedCalled` runs after, on test code only. -/
def createBlockStarted (ith : IntermediateTransactionHandlerMock ε) : IntermediateTransactionHandlerMock ε :=
  if (ith.intermediateTransactions.getD []).length > 0 then { ith with intermediateTransactions := some [] }
  else ith

/-- A call on the mock's list; the other methods answer from their hooks or
with fixed defaults and leave it as it is. -/
inductive Op (ε : Type) where
  | addIntermediateTransactions (txs : List ε)
  | getIntermediateTransactions
  | clean
  | createBlockStarted
  deriving DecidableEq

def step (ith : IntermediateTransactionHandlerMock ε) : Op ε → IntermediateTransactionHandlerMock ε
  | .addIntermediateTransactions txs => (ith.addIntermediateTransactions txs).1
  | .getIntermediateTransactions => ith
  | .clean => ith.clean
  | .createBlockStarted => ith.createBlockStarted

def run (ith : IntermediateTransactionHandlerMock ε) (ops : List (Op ε)) : IntermediateTransactionHandlerMock ε :=
  ops.foldl step ith

@[simp] theorem run_append_singleton (ith : IntermediateTransactionHandlerMock ε) (ops : List (Op ε))
    (op : Op ε) : ith.run (ops ++ [op]) = (ith.run ops).step op := List.foldl_append _ _ _ _

@[simp] theorem addIntermediateTransactionsCalled_step (ith : IntermediateTransactionHandlerMock ε)
    (op : Op ε) : (ith.step op).addIntermediateTransactionsCalled = ith.addIntermediateTransactionsCalled := by
  cases op <;> simp only [step, addIntermediateTransactions, clean, createBlockStarted] <;> split <;> rfl

@[simp] theorem addIntermediateTransactionsCalled_run (ith : IntermediateTransactionHandlerMock ε)
    (ops : List (Op ε)) : (ith.run ops).addIntermediateTransactionsCalled = ith.addIntermediateTransactionsCalled := by
  induction ops using List.reverseRecOn with
  | nil => rfl
  | append_singleton ops op ih => simp [ih]

/-! ## The list over a run -/

def Op.isReset : Op ε → Bool
  | .clean | .createBlockStarted => true
  | _ => false

def Op.added : Op ε → List ε
  | .addIntermediateTransactions txs => txs
  | _ => []

/-- The calls after the last reset. -/
def sinceReset (ops : List (Op ε)) : List (Op ε) := (ops.reverse.takeWhile fun op => !op.isReset).reverse

@[simp] theorem sinceReset_append_singleton (ops : List (Op ε)) (op : Op ε) :
    sinceReset (ops ++ [op]) = if op.isReset then [] else sinceReset ops ++ [op] := by
  cases h : op.isReset <;> simp [sinceReset, h]

@[simp] theorem goAppend_getD (s : Option (List ε)) (txs : List ε) :
    (goAppend s txs).getD [] = s.getD [] ++ txs := by
  cases h : txs.isEmpty <;> simp_all [goAppend]

theorem goAppend_eq_none {s : Option (List ε)} {txs : List ε} : goAppend s txs = none ↔ s = none ∧ txs = [] := by
  cases h : txs.isEmpty <;> simp_all [goAppend]

/-- What one call leaves in the list: a reset empties it, and an add without a
hook appends its transactions. -/
theorem step_getD (ith : IntermediateTransactionHandlerMock ε) (op : Op ε) :
    (ith.step op).intermediateTransactions.getD [] =
      (if op.isReset then [] else ith.intermediateTransactions.getD []) ++
        if ith.addIntermediateTransactionsCalled.isNone then op.added else [] := by
  cases op with
  | addIntermediateTransactions txs =>
    cases hc : ith.addIntermediateTransactionsCalled <;>
      simp [step, addIntermediateTransactions, hc, Op.isReset, Op.added]
  | getIntermediateTransactions => simp [step, Op.isReset, Op.added]
  | clean => simp [step, clean, Op.isReset, Op.added]
  | createBlockStarted =>
    simp only [step, createBlockStarted, Op.isReset, Op.added, if_true, ite_self, List.append_nil]
    split
    · rfl
    · exact List.eq_nil_of_length_eq_zero (by omega)

/-- When the list is nil after one call: it was nil, the call was no `Clean`,
and it appended nothing. -/
theorem step_eq_none (ith : IntermediateTransactionHandlerMock ε) (op : Op ε) :
    (ith.step op).intermediateTransactions = none ↔ ith.intermediateTransactions = none ∧ op ≠ .clean ∧
      (ith.addIntermediateTransactionsCalled = none → op.added = []) := by
  cases op with
  | addIntermediateTransactions txs =>
    cases hc : ith.addIntermediateTransactionsCalled <;>
      simp [step, addIntermediateTransactions, hc, Op.added, goAppend_eq_none]
  | getIntermediateTransactions => simp [step, Op.added]
  | clean => simp [step, clean]
  | createBlockStarted =>
    simp only [step, createBlockStarted, Op.added]
    split
    · rename_i h
      cases hs : ith.intermediateTransactions <;> simp_all
    · simp

/-- Over any sequence of calls, the list holds the transactions added since the
last `Clean` or `CreateBlockStarted` (all of them, after what it started with,
if there was none), unless an add hook is set, which keeps them out. It is nil
exactly when it started nil, no `Clean` was called and nothing was appended. -/
theorem run_intermediateTransactions (ith : IntermediateTransactionHandlerMock ε) (ops : List (Op ε)) :
    ((ith.run ops).getIntermediateTransactions.getD [] =
      (if ops.any Op.isReset then [] else ith.intermediateTransactions.getD []) ++
        if ith.addIntermediateTransactionsCalled.isNone then (sinceReset ops).flatMap Op.added else []) ∧
    ((ith.run ops).getIntermediateTransactions = none ↔ ith.intermediateTransactions = none ∧
      ∀ op ∈ ops, op ≠ .clean ∧ (ith.addIntermediateTransactionsCalled = none → op.added = [])) := by
  induction ops using List.reverseRecOn with
  | nil => simp [run, getIntermediateTransactions, sinceReset]
  | append_singleton ops op ih =>
    obtain ⟨ihc, ihn⟩ := ih
    simp only [getIntermediateTransactions] at ihc ihn ⊢
    refine ⟨?_, ?_⟩
    · rw [run_append_singleton, step_getD, ihc, addIntermediateTransactionsCalled_run]
      cases op <;> cases ith.addIntermediateTransactionsCalled <;> simp [Op.isReset, Op.added]
    · rw [run_append_singleton, step_eq_none, ihn, addIntermediateTransactionsCalled_run]
      simp only [List.mem_append, List.mem_singleton, or_imp, forall_and, forall_eq, and_assoc, and_left_comm]

end IntermediateTransactionHandlerMock

end ChainIndexer.IntegrationTests
