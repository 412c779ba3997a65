import ChainIndexer.Storer2Elastic.Block

/-! # One miniblock per hash

`uniqueMiniBlocksSlice` walks its input once, remembering the hashes it kept in
a `map[string]bool`, here the list of its keys. `dedupFirst` says what the loop
is for: the first miniblock of each hash, in input order, with those whose hash
fails dropped. The two agree on every input.
-/
namespace ChainIndexer.Storer2Elastic

variable (calculateHash : MiniBlock → Option Bytes)

/-- The locals `keys` and `list` of `uniqueMiniBlocksSlice`. -/
structure UniqueLoop where
  keys : List Bytes
  list : List MiniBlock

/-- One iteration: a hash error or a hash already in `keys` skips the entry. -/
def uniqueStep (s : UniqueLoop) (entry : MiniBlock) : UniqueLoop :=
  match calculateHash entry with
  | none => s
  | some hash => if hash ∈ s.keys then s else ⟨hash :: s.keys, s.list ++ [entry]⟩

def uniqueMiniBlocksSlice (mbs : List MiniBlock) : List MiniBlock :=
  (mbs.foldl (uniqueStep calculateHash) ⟨[], []⟩).list

/-- The first miniblock of each hash, in input order; a failed hash drops its
miniblock. -/
def dedupFirst : List MiniBlock → List MiniBlock
  | [] => []
  | mb :: rest =>
    match calculateHash mb with
    | none => dedupFirst rest
    | some x => mb :: dedupFirst (rest.filter (fun m => calculateHash m ≠ some x))
termination_by l => l.length
decreasing_by
  all_goals simp_wf
  all_goals first | omega | exact Nat.lt_succ_of_le (List.length_filter_le _ _)

variable {calculateHash}

@[simp] theorem dedupFirst_nil : dedupFirst calculateHash [] = [] := by
  simp [dedupFirst]

theorem dedupFirst_cons_none {mb : MiniBlock} (rest : List MiniBlock)
    (h : calculateHash mb = none) :
    dedupFirst calculateHash (mb :: rest) = dedupFirst calculateHash rest := by
  simp [dedupFirst, h]

theorem dedupFirst_cons_some {mb : MiniBlock} (rest : List MiniBlock) {x : Bytes}
    (h : calculateHash mb = some x) :
    dedupFirst calculateHash (mb :: rest) =
      mb :: dedupFirst calculateHash (rest.filter (fun m => calculateHash m ≠ some x)) := by
  simp [dedupFirst, h]

/-! ## What `dedupFirst` keeps -/

theorem dedupFirst_sublist (l : List MiniBlock) : (dedupFirst calculateHash l).Sublist l := by
  induction l using dedupFirst.induct calculateHash with
  | case1 => simp
  | case2 mb rest h ih => rw [dedupFirst_cons_none _ h]; exact ih.cons mb
  | case3 mb rest x h ih =>
    rw [dedupFirst_cons_some _ h]
    exact (ih.trans (List.filter_sublist _)).cons₂ mb

/-- A miniblock kept after the one of hash `x` does not have hash `x`. -/
private theorem hash_ne_of_mem_dedupFirst_filter {rest : List MiniBlock} {x : Bytes}
    {b : MiniBlock}
    (hb : b ∈ dedupFirst calculateHash (rest.filter (fun m => calculateHash m ≠ some x))) :
    calculateHash b ≠ some x := by
  simpa using List.of_mem_filter ((dedupFirst_sublist _).subset hb)

theorem dedupFirst_pairwise (l : List MiniBlock) :
    (dedupFirst calculateHash l).Pairwise (fun a b => calculateHash a ≠ calculateHash b) := by
  induction l using dedupFirst.induct calculateHash with
  | case1 => simp
  | case2 mb rest h ih => rwa [dedupFirst_cons_none _ h]
  | case3 mb rest x h ih =>
    rw [dedupFirst_cons_some _ h]
    exact ih.cons fun b hb => h ▸ (hash_ne_of_mem_dedupFirst_filter hb).symm

/-- Every hash of an input miniblock is the hash of exactly one kept miniblock. -/
theorem dedupFirst_countP {l : List MiniBlock} {mb : MiniBlock} {x : Bytes} (hmem : mb ∈ l)
    (hx : calculateHash mb = some x) :
    (dedupFirst calculateHash l).countP (fun m => calculateHash m = some x) = 1 := by
  induction l using dedupFirst.induct calculateHash with
  | case1 => simp at hmem
  | case2 m rest h ih =>
    rw [dedupFirst_cons_none _ h]
    exact ih (List.mem_of_ne_of_mem (by rintro rfl; simp [h] at hx) hmem)
  | case3 m rest y h ih =>
    rw [dedupFirst_cons_some _ h, List.countP_cons]
    by_cases hxy : y = x
    · subst hxy
      rw [List.countP_eq_zero.2 fun b hb => by simpa using hash_ne_of_mem_dedupFirst_filter hb]
      simp [h]
    · have hne : mb ≠ m := by rintro rfl; exact hxy (Option.some.inj (h.symm.trans hx))
      rw [ih (List.mem_filter.2 ⟨List.mem_of_ne_of_mem hne hmem, by simp [hx, Ne.symm hxy]⟩)]
      simp [h, hxy]

/-! ## The loop computes `dedupFirst` -/

variable (calculateHash) in
/-- A miniblock whose hash the loop has not kept yet: its hash fails or is not
among `keys`. -/
def unseen (keys : List Bytes) (mb : MiniBlock) : Bool := (calculateHash mb).all (· ∉ keys)

theorem filter_unseen_cons (l : List MiniBlock) (keys : List Bytes) (x : Bytes) :
    (l.filter (unseen calculateHash keys)).filter (fun m => calculateHash m ≠ some x) =
      l.filter (unseen calculateHash (x :: keys)) := by
  rw [List.filter_filter]
  congr 1
  funext m
  cases h : calculateHash m <;> simp [unseen, h, and_comm, eq_comm]

/-- The loop invariant: what is left of the input is deduplicated after
dropping every miniblock whose hash is already a key. -/
theorem foldl_uniqueStep (l : List MiniBlock) (s : UniqueLoop) :
    (l.foldl (uniqueStep calculateHash) s).list =
      s.list ++ dedupFirst calculateHash (l.filter (unseen calculateHash s.keys)) := by
  induction l generalizing s with
  | nil => simp
  | cons mb rest ih =>
    rw [List.foldl_cons, ih]
    cases hmb : calculateHash mb with
    | none =>
      rw [List.filter_cons_of_pos (by simp [unseen, hmb]), dedupFirst_cons_none _ hmb]
      simp [uniqueStep, hmb]
    | some x =>
      by_cases hx : x ∈ s.keys
      · rw [List.filter_cons_of_neg (by simp [unseen, hmb, hx])]
        simp [uniqueStep, hmb, hx]
      · rw [List.filter_cons_of_pos (by simp [unseen, hmb, hx]), dedupFirst_cons_some _ hmb,
          filter_unseen_cons]
        simp [uniqueStep, hmb, hx]

/-- `uniqueMiniBlocksSlice` keeps exactly the first miniblock of each hash. -/
theorem uniqueMiniBlocksSlice_eq_dedupFirst (mbs : List MiniBlock) :
    uniqueMiniBlocksSlice calculateHash mbs = dedupFirst calculateHash mbs := by
  have hall : mbs.filter (unseen calculateHash []) = mbs :=
    List.filter_eq_self.2 fun mb _ => by cases h : calculateHash mb <;> simp [unseen, h]
  simp [uniqueMiniBlocksSlice, foldl_uniqueStep, hall]

end ChainIndexer.Storer2Elastic
