import BuiltinActors.Runtime.Util

/-! # Batch returns: `codes`, `of` and `stack`

A `BatchReturn` records a batch sparsely: how many items succeeded, and the
index and code of each failure. `codes` spells it out item by item, `of`
builds it from the items' codes, and `stack` composes the batch returns of
successive stages, each stage run on the items that passed the stages before.

A sparse record means what its codes say when its failures are sorted by
index, lie within the batch and are failures (`WellFormed`): its successes
are then the items whose code is OK, and a stack of such records lays each
stage's codes over the items still OK before it (`overlay`). -/

namespace BuiltinActors

namespace ExitCode

def ok : ExitCode := ⟨0⟩

/-- `ExitCode::is_success`. -/
def isSuccess (c : ExitCode) : Bool := c.value == 0

theorem isSuccess_iff (c : ExitCode) : c.isSuccess = true ↔ c = ok := by
  cases c
  simp [isSuccess, ok]

end ExitCode

namespace BatchReturnGen

/-- `add`: a success, or a failure at the next index. -/
def add (g : BatchReturnGen) (code : ExitCode) : BatchReturnGen :=
  if code.isSuccess then g.addSuccess else g.addFail code

end BatchReturnGen

namespace BatchReturn

/-- `BatchReturn::of`: the batch return of the items' codes. -/
def «of» (codes : List ExitCode) : BatchReturn :=
  (codes.foldl (fun g code => g.add code) (BatchReturnGen.new codes.length)).generate

/-- One failure of `codes`' loop: OK up to its index, then its code. -/
def codesStep (ret : List ExitCode) (fail : FailCode) : List ExitCode :=
  ret ++ List.replicate (fail.idx - ret.length) ExitCode.ok ++ [fail.code]

/-- `codes`: the exit code of each item, successes included. -/
def codes (b : BatchReturn) : List ExitCode :=
  let ret := b.failCodes.foldl codesStep []
  ret ++ List.replicate (b.size - ret.length) ExitCode.ok

/-! ## `stack` -/

/-- The `while base_fail.next_if(..)` loop: passes the base's failures at or
below the next failure's index, moved on by the failures passed so far. -/
def skipFails : List FailCode → Nat → Nat → List FailCode × Nat
  | [], offset, _ => ([], offset)
  | f :: fs, offset, idx =>
    if f.idx ≤ idx + offset then skipFails fs (offset + 1) idx else (f :: fs, offset)

/-- The next batch's failures at the base's indices (`stack`'s `map`): the
base's failures left and the offset carry from one failure to the next. -/
def stackFails : List FailCode → Nat → List FailCode → List FailCode
  | _, _, [] => []
  | baseFail, offset, nxtFail :: rest =>
    let skipped := skipFails baseFail offset nxtFail.idx
    ⟨nxtFail.idx + skipped.2, nxtFail.code⟩ :: stackFails skipped.1 skipped.2 rest

/-- The panic of a failed `assert_eq!`, with the message after its first line. -/
def assertEqFailed (left right : Nat) (msg : String) : ActorError :=
  .panicked ("assertion `left == right` failed" ++ msg ++ "\n  left: " ++ toString left ++
    "\n right: " ++ toString right)

/-- One stage of `stack`: the next batch, indexed against the base's
successes, moved to the base's indices and merged in index order. -/
def stackStep (base nxt : BatchReturn) : Except ActorError BatchReturn :=
  if base.successCount ≠ nxt.size then
    .error (assertEqFailed base.successCount nxt.size (": can't stack batch of " ++
      toString nxt.size ++ " on batch with " ++ toString base.successCount ++ " successes"))
  else
    .ok ⟨nxt.successCount,
      (base.failCodes ++ stackFails base.failCodes 0 nxt.failCodes).mergeSort
        fun a b => a.idx ≤ b.idx⟩

/-- `stack`: the batch return of a sequence of batch returns, each applied to
the previous one's successful items. -/
def stack : List BatchReturn → Except ActorError BatchReturn
  | [] => .ok empty
  | first :: rest => do
    let base ← rest.foldlM stackStep first
    if base.size ≠ first.size then throw (assertEqFailed base.size first.size "")
    let last := (first :: rest).getLast (List.cons_ne_nil first rest)
    if base.successCount ≠ last.successCount then
      throw (assertEqFailed base.successCount last.successCount "")
    return base

/-! ## What a batch return means -/

/-- The code of the item at an index: its failure's, or OK. -/
def codeAt (fails : List FailCode) (i : Nat) : ExitCode :=
  ((fails.find? fun f => f.idx = i).map FailCode.code).getD ExitCode.ok

/-- Failures sorted by index, within the batch, and failing. -/
structure WellFormed (b : BatchReturn) : Prop where
  sorted : b.failCodes.Pairwise fun f g => f.idx < g.idx
  lt_size : ∀ f ∈ b.failCodes, f.idx < b.size
  failing : ∀ f ∈ b.failCodes, f.code ≠ ExitCode.ok

instance (b : BatchReturn) : Decidable b.WellFormed :=
  decidable_of_iff ((b.failCodes.Pairwise fun f g => f.idx < g.idx) ∧
      (∀ f ∈ b.failCodes, f.idx < b.size) ∧ ∀ f ∈ b.failCodes, f.code ≠ ExitCode.ok)
    ⟨fun ⟨hs, hl, hf⟩ => ⟨hs, hl, hf⟩, fun hb => ⟨hb.sorted, hb.lt_size, hb.failing⟩⟩

/-- The items whose code is OK, in order. -/
def okItems {α : Type} (items : List α) (codes : List ExitCode) : List α :=
  ((items.zip codes).filter fun p => p.2 = ExitCode.ok).map Prod.fst

/-- A stage's codes laid over the items still OK: each OK code of `codes`, in
order, replaced by the stage's next code. -/
def overlay : List ExitCode → List ExitCode → List ExitCode
  | [], _ => []
  | c :: cs, stage =>
    if c = ExitCode.ok then stage.headD ExitCode.ok :: overlay cs stage.tail
    else c :: overlay cs stage

/-! ### The code at an index -/

@[simp] theorem codeAt_nil (i : Nat) : codeAt [] i = ExitCode.ok := rfl

/-- A failure at the index is found. -/
theorem exists_find?_idx {l : List FailCode} {f : FailCode} {i : Nat} (hf : f ∈ l)
    (hi : f.idx = i) : ∃ g, l.find? (fun f => f.idx = i) = some g := by
  have hsome : (l.find? fun f => decide (f.idx = i)).isSome :=
    List.find?_isSome.mpr ⟨f, hf, by simp [hi]⟩
  exact Option.isSome_iff_exists.mp hsome

theorem codeAt_cons (f : FailCode) (fs : List FailCode) (i : Nat) :
    codeAt (f :: fs) i = if f.idx = i then f.code else codeAt fs i := by
  by_cases h : f.idx = i <;> simp [codeAt, h]

theorem codeAt_cons_of_ne {f : FailCode} (fs : List FailCode) {i : Nat} (h : f.idx ≠ i) :
    codeAt (f :: fs) i = codeAt fs i := by
  rw [codeAt_cons, if_neg h]

theorem codeAt_of_forall_ne {fails : List FailCode} {i : Nat} (h : ∀ f ∈ fails, f.idx ≠ i) :
    codeAt fails i = ExitCode.ok := by
  rw [codeAt, List.find?_eq_none.mpr (by simpa using h)]
  rfl

theorem codeAt_eq_ok_iff {fails : List FailCode} (hfail : ∀ f ∈ fails, f.code ≠ ExitCode.ok)
    (i : Nat) : codeAt fails i = ExitCode.ok ↔ ∀ f ∈ fails, f.idx ≠ i := by
  refine ⟨fun h f hf hi => ?_, codeAt_of_forall_ne⟩
  -- a failure at the index is found, and its code is not OK
  obtain ⟨g, hg⟩ := exists_find?_idx hf hi
  rw [codeAt, hg] at h
  exact hfail g (List.mem_of_find?_eq_some hg) h

theorem codeAt_append_of_forall_ne {l₁ : List FailCode} (l₂ : List FailCode) {i : Nat}
    (h : ∀ f ∈ l₁, f.idx ≠ i) : codeAt (l₁ ++ l₂) i = codeAt l₂ i := by
  rw [codeAt, List.find?_append, List.find?_eq_none.mpr (by simpa using h), Option.none_or]
  rfl

theorem codeAt_append_of_mem {l₁ : List FailCode} (l₂ : List FailCode) {f : FailCode} {i : Nat}
    (hf : f ∈ l₁) (hi : f.idx = i) : codeAt (l₁ ++ l₂) i = codeAt l₁ i := by
  obtain ⟨g, hg⟩ := exists_find?_idx hf hi
  rw [codeAt, codeAt, List.find?_append, hg, Option.some_or]

/-- Failures at distinct indices give the same codes in any order. -/
theorem codeAt_perm {l₁ l₂ : List FailCode} (hp : l₁.Perm l₂)
    (hnd : (l₁.map FailCode.idx).Nodup) (i : Nat) : codeAt l₁ i = codeAt l₂ i := by
  by_cases hex : ∃ f ∈ l₁, f.idx = i
  · obtain ⟨f, hf, hi⟩ := hex
    -- the failure at the index is the only one there, in either order
    have hfind : ∀ l : List FailCode, l.Perm l₁ → l.find? (fun f => f.idx = i) = some f := by
      intro l hl
      obtain ⟨g, hg⟩ := exists_find?_idx (hl.symm.mem_iff.mp hf) hi
      have hgi : g.idx = i := by simpa using List.find?_some hg
      have hgmem : g ∈ l₁ := hl.mem_iff.mp (List.mem_of_find?_eq_some hg)
      rw [hg, List.inj_on_of_nodup_map hnd hgmem hf (hgi.trans hi.symm)]
    rw [codeAt, codeAt, hfind l₁ (List.Perm.refl _), hfind l₂ hp.symm]
  · simp only [not_exists, not_and] at hex
    rw [codeAt_of_forall_ne hex, codeAt_of_forall_ne fun f hf => hex f (hp.mem_iff.mpr hf)]

/-- The codes of failures past a range, over that range: the range's own. -/
theorem map_codeAt_cons {f : FailCode} (fs : List FailCode) {s n : Nat} (h : f.idx < s) :
    (List.range' s n).map (codeAt (f :: fs)) = (List.range' s n).map (codeAt fs) :=
  List.map_congr_left fun j hj => codeAt_cons_of_ne fs (by rw [List.mem_range'_1] at hj; omega)

/-! ### `codes` -/

/-- The loop of `codes` from what it has built: the indices from there to
`n` get their codes. -/
theorem foldl_codesStep : ∀ (fails : List FailCode) (ret : List ExitCode) (n : Nat),
    fails.Pairwise (fun f g => f.idx < g.idx) → (∀ f ∈ fails, ret.length ≤ f.idx ∧ f.idx < n) →
    ret.length ≤ n →
    fails.foldl codesStep ret ++
        List.replicate (n - (fails.foldl codesStep ret).length) ExitCode.ok =
      ret ++ (List.range' ret.length (n - ret.length)).map (codeAt fails)
  | [], ret, n, _, _, _ => by
    rw [List.foldl_nil, show codeAt [] = fun _ => ExitCode.ok from rfl, List.map_const',
      List.length_range']
  | f :: fs, ret, n, hs, hb, hn => by
    obtain ⟨hlo, hhi⟩ := hb f List.mem_cons_self
    have hrest := List.pairwise_cons.mp hs
    have hlen : (codesStep ret f).length = f.idx + 1 := by
      simp only [codesStep, List.length_append, List.length_replicate, List.length_singleton]
      omega
    rw [List.foldl_cons, foldl_codesStep fs (codesStep ret f) n hrest.2
      (fun g hg => ⟨by rw [hlen]; exact hrest.1 g hg, (hb g (List.mem_cons_of_mem f hg)).2⟩)
      (by omega), hlen]
    -- the indices before the failure are OK, then its code, then the rest's
    have hsplit : n - ret.length = (f.idx - ret.length) + (1 + (n - (f.idx + 1))) := by omega
    have hbefore : (List.range' ret.length (f.idx - ret.length)).map (codeAt (f :: fs)) =
        List.replicate (f.idx - ret.length) ExitCode.ok := by
      have hconst : List.replicate (f.idx - ret.length) ExitCode.ok =
          (List.range' ret.length (f.idx - ret.length)).map fun _ => ExitCode.ok := by
        rw [List.map_const', List.length_range']
      rw [hconst]
      refine List.map_congr_left fun j hj => ?_
      rw [List.mem_range'_1] at hj
      refine codeAt_of_forall_ne fun g hg => ?_
      rcases List.mem_cons.mp hg with rfl | hg
      · omega
      · have := hrest.1 g hg
        omega
    have hat : ret.length + (f.idx - ret.length) = f.idx := by omega
    rw [hsplit, ← List.range'_append_1, ← List.range'_append_1, List.map_append, List.map_append,
      hbefore, hat, map_codeAt_cons fs (show f.idx < f.idx + 1 by omega)]
    simp only [codesStep, List.range'_succ, List.range'_zero, List.map_cons, List.map_nil,
      codeAt_cons, if_pos, List.append_assoc, List.singleton_append]

/-- Sorted failures within the batch: the codes are each index's. -/
theorem codes_eq {b : BatchReturn} (hs : b.failCodes.Pairwise fun f g => f.idx < g.idx)
    (hl : ∀ f ∈ b.failCodes, f.idx < b.size) :
    b.codes = (List.range b.size).map (codeAt b.failCodes) := by
  have h := foldl_codesStep b.failCodes [] b.size hs
    (fun f hf => ⟨Nat.zero_le _, hl f hf⟩) (Nat.zero_le _)
  rw [List.nil_append, List.length_nil, Nat.sub_zero, ← List.range_eq_range'] at h
  exact h

theorem length_codes {b : BatchReturn} (hb : b.WellFormed) : b.codes.length = b.size := by
  rw [codes_eq hb.sorted hb.lt_size, List.length_map, List.length_range]

end BatchReturn

/-! ### `of` -/

namespace ExitCode

/-- What `add` records of a code: nothing for a success, else the code. -/
def failure (c : ExitCode) : Option ExitCode := if c.isSuccess then none else some c

@[simp] theorem failure_ok : ok.failure = none := rfl

theorem failure_of_ne {c : ExitCode} (h : c ≠ ok) : c.failure = some c := by
  rw [failure, if_neg (mt (isSuccess_iff c).mp h)]

theorem ne_ok_of_failure_eq_some {c d : ExitCode} (h : c.failure = some d) : d = c ∧ c ≠ ok := by
  by_cases hc : c = ok
  · rw [hc, failure_ok] at h
    cases h
  · rw [failure_of_ne hc, Option.some.injEq] at h
    exact ⟨h.symm, hc⟩

theorem isNone_failure (c : ExitCode) : c.failure.isNone = (c == ok) := by
  by_cases hc : c = ok
  · simp [hc]
  · simp [failure_of_ne hc, hc]

@[simp] theorem getD_failure (c : ExitCode) : c.failure.getD ok = c := by
  by_cases hc : c = ok
  · rw [hc, failure_ok, Option.getD_none]
  · rw [failure_of_ne hc, Option.getD_some]

end ExitCode

namespace BatchReturnGen

theorem add_eq_record (g : BatchReturnGen) (code : ExitCode) : g.add code = g.record code.failure := by
  unfold add ExitCode.failure
  split <;> rfl

variable {α : Type} (outcome : α → Option ExitCode)

theorem failsFrom_cons_of_none {x : α} (xs : List α) {idx : Nat} (h : outcome x = none) :
    failsFrom outcome idx (x :: xs) = failsFrom outcome (idx + 1) xs := by
  simp only [failsFrom, h]

theorem failsFrom_cons_of_some {x : α} (xs : List α) {idx : Nat} {code : ExitCode}
    (h : outcome x = some code) :
    failsFrom outcome idx (x :: xs) = ⟨idx, code⟩ :: failsFrom outcome (idx + 1) xs := by
  simp only [failsFrom, h]

theorem pairwise_failsFrom : ∀ (idx : Nat) (items : List α),
    (failsFrom outcome idx items).Pairwise fun f g => f.idx < g.idx
  | _, [] => List.Pairwise.nil
  | idx, x :: xs => by
    cases hx : outcome x with
    | none => rw [failsFrom_cons_of_none outcome xs hx]; exact pairwise_failsFrom (idx + 1) xs
    | some code =>
      rw [failsFrom_cons_of_some outcome xs hx]
      exact List.Pairwise.cons (fun g hg => idx_le_of_mem_failsFrom outcome hg)
        (pairwise_failsFrom (idx + 1) xs)

theorem idx_lt_of_mem_failsFrom : ∀ {idx : Nat} {items : List α} {f : FailCode},
    f ∈ failsFrom outcome idx items → f.idx < idx + items.length
  | _, [], _, h => nomatch h
  | idx, x :: xs, f, h => by
    rw [List.length_cons]
    cases hx : outcome x with
    | none =>
      rw [failsFrom_cons_of_none outcome xs hx] at h
      have := idx_lt_of_mem_failsFrom h
      omega
    | some code =>
      rw [failsFrom_cons_of_some outcome xs hx] at h
      rcases List.mem_cons.mp h with rfl | h
      · show idx < _
        omega
      · have := idx_lt_of_mem_failsFrom h
        omega

theorem exists_of_mem_failsFrom : ∀ {idx : Nat} {items : List α} {f : FailCode},
    f ∈ failsFrom outcome idx items → ∃ x ∈ items, outcome x = some f.code
  | _, [], _, h => nomatch h
  | idx, x :: xs, f, h => by
    cases hx : outcome x with
    | none =>
      rw [failsFrom_cons_of_none outcome xs hx] at h
      obtain ⟨y, hy, hyf⟩ := exists_of_mem_failsFrom h
      exact ⟨y, List.mem_cons_of_mem x hy, hyf⟩
    | some code =>
      rw [failsFrom_cons_of_some outcome xs hx] at h
      rcases List.mem_cons.mp h with rfl | h
      · exact ⟨x, List.mem_cons_self, hx⟩
      · obtain ⟨y, hy, hyf⟩ := exists_of_mem_failsFrom h
        exact ⟨y, List.mem_cons_of_mem x hy, hyf⟩

/-- Each item is a success or a failure. -/
theorem length_failsFrom : ∀ (idx : Nat) (items : List α),
    (failsFrom outcome idx items).length + (items.filter fun x => (outcome x).isNone).length =
      items.length
  | _, [] => rfl
  | idx, x :: xs => by
    have ih := length_failsFrom (idx + 1) xs
    cases hx : outcome x with
    | none =>
      simp only [failsFrom_cons_of_none outcome xs hx, List.filter_cons, hx, Option.isNone_none,
        if_true, List.length_cons]
      omega
    | some code =>
      simp only [failsFrom_cons_of_some outcome xs hx, List.filter_cons, hx, Option.isNone_some,
        Bool.false_eq_true, if_false, List.length_cons]
      omega

end BatchReturnGen

namespace BatchReturn

open BatchReturnGen

/-- The recorded failures spell out, index by index, the items' codes. -/
theorem map_codeAt_failsFrom {α : Type} (outcome : α → Option ExitCode) :
    ∀ (idx : Nat) (items : List α),
    (List.range' idx items.length).map (codeAt (failsFrom outcome idx items)) =
      items.map fun x => (outcome x).getD ExitCode.ok
  | _, [] => rfl
  | idx, x :: xs => by
    rw [List.length_cons, List.range'_succ, List.map_cons, List.map_cons]
    cases hx : outcome x with
    | none =>
      -- no failure at this index: the later ones are all past it
      rw [failsFrom_cons_of_none outcome xs hx, map_codeAt_failsFrom outcome (idx + 1) xs,
        codeAt_of_forall_ne fun f hf => Nat.ne_of_gt (idx_le_of_mem_failsFrom outcome hf)]
      rfl
    | some code =>
      rw [failsFrom_cons_of_some outcome xs hx, codeAt_cons, if_pos rfl,
        map_codeAt_cons _ (Nat.lt_succ_self idx), map_codeAt_failsFrom outcome (idx + 1) xs]
      rfl

theorem of_eq (cs : List ExitCode) :
    «of» cs = ⟨(cs.filter fun c => c.failure.isNone).length, failsFrom ExitCode.failure 0 cs⟩ := by
  have hadd : (fun g code => BatchReturnGen.add g code) = fun g x => g.record x.failure := by
    funext g code
    exact add_eq_record g code
  rw [«of», hadd, foldl_record]
  simp only [generate, new, Nat.zero_add, List.nil_append, List.length_nil]

theorem failCodes_of (cs : List ExitCode) :
    («of» cs).failCodes = failsFrom ExitCode.failure 0 cs := by
  rw [of_eq]

theorem successCount_of (cs : List ExitCode) :
    («of» cs).successCount = cs.count ExitCode.ok := by
  rw [of_eq, List.count_eq_countP, List.countP_eq_length_filter]
  simp only [ExitCode.isNone_failure]

theorem size_of (cs : List ExitCode) : («of» cs).size = cs.length := by
  rw [size, of_eq, Nat.add_comm]
  exact length_failsFrom ExitCode.failure 0 cs

theorem of_wellFormed (cs : List ExitCode) : («of» cs).WellFormed where
  sorted := by
    rw [failCodes_of]
    exact pairwise_failsFrom ExitCode.failure 0 cs
  lt_size f hf := by
    rw [failCodes_of] at hf
    rw [size_of, ← Nat.zero_add cs.length]
    exact idx_lt_of_mem_failsFrom ExitCode.failure hf
  failing f hf := by
    rw [failCodes_of] at hf
    obtain ⟨c, -, hc⟩ := exists_of_mem_failsFrom ExitCode.failure hf
    obtain ⟨rfl, hne⟩ := ExitCode.ne_ok_of_failure_eq_some hc
    exact hne

/-- `of` keeps every code. -/
theorem codes_of (cs : List ExitCode) : («of» cs).codes = cs := by
  have hwf := of_wellFormed cs
  rw [codes_eq hwf.sorted hwf.lt_size, size_of, failCodes_of, List.range_eq_range',
    map_codeAt_failsFrom]
  simp only [ExitCode.getD_failure, List.map_id']

/-- Sorted failing failures within a range are what `of` records of their
codes over it. -/
theorem failsFrom_map_codeAt : ∀ (n idx : Nat) (fails : List FailCode),
    fails.Pairwise (fun f g => f.idx < g.idx) → (∀ f ∈ fails, idx ≤ f.idx ∧ f.idx < idx + n) →
    (∀ f ∈ fails, f.code ≠ ExitCode.ok) →
    failsFrom ExitCode.failure idx ((List.range' idx n).map (codeAt fails)) = fails
  | 0, idx, [], _, _, _ => rfl
  | 0, idx, f :: _, _, hb, _ => by
    have := hb f List.mem_cons_self
    omega
  | n + 1, idx, [], _, _, _ => by
    rw [List.range'_succ, List.map_cons, codeAt_nil,
      failsFrom_cons_of_none _ _ ExitCode.failure_ok]
    exact failsFrom_map_codeAt n (idx + 1) [] List.Pairwise.nil (List.forall_mem_nil _)
      (List.forall_mem_nil _)
  | n + 1, idx, f :: fs, hs, hb, hf => by
    have hrest := List.pairwise_cons.mp hs
    obtain ⟨hlo, hhi⟩ := hb f List.mem_cons_self
    rw [List.range'_succ, List.map_cons]
    by_cases hat : f.idx = idx
    · -- the first failure is at this index
      rw [codeAt_cons, if_pos hat, failsFrom_cons_of_some _ _
        (ExitCode.failure_of_ne (hf f List.mem_cons_self)), map_codeAt_cons fs (by omega),
        failsFrom_map_codeAt n (idx + 1) fs hrest.2 (fun g hg => ?_)
          (fun g hg => hf g (List.mem_cons_of_mem f hg)), ← hat]
      have := hrest.1 g hg
      have := (hb g (List.mem_cons_of_mem f hg)).2
      omega
    · -- an OK code here: every failure is past it
      have hok : codeAt (f :: fs) idx = ExitCode.ok := codeAt_of_forall_ne fun g hg => by
        rcases List.mem_cons.mp hg with rfl | hg
        · exact hat
        · have := hrest.1 g hg
          omega
      rw [hok, failsFrom_cons_of_none _ _ ExitCode.failure_ok]
      refine failsFrom_map_codeAt n (idx + 1) (f :: fs) hs (fun g hg => ?_) hf
      have := hb g hg
      rcases List.mem_cons.mp hg with rfl | hg
      · omega
      · have := hrest.1 g hg
        omega

/-- A well-formed batch return is `of` its codes. -/
theorem of_codes {b : BatchReturn} (hb : b.WellFormed) : «of» b.codes = b := by
  have hfails : («of» b.codes).failCodes = b.failCodes := by
    rw [failCodes_of, codes_eq hb.sorted hb.lt_size, List.range_eq_range']
    exact failsFrom_map_codeAt b.size 0 b.failCodes hb.sorted
      (fun f hf => ⟨Nat.zero_le _, by rw [Nat.zero_add]; exact hb.lt_size f hf⟩) hb.failing
  -- the size and the failures fix the successes
  have hsize : («of» b.codes).size = b.size := by rw [size_of, length_codes hb]
  have hcount : («of» b.codes).successCount = b.successCount := by
    simp only [size, hfails] at hsize
    omega
  calc «of» b.codes = ⟨(«of» b.codes).successCount, («of» b.codes).failCodes⟩ := rfl
    _ = b := by rw [hcount, hfails]

theorem count_codes {b : BatchReturn} (hb : b.WellFormed) :
    b.codes.count ExitCode.ok = b.successCount := by
  rw [← successCount_of, of_codes hb]

/-! ### `successes` -/

section OkItems

variable {α : Type}

@[simp] theorem okItems_nil_left (codes : List ExitCode) : okItems ([] : List α) codes = [] := rfl

@[simp] theorem okItems_nil_right (items : List α) : okItems items [] = [] := by
  simp [okItems]

theorem okItems_cons (x : α) (xs : List α) (c : ExitCode) (cs : List ExitCode) :
    okItems (x :: xs) (c :: cs) = if c = ExitCode.ok then x :: okItems xs cs else okItems xs cs := by
  by_cases h : c = ExitCode.ok <;> simp [okItems, h]

theorem length_okItems : ∀ (items : List α) (cs : List ExitCode), items.length = cs.length →
    (okItems items cs).length = cs.count ExitCode.ok
  | [], [], _ => rfl
  | x :: xs, c :: cs, h => by
    have ih := length_okItems xs cs (Nat.succ.inj h)
    by_cases hc : c = ExitCode.ok
    · rw [okItems_cons, if_pos hc, hc, List.count_cons_self, List.length_cons, ih]
    · rw [okItems_cons, if_neg hc, List.count_cons_of_ne hc, ih]

/-- The loop of `successes` keeps the items whose code is OK. -/
theorem successesFrom_eq (items : List α) : ∀ (fails : List FailCode) (idx : Nat),
    fails.Pairwise (fun f g => f.idx < g.idx) → (∀ f ∈ fails, idx ≤ f.idx) →
    (∀ f ∈ fails, f.code ≠ ExitCode.ok) →
    successesFrom fails idx items = okItems items ((List.range' idx items.length).map (codeAt fails)) := by
  induction items with
  | nil => intro _ _ _ _ _; rfl
  | cons x xs ih =>
    intro fails idx hs hb hf
    rw [List.length_cons, List.range'_succ, List.map_cons, okItems_cons]
    cases fails with
    | nil =>
      rw [successesFrom, codeAt_nil, if_pos rfl,
        ih [] (idx + 1) List.Pairwise.nil (List.forall_mem_nil _) (List.forall_mem_nil _)]
    | cons f fs =>
      have hrest := List.pairwise_cons.mp hs
      rw [successesFrom]
      by_cases hat : idx = f.idx
      · -- the item fails: skipped, and its code is not OK
        rw [if_pos hat, codeAt_cons, if_pos hat.symm, if_neg (hf f List.mem_cons_self),
          map_codeAt_cons fs (by omega)]
        refine ih fs (idx + 1) hrest.2 (fun g hg => ?_)
          (fun g hg => hf g (List.mem_cons_of_mem f hg))
        have := hrest.1 g hg
        omega
      · -- the item succeeds: kept, and every failure is past it
        have hlt : idx < f.idx := Nat.lt_of_le_of_ne (hb f List.mem_cons_self) hat
        have hok : codeAt (f :: fs) idx = ExitCode.ok := codeAt_of_forall_ne fun g hg => by
          rcases List.mem_cons.mp hg with rfl | hg
          · omega
          · have := hrest.1 g hg
            omega
        rw [if_neg hat, hok, if_pos rfl, ih (f :: fs) (idx + 1) hs (fun g hg => ?_) hf]
        rcases List.mem_cons.mp hg with rfl | hg
        · exact hlt
        · have := hrest.1 g hg
          omega

/-- `successes` of a well-formed batch return: the items whose code is OK. -/
theorem successes_eq_okItems {b : BatchReturn} (hb : b.WellFormed) (items : List α)
    (hlen : items.length = b.size) : b.successes items = okItems items b.codes := by
  rw [successes, successesFrom_eq items b.failCodes 0 hb.sorted (fun _ _ => Nat.zero_le _)
    hb.failing, codes_eq hb.sorted hb.lt_size, List.range_eq_range', hlen]

end OkItems

/-! ### `overlay` -/

theorem overlay_ok_cons (cs stage : List ExitCode) :
    overlay (ExitCode.ok :: cs) stage = stage.headD ExitCode.ok :: overlay cs stage.tail := by
  rw [overlay, if_pos rfl]

theorem overlay_cons_of_ne {c : ExitCode} (cs stage : List ExitCode) (h : c ≠ ExitCode.ok) :
    overlay (c :: cs) stage = c :: overlay cs stage := by
  rw [overlay, if_neg h]

theorem length_overlay : ∀ (cs stage : List ExitCode), (overlay cs stage).length = cs.length
  | [], _ => rfl
  | c :: cs, stage => by
    by_cases hc : c = ExitCode.ok
    · rw [hc, overlay_ok_cons, List.length_cons, length_overlay, List.length_cons]
    · rw [overlay_cons_of_ne cs stage hc, List.length_cons, length_overlay, List.length_cons]

/-- A stage of one code for each OK code leaves its own OK codes. -/
theorem count_overlay : ∀ (cs stage : List ExitCode), stage.length = cs.count ExitCode.ok →
    (overlay cs stage).count ExitCode.ok = stage.count ExitCode.ok
  | [], [], _ => rfl
  | c :: cs, stage, h => by
    by_cases hc : c = ExitCode.ok
    · subst hc
      cases stage with
      | nil => simp at h
      | cons d ds =>
        rw [List.count_cons_self, List.length_cons] at h
        rw [overlay_ok_cons, List.headD_cons, List.tail_cons, List.count_cons, List.count_cons,
          count_overlay cs ds (Nat.succ.inj h)]
    · rw [List.count_cons_of_ne hc] at h
      rw [overlay_cons_of_ne cs stage hc, List.count_cons_of_ne hc, count_overlay cs stage h]

/-- The items left after an overlaid stage: the stage's successes among the
items left before it. -/
theorem okItems_overlay {α : Type} : ∀ (items : List α) (cs stage : List ExitCode),
    stage.length = cs.count ExitCode.ok →
    okItems items (overlay cs stage) = okItems (okItems items cs) stage
  | [], _, _, _ => rfl
  | _ :: _, [], stage, _ => by rw [overlay, okItems_nil_right, okItems_nil_left]
  | x :: xs, c :: cs, stage, h => by
    by_cases hc : c = ExitCode.ok
    · subst hc
      cases stage with
      | nil => simp at h
      | cons d ds =>
        rw [List.count_cons_self, List.length_cons] at h
        rw [overlay_ok_cons, List.headD_cons, List.tail_cons, okItems_cons, okItems_cons,
          if_pos rfl, okItems_cons, okItems_overlay xs cs ds (Nat.succ.inj h)]
    · rw [List.count_cons_of_ne hc] at h
      rw [overlay_cons_of_ne cs stage hc, okItems_cons, if_neg hc, okItems_cons, if_neg hc,
        okItems_overlay xs cs stage h]

/-! ### One stage of `stack` -/

theorem skipFails_cons_of_le {f : FailCode} (fs : List FailCode) {offset idx : Nat}
    (h : f.idx ≤ idx + offset) : skipFails (f :: fs) offset idx = skipFails fs (offset + 1) idx := by
  rw [skipFails, if_pos h]

/-- Base failures all past the next index are not passed. -/
theorem skipFails_of_lt : ∀ {fails : List FailCode} {offset idx : Nat},
    (∀ f ∈ fails, idx + offset < f.idx) → skipFails fails offset idx = (fails, offset)
  | [], _, _, _ => rfl
  | f :: _, _, _, h => by rw [skipFails, if_neg (Nat.not_le.mpr (h f List.mem_cons_self))]

/-- A base failure at or below where every next failure lands is passed
first, and moves the offset on. -/
theorem stackFails_cons_of_le {f : FailCode} (fs : List FailCode) {offset : Nat} :
    ∀ {nxt : List FailCode}, (∀ n ∈ nxt, f.idx ≤ n.idx + offset) →
    stackFails (f :: fs) offset nxt = stackFails fs (offset + 1) nxt
  | [], _ => rfl
  | n :: _, h => by simp only [stackFails, skipFails_cons_of_le fs (h n List.mem_cons_self)]

/-- The next batch's failures moved to the base's indices are the failures
the overlay adds. The walk is over the base's codes from index `k + offset`,
`k` of them OK so far: a failing code is passed by the next failure (the
offset grows), an OK code is the next batch's item `k`. -/
theorem stackFails_perm : ∀ (cs stage : List ExitCode) (k offset : Nat),
    stage.length ≤ cs.count ExitCode.ok →
    (failsFrom ExitCode.failure (k + offset) cs ++
        stackFails (failsFrom ExitCode.failure (k + offset) cs) offset
          (failsFrom ExitCode.failure k stage)).Perm
      (failsFrom ExitCode.failure (k + offset) (overlay cs stage))
  | [], stage, k, offset, h => by
    -- no OK code left: the next batch has no item left either
    rw [List.eq_nil_of_length_eq_zero (Nat.le_zero.mp h)]
    rfl
  | c :: cs, stage, k, offset, h => by
    by_cases hc : c = ExitCode.ok
    · subst hc
      rw [List.count_cons_self] at h
      rw [overlay_ok_cons, failsFrom_cons_of_none _ _ ExitCode.failure_ok]
      cases stage with
      | nil =>
        have ih := stackFails_perm cs [] (k + 1) offset (Nat.zero_le _)
        rw [Nat.add_right_comm] at ih
        rw [List.headD_nil, List.tail_nil, failsFrom_cons_of_none _ _ ExitCode.failure_ok]
        exact ih
      | cons d ds =>
        have ih := stackFails_perm cs ds (k + 1) offset (Nat.le_of_succ_le_succ h)
        rw [Nat.add_right_comm] at ih
        rw [List.headD_cons, List.tail_cons]
        by_cases hd : d = ExitCode.ok
        · -- the next batch's item `k` succeeds
          rw [hd, failsFrom_cons_of_none _ _ ExitCode.failure_ok,
            failsFrom_cons_of_none _ _ ExitCode.failure_ok]
          exact ih
        · -- it fails, and lands here: every base failure left is past this index
          have hpast : ∀ f ∈ failsFrom ExitCode.failure (k + offset + 1) cs, k + offset < f.idx :=
            fun f hf => idx_le_of_mem_failsFrom ExitCode.failure hf
          rw [failsFrom_cons_of_some _ _ (ExitCode.failure_of_ne hd),
            failsFrom_cons_of_some _ _ (ExitCode.failure_of_ne hd)]
          simp only [stackFails, skipFails_of_lt hpast]
          exact List.perm_middle.trans (List.Perm.cons _ ih)
    · -- a base failure: passed by every next failure still to land
      rw [List.count_cons_of_ne hc] at h
      have ih := stackFails_perm cs stage k (offset + 1) h
      rw [← Nat.add_assoc] at ih
      rw [overlay_cons_of_ne cs stage hc, failsFrom_cons_of_some _ _ (ExitCode.failure_of_ne hc),
        failsFrom_cons_of_some _ _ (ExitCode.failure_of_ne hc), stackFails_cons_of_le _
          fun n hn => Nat.add_le_add_right (idx_le_of_mem_failsFrom ExitCode.failure hn) offset]
      exact List.Perm.cons _ ih

/-- Sorted failures are at distinct indices. -/
theorem eq_of_idx_eq {fails : List FailCode} (hs : fails.Pairwise fun f g => f.idx < g.idx)
    {f g : FailCode} (hf : f ∈ fails) (hg : g ∈ fails) (h : f.idx = g.idx) : f = g :=
  List.inj_on_of_nodup_map ((List.pairwise_map.mpr hs).imp Nat.ne_of_lt) hf hg h

/-- A stage of `stack` over `of` codes is `of` the overlaid codes: the merge
sorts the base's failures and the moved ones into the overlay's. -/
theorem stackStep_of {cs stage : List ExitCode} (h : stage.length = cs.count ExitCode.ok) :
    stackStep («of» cs) («of» stage) = .ok («of» (overlay cs stage)) := by
  have hguard : ¬(«of» cs).successCount ≠ («of» stage).size := by
    rw [successCount_of, size_of, h]
    exact not_not.mpr rfl
  have hperm := stackFails_perm cs stage 0 0 h.le
  rw [Nat.add_zero, ← failCodes_of cs, ← failCodes_of stage,
    ← failCodes_of (overlay cs stage)] at hperm
  have hsorted := (of_wellFormed (overlay cs stage)).sorted
  have hmerge : ((«of» cs).failCodes ++ stackFails («of» cs).failCodes 0 («of» stage).failCodes
      ).mergeSort (fun a b => a.idx ≤ b.idx) = («of» (overlay cs stage)).failCodes := by
    have hp := (List.mergeSort_perm _ fun a b : FailCode => decide (a.idx ≤ b.idx)).trans hperm
    refine List.Perm.eq_of_pairwise (fun a b ha hb hab hba => ?_)
      (List.pairwise_mergeSort (fun a b c hab hbc => ?_) (fun a b => ?_) _)
      (hsorted.imp fun hlt => decide_eq_true (Nat.le_of_lt hlt)) hp
    · simp only [decide_eq_true_eq] at hab hba
      exact eq_of_idx_eq hsorted (hp.mem_iff.mp ha) hb (Nat.le_antisymm hab hba)
    · simp only [decide_eq_true_eq] at hab hbc ⊢
      exact Nat.le_trans hab hbc
    · simp only [Bool.or_eq_true, decide_eq_true_eq]
      exact Nat.le_total _ _
  have hcount : («of» stage).successCount = («of» (overlay cs stage)).successCount := by
    rw [successCount_of, successCount_of, count_overlay cs stage h]
  rw [stackStep, if_neg hguard, hmerge, hcount]

/-! ### `stack` over a chain of stages

A chain: each stage is as large as the previous one's successes. The codes
laid so far then have as many OK codes as the last stage laid has
successes, so each next stage fits. -/

/-- The codes of stages `rs` laid one over another, from `cs`. -/
def overlayAll (rs : List BatchReturn) (cs : List ExitCode) : List ExitCode :=
  rs.foldl (fun cs s => overlay cs s.codes) cs

theorem length_overlayAll : ∀ (rs : List BatchReturn) (cs : List ExitCode),
    (overlayAll rs cs).length = cs.length
  | [], _ => rfl
  | s :: rs, cs => by
    rw [overlayAll, List.foldl_cons, ← overlayAll, length_overlayAll rs, length_overlay]

/-- One more stage of a chain of well-formed stages. -/
theorem chain_tail {r s : BatchReturn} {rs : List BatchReturn} (hwf : ∀ t ∈ s :: rs, t.WellFormed)
    (hchain : (r :: s :: rs).IsChain fun a b => b.size = a.successCount) {cs : List ExitCode}
    (hcount : cs.count ExitCode.ok = r.successCount) :
    s.codes.length = cs.count ExitCode.ok ∧
      (overlay cs s.codes).count ExitCode.ok = s.successCount ∧
      (∀ t ∈ rs, t.WellFormed) ∧ (s :: rs).IsChain fun a b => b.size = a.successCount := by
  have hs := hwf s List.mem_cons_self
  obtain ⟨hsize, hchain'⟩ := List.isChain_cons_cons.mp hchain
  have hlen : s.codes.length = cs.count ExitCode.ok := by rw [length_codes hs, hsize, hcount]
  exact ⟨hlen, by rw [count_overlay cs s.codes hlen, count_codes hs],
    fun t ht => hwf t (List.mem_cons_of_mem s ht), hchain'⟩

theorem count_overlayAll : ∀ (r : BatchReturn) (rs : List BatchReturn) (cs : List ExitCode),
    (∀ s ∈ rs, s.WellFormed) → (r :: rs).IsChain (fun a b => b.size = a.successCount) →
    cs.count ExitCode.ok = r.successCount →
    (overlayAll rs cs).count ExitCode.ok = ((r :: rs).getLast (List.cons_ne_nil r rs)).successCount
  | _, [], _, _, _, hcount => hcount
  | r, s :: rs, cs, hwf, hchain, hcount => by
    obtain ⟨-, hcount', hwf', hchain'⟩ := chain_tail hwf hchain hcount
    rw [overlayAll, List.foldl_cons, ← overlayAll, List.getLast_cons_cons]
    exact count_overlayAll s rs _ hwf' hchain' hcount'

/-- The run of `stack`'s loop over a chain: `of` the codes laid over each
other. -/
theorem foldlM_stackStep : ∀ (r : BatchReturn) (rs : List BatchReturn) (cs : List ExitCode),
    (∀ s ∈ rs, s.WellFormed) → (r :: rs).IsChain (fun a b => b.size = a.successCount) →
    cs.count ExitCode.ok = r.successCount →
    rs.foldlM stackStep («of» cs) = .ok («of» (overlayAll rs cs))
  | _, [], _, _, _, _ => rfl
  | r, s :: rs, cs, hwf, hchain, hcount => by
    obtain ⟨hlen, hcount', hwf', hchain'⟩ := chain_tail hwf hchain hcount
    have hstep := stackStep_of hlen
    rw [of_codes (hwf s List.mem_cons_self)] at hstep
    rw [List.foldlM_cons, hstep, overlayAll, List.foldl_cons, ← overlayAll]
    exact foldlM_stackStep s rs _ hwf' hchain' hcount'

/-- The successes of the stages, each taken of the items the previous ones
left: the items whose laid code is OK. -/
theorem foldl_successes {α : Type} : ∀ (r : BatchReturn) (rs : List BatchReturn)
    (cs : List ExitCode) (items : List α),
    (∀ s ∈ rs, s.WellFormed) → (r :: rs).IsChain (fun a b => b.size = a.successCount) →
    cs.count ExitCode.ok = r.successCount → items.length = cs.length →
    rs.foldl (fun xs s => s.successes xs) (okItems items cs) = okItems items (overlayAll rs cs)
  | _, [], _, _, _, _, _, _ => rfl
  | r, s :: rs, cs, items, hwf, hchain, hcount, hitems => by
    obtain ⟨hlen, hcount', hwf', hchain'⟩ := chain_tail hwf hchain hcount
    have hleft : (okItems items cs).length = s.size := by
      rw [length_okItems items cs hitems, ← hlen, length_codes (hwf s List.mem_cons_self)]
    rw [List.foldl_cons, successes_eq_okItems (hwf s List.mem_cons_self) _ hleft,
      ← okItems_overlay items cs s.codes hlen, overlayAll, List.foldl_cons, ← overlayAll]
    exact foldl_successes s rs _ items hwf' hchain' hcount'
      (by rw [length_overlay, hitems])

/-- `stack` of a chain of well-formed stages: `of` their codes laid over
each other; its two closing checks pass. -/
theorem stack_of_chain {r : BatchReturn} {rs : List BatchReturn} (hwf : ∀ s ∈ r :: rs, s.WellFormed)
    (hchain : (r :: rs).IsChain fun a b => b.size = a.successCount) :
    stack (r :: rs) = .ok («of» (overlayAll rs r.codes)) := by
  have hr := hwf r List.mem_cons_self
  have hrs : ∀ s ∈ rs, s.WellFormed := fun s hs => hwf s (List.mem_cons_of_mem r hs)
  have hloop := foldlM_stackStep r rs r.codes hrs hchain (count_codes hr)
  rw [of_codes hr] at hloop
  have hsize : («of» (overlayAll rs r.codes)).size = r.size := by
    rw [size_of, length_overlayAll, length_codes hr]
  have hlast : («of» (overlayAll rs r.codes)).successCount =
      ((r :: rs).getLast (List.cons_ne_nil r rs)).successCount := by
    rw [successCount_of, count_overlayAll r rs r.codes hrs hchain (count_codes hr)]
  simp only [stack, hloop, hsize, hlast, bind, Except.bind, ne_eq, not_true_eq_false, if_false,
    pure, Except.pure]

/-! ### The laws of batch returns -/

/-- `of` spells out its codes and counts its successes; a well-formed batch
return's successes are the items whose code is OK; and `stack` of a chain of
well-formed stages is well-formed, as large as the first, with each item's
code that of the first stage to fail it among the items left, so that its
successes are the stages' successes taken one after another. -/
theorem codes_successes_stack :
    (∀ cs : List ExitCode, («of» cs).codes = cs ∧ («of» cs).successCount = cs.count ExitCode.ok) ∧
    (∀ {α : Type} (b : BatchReturn) (items : List α), b.WellFormed → items.length = b.size →
      b.successes items = okItems items b.codes) ∧
    (∀ (r : BatchReturn) (rs : List BatchReturn), (∀ s ∈ r :: rs, s.WellFormed) →
      (r :: rs).IsChain (fun a b => b.size = a.successCount) →
      ∃ out, stack (r :: rs) = .ok out ∧ out.WellFormed ∧ out.size = r.size ∧
        out.codes = overlayAll rs r.codes ∧
        ∀ {α : Type} (items : List α), items.length = r.size →
          out.successes items = rs.foldl (fun xs s => s.successes xs) (r.successes items)) := by
  refine ⟨fun cs => ⟨codes_of cs, successCount_of cs⟩,
    fun b items hb hlen => successes_eq_okItems hb items hlen, fun r rs hwf hchain => ?_⟩
  have hr := hwf r List.mem_cons_self
  have hrs : ∀ s ∈ rs, s.WellFormed := fun s hs => hwf s (List.mem_cons_of_mem r hs)
  have hsize : («of» (overlayAll rs r.codes)).size = r.size := by
    rw [size_of, length_overlayAll, length_codes hr]
  refine ⟨_, stack_of_chain hwf hchain, of_wellFormed _, hsize, codes_of _, fun items hitems => ?_⟩
  -- both sides keep the items whose laid code is OK
  rw [successes_eq_okItems (of_wellFormed _) items (hitems.trans hsize.symm), codes_of,
    successes_eq_okItems hr items hitems, foldl_successes r rs r.codes items hrs hchain
      (count_codes hr) (hitems.trans (length_codes hr).symm)]

/-- The last stacking test of the source: four stages over five items. -/
theorem codes_successes_stack_four_stages :
    ∃ out, stack [«of» (List.replicate 5 ExitCode.ok),
        «of» [ExitCode.ok, ExitCode.usrIllegalArgument, ExitCode.ok, ExitCode.ok, ExitCode.ok],
        «of» [ExitCode.usrNotFound, ExitCode.ok, ExitCode.ok, ExitCode.usrNotFound],
        «of» [ExitCode.ok, ExitCode.usrForbidden]] = .ok out ∧
      out.codes = [ExitCode.usrNotFound, ExitCode.usrIllegalArgument, ExitCode.ok,
        ExitCode.usrForbidden, ExitCode.usrNotFound] := by
  obtain ⟨out, hout, -, -, hcodes, -⟩ := codes_successes_stack.2.2
    («of» (List.replicate 5 ExitCode.ok))
    [«of» [ExitCode.ok, ExitCode.usrIllegalArgument, ExitCode.ok, ExitCode.ok, ExitCode.ok],
      «of» [ExitCode.usrNotFound, ExitCode.ok, ExitCode.ok, ExitCode.usrNotFound],
      «of» [ExitCode.ok, ExitCode.usrForbidden]] (by decide) (by decide)
  exact ⟨out, hout, by rw [hcodes]; decide⟩

/-- A failure recorded with the OK code. -/
def okFailure : BatchReturn := ⟨0, [⟨0, ExitCode.ok⟩]⟩

/-- Sorted failures within the batch are not enough: `successes` drops the
item of a failure recorded with the OK code, which `codes` reads as OK. -/
theorem successes_drop_ok_failure :
    (okFailure.failCodes.Pairwise fun f g => f.idx < g.idx) ∧
      (∀ f ∈ okFailure.failCodes, f.idx < okFailure.size) ∧ [7].length = okFailure.size ∧
      okFailure.successes [7] = [] ∧ okItems [7] okFailure.codes = [7] := by
  decide

end BatchReturn

end BuiltinActors
