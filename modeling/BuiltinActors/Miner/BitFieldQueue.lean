import Mathlib.Data.List.Destutter
import BuiltinActors.Miner.ExpirationQueue

/-! # The bitfield queue

An AMT of bitfields keyed by epoch, used as a queue bucketed by epoch. Keys
are quantized upwards by the queue's `QuantSpec` and converted to `u64`, which
fails for a negative epoch. Bitfields are finite sets of `u64` values.

A queue stands for the map `abs q` from epochs to sets, empty where the AMT has
no entry. `add_to_queue` unions a set into one epoch, `add_many_to_queue_values`
unions each value at its quantized epoch, `pop_until` takes the entries at or
below an epoch and `cut` maps every entry through `BitField::cut`; each keeps
the queue `WellFormed` (quantized keys, non-empty entries). -/

namespace BuiltinActors.Miner

/-- The bits of `bf` that are not in `toCut`, each shifted down by the number
of bits of `toCut` below it: the bits of `toCut` are cut out and the rest close
up. -/
def BitField.cut (bf toCut : Finset Nat) : Finset Nat :=
  (bf \ toCut).image fun b => b - (toCut.filter (· < b)).card

@[simp] theorem BitField.cut_empty (toCut : Finset Nat) : BitField.cut ∅ toCut = ∅ := by
  simp [BitField.cut]

/-- An AMT of bitfields functioning as a queue, bucketed by epoch. -/
structure BitFieldQueue where
  amt : OrdMap Nat (Finset Nat)
  quant : QuantSpec

namespace BitFieldQueue

/-- Adds values to the queue entry for an epoch. -/
def addToQueue (q : BitFieldQueue) (rawEpoch : Int) (values : Finset Nat) :
    Except String BitFieldQueue :=
  -- nothing to do
  if values = ∅ then .ok q
  else
    let epoch := q.quant.quantizeUp rawEpoch
    -- `try_into` a `u64`
    if epoch < 0 then .error "out of range integral type conversion attempted"
    else
      let bitfield := (q.amt.get? epoch.toNat).getD ∅
      .ok { q with amt := q.amt.set epoch.toNat (bitfield ∪ values) }

def addToQueueValues (q : BitFieldQueue) (epoch : Int) (values : List Nat) :
    Except String BitFieldQueue :=
  q.addToQueue epoch values.toFinset

/-- The body of the walk in `cut`: an entry the cut empties is kept for removal,
any other is replaced by its cut. -/
def cutStep (toCut : Finset Nat) (epochsToRemove : List Nat) (epoch : Nat)
    (bitfield : Finset Nat) : Except String (List Nat × Finset Nat × Bool) :=
  let bf := BitField.cut bitfield toCut
  if bf = ∅ then .ok (epochsToRemove ++ [epoch], bitfield, true)
  else .ok (epochsToRemove, bf, true)

/-- Cuts the elements of `toCut` out of every entry, shifting other bits down
and removing any newly empty entries. -/
def cut (q : BitFieldQueue) (toCut : Finset Nat) : Except String BitFieldQueue := do
  let walked ← (q.amt.forEachWhileMut (cutStep toCut) []).mapError
    (wrap "failed to cut from bitfield queue")
  let amt ← (walked.2.batchDelete walked.1 true).mapError
    (wrap "failed to remove empty epochs from bitfield queue")
  return { q with amt }

/-- The derived order of `(ChainEpoch, u64)` pairs: by epoch, then by value. -/
def pairLe (a b : Int × Nat) : Bool :=
  decide (a.1 < b.1 ∨ a.1 = b.1 ∧ a.2 ≤ b.2)

/-- Puts a pair in front of a list of runs: into the first run if it has the
same epoch, else as a run of its own. -/
def consRun (p : Int × Nat) : List (Int × List Nat) → List (Int × List Nat)
  | [] => [(p.1, [p.2])]
  | run :: runs =>
    if run.1 = p.1 then (p.1, p.2 :: run.2) :: runs else (p.1, [p.2]) :: run :: runs

/-- The maximal runs of pairs with one epoch, with their values: what the loop
of `add_many_to_queue_values` takes with `peeking_take_while` in turn. -/
def groupRuns : List (Int × Nat) → List (Int × List Nat)
  | [] => []
  | p :: rest => consRun p (groupRuns rest)

def addManyToQueueValues (q : BitFieldQueue) (values : List (Int × Nat)) :
    Except String BitFieldQueue :=
  -- pre-quantize to reduce the number of updates
  let quantizedValues := values.map fun p => (q.quant.quantizeUp p.1, p.2)
  -- sort and dedup
  let quantizedValues := (quantizedValues.mergeSort pairLe).destutter (· ≠ ·)
  (groupRuns quantizedValues).foldlM (fun acc run => acc.addToQueueValues run.1 run.2) q

/-- The body of the walk in `pop_until`: stops at the first epoch after
`untilEpoch`, and otherwise takes the entry. -/
def popStep (untilEpoch : Int) (popped : Finset Nat × List Nat) (epoch : Nat)
    (bitfield : Finset Nat) : Except String ((Finset Nat × List Nat) × Bool) :=
  if (epoch : Int) > untilEpoch then .ok (popped, false)
  else .ok ((popped.1 ∪ bitfield, popped.2 ++ [epoch]), true)

/-- Removes and returns all values with keys less than or equal to `untilEpoch`,
and whether the queue changed. -/
def popUntil (q : BitFieldQueue) (untilEpoch : Int) :
    Except String (BitFieldQueue × Finset Nat × Bool) := do
  let popped ← q.amt.forEachWhile (popStep untilEpoch) (∅, [])
  -- nothing expired
  if popped.2.isEmpty then return (q, ∅, false)
  let amt ← q.amt.batchDelete popped.2 true
  return ({ q with amt }, popped.1, true)

/-! ## The queue as a map from epochs to sets -/

/-- The set queued at an epoch, empty where there is no entry. -/
def abs (q : BitFieldQueue) (k : Nat) : Finset Nat :=
  (q.amt.get? k).getD ∅

/-- Every key is a quantized epoch and every entry is non-empty. -/
structure WellFormed (q : BitFieldQueue) : Prop where
  quantized : ∀ k v, q.amt.get? k = some v → q.quant.quantizeUp k = k
  nonempty : ∀ k v, q.amt.get? k = some v → v.Nonempty

theorem mem_abs {q : BitFieldQueue} {k v : Nat} :
    v ∈ q.abs k ↔ ∃ w, q.amt.get? k = some w ∧ v ∈ w := by
  unfold abs
  cases q.amt.get? k <;> simp

/-- A queue whose entries are entries of a well-formed one, or non-empty
entries at quantized keys, is well formed. -/
theorem WellFormed.of_get? {q q' : BitFieldQueue} (hq : q.WellFormed) (hquant : q'.quant = q.quant)
    (h : ∀ k v, q'.amt.get? k = some v →
      q.amt.get? k = some v ∨ q.quant.quantizeUp k = k ∧ v.Nonempty) :
    q'.WellFormed := by
  constructor
  · intro k v hv
    rw [hquant]
    rcases h k v hv with hold | ⟨hk, -⟩
    · exact hq.quantized k v hold
    · exact hk
  · intro k v hv
    rcases h k v hv with hold | ⟨-, hne⟩
    · exact hq.nonempty k v hold
    · exact hne

/-! ## `add_to_queue` -/

section AddToQueue

variable (q : BitFieldQueue) (e : Int) {values : Finset Nat}

theorem addToQueue_of_empty (h : values = ∅) : q.addToQueue e values = .ok q := by
  simp [addToQueue, h]

theorem addToQueue_of_neg (h : values ≠ ∅) (hneg : q.quant.quantizeUp e < 0) :
    q.addToQueue e values = .error "out of range integral type conversion attempted" := by
  simp [addToQueue, h, hneg]

theorem addToQueue_of_nonneg (h : values ≠ ∅) (hnn : 0 ≤ q.quant.quantizeUp e) :
    q.addToQueue e values = .ok { q with amt := (q.amt.set (q.quant.quantizeUp e).toNat
      (q.abs (q.quant.quantizeUp e).toNat ∪ values)) } := by
  simp [addToQueue, h, not_lt.mpr hnn, abs]

/-- Adding a non-empty set at a non-negative epoch unions it into the map at
the quantized epoch. -/
theorem abs_addToQueue (h : values ≠ ∅) (hnn : 0 ≤ q.quant.quantizeUp e) :
    ∃ q', q.addToQueue e values = .ok q' ∧ q'.quant = q.quant ∧
      ∀ k : Nat, q'.abs k = if (k : Int) = q.quant.quantizeUp e then q.abs k ∪ values
        else q.abs k := by
  refine ⟨_, q.addToQueue_of_nonneg e h hnn, rfl, fun k => ?_⟩
  -- the written key is the epoch itself, read back as a natural number
  have hkey : k = (q.quant.quantizeUp e).toNat ↔ (k : Int) = q.quant.quantizeUp e := by omega
  by_cases hk : (k : Int) = q.quant.quantizeUp e
  · rw [if_pos hk, hkey.mpr hk]
    simp [abs]
  · rw [if_neg hk]
    simp [abs, mt hkey.mp hk]

theorem WellFormed.addToQueue {q q' : BitFieldQueue} {e : Int} {values : Finset Nat}
    (hq : q.WellFormed) (h : q.addToQueue e values = .ok q') : q'.WellFormed := by
  by_cases hv : values = ∅
  · rw [addToQueue_of_empty q e hv] at h
    cases h
    exact hq
  by_cases hneg : q.quant.quantizeUp e < 0
  · rw [addToQueue_of_neg q e hv hneg] at h
    cases h
  rw [addToQueue_of_nonneg q e hv (not_lt.mp hneg)] at h
  cases h
  refine hq.of_get? rfl fun k v hkv => ?_
  rw [OrdMap.get?_set] at hkv
  split_ifs at hkv with hk
  · -- the entry written: at a quantized epoch, and holding `values`
    right
    cases hkv
    refine ⟨?_, Finset.nonempty_iff_ne_empty.mpr fun h0 => hv ?_⟩
    · rw [hk, Int.toNat_of_nonneg (not_lt.mp hneg), QuantSpec.quantizeUp_idem]
    · exact Finset.subset_empty.mp (h0 ▸ Finset.subset_union_right)
  · exact .inl hkv

theorem addToQueue_quant {q' : BitFieldQueue} (h : q.addToQueue e values = .ok q') :
    q'.quant = q.quant := by
  by_cases hv : values = ∅
  · rw [addToQueue_of_empty q e hv] at h
    cases h
    rfl
  by_cases hneg : q.quant.quantizeUp e < 0
  · rw [addToQueue_of_neg q e hv hneg] at h
    cases h
  rw [addToQueue_of_nonneg q e hv (not_lt.mp hneg)] at h
  cases h
  rfl

/-- An entry after `add_to_queue` holds what it held and the values added. -/
theorem abs_addToQueue_subset {q' : BitFieldQueue} (h : q.addToQueue e values = .ok q') (k : Nat) :
    q'.abs k ⊆ q.abs k ∪ values := by
  by_cases hv : values = ∅
  · rw [addToQueue_of_empty q e hv] at h
    cases h
    exact Finset.subset_union_left
  by_cases hneg : q.quant.quantizeUp e < 0
  · rw [addToQueue_of_neg q e hv hneg] at h
    cases h
  obtain ⟨q'', h'', -, habs⟩ := abs_addToQueue q e hv (not_lt.mp hneg)
  rw [h'', Except.ok.injEq] at h
  subst h
  rw [habs k]
  split_ifs
  · exact subset_rfl
  · exact Finset.subset_union_left

end AddToQueue

/-! ## `cut` -/

theorem cutStep_eq (toCut : Finset Nat) (s : List Nat) (k : Nat) (v : Finset Nat) :
    cutStep toCut s k v = .ok (if BitField.cut v toCut = ∅ then s ++ [k] else s,
      if BitField.cut v toCut = ∅ then v else BitField.cut v toCut, true) := by
  unfold cutStep
  dsimp only
  split_ifs <;> rfl

/-- The walk collects the keys of the entries that `p` selects, in order. -/
theorem foldl_keys_filter (P : Nat × Finset Nat → Prop) [DecidablePred P] :
    ∀ (l : List (Nat × Finset Nat)) (acc : List Nat),
      l.foldl (fun s e => if P e then s ++ [e.1] else s) acc =
        acc ++ (l.filter fun e => decide (P e)).map Prod.fst
  | [], acc => by simp
  | e :: l, acc => by
    rw [List.foldl_cons, foldl_keys_filter P l]
    by_cases he : P e <;> simp [he]

/-- `cut` replaces each entry by its cut and deletes the entries that become
empty. -/
theorem cut_spec (q : BitFieldQueue) (toCut : Finset Nat) :
    ∃ q', q.cut toCut = .ok q' ∧ q'.quant = q.quant ∧
      ∀ k, q'.amt.get? k = (q.amt.get? k).bind fun v =>
        if BitField.cut v toCut = ∅ then none else some (BitField.cut v toCut) := by
  obtain ⟨m', hwalk, hm'⟩ := OrdMap.forEachWhileMut_map _ _ (cutStep_eq toCut) q.amt []
  rw [foldl_keys_filter (fun e => BitField.cut e.2 toCut = ∅), List.nil_append] at hwalk
  -- the emptied keys are distinct and still present after the walk
  have hmem : ∀ k, k ∈ (q.amt.entries.filter fun e => decide (BitField.cut e.2 toCut = ∅)).map
      Prod.fst ↔ ∃ v, q.amt.get? k = some v ∧ BitField.cut v toCut = ∅ := by
    intro k
    simp only [OrdMap.mem_keys_filter, decide_eq_true_eq]
  have hpresent : ∀ k ∈ (q.amt.entries.filter fun e => decide (BitField.cut e.2 toCut = ∅)).map
      Prod.fst, (m'.get? k).isSome := by
    intro k hk
    obtain ⟨v, hv, -⟩ := (hmem k).mp hk
    simp [hm', hv]
  obtain ⟨amt, hdel⟩ := OrdMap.batchDelete_true_ok _ m' (OrdMap.keys_filter_nodup q.amt _) hpresent
  have hrun : q.cut toCut = .ok { q with amt } := by
    simp only [cut, hwalk, bind, Except.bind, Except.mapError, hdel]
    rfl
  refine ⟨{ q with amt }, hrun, rfl, fun k => ?_⟩
  rw [OrdMap.batchDelete_get? _ m' amt true hdel k, hm']
  cases hv : q.amt.get? k with
  | none => simp
  | some v =>
    by_cases hc : BitField.cut v toCut = ∅
    · simp [hmem, hv, hc]
    · simp [hmem, hv, hc]

theorem abs_cut {q q' : BitFieldQueue} {toCut : Finset Nat}
    (h : ∀ k, q'.amt.get? k = (q.amt.get? k).bind fun v =>
      if BitField.cut v toCut = ∅ then none else some (BitField.cut v toCut)) (k : Nat) :
    q'.abs k = BitField.cut (q.abs k) toCut := by
  unfold abs
  rw [h k]
  cases q.amt.get? k with
  | none => simp
  | some v => by_cases hc : BitField.cut v toCut = ∅ <;> simp [hc]

theorem WellFormed.cut {q q' : BitFieldQueue} {toCut : Finset Nat} (hq : q.WellFormed)
    (hquant : q'.quant = q.quant)
    (h : ∀ k, q'.amt.get? k = (q.amt.get? k).bind fun v =>
      if BitField.cut v toCut = ∅ then none else some (BitField.cut v toCut)) :
    q'.WellFormed := by
  refine hq.of_get? hquant fun k v hv => ?_
  rw [h k] at hv
  cases hold : q.amt.get? k with
  | none => simp [hold] at hv
  | some w =>
    simp only [hold, Option.bind_some] at hv
    split_ifs at hv with hc
    cases hv
    exact .inr ⟨hq.quantized k w hold, Finset.nonempty_iff_ne_empty.mpr hc⟩

/-! ## `pop_until` -/

section PopUntil

variable (untilEpoch : Int)

/-- The walk of `pop_until` visits the epochs at or below `untilEpoch`. -/
theorem forEachWhile_popStep (m : OrdMap Nat (Finset Nat)) :
    m.forEachWhile (popStep untilEpoch) (∅, []) =
      .ok ((m.entries.filter fun e => decide ((e.1 : Int) ≤ untilEpoch)).foldl
        (fun s e => (s.1 ∪ e.2, s.2 ++ [e.1])) (∅, [])) := by
  refine OrdMap.forEachWhile_prefix (fun k : Nat => decide ((k : Int) ≤ untilEpoch))
    (fun s (k : Nat) v => (s.1 ∪ v, s.2 ++ [k])) ?_ ?_ ?_ m _
  · -- a key below a popped key is popped too
    intro a b hab hb
    simp only [decide_eq_true_eq] at hb ⊢
    omega
  · intro s k v hk
    simp only [decide_eq_true_eq] at hk
    simp [popStep, not_lt.mpr hk]
  · intro s k v hk
    simp only [decide_eq_false_iff_not, not_le] at hk
    simp [popStep, hk]

/-- What the walk accumulates: every value of the entries visited, and their
keys in order. -/
theorem foldl_pop (l : List (Nat × Finset Nat)) :
    ∀ acc : Finset Nat × List Nat,
      (∀ v, v ∈ (l.foldl (fun s e => (s.1 ∪ e.2, s.2 ++ [e.1])) acc).1 ↔
        v ∈ acc.1 ∨ ∃ e ∈ l, v ∈ e.2) ∧
      (l.foldl (fun s e => (s.1 ∪ e.2, s.2 ++ [e.1])) acc).2 = acc.2 ++ l.map Prod.fst := by
  induction l with
  | nil => simp
  | cons e l ih =>
    intro acc
    obtain ⟨ih₁, ih₂⟩ := ih (acc.1 ∪ e.2, acc.2 ++ [e.1])
    refine ⟨fun v => ?_, by simp [ih₂]⟩
    rw [List.foldl_cons, ih₁ v]
    simp only [Finset.mem_union, List.mem_cons, exists_eq_or_imp]
    tauto

/-- `pop_until` takes the union of the entries at or below `untilEpoch`, removes
exactly those entries, and reports a change iff there was one. -/
theorem popUntil_spec (q : BitFieldQueue) :
    ∃ q' popped modified, q.popUntil untilEpoch = .ok (q', popped, modified) ∧
      q'.quant = q.quant ∧
      (∀ k, q'.amt.get? k = if (k : Int) ≤ untilEpoch then none else q.amt.get? k) ∧
      (∀ v, v ∈ popped ↔ ∃ k : Nat, (k : Int) ≤ untilEpoch ∧ v ∈ q.abs k) ∧
      (modified = true ↔ ∃ k ∈ q.amt.keys, (k : Int) ≤ untilEpoch) := by
  let below : Nat × Finset Nat → Bool := fun e => decide ((e.1 : Int) ≤ untilEpoch)
  let sel := q.amt.entries.filter below
  have hwalk : q.amt.forEachWhile (popStep untilEpoch) (∅, []) =
      .ok (sel.foldl (fun s e => (s.1 ∪ e.2, s.2 ++ [e.1])) (∅, [])) :=
    forEachWhile_popStep untilEpoch q.amt
  obtain ⟨hvals, hkeys⟩ := foldl_pop sel (∅, [])
  generalize sel.foldl (fun s e => (s.1 ∪ e.2, s.2 ++ [e.1])) (∅, []) = popped at hwalk hvals hkeys
  replace hkeys : popped.2 = sel.map Prod.fst := by simpa using hkeys
  have hmem : ∀ k, k ∈ sel.map Prod.fst ↔ (k : Int) ≤ untilEpoch ∧ (q.amt.get? k).isSome := by
    intro k
    rw [OrdMap.mem_keys_filter]
    constructor
    · rintro ⟨v, hv, hk⟩
      exact ⟨by simpa [below] using hk, by simp [hv]⟩
    · rintro ⟨hk, hs⟩
      obtain ⟨v, hv⟩ := Option.isSome_iff_exists.mp hs
      exact ⟨v, hv, by simpa [below] using hk⟩
  -- the values popped are those of the entries at or below `untilEpoch`
  have hpopped : ∀ v, (∃ e ∈ sel, v ∈ e.2) ↔ ∃ k : Nat, (k : Int) ≤ untilEpoch ∧ v ∈ q.abs k := by
    intro v
    constructor
    · rintro ⟨⟨k, w⟩, he, hv⟩
      obtain ⟨he, hk⟩ := List.mem_filter.mp he
      exact ⟨k, by simpa [below] using hk, mem_abs.mpr ⟨w, OrdMap.get?_eq_some_iff.mpr he, hv⟩⟩
    · rintro ⟨k, hk, hv⟩
      obtain ⟨w, hw, hv⟩ := mem_abs.mp hv
      exact ⟨(k, w), List.mem_filter.mpr ⟨OrdMap.get?_eq_some_iff.mp hw, by simpa [below] using hk⟩,
        hv⟩
  have hmodified : (∃ k ∈ q.amt.keys, (k : Int) ≤ untilEpoch) ↔ ∃ k, k ∈ sel.map Prod.fst := by
    simp only [hmem, OrdMap.mem_keys]
    tauto
  by_cases hnone : sel.map Prod.fst = []
  · -- nothing at or below `untilEpoch`: the queue is left as it was
    refine ⟨q, ∅, false, ?_, rfl, fun k => ?_, fun v => ?_, ?_⟩
    · simp only [popUntil, hwalk, bind, Except.bind, hkeys]
      rw [if_pos (by simpa using hnone)]
      rfl
    · split_ifs with hk
      · have := (hmem k).not.mp (by rw [hnone]; simp)
        simpa [hk] using this
      · rfl
    · rw [← hpopped, List.map_eq_nil_iff.mp hnone]
      simp
    · simp [hmodified, hnone]
  · obtain ⟨amt, hdel⟩ := OrdMap.batchDelete_true_ok (sel.map Prod.fst) q.amt
      (OrdMap.keys_filter_nodup q.amt below) fun k hk => ((hmem k).mp hk).2
    refine ⟨{ q with amt }, popped.1, true, ?_, rfl, fun k => ?_, fun v => ?_, ?_⟩
    · simp only [popUntil, hwalk, bind, Except.bind, hkeys]
      rw [if_neg (by simpa using hnone), hdel]
      rfl
    · rw [OrdMap.batchDelete_get? _ q.amt amt true hdel k]
      simp only [hmem]
      by_cases hk : (k : Int) ≤ untilEpoch
      · cases q.amt.get? k <;> simp [hk]
      · simp [hk]
    · rw [hvals, ← hpopped]
      simp
    · simpa [hmodified] using List.exists_mem_of_ne_nil _ hnone

theorem WellFormed.popUntil {q q' : BitFieldQueue} (hq : q.WellFormed)
    (hquant : q'.quant = q.quant)
    (h : ∀ k, q'.amt.get? k = if (k : Int) ≤ untilEpoch then none else q.amt.get? k) :
    q'.WellFormed := by
  refine hq.of_get? hquant fun k v hv => .inl ?_
  rw [h k] at hv
  split_ifs at hv
  exact hv

end PopUntil

/-! ## `add_many_to_queue_values` -/

section AddMany

theorem mem_consRun (p : Int × Nat) (runs : List (Int × List Nat)) (e : Int) (v : Nat) :
    (∃ r ∈ consRun p runs, r.1 = e ∧ v ∈ r.2) ↔ p = (e, v) ∨ ∃ r ∈ runs, r.1 = e ∧ v ∈ r.2 := by
  obtain ⟨e₀, v₀⟩ := p
  cases runs with
  | nil => simp [consRun, eq_comm]
  | cons run runs =>
    simp only [consRun]
    split_ifs with h
    · -- the pair joins the first run, which has its epoch
      simp only [List.mem_cons, exists_eq_or_imp, Prod.mk.injEq, @eq_comm _ v₀ v, ← h]
      tauto
    · simp only [List.mem_cons, exists_eq_or_imp, Prod.mk.injEq, @eq_comm _ v₀ v]
      tauto

theorem consRun_ne_nil {p : Int × Nat} {runs : List (Int × List Nat)}
    (h : ∀ r ∈ runs, r.2 ≠ []) : ∀ r ∈ consRun p runs, r.2 ≠ [] := by
  cases runs with
  | nil => simp [consRun]
  | cons run runs =>
    simp only [consRun]
    split_ifs
    · intro r hr
      rcases List.mem_cons.mp hr with rfl | hr
      · simp
      · exact h r (List.mem_cons_of_mem _ hr)
    · intro r hr
      rcases List.mem_cons.mp hr with rfl | hr
      · simp
      · exact h r hr

/-- The runs hold every pair, each value under its epoch. -/
theorem mem_groupRuns (e : Int) (v : Nat) :
    ∀ l : List (Int × Nat), (∃ r ∈ groupRuns l, r.1 = e ∧ v ∈ r.2) ↔ (e, v) ∈ l
  | [] => by simp [groupRuns]
  | p :: l => by
    rw [groupRuns, mem_consRun, mem_groupRuns e v l, List.mem_cons, eq_comm]

theorem groupRuns_ne_nil : ∀ l : List (Int × Nat), ∀ r ∈ groupRuns l, r.2 ≠ []
  | [] => by simp [groupRuns]
  | _ :: l => consRun_ne_nil (groupRuns_ne_nil l)

/-- Dropping repeats in a row keeps every element. -/
theorem mem_destutter' {α : Type} [DecidableEq α] {x : α} :
    ∀ (l : List α) (a : α), x ∈ a :: l → x ∈ l.destutter' (· ≠ ·) a
  | [], a, h => by simpa using h
  | b :: l, a, h => by
    by_cases hab : a ≠ b
    · rw [List.destutter'_cons_pos _ hab]
      rcases List.mem_cons.mp h with rfl | h
      · exact List.mem_cons_self
      · exact List.mem_cons_of_mem _ (mem_destutter' l b h)
    · rw [List.destutter'_cons_neg _ hab]
      rw [not_not] at hab
      subst hab
      exact mem_destutter' l a (by simpa using h)

theorem mem_destutter {α : Type} [DecidableEq α] {x : α} {l : List α} :
    x ∈ l.destutter (· ≠ ·) ↔ x ∈ l := by
  refine ⟨fun h => (List.destutter_sublist _ l).subset h, fun h => ?_⟩
  cases l with
  | nil => simp at h
  | cons a l =>
    rw [List.destutter_cons']
    exact mem_destutter' l a h

/-- Adding runs one after the other unions each run's values at its epoch,
when every epoch is non-negative. -/
theorem foldlM_addToQueueValues_ok :
    ∀ (runs : List (Int × List Nat)) (q : BitFieldQueue), (∀ r ∈ runs, r.2 ≠ []) →
      (∀ r ∈ runs, 0 ≤ q.quant.quantizeUp r.1) →
      ∃ q', runs.foldlM (fun acc run => acc.addToQueueValues run.1 run.2) q = .ok q' ∧
        q'.quant = q.quant ∧ (q.WellFormed → q'.WellFormed) ∧
        ∀ k v, v ∈ q'.abs k ↔
          v ∈ q.abs k ∨ ∃ r ∈ runs, q.quant.quantizeUp r.1 = k ∧ v ∈ r.2
  | [], q, _, _ => ⟨q, rfl, rfl, id, by simp⟩
  | run :: runs, q, hne, hnn => by
    have hvals : run.2.toFinset ≠ ∅ := by
      simpa [Finset.eq_empty_iff_forall_notMem, List.eq_nil_iff_forall_not_mem] using
        hne run List.mem_cons_self
    obtain ⟨q₁, h₁, hquant₁, habs₁⟩ := q.abs_addToQueue run.1 hvals (hnn run List.mem_cons_self)
    obtain ⟨q', h', hquant', hwf', habs'⟩ := foldlM_addToQueueValues_ok runs q₁
      (fun r hr => hne r (List.mem_cons_of_mem _ hr))
      (fun r hr => hquant₁ ▸ hnn r (List.mem_cons_of_mem _ hr))
    refine ⟨q', ?_, hquant'.trans hquant₁, fun hq => hwf' (hq.addToQueue h₁), fun k v => ?_⟩
    · simp only [List.foldlM_cons, addToQueueValues, h₁]
      exact h'
    · rw [habs', habs₁, hquant₁]
      split_ifs with hk
      · simp only [Finset.mem_union, List.mem_toFinset, List.mem_cons, exists_eq_or_imp, hk]
        tauto
      · simp only [List.mem_cons, exists_eq_or_imp]
        tauto

/-- Adding runs one after the other fails once a run has a negative epoch. -/
theorem foldlM_addToQueueValues_error :
    ∀ (runs : List (Int × List Nat)) (q : BitFieldQueue), (∀ r ∈ runs, r.2 ≠ []) →
      (∃ r ∈ runs, q.quant.quantizeUp r.1 < 0) →
      ∃ err, runs.foldlM (fun acc run => acc.addToQueueValues run.1 run.2) q = .error err
  | [], _, _, hneg => by simp at hneg
  | run :: runs, q, hne, hneg => by
    have hvals : run.2.toFinset ≠ ∅ := by
      simpa [Finset.eq_empty_iff_forall_notMem, List.eq_nil_iff_forall_not_mem] using
        hne run List.mem_cons_self
    by_cases hrun : q.quant.quantizeUp run.1 < 0
    · -- this run fails
      refine ⟨"out of range integral type conversion attempted", ?_⟩
      simp only [List.foldlM_cons, addToQueueValues, q.addToQueue_of_neg run.1 hvals hrun]
      rfl
    · obtain ⟨q₁, h₁, hquant₁, -⟩ := q.abs_addToQueue run.1 hvals (not_lt.mp hrun)
      have hneg' : ∃ r ∈ runs, q₁.quant.quantizeUp r.1 < 0 := by
        obtain ⟨r, hr, hlt⟩ := hneg
        rcases List.mem_cons.mp hr with rfl | hr
        · exact absurd hlt hrun
        · exact ⟨r, hr, hquant₁ ▸ hlt⟩
      obtain ⟨err, h'⟩ := foldlM_addToQueueValues_error runs q₁
        (fun r hr => hne r (List.mem_cons_of_mem _ hr)) hneg'
      refine ⟨err, ?_⟩
      simp only [List.foldlM_cons, addToQueueValues, h₁]
      exact h'

/-- The runs `add_many_to_queue_values` adds hold exactly the quantized pairs. -/
theorem mem_runs (q : BitFieldQueue) (values : List (Int × Nat)) (e : Int) (v : Nat) :
    (∃ r ∈ groupRuns (((values.map fun p => (q.quant.quantizeUp p.1, p.2)).mergeSort
        pairLe).destutter (· ≠ ·)), r.1 = e ∧ v ∈ r.2) ↔
      ∃ p ∈ values, q.quant.quantizeUp p.1 = e ∧ p.2 = v := by
  rw [mem_groupRuns, mem_destutter, List.mem_mergeSort, List.mem_map]
  simp only [Prod.ext_iff]

/-- `add_many_to_queue_values` fails when some value's quantized epoch is negative. -/
theorem addManyToQueueValues_error (q : BitFieldQueue) (values : List (Int × Nat))
    (hneg : ∃ p ∈ values, q.quant.quantizeUp p.1 < 0) :
    ∃ err, q.addManyToQueueValues values = .error err := by
  obtain ⟨p, hp, hlt⟩ := hneg
  -- the run that holds `p` has its quantized epoch
  obtain ⟨r, hr, hr₁, -⟩ := (mem_runs q values (q.quant.quantizeUp p.1) p.2).mpr ⟨p, hp, rfl, rfl⟩
  unfold addManyToQueueValues
  dsimp only
  refine foldlM_addToQueueValues_error _ q (groupRuns_ne_nil _) ⟨r, hr, ?_⟩
  rw [hr₁, QuantSpec.quantizeUp_idem]
  exact hlt

/-- `add_many_to_queue_values` unions each value into the map at its quantized
epoch, when no quantized epoch is negative. -/
theorem addManyToQueueValues_ok (q : BitFieldQueue) (values : List (Int × Nat))
    (hnn : ∀ p ∈ values, 0 ≤ q.quant.quantizeUp p.1) :
    ∃ q', q.addManyToQueueValues values = .ok q' ∧ q'.quant = q.quant ∧
      (q.WellFormed → q'.WellFormed) ∧
      ∀ k v : Nat, v ∈ q'.abs k ↔
        v ∈ q.abs k ∨ ∃ p ∈ values, q.quant.quantizeUp p.1 = k ∧ p.2 = v := by
  have hmem := mem_runs q values
  have hne := groupRuns_ne_nil (((values.map fun p => (q.quant.quantizeUp p.1, p.2)).mergeSort
    pairLe).destutter (· ≠ ·))
  unfold addManyToQueueValues
  dsimp only
  generalize groupRuns (((values.map fun p => (q.quant.quantizeUp p.1, p.2)).mergeSort
    pairLe).destutter (· ≠ ·)) = runs at hmem hne ⊢
  -- every run's epoch is a quantized epoch of some value, so it is already quantized
  have hquantized : ∀ r ∈ runs, ∃ p ∈ values, q.quant.quantizeUp r.1 = q.quant.quantizeUp p.1 := by
    intro r hr
    obtain ⟨v, hv⟩ := List.exists_mem_of_ne_nil _ (hne r hr)
    obtain ⟨p, hp, hp₁, -⟩ := (hmem r.1 v).mp ⟨r, hr, rfl, hv⟩
    exact ⟨p, hp, by rw [← hp₁, QuantSpec.quantizeUp_idem]⟩
  have hruns : ∀ r ∈ runs, 0 ≤ q.quant.quantizeUp r.1 := by
    intro r hr
    obtain ⟨p, hp, heq⟩ := hquantized r hr
    rw [heq]
    exact hnn p hp
  obtain ⟨q', h, hquant, hwf, habs⟩ := foldlM_addToQueueValues_ok runs q hne hruns
  refine ⟨q', h, hquant, hwf, fun k v => ?_⟩
  rw [habs]
  have hvalues : (∃ r ∈ runs, q.quant.quantizeUp r.1 = k ∧ v ∈ r.2) ↔
      ∃ p ∈ values, q.quant.quantizeUp p.1 = k ∧ p.2 = v := by
    constructor
    · rintro ⟨r, hr, hk, hv⟩
      obtain ⟨p, hp, hp₁, hp₂⟩ := (hmem r.1 v).mp ⟨r, hr, rfl, hv⟩
      exact ⟨p, hp, by rw [← hk, ← hp₁, QuantSpec.quantizeUp_idem], hp₂⟩
    · rintro ⟨p, hp, hk, hv⟩
      obtain ⟨r, hr, hr₁, hrv⟩ := (hmem (q.quant.quantizeUp p.1) v).mpr ⟨p, hp, rfl, hv⟩
      exact ⟨r, hr, by rw [hr₁, QuantSpec.quantizeUp_idem, hk], hrv⟩
  rw [hvalues]

end AddMany

/-! ## The laws of the queue -/

theorem bitfield_queue_laws (q : BitFieldQueue) (hq : q.WellFormed) :
    (∀ (e : Int) (values : Finset Nat),
      (values = ∅ → q.addToQueue e values = .ok q) ∧
      (values ≠ ∅ → q.quant.quantizeUp e < 0 → ∃ err, q.addToQueue e values = .error err) ∧
      (values ≠ ∅ → 0 ≤ q.quant.quantizeUp e → ∃ q', q.addToQueue e values = .ok q' ∧
        q'.quant = q.quant ∧ q'.WellFormed ∧
        ∀ k : Nat, q'.abs k = if (k : Int) = q.quant.quantizeUp e then q.abs k ∪ values
          else q.abs k)) ∧
    (∀ values : List (Int × Nat),
      ((∃ p ∈ values, q.quant.quantizeUp p.1 < 0) →
        ∃ err, q.addManyToQueueValues values = .error err) ∧
      ((∀ p ∈ values, 0 ≤ q.quant.quantizeUp p.1) →
        ∃ q', q.addManyToQueueValues values = .ok q' ∧ q'.quant = q.quant ∧ q'.WellFormed ∧
          ∀ k v : Nat, v ∈ q'.abs k ↔
            v ∈ q.abs k ∨ ∃ p ∈ values, q.quant.quantizeUp p.1 = k ∧ p.2 = v)) ∧
    (∀ untilEpoch : Int, ∃ q' popped modified,
      q.popUntil untilEpoch = .ok (q', popped, modified) ∧ q'.quant = q.quant ∧ q'.WellFormed ∧
      (∀ v, v ∈ popped ↔ ∃ k : Nat, (k : Int) ≤ untilEpoch ∧ v ∈ q.abs k) ∧
      (∀ k, q'.amt.get? k = if (k : Int) ≤ untilEpoch then none else q.amt.get? k) ∧
      (modified = true ↔ ∃ k ∈ q.amt.keys, (k : Int) ≤ untilEpoch)) ∧
    (∀ toCut : Finset Nat, ∃ q', q.cut toCut = .ok q' ∧ q'.quant = q.quant ∧ q'.WellFormed ∧
      (∀ k, q'.amt.get? k = (q.amt.get? k).bind fun v =>
        if BitField.cut v toCut = ∅ then none else some (BitField.cut v toCut)) ∧
      ∀ k, q'.abs k = BitField.cut (q.abs k) toCut) := by
  refine ⟨fun e values => ⟨q.addToQueue_of_empty e, fun h hneg => ⟨_, q.addToQueue_of_neg e h hneg⟩,
    fun h hnn => ?_⟩, fun values => ⟨q.addManyToQueueValues_error values, fun hnn => ?_⟩,
    fun untilEpoch => ?_, fun toCut => ?_⟩
  · obtain ⟨q', hadd, hquant, habs⟩ := q.abs_addToQueue e h hnn
    exact ⟨q', hadd, hquant, hq.addToQueue hadd, habs⟩
  · obtain ⟨q', hadd, hquant, hwf, habs⟩ := q.addManyToQueueValues_ok values hnn
    exact ⟨q', hadd, hquant, hwf hq, habs⟩
  · obtain ⟨q', popped, modified, hpop, hquant, hget, hpopped, hmodified⟩ :=
      popUntil_spec untilEpoch q
    exact ⟨q', popped, modified, hpop, hquant, hq.popUntil untilEpoch hquant hget, hpopped, hget,
      hmodified⟩
  · obtain ⟨q', hcut, hquant, hget⟩ := q.cut_spec toCut
    exact ⟨q', hcut, hquant, hq.cut hquant hget, hget, abs_cut hget⟩

theorem bitfield_queue_laws_single_entry :
    let q : BitFieldQueue := ⟨OrdMap.empty.set 5 {1, 2}, ⟨4, 1⟩⟩
    q.WellFormed ∧ ({3} : Finset Nat) ≠ ∅ ∧ 0 ≤ q.quant.quantizeUp 6 ∧
      (∃ q', q.addToQueue 6 {3} = .ok q' ∧ q'.WellFormed) ∧
      (∃ q', q.cut {1} = .ok q' ∧ q'.WellFormed) := by
  intro q
  have hwf : q.WellFormed := by
    constructor
    · intro k v hkv
      simp only [q, OrdMap.get?_set, OrdMap.get?_empty] at hkv
      split_ifs at hkv with hk
      subst hk
      decide
    · intro k v hkv
      simp only [q, OrdMap.get?_set, OrdMap.get?_empty] at hkv
      split_ifs at hkv
      cases hkv
      decide
  have hne : ({3} : Finset Nat) ≠ ∅ := by decide
  have hnn : 0 ≤ q.quant.quantizeUp 6 := by decide
  obtain ⟨q₁, h₁, -, hwf₁, -⟩ := ((bitfield_queue_laws q hwf).1 6 {3}).2.2 hne hnn
  obtain ⟨q₂, h₂, -, hwf₂, -, -⟩ := (bitfield_queue_laws q hwf).2.2.2 {1}
  exact ⟨hwf, hne, hnn, ⟨q₁, h₁, hwf₁⟩, ⟨q₂, h₂, hwf₂⟩⟩

end BitFieldQueue

end BuiltinActors.Miner
