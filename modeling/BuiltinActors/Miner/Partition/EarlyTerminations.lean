import BuiltinActors.Miner.Partition

/-! # Processing early terminations

`pop_early_terminations` walks the partition's early termination queue in
epoch order and takes sectors until `max_sectors` of them are taken. It takes
whole entries while they fit, then the first sectors of the entry where the
budget runs out, and leaves the rest of that entry in place.

What it returns and what it leaves split every entry of the queue. It takes
at most `max_sectors` sectors and counts exactly what it returns. Either it
empties the queue or it uses the whole budget, and it reports more exactly
when sectors are left. -/

namespace BuiltinActors.Miner

/-! ## The result map

A result holds its sectors by epoch, with the queue's sector-number epochs as
keys. -/

theorem get?_set_natCast {ν : Type} (m : OrdMap Int ν) (i k : Nat) (v : ν) :
    (m.set i v).get? k = if k = i then some v else m.get? k := by
  rw [OrdMap.get?_set]
  simp only [Nat.cast_inj]

/-- Epochs stay non-negative when one of the queue's is added. -/
theorem nonneg_of_get?_set {ν : Type} {m : OrdMap Int ν} (h : ∀ e v, m.get? e = some v → 0 ≤ e)
    (i : Nat) (v : ν) : ∀ e w, (m.set i v).get? e = some w → 0 ≤ e := by
  intro e w hw
  rw [OrdMap.get?_set] at hw
  split_ifs at hw with he
  · rw [he]
    exact Int.natCast_nonneg i
  · exact h e w hw

namespace Partition

/-! ## One entry -/

/-- One entry of the walk: either the budget runs out inside it, so that the
first sectors are taken, the rest is kept and the walk stops; or the whole
entry is taken. -/
theorem earlyStep_cases {maxSectors : Nat} {acc acc' : EarlyWalk} {i : Nat}
    {sectors : Finset Nat} {go : Bool} (h : earlyStep maxSectors acc i sectors = .ok (acc', go)) :
    (∃ T ⊆ sectors, T.card = maxSectors - acc.result.sectorsProcessed ∧ T.card < sectors.card ∧
      go = false ∧
      acc' = { acc with
        remaining := some (sectors \ T, i)
        result := { acc.result with
          sectorsProcessed := acc.result.sectorsProcessed + T.card
          sectors := acc.result.sectors.set i T } }) ∨
    (sectors.card ≤ maxSectors - acc.result.sectorsProcessed ∧
      go = decide (acc.result.sectorsProcessed + sectors.card < maxSectors) ∧
      acc' = { acc with
        processed := acc.processed ++ [i]
        result := { acc.result with
          sectorsProcessed := acc.result.sectorsProcessed + sectors.card
          sectors := acc.result.sectors.set i sectors } }) := by
  unfold earlyStep at h
  by_cases hl : maxSectors - acc.result.sectorsProcessed < sectors.card
  · simp only [hl, if_true, Except.ok.injEq, Prod.mk.injEq] at h
    obtain ⟨rfl, rfl⟩ := h
    -- the first sectors, as many as the budget allows, all distinct
    set L := (sectors.sort (· ≤ ·)).take (maxSectors - acc.result.sectorsProcessed)
    have hcard : L.toFinset.card = maxSectors - acc.result.sectorsProcessed := by
      rw [List.toFinset_card_of_nodup ((Finset.sort_nodup _ _).sublist (List.take_sublist _ _)),
        List.length_take, Finset.length_sort]
      omega
    refine .inl ⟨L.toFinset, fun n hn => ?_, hcard, hcard ▸ hl, ?_, ?_⟩
    · rw [List.mem_toFinset] at hn
      exact (Finset.mem_sort _).mp (List.mem_of_mem_take hn)
    · simp only [decide_eq_false_iff_not, not_lt]
      omega
    · rw [hcard]
  · simp only [hl, if_false, Except.ok.injEq, Prod.mk.injEq] at h
    obtain ⟨rfl, rfl⟩ := h
    exact .inr ⟨Nat.le_of_not_lt hl, rfl, rfl⟩

/-! ## The walk -/

/-- What the walk has done after the entries `done`, each taken whole: their
epochs are to be deleted and are returned with their sectors, the count is
theirs and within the budget, and nothing is left over. -/
structure EarlyDone (maxSectors : Nat) (s : EarlyWalk) (done : List (Nat × Finset Nat)) :
    Prop where
  remaining : s.remaining = none
  processed : s.processed = done.map Prod.fst
  taken : ∀ k : Nat, s.result.sectors.get? k = OrdMap.lookup k done
  epochs : ∀ e v, s.result.sectors.get? e = some v → 0 ≤ e
  count : s.result.sectors.sumBy (fun _ v => v.card) = s.result.sectorsProcessed
  total : s.result.sectorsProcessed = (done.map fun e => e.2.card).sum
  bound : s.result.sectorsProcessed ≤ maxSectors
  partitions : s.result.partitionsProcessed = 1

theorem earlyDone_init (maxSectors : Nat) :
    EarlyDone maxSectors ⟨[], none, ⟨OrdMap.empty, 1, 0⟩⟩ [] where
  remaining := rfl
  processed := rfl
  taken _ := rfl
  epochs _ _ h := by cases h
  count := rfl
  total := rfl
  bound := Nat.zero_le _
  partitions := rfl

/-- An entry at a new epoch, taken whole within the budget. -/
theorem EarlyDone.take {maxSectors : Nat} {s : EarlyWalk} {done : List (Nat × Finset Nat)}
    (hd : EarlyDone maxSectors s done) {i : Nat} {v : Finset Nat} (hfresh : i ∉ done.map Prod.fst)
    (hfit : v.card ≤ maxSectors - s.result.sectorsProcessed) :
    EarlyDone maxSectors { s with
      processed := s.processed ++ [i]
      result := { s.result with
        sectorsProcessed := s.result.sectorsProcessed + v.card
        sectors := s.result.sectors.set i v } } (done ++ [(i, v)]) := by
  have hnone : s.result.sectors.get? i = none := by
    rw [hd.taken, OrdMap.lookup_eq_none hfresh]
  refine ⟨hd.remaining, by rw [hd.processed, List.map_append]; rfl, fun k => ?_,
    nonneg_of_get?_set hd.epochs i v, ?_, ?_, ?_, hd.partitions⟩
  · -- the new epoch holds the entry; the others what they held
    show (s.result.sectors.set i v).get? k = OrdMap.lookup k (done ++ [(i, v)])
    rw [get?_set_natCast, OrdMap.lookup_append, ← hd.taken]
    by_cases hk : k = i
    · subst hk
      simp [hnone, OrdMap.lookup_cons]
    · simp [OrdMap.lookup_nil, OrdMap.lookup_cons, hk]
  · show (s.result.sectors.set i v).sumBy _ = s.result.sectorsProcessed + v.card
    rw [OrdMap.sumBy_set_of_get?_none hnone, hd.count]
  · show s.result.sectorsProcessed + v.card = _
    rw [hd.total, List.map_append, List.sum_append]
    simp
  · show s.result.sectorsProcessed + v.card ≤ maxSectors
    have := hd.bound
    omega

/-- The walk of `pop_early_terminations` either takes every entry whole, or
stops at one entry after taking the entries before it whole. -/
theorem forEachWhile_earlyStep_cases {maxSectors : Nat} {m : OrdMap Nat (Finset Nat)}
    {s : EarlyWalk}
    (h : m.forEachWhile (earlyStep maxSectors) ⟨[], none, ⟨OrdMap.empty, 1, 0⟩⟩ = .ok s) :
    EarlyDone maxSectors s m.entries ∨
      ∃ pre i v rest s₀, m.entries = pre ++ (i, v) :: rest ∧ EarlyDone maxSectors s₀ pre ∧
        earlyStep maxSectors s₀ i v = .ok (s, false) := by
  let I : EarlyWalk → List (Nat × Finset Nat) → List (Nat × Finset Nat) → Prop :=
    fun s done todo => done ++ todo = m.entries ∧ EarlyDone maxSectors s done
  have hstep : ∀ s done k v todo s', I s done ((k, v) :: todo) →
      earlyStep maxSectors s k v = .ok (s', true) → I s' (done ++ [(k, v)]) todo := by
    rintro s done k v todo s' ⟨hm, hd⟩ hf
    -- a step that goes on took its entry whole
    rcases earlyStep_cases hf with ⟨T, -, -, -, hgo, -⟩ | ⟨hfit, -, rfl⟩
    · cases hgo
    exact ⟨by rw [← hm]; simp, hd.take (OrdMap.key_notMem_prefix hm) hfit⟩
  rcases Loop.foldWhile_cases I hstep m.entries [] _ s ⟨rfl, earlyDone_init maxSectors⟩ h with
    ⟨-, hd⟩ | ⟨pre, i, v, rest, s₀, hl, ⟨-, hd⟩, hf⟩
  · exact .inl (by simpa using hd)
  · exact .inr ⟨pre, i, v, rest, s₀, by simpa using hl, by simpa using hd, hf⟩

/-- How the walk ends: some entries, a prefix of the queue, taken whole, with
either none left after them or the budget used up; or the budget used up
inside an entry after the entries before it were taken whole. -/
theorem forEachWhile_earlyStep_end {maxSectors : Nat} {m : OrdMap Nat (Finset Nat)}
    {s : EarlyWalk}
    (h : m.forEachWhile (earlyStep maxSectors) ⟨[], none, ⟨OrdMap.empty, 1, 0⟩⟩ = .ok s) :
    (∃ D todo, D ++ todo = m.entries ∧ EarlyDone maxSectors s D ∧
      (todo = [] ∨ s.result.sectorsProcessed = maxSectors)) ∨
    (∃ (pre : List (Nat × Finset Nat)) (i : Nat) (v : Finset Nat) (rest : List (Nat × Finset Nat))
      (T : Finset Nat) (s₀ : EarlyWalk), m.entries = pre ++ (i, v) :: rest ∧ EarlyDone maxSectors s₀ pre ∧
      T ⊆ v ∧ T.card < v.card ∧ s₀.result.sectorsProcessed + T.card = maxSectors ∧
      s = { s₀ with
        remaining := some (v \ T, i)
        result := { s₀.result with
          sectorsProcessed := s₀.result.sectorsProcessed + T.card
          sectors := s₀.result.sectors.set i T } }) := by
  rcases forEachWhile_earlyStep_cases h with hd | ⟨pre, i, v, rest, s₀, hm, hd, hf⟩
  · exact .inl ⟨m.entries, [], List.append_nil _, hd, .inl rfl⟩
  have hb := hd.bound
  rcases earlyStep_cases hf with ⟨T, hT, hTcard, hTlt, -, rfl⟩ | ⟨hfit, hgo, rfl⟩
  · exact .inr ⟨pre, i, v, rest, T, s₀, hm, hd, hT, hTlt, by omega, rfl⟩
  · -- the last entry was taken whole and used up the budget
    have hmax : ¬ s₀.result.sectorsProcessed + v.card < maxSectors := of_decide_eq_false hgo.symm
    exact .inl ⟨pre ++ [(i, v)], rest, by rw [hm]; simp,
      hd.take (OrdMap.key_notMem_prefix hm.symm) hfit, .inr (by dsimp only; omega)⟩

/-! ## The queue after the walk -/

/-- A key of the queue once whole entries `D`, a prefix of it, are deleted:
returned whole if it was deleted, kept whole otherwise. -/
theorem split_of_prefix {m amt : OrdMap Nat (Finset Nat)} {D todo : List (Nat × Finset Nat)}
    (hD : D ++ todo = m.entries)
    (hamt : ∀ k, amt.get? k = if k ∈ D.map Prod.fst then none else m.get? k) (k : Nat) :
    Disjoint ((OrdMap.lookup k D).getD ∅) ((amt.get? k).getD ∅) ∧
      (OrdMap.lookup k D).getD ∅ ∪ (amt.get? k).getD ∅ = (m.get? k).getD ∅ := by
  rw [OrdMap.lookup_prefix hD, hamt]
  split_ifs <;> simp

/-- An entry of the queue with some entries deleted was there before. -/
theorem get?_of_deleted {m amt : OrdMap Nat (Finset Nat)} {D : List Nat}
    (hamt : ∀ k, amt.get? k = if k ∈ D then none else m.get? k) {k : Nat} {v : Finset Nat}
    (hk : amt.get? k = some v) : m.get? k = some v := by
  rw [hamt] at hk
  split_ifs at hk
  exact hk

end Partition

/-- The sectors a termination result returns for an epoch. -/
def TerminationResult.sectorsAt (r : TerminationResult) (k : Nat) : Finset Nat :=
  (r.sectors.get? k).getD ∅

namespace Partition

/-- What a successful `pop_early_terminations` guarantees. -/
structure EarlyPop (p p' : Partition) (maxSectors : Nat) (result : TerminationResult)
    (hasMore : Bool) : Prop where
  /-- Only the early termination queue changes. -/
  frame : ∃ amt, p' = { p with earlyTerminated := amt }
  /-- At each epoch the sectors returned and those left split the entry. -/
  disjoint : ∀ k, Disjoint (result.sectorsAt k) (p'.earlyTerminationQueue.abs k)
  split : ∀ k, result.sectorsAt k ∪ p'.earlyTerminationQueue.abs k = p.earlyTerminationQueue.abs k
  /-- An entry left is one of the queue, or a non-empty part of one. -/
  entries : ∀ k v, p'.earlyTerminated.get? k = some v →
    p.earlyTerminated.get? k = some v ∨
      ∃ v₀, p.earlyTerminated.get? k = some v₀ ∧ v ⊆ v₀ ∧ v.Nonempty
  epochs : ∀ e v, result.sectors.get? e = some v → 0 ≤ e
  /-- The count is that of the sectors returned, within the budget. -/
  count : result.sectors.sumBy (fun _ v => v.card) = result.sectorsProcessed
  bound : result.sectorsProcessed ≤ maxSectors
  partitions : result.partitionsProcessed = 1
  /-- The queue is emptied, or the whole budget is used. -/
  exhausted : p'.earlyTerminated.entries = [] ∨ result.sectorsProcessed = maxSectors
  hasMore : hasMore = decide (p'.earlyTerminated.count > 0)

/-- The walk took whole entries `D`, a prefix of the queue, which are deleted;
none is left after them or the budget is used up. -/
theorem earlyPop_whole {p : Partition} {maxSectors : Nat} {s : EarlyWalk}
    {D todo : List (Nat × Finset Nat)} {amt : OrdMap Nat (Finset Nat)}
    (hD : D ++ todo = p.earlyTerminated.entries) (hd : EarlyDone maxSectors s D)
    (hend : todo = [] ∨ s.result.sectorsProcessed = maxSectors)
    (hamt : ∀ k, amt.get? k = if k ∈ D.map Prod.fst then none else p.earlyTerminated.get? k) :
    EarlyPop p { p with earlyTerminated := amt } maxSectors s.result (decide (amt.count > 0)) := by
  have hsplit := split_of_prefix hD hamt
  refine ⟨⟨amt, rfl⟩, fun k => ?_, fun k => ?_, fun k v hk => .inl (get?_of_deleted hamt hk),
    hd.epochs, hd.count, hd.bound, hd.partitions, ?_, rfl⟩
  · rw [TerminationResult.sectorsAt, hd.taken]
    exact (hsplit k).1
  · rw [TerminationResult.sectorsAt, hd.taken]
    exact (hsplit k).2
  · rcases hend with rfl | hmax
    · -- every entry was deleted
      refine .inl (OrdMap.entries_eq_nil_of_get? fun k => ?_)
      rw [hamt]
      split_ifs with hk
      · rfl
      · rw [List.append_nil] at hD
        exact OrdMap.lookup_eq_none (hD ▸ hk)
    · exact .inr hmax

/-- The walk took whole entries `pre`, which are deleted, then the first
sectors `T` of the entry at `i`, whose rest stays. -/
theorem earlyPop_partial {p : Partition} {maxSectors : Nat} {s₀ : EarlyWalk}
    {pre rest : List (Nat × Finset Nat)} {i : Nat} {v T : Finset Nat}
    {amt : OrdMap Nat (Finset Nat)}
    (hpre : p.earlyTerminated.entries = pre ++ (i, v) :: rest) (hd : EarlyDone maxSectors s₀ pre)
    (hT : T ⊆ v) (hTlt : T.card < v.card) (hmax : s₀.result.sectorsProcessed + T.card = maxSectors)
    (hamt : ∀ k, amt.get? k = if k ∈ pre.map Prod.fst then none else p.earlyTerminated.get? k) :
    EarlyPop p { p with earlyTerminated := amt.set i (v \ T) } maxSectors
      { s₀.result with
        sectorsProcessed := s₀.result.sectorsProcessed + T.card
        sectors := s₀.result.sectors.set i T }
      (decide ((amt.set i (v \ T)).count > 0)) := by
  have hi : p.earlyTerminated.get? i = some v :=
    OrdMap.get?_eq_some_iff.mpr (hpre ▸ List.mem_append_right pre List.mem_cons_self)
  have hsplit := split_of_prefix hpre.symm hamt
  have hnone : s₀.result.sectors.get? i = none := by
    rw [hd.taken, OrdMap.lookup_eq_none (OrdMap.key_notMem_prefix hpre.symm)]
  have htaken : ∀ k : Nat, (s₀.result.sectors.set i T).get? k =
      if k = i then some T else OrdMap.lookup k pre := fun k => by
    rw [get?_set_natCast, hd.taken]
  refine ⟨⟨_, rfl⟩, fun k => ?_, fun k => ?_, fun k w hk => ?_, nonneg_of_get?_set hd.epochs i T,
    ?_, hmax.le, hd.partitions, .inr hmax, rfl⟩
  · show Disjoint (((s₀.result.sectors.set i T).get? k).getD ∅) (((amt.set i (v \ T)).get? k).getD ∅)
    rw [htaken, OrdMap.get?_set]
    split_ifs with hk
    · exact Finset.disjoint_sdiff
    · exact (hsplit k).1
  · show ((s₀.result.sectors.set i T).get? k).getD ∅ ∪ ((amt.set i (v \ T)).get? k).getD ∅ =
      (p.earlyTerminated.get? k).getD ∅
    rw [htaken, OrdMap.get?_set]
    split_ifs with hk
    · subst hk
      rw [hi]
      exact Finset.union_sdiff_of_subset hT
    · exact (hsplit k).2
  · change (amt.set i (v \ T)).get? k = some w at hk
    rw [OrdMap.get?_set] at hk
    split_ifs at hk with hki
    · -- the rest of the entry is what the budget did not reach
      cases hk
      subst hki
      refine .inr ⟨v, hi, Finset.sdiff_subset, ?_⟩
      rw [Finset.nonempty_iff_ne_empty, Ne, Finset.sdiff_eq_empty_iff_subset]
      intro hvT
      exact absurd (Finset.card_le_card hvT) (not_le.mpr hTlt)
    · exact .inl (get?_of_deleted hamt hk)
  · show (s₀.result.sectors.set i T).sumBy _ = s₀.result.sectorsProcessed + T.card
    rw [OrdMap.sumBy_set_of_get?_none hnone, hd.count]

/-- **Processing early terminations.** Every success of
`pop_early_terminations` splits the queue between what it returns and what it
leaves. -/
theorem earlyPop_of_ok {p p' : Partition} {maxSectors : Nat} {result : TerminationResult}
    {hasMore : Bool} (h : p.popEarlyTerminations maxSectors = .ok (p', result, hasMore)) :
    EarlyPop p p' maxSectors result hasMore := by
  simp only [Partition.popEarlyTerminations, Except.bind_eq_ok, Except.mapError_eq_ok,
    Except.pure_eq_ok] at h
  obtain ⟨walk, hwalk, amt, hdel, _, -, h⟩ := h
  simp only [Prod.mk.injEq] at h
  obtain ⟨rfl, rfl, rfl⟩ := h
  have hget := OrdMap.batchDelete_get? _ _ _ _ hdel
  -- the epochs the walk deleted are those of the entries it took whole
  rcases forEachWhile_earlyStep_end hwalk with ⟨D, todo, hD, hd, hend⟩ |
    ⟨pre, i, v, rest, T, s₀, hpre, hd, hT, hTlt, hmax, rfl⟩
  · simp only [hd.remaining]
    exact earlyPop_whole hD hd hend fun k => by rw [hget k, hd.processed]
  · exact earlyPop_partial hpre hd hT hTlt hmax fun k => by rw [hget k, hd.processed]

/-- **Early terminations are handed out once.** For a well-formed early
termination queue, a successful `pop_early_terminations` keeps everything
`EarlyPop` states. It also has more exactly when sectors are left, and with a
positive budget it returns some sector whenever the queue holds one, so that
calling it again until it has no more ends. -/
theorem pop_early_terminations_exactly_once {p p' : Partition} {maxSectors : Nat}
    {result : TerminationResult} {hasMore : Bool} (hw : p.earlyTerminationQueue.WellFormed)
    (h : p.popEarlyTerminations maxSectors = .ok (p', result, hasMore)) :
    EarlyPop p p' maxSectors result hasMore ∧
      (hasMore = true ↔ ∃ k, (p'.earlyTerminationQueue.abs k).Nonempty) ∧
      (0 < maxSectors → (∃ k, (p.earlyTerminationQueue.abs k).Nonempty) →
        0 < result.sectorsProcessed) := by
  have hp := earlyPop_of_ok h
  refine ⟨hp, ?_, fun hpos ⟨k, n, hn⟩ => ?_⟩
  · rw [hp.hasMore, decide_eq_true_iff, gt_iff_lt, OrdMap.count_pos_iff]
    constructor
    · rintro ⟨k, v, hkv⟩
      -- an entry left is not empty
      have hne : v.Nonempty := by
        rcases hp.entries k v hkv with hold | ⟨-, -, -, hne⟩
        · exact hw.nonempty k v hold
        · exact hne
      obtain ⟨n, hn⟩ := hne
      exact ⟨k, n, BitFieldQueue.mem_abs.mpr ⟨v, hkv, hn⟩⟩
    · rintro ⟨k, n, hn⟩
      obtain ⟨v, hv, -⟩ := BitFieldQueue.mem_abs.mp hn
      exact ⟨k, v, hv⟩
  rcases hp.exhausted with hnil | hmax
  · -- the queue was emptied, so the sectors at `k` were all returned and counted
    have hleft : p'.earlyTerminationQueue.abs k = ∅ := by
      simp [BitFieldQueue.abs, earlyTerminationQueue, OrdMap.get?_of_entries_eq_nil hnil]
    have hk : n ∈ result.sectorsAt k := by
      rw [← hp.split k, hleft, Finset.union_empty] at hn
      exact hn
    unfold TerminationResult.sectorsAt at hk
    cases hv : result.sectors.get? (k : Int) with
    | none => simp [hv] at hk
    | some v =>
      rw [hv, Option.getD_some] at hk
      have hmem : v.card ∈ result.sectors.entries.map fun e => e.2.card :=
        List.mem_map.mpr ⟨((k : Int), v), OrdMap.get?_eq_some_iff.mp hv, rfl⟩
      rw [← hp.count]
      exact lt_of_lt_of_le (Finset.card_pos.mpr ⟨n, hk⟩) (List.le_sum_of_mem hmem)
  · omega

/-- A queue of one entry with two sectors, popped with a budget of one. -/
theorem pop_early_terminations_exactly_once_single :
    let p : Partition := { Partition.new with earlyTerminated := OrdMap.empty.set 3 {1, 2} }
    p.earlyTerminationQueue.WellFormed ∧ ∃ p' result hasMore,
      p.popEarlyTerminations 1 = .ok (p', result, hasMore) ∧
      (EarlyPop p p' 1 result hasMore ∧
        (hasMore = true ↔ ∃ k, (p'.earlyTerminationQueue.abs k).Nonempty) ∧
        (0 < 1 → (∃ k, (p.earlyTerminationQueue.abs k).Nonempty) → 0 < result.sectorsProcessed)) := by
  intro p
  have hwf : p.earlyTerminationQueue.WellFormed := by
    constructor
    · intro k v hkv
      simp only [p, earlyTerminationQueue, OrdMap.get?_set, OrdMap.get?_empty] at hkv
      split_ifs at hkv with hk
      subst hk
      decide
    · intro k v hkv
      simp only [p, earlyTerminationQueue, OrdMap.get?_set, OrdMap.get?_empty] at hkv
      split_ifs at hkv
      cases hkv
      decide
  obtain ⟨r, hr⟩ : ∃ r, p.popEarlyTerminations 1 = .ok r := ⟨_, rfl⟩
  exact ⟨hwf, r.1, r.2.1, r.2.2, hr, pop_early_terminations_exactly_once hwf hr⟩

end Partition

end BuiltinActors.Miner
