import BuiltinActors.Miner.DeadlineState
import BuiltinActors.Miner.Partition.EarlyTerminations
import Mathlib.Algebra.Order.BigOperators.Group.Finset

/-! # The early termination walk of a deadline

`pop_early_terminations` of a deadline visits the partitions its index marks,
in index order. A partition missing from the AMT is finished at once; any
other is popped with the sectors left of the budget, its result joined into
the total, and finished when it has no more. After each pop the walk stops at
either limit.

One turn keeps `TerminationDone`, which records the partitions popped so far
with what each returned, and the walk's outcome is read off
`Loop.forWhile_cases`: every partition either is as it was or was popped
once, the total is the join of the results, within the sector budget, and the
index loses exactly the partitions finished. Joining the results keeps the
count exact when the partitions' queues hold distinct sectors. -/

namespace BuiltinActors.Miner

namespace TerminationResult

@[simp] theorem sectorsAt_new (k : Nat) : new.sectorsAt k = ∅ := rfl

theorem get?_addEntry (m : OrdMap Int (Finset Nat)) (e : Int) (s : Finset Nat) (k : Int) :
    (addEntry m e s).get? k = if k = e then some ((m.get? e).getD ∅ ∪ s) else m.get? k := by
  unfold addEntry
  cases h : m.get? e <;> simp

/-- `+=` over entries with distinct epochs joins each one to the sectors
already at its epoch. -/
theorem getD_foldl_addEntry : ∀ (l : List (Int × Finset Nat)) (m : OrdMap Int (Finset Nat)),
    (l.map Prod.fst).Nodup → ∀ k : Int,
      ((l.foldl (fun m e => addEntry m e.1 e.2) m).get? k).getD ∅ =
        (m.get? k).getD ∅ ∪ (OrdMap.lookup k l).getD ∅
  | [], m, _, k => by simp [OrdMap.lookup_nil]
  | (e, s) :: rest, m, hnd, k => by
    rw [List.map_cons, List.nodup_cons] at hnd
    rw [List.foldl_cons, getD_foldl_addEntry rest _ hnd.2 k, get?_addEntry]
    by_cases hk : k = e
    · subst hk
      simp [OrdMap.lookup_cons, OrdMap.lookup_eq_none hnd.1]
    · simp [OrdMap.lookup_cons, hk]

/-- An epoch after `+=` is an epoch of either side. -/
theorem isSome_of_foldl_addEntry : ∀ (l : List (Int × Finset Nat)) (m : OrdMap Int (Finset Nat))
    (k : Int) (v : Finset Nat), (l.foldl (fun m e => addEntry m e.1 e.2) m).get? k = some v →
      (m.get? k).isSome ∨ k ∈ l.map Prod.fst
  | [], m, k, v, h => .inl (Option.isSome_iff_exists.mpr ⟨v, h⟩)
  | (e, s) :: rest, m, k, v, h => by
    rw [List.foldl_cons] at h
    rcases isSome_of_foldl_addEntry rest _ k v h with hm | hk
    · rw [get?_addEntry] at hm
      split_ifs at hm with hke
      · exact .inr (by simp [hke])
      · exact .inl hm
    · exact .inr (List.mem_cons_of_mem _ hk)

/-- `+=` of sectors apart, at each epoch, from those already there adds their
count to the total. -/
theorem sumBy_foldl_addEntry : ∀ (l : List (Int × Finset Nat)) (m : OrdMap Int (Finset Nat)),
    (l.map Prod.fst).Nodup → (∀ e ∈ l, Disjoint ((m.get? e.1).getD ∅) e.2) →
      (l.foldl (fun m e => addEntry m e.1 e.2) m).sumBy (fun _ v => v.card) =
        m.sumBy (fun _ v => v.card) + (l.map fun e => e.2.card).sum
  | [], m, _, _ => by simp
  | (e, s) :: rest, m, hnd, hdisj => by
    rw [List.map_cons, List.nodup_cons] at hnd
    -- the later entries are at other epochs, so they meet the sectors of `m`
    have hrest : ∀ e' ∈ rest, Disjoint (((addEntry m e s).get? e'.1).getD ∅) e'.2 := by
      intro e' he'
      have hne : e'.1 ≠ e := fun h => hnd.1 (List.mem_map.mpr ⟨e', he', h⟩)
      rw [get?_addEntry, if_neg hne]
      exact hdisj e' (List.mem_cons_of_mem _ he')
    have hone : (addEntry m e s).sumBy (fun _ v => v.card) = m.sumBy (fun _ v => v.card) + s.card := by
      have hes := hdisj (e, s) List.mem_cons_self
      cases h : m.get? e with
      | none =>
        simp only [addEntry, h]
        exact OrdMap.sumBy_set_of_get?_none h s
      | some old =>
        simp only [addEntry, h]
        have hset := OrdMap.sumBy_set m (fun _ v => v.card) e (old ∪ s)
        rw [h, Option.elim_some, Finset.card_union_of_disjoint (by simpa [h] using hes)] at hset
        omega
    rw [List.foldl_cons, sumBy_foldl_addEntry rest _ hnd.2 hrest, hone]
    simp only [List.map_cons, List.sum_cons]
    omega

theorem sectorsAt_addAssign (self rhs : TerminationResult) (k : Nat) :
    (self.addAssign rhs).sectorsAt k = self.sectorsAt k ∪ rhs.sectorsAt k :=
  getD_foldl_addEntry _ _ (OrdMap.keys_nodup rhs.sectors) k

theorem epochs_addAssign {self rhs : TerminationResult}
    (h₁ : ∀ e v, self.sectors.get? e = some v → 0 ≤ e) (h₂ : ∀ e v, rhs.sectors.get? e = some v → 0 ≤ e) :
    ∀ e v, (self.addAssign rhs).sectors.get? e = some v → 0 ≤ e := by
  intro e v hv
  rcases isSome_of_foldl_addEntry _ _ e v hv with hs | hk
  · obtain ⟨w, hw⟩ := Option.isSome_iff_exists.mp hs
    exact h₁ e w hw
  · obtain ⟨w, hw⟩ := Option.isSome_iff_exists.mp (OrdMap.mem_keys.mp hk)
    exact h₂ e w hw

/-- `+=` keeps the count exact when the sectors added are new at their epochs. -/
theorem count_addAssign {self rhs : TerminationResult}
    (h₁ : self.sectors.sumBy (fun _ v => v.card) = self.sectorsProcessed)
    (h₂ : rhs.sectors.sumBy (fun _ v => v.card) = rhs.sectorsProcessed)
    (hdisj : ∀ e v, rhs.sectors.get? e = some v → Disjoint ((self.sectors.get? e).getD ∅) v) :
    (self.addAssign rhs).sectors.sumBy (fun _ v => v.card) = (self.addAssign rhs).sectorsProcessed := by
  have hall : ∀ e ∈ rhs.sectors.entries, Disjoint ((self.sectors.get? e.1).getD ∅) e.2 :=
    fun e he => hdisj e.1 e.2 (OrdMap.get?_eq_some_iff.mpr he)
  show (rhs.sectors.entries.foldl _ self.sectors).sumBy _ = self.sectorsProcessed + rhs.sectorsProcessed
  rw [sumBy_foldl_addEntry _ _ (OrdMap.keys_nodup rhs.sectors) hall, h₁, ← h₂]
  rfl

theorem belowLimit_eq_true {r : TerminationResult} {partitionLimit sectorLimit : Nat} :
    r.belowLimit partitionLimit sectorLimit = true ↔
      r.partitionsProcessed < partitionLimit ∧ r.sectorsProcessed < sectorLimit := by
  simp [belowLimit]

end TerminationResult

/-- What a pop returns at an epoch was in the queue there. -/
theorem Partition.EarlyPop.sectorsAt_subset {p p' : Partition} {b : Nat} {r : TerminationResult}
    {more : Bool} (hE : Partition.EarlyPop p p' b r more) (k : Nat) :
    r.sectorsAt k ⊆ p.earlyTerminationQueue.abs k :=
  hE.split k ▸ Finset.subset_union_left

namespace DeadlineState

/-- The early termination queues of distinct partitions hold distinct sectors
at each epoch. -/
def EarlySeparated (d : DeadlineState) : Prop :=
  ∀ i j p q, d.partitions.get? i = some p → d.partitions.get? j = some q → i ≠ j →
    ∀ k, Disjoint (p.earlyTerminationQueue.abs k) (q.earlyTerminationQueue.abs k)

/-- What the walk of `pop_early_terminations` has done after visiting the
partitions `done`: those of `P` were popped, `R` and `M` giving what each
returned, and the others were missing. -/
structure TerminationDone (d : DeadlineState) (maxSectors : Nat) (done : List Nat)
    (w : TerminationWalk) (P : Finset Nat) (R : Nat → TerminationResult) (M : Nat → Bool) :
    Prop where
  popped_done : ∀ j ∈ P, j ∈ done
  missing : ∀ j ∈ done, j ∉ P → d.partitions.get? j = none
  untouched : ∀ j, j ∉ P → w.partitions.get? j = d.partitions.get? j
  /-- Each partition popped was popped once, with at least the budget left now. -/
  pop : ∀ j ∈ P, ∃ p p' b, d.partitions.get? j = some p ∧ w.partitions.get? j = some p' ∧
    Partition.EarlyPop p p' b (R j) (M j) ∧ maxSectors - w.result.sectorsProcessed ≤ b
  finished : ∀ j, j ∈ w.partitionsFinished ↔ j ∈ done ∧ (j ∈ P → M j = false)
  sectors : ∀ k, w.result.sectorsAt k = P.biUnion fun j => (R j).sectorsAt k
  epochs : ∀ e v, w.result.sectors.get? e = some v → 0 ≤ e
  processed : w.result.sectorsProcessed = ∑ j ∈ P, (R j).sectorsProcessed
  partitions : w.result.partitionsProcessed = P.card
  bound : w.result.sectorsProcessed ≤ maxSectors
  count : w.result.sectors.sumBy (fun _ v => v.card) = w.result.sectorsProcessed
  /-- A partition left with more has used up the budget. -/
  exhausted : ∀ j ∈ P, M j = true → w.result.sectorsProcessed = maxSectors

section Walk

variable {d : DeadlineState} {maxPartitions maxSectors : Nat} {done : List Nat}
  {w : TerminationWalk} {P : Finset Nat} {R : Nat → TerminationResult} {M : Nat → Bool} {j : Nat}

theorem terminationDone_init (d : DeadlineState) (maxSectors : Nat) (R : Nat → TerminationResult)
    (M : Nat → Bool) : TerminationDone d maxSectors [] ⟨d.partitions, [], .new⟩ ∅ R M where
  popped_done _ h := absurd h (Finset.notMem_empty _)
  missing _ h := absurd h List.not_mem_nil
  untouched _ _ := rfl
  pop _ h := absurd h (Finset.notMem_empty _)
  finished _ := by simp
  sectors _ := by simp
  epochs _ _ h := by cases h
  processed := rfl
  partitions := rfl
  bound := Nat.zero_le _
  count := rfl
  exhausted _ h := absurd h (Finset.notMem_empty _)

/-- A partition missing from the AMT is finished, and nothing else changes. -/
theorem TerminationDone.skip (hI : TerminationDone d maxSectors done w P R M) (hj : j ∉ done)
    (hnone : w.partitions.get? j = none) :
    TerminationDone d maxSectors (done ++ [j])
      { w with partitionsFinished := w.partitionsFinished ++ [j] } P R M := by
  have hjP : j ∉ P := fun h => hj (hI.popped_done j h)
  refine { hI with
    popped_done := fun i hi => List.mem_append_left _ (hI.popped_done i hi)
    missing := fun i hi hiP => ?_
    finished := fun i => ?_ }
  · rcases List.mem_append.mp hi with hi | hi
    · exact hI.missing i hi hiP
    · rw [List.mem_singleton.mp hi, ← hI.untouched j hjP]
      exact hnone
  · show i ∈ w.partitionsFinished ++ [j] ↔ i ∈ done ++ [j] ∧ (i ∈ P → M i = false)
    by_cases hij : i = j
    · subst hij
      simp [hjP]
    · simp [hij, hI.finished]

/-- A partition popped with the budget left joins the popped ones. -/
theorem TerminationDone.pop_step (hsep : EarlySeparated d)
    (hI : TerminationDone d maxSectors done w P R M) (hj : j ∉ done) {p p' : Partition}
    {r : TerminationResult} {more : Bool} (hp : w.partitions.get? j = some p)
    (hpop : p.popEarlyTerminations (maxSectors - w.result.sectorsProcessed) = .ok (p', r, more)) :
    TerminationDone d maxSectors (done ++ [j])
      ⟨w.partitions.set j p', if more then w.partitionsFinished else w.partitionsFinished ++ [j],
        w.result.addAssign r⟩
      (insert j P) (Function.update R j r) (Function.update M j more) := by
  have hjP : j ∉ P := fun h => hj (hI.popped_done j h)
  have hne : ∀ i ∈ P, i ≠ j := fun i hi h => hjP (h ▸ hi)
  have hd : d.partitions.get? j = some p := (hI.untouched j hjP).symm.trans hp
  have hE := Partition.earlyPop_of_ok hpop
  have hR : ∀ i ∈ P, Function.update R j r i = R i := fun i hi => Function.update_of_ne (hne i hi) _ _
  have hM : ∀ i ∈ P, Function.update M j more i = M i := fun i hi =>
    Function.update_of_ne (hne i hi) _ _
  have hbound := hI.bound
  have hrbound := hE.bound
  refine ⟨fun i hi => ?_, fun i hi hiP => ?_, fun i hiP => ?_, fun i hi => ?_, fun i => ?_,
    fun k => ?_, TerminationResult.epochs_addAssign hI.epochs hE.epochs, ?_, ?_, ?_, ?_,
    fun i hi hMi => ?_⟩
  · rcases Finset.mem_insert.mp hi with rfl | hi
    · exact List.mem_append_right _ (List.mem_singleton_self _)
    · exact List.mem_append_left _ (hI.popped_done i hi)
  · obtain ⟨hij, hiP⟩ := not_or.mp (Finset.mem_insert.not.mp hiP)
    rcases List.mem_append.mp hi with hi | hi
    · exact hI.missing i hi hiP
    · exact absurd (List.mem_singleton.mp hi) hij
  · obtain ⟨hij, hiP⟩ := not_or.mp (Finset.mem_insert.not.mp hiP)
    show (w.partitions.set j p').get? i = _
    rw [OrdMap.get?_set, if_neg hij]
    exact hI.untouched i hiP
  · -- the budget left only shrinks as the total grows
    have hle : maxSectors - (w.result.sectorsProcessed + r.sectorsProcessed) ≤
        maxSectors - w.result.sectorsProcessed := by omega
    rcases Finset.mem_insert.mp hi with rfl | hi
    · exact ⟨p, p', _, hd, by simp, by simpa using hE, hle⟩
    · obtain ⟨q, q', b, hq, hq', hEq, hb⟩ := hI.pop i hi
      refine ⟨q, q', b, hq, ?_, by rw [hR i hi, hM i hi]; exact hEq, hle.trans hb⟩
      show (w.partitions.set j p').get? i = _
      rw [OrdMap.get?_set, if_neg (hne i hi)]
      exact hq'
  · show i ∈ (if more then w.partitionsFinished else w.partitionsFinished ++ [j]) ↔
      i ∈ done ++ [j] ∧ (i ∈ insert j P → Function.update M j more i = false)
    by_cases hij : i = j
    · subst hij
      have hjF : i ∉ w.partitionsFinished := fun h => hj ((hI.finished i).mp h).1
      cases more <;> simp [hjF]
    · have hiF := hI.finished i
      cases more <;> simp [hij, hiF]
  · show (w.result.addAssign r).sectorsAt k = _
    rw [TerminationResult.sectorsAt_addAssign, Finset.biUnion_insert, Function.update_self,
      hI.sectors k, Finset.union_comm]
    exact congrArg _ (Finset.biUnion_congr rfl fun i hi => by rw [hR i hi])
  · show w.result.sectorsProcessed + r.sectorsProcessed = _
    rw [Finset.sum_insert hjP, Function.update_self, hI.processed, add_comm]
    exact congrArg _ (Finset.sum_congr rfl fun i hi => by rw [hR i hi])
  · show w.result.partitionsProcessed + r.partitionsProcessed = _
    rw [Finset.card_insert_of_notMem hjP, hI.partitions, hE.partitions]
  · show w.result.sectorsProcessed + r.sectorsProcessed ≤ maxSectors
    omega
  · -- what `p` returns at an epoch is apart from what the others returned there
    refine TerminationResult.count_addAssign hI.count hE.count fun e v hv => ?_
    obtain ⟨k, rfl⟩ := Int.eq_ofNat_of_zero_le (hE.epochs e v hv)
    have hv' : r.sectorsAt k = v := by simp [TerminationResult.sectorsAt, hv]
    show Disjoint (w.result.sectorsAt k) v
    rw [hI.sectors k, ← hv', Finset.disjoint_biUnion_left]
    intro i hi
    obtain ⟨q, _, _, hq, -, hEq, -⟩ := hI.pop i hi
    exact ((hsep i j q p hq hd (hne i hi) k).mono_left (hEq.sectorsAt_subset k)).mono_right
      (hE.sectorsAt_subset k)
  · show w.result.sectorsProcessed + r.sectorsProcessed = maxSectors
    rcases Finset.mem_insert.mp hi with rfl | hi
    · rw [Function.update_self] at hMi
      rcases hE.exhausted with hnil | hmax
      · -- an emptied queue has no more
        have hcount : p'.earlyTerminated.count = 0 := by simp [OrdMap.count, hnil]
        rw [hE.hasMore, hcount] at hMi
        cases hMi
      · omega
    · have hw := hI.exhausted i hi (by rw [← hM i hi]; exact hMi)
      omega

/-- One turn of the walk: a missing partition leaves the total, a popped one
joins it and the walk goes on below both limits. -/
theorem TerminationDone.step (hsep : EarlySeparated d)
    (hI : TerminationDone d maxSectors done w P R M) (hj : j ∉ done) {w' : TerminationWalk}
    {b : Bool} (h : terminationStep maxPartitions maxSectors w j = .ok (w', b)) :
    (TerminationDone d maxSectors (done ++ [j]) w' P R M ∧ w'.result = w.result ∧ b = true) ∨
      ∃ r more, TerminationDone d maxSectors (done ++ [j]) w' (insert j P) (Function.update R j r)
        (Function.update M j more) ∧ b = w'.result.belowLimit maxPartitions maxSectors := by
  unfold terminationStep at h
  split at h
  · rename_i hnone
    simp only [Except.ok.injEq, Prod.mk.injEq] at h
    obtain ⟨rfl, rfl⟩ := h
    exact .inl ⟨hI.skip hj hnone, rfl, rfl⟩
  · rename_i p hp
    simp only [subU64, if_pos hI.bound, Except.bind_eq_ok, Except.mapError_eq_ok,
      Except.pure_eq_ok] at h
    obtain ⟨_, hb, ⟨p', r, more⟩, hpop, h⟩ := h
    obtain rfl := Except.ok.inj hb
    simp only [Prod.mk.injEq] at h
    obtain ⟨rfl, rfl⟩ := h
    exact .inr ⟨r, more, hI.pop_step hsep hj hp hpop, rfl⟩

/-- What the walk of `pop_early_terminations` ends with: it visited a prefix
of the marked partitions, all of them unless it stopped at a limit after
popping one; and it processed at most `maxPartitions` partitions, or one. -/
theorem forWhile_terminationStep (hsep : EarlySeparated d) {w : TerminationWalk}
    (h : Loop.forWhile (terminationStep maxPartitions maxSectors) ⟨d.partitions, [], .new⟩
      (d.earlyTerminations.sort (· ≤ ·)) = .ok w) :
    ∃ done rest P R M, d.earlyTerminations.sort (· ≤ ·) = done ++ rest ∧
      TerminationDone d maxSectors done w P R M ∧
      (rest = [] ∨ done ≠ [] ∧ w.result.belowLimit maxPartitions maxSectors = false) ∧
      w.result.partitionsProcessed ≤ max maxPartitions 1 := by
  set L := d.earlyTerminations.sort (· ≤ ·) with hL
  have hnd : L.Nodup := Finset.sort_nodup _ _
  -- the walk stays below both limits after each turn it goes on from
  let I : TerminationWalk → List Nat → List Nat → Prop := fun w done rest =>
    done ++ rest = L ∧ ∃ P R M, TerminationDone d maxSectors done w P R M ∧
      (P.Nonempty → w.result.belowLimit maxPartitions maxSectors = true)
  have hfresh : ∀ {done rest : List Nat} {j : Nat}, done ++ j :: rest = L → j ∉ done :=
    Loop.notMem_prefix hnd
  have hstep : ∀ w done j rest w', I w done (j :: rest) →
      terminationStep maxPartitions maxSectors w j = .ok (w', true) → I w' (done ++ [j]) rest := by
    rintro w done j rest w' ⟨hdr, P, R, M, hI, hbelow⟩ h
    refine ⟨by rw [List.append_assoc]; exact hdr, ?_⟩
    rcases hI.step hsep (hfresh hdr) h with ⟨hI', hres, -⟩ | ⟨r, more, hI', hb⟩
    · exact ⟨P, R, M, hI', fun hP => hres ▸ hbelow hP⟩
    · exact ⟨_, _, _, hI', fun _ => hb.symm⟩
  have hpp : ∀ {w : TerminationWalk} {P : Finset Nat} {R M} {done : List Nat},
      TerminationDone d maxSectors done w P R M →
      (P.Nonempty → w.result.partitionsProcessed < maxPartitions) →
      w.result.partitionsProcessed + 1 ≤ max maxPartitions 1 := by
    intro w P R M done hI hlt
    rcases P.eq_empty_or_nonempty with rfl | hP
    · rw [hI.partitions]
      simp
    · have := hlt hP
      omega
  have h0 : I ⟨d.partitions, [], .new⟩ [] L :=
    ⟨rfl, ∅, fun _ => .new, fun _ => false, terminationDone_init d maxSectors _ _,
      fun h => absurd h Finset.not_nonempty_empty⟩
  rcases Loop.forWhile_cases I hstep L [] _ w h0 h with
    ⟨hdr, P, R, M, hI, hbelow⟩ | ⟨pre, j, rest, w₀, hdr, hI₀, hlast⟩
  · refine ⟨L, [], P, R, M, by simp, by simpa using hI, .inl rfl, ?_⟩
    have := hpp hI fun hP => (TerminationResult.belowLimit_eq_true.mp (hbelow hP)).1
    omega
  · rw [List.nil_append] at hI₀
    obtain ⟨-, P, R, M, hI, hbelow⟩ := hI₀
    rcases hI.step hsep (hfresh hdr.symm) hlast with ⟨-, -, hb⟩ | ⟨r, more, hI', hb⟩
    · cases hb
    · refine ⟨pre ++ [j], rest, _, _, _, by simp [hdr], hI', .inr ⟨by simp, hb.symm⟩, ?_⟩
      rw [hI'.partitions, Finset.card_insert_of_notMem fun h => hfresh hdr.symm (hI.popped_done j h),
        ← hI.partitions]
      exact hpp hI fun hP => (TerminationResult.belowLimit_eq_true.mp (hbelow hP)).1

end Walk

end DeadlineState

end BuiltinActors.Miner
