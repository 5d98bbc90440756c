import Mathlib.Tactic.Abel
import BuiltinActors.Lib.Except
import BuiltinActors.Miner.ExpirationQueue

/-! # Entries and their totals

An expiration set keeps its sector sets and, beside them, totals of those
sectors: the on-time pledge, the active and faulty power, the fee
deduction. `memoOf` computes the totals a set of sectors should have, for
given sector infos and faults; an entry whose totals are those of its own
sectors is a `Memo`.

The lemmas here are the arithmetic the queue's operations do on entries:
adding disjoint sectors adds their totals, removing contained sectors
subtracts them, and a change of fault status moves power between active and
faulty. -/

namespace BuiltinActors.Miner

namespace ExpirationSet

/-- All the sectors of a set, on time or early. -/
def sectors (es : ExpirationSet) : Finset Nat := es.onTimeSectors ∪ es.earlySectors

theorem mem_sectors {es : ExpirationSet} {n : Nat} :
    n ∈ es.sectors ↔ n ∈ es.onTimeSectors ∨ n ∈ es.earlySectors := Finset.mem_union

theorem isEmpty_iff (es : ExpirationSet) : es.isEmpty = true ↔ es.sectors = ∅ := by
  simp [isEmpty, sectors, Finset.union_eq_empty]

theorem isEmpty_eq_false_iff (es : ExpirationSet) : es.isEmpty = false ↔ es.sectors.Nonempty := by
  rw [← Bool.not_eq_true, isEmpty_iff, Finset.nonempty_iff_ne_empty]

/-- `add` succeeds with the set and the values added together. -/
theorem add_ok {es es' : ExpirationSet} {onTime early : Finset Nat} {pledge : Int}
    {active faulty : PowerPair} {fee : Int}
    (h : es.add onTime early pledge active faulty fee = .ok es') :
    es' = es.union ⟨onTime, early, pledge, active, faulty, fee⟩ := by
  simp only [add, Except.bind_eq_ok, Except.pure_eq_ok] at h
  obtain ⟨_, -, rfl⟩ := h
  rfl

/-- `remove` succeeds only with contained sectors, and subtracts the values. -/
theorem remove_ok {es es' : ExpirationSet} {onTime early : Finset Nat} {pledge : Int}
    {active faulty : PowerPair} {fee : Int}
    (h : es.remove onTime early pledge active faulty fee = .ok es') :
    onTime ⊆ es.onTimeSectors ∧ early ⊆ es.earlySectors ∧
      es' = ⟨es.onTimeSectors \ onTime, es.earlySectors \ early, es.onTimePledge - pledge,
        es.activePower - active, es.faultyPower - faulty, es.feeDeduction - fee⟩ := by
  simp only [remove, Except.bind_eq_ok, Except.pure_eq_ok, Except.throw_bind,
    Except.ite_throw_eq_ok, not_not] at h
  obtain ⟨h₁, h₂, -, -, -, _, -, rfl⟩ := h
  exact ⟨h₁, h₂, rfl⟩

section Memo

variable (sectorSize : Nat) (info : Nat → SectorOnChainInfo) (faults : Finset Nat)

/-- The entry holding exactly `onTime` and `early`, with the totals of these
sectors: the pledge of the on-time ones, the power of the non-faulty and of
the faulty ones, and the fee of all. -/
def memoOf (onTime early : Finset Nat) : ExpirationSet where
  onTimeSectors := onTime
  earlySectors := early
  onTimePledge := ∑ n ∈ onTime, (info n).initialPledge
  activePower := ∑ n ∈ onTime.filter (· ∉ faults), powerForSector sectorSize (info n)
  faultyPower := ∑ n ∈ onTime.filter (· ∈ faults), powerForSector sectorSize (info n) +
    ∑ n ∈ early, powerForSector sectorSize (info n)
  feeDeduction := ∑ n ∈ onTime, (info n).dailyFee + ∑ n ∈ early, (info n).dailyFee

/-- An entry as the queue keeps it: its totals are those of its sectors, no
sector is both on time and early, the early ones are faulty, and it is not
empty. -/
structure Memo (es : ExpirationSet) : Prop where
  eq_memoOf : es = memoOf sectorSize info faults es.onTimeSectors es.earlySectors
  disjoint : Disjoint es.onTimeSectors es.earlySectors
  early_faulty : es.earlySectors ⊆ faults
  nonempty : es.sectors.Nonempty

variable {sectorSize info faults}

/-- The memo of a set of sectors, none both on time and early, the early ones
faulty. -/
theorem memo_memoOf {onTime early : Finset Nat} (hd : Disjoint onTime early)
    (hf : early ⊆ faults) (hne : (onTime ∪ early).Nonempty) :
    Memo sectorSize info faults (memoOf sectorSize info faults onTime early) :=
  ⟨rfl, hd, hf, hne⟩

@[simp] theorem memoOf_onTimeSectors (onTime early : Finset Nat) :
    (memoOf sectorSize info faults onTime early).onTimeSectors = onTime := rfl

@[simp] theorem memoOf_earlySectors (onTime early : Finset Nat) :
    (memoOf sectorSize info faults onTime early).earlySectors = early := rfl

@[simp] theorem memoOf_empty : memoOf sectorSize info faults ∅ ∅ = empty := by
  simp [memoOf, empty]

theorem memoOf_sectors (onTime early : Finset Nat) :
    (memoOf sectorSize info faults onTime early).sectors = onTime ∪ early := rfl

/-- Adding disjoint sectors adds their totals. -/
theorem memoOf_union {on₁ early₁ on₂ early₂ : Finset Nat} (hon : Disjoint on₁ on₂)
    (hearly : Disjoint early₁ early₂) :
    (memoOf sectorSize info faults on₁ early₁).union (memoOf sectorSize info faults on₂ early₂) =
      memoOf sectorSize info faults (on₁ ∪ on₂) (early₁ ∪ early₂) := by
  have hf : Disjoint (on₁.filter (· ∉ faults)) (on₂.filter (· ∉ faults)) :=
    Finset.disjoint_filter_filter hon
  have hf' : Disjoint (on₁.filter (· ∈ faults)) (on₂.filter (· ∈ faults)) :=
    Finset.disjoint_filter_filter hon
  simp only [union, memoOf, Finset.filter_union, Finset.sum_union hon, Finset.sum_union hearly,
    Finset.sum_union hf, Finset.sum_union hf']
  congr 1 <;> exact add_add_add_comm _ _ _ _

/-- Removing contained sectors subtracts their totals. -/
theorem memoOf_sdiff {on₁ early₁ on₂ early₂ : Finset Nat} (hon : on₂ ⊆ on₁)
    (hearly : early₂ ⊆ early₁) :
    memoOf sectorSize info faults (on₁ \ on₂) (early₁ \ early₂) =
      ⟨on₁ \ on₂, early₁ \ early₂,
        (memoOf sectorSize info faults on₁ early₁).onTimePledge -
          (memoOf sectorSize info faults on₂ early₂).onTimePledge,
        (memoOf sectorSize info faults on₁ early₁).activePower -
          (memoOf sectorSize info faults on₂ early₂).activePower,
        (memoOf sectorSize info faults on₁ early₁).faultyPower -
          (memoOf sectorSize info faults on₂ early₂).faultyPower,
        (memoOf sectorSize info faults on₁ early₁).feeDeduction -
          (memoOf sectorSize info faults on₂ early₂).feeDeduction⟩ := by
  have h : (memoOf sectorSize info faults (on₁ \ on₂) (early₁ \ early₂)).union
      (memoOf sectorSize info faults on₂ early₂) =
        memoOf sectorSize info faults (on₁ \ on₂ ∪ on₂) (early₁ \ early₂ ∪ early₂) :=
    memoOf_union Finset.sdiff_disjoint Finset.sdiff_disjoint
  rw [Finset.sdiff_union_of_subset hon, Finset.sdiff_union_of_subset hearly] at h
  rw [← h]
  simp only [union, memoOf_onTimeSectors, memoOf_earlySectors, add_sub_cancel_right]
  rfl

/-- The totals of active sectors added on time. -/
theorem memoOf_active {S : Finset Nat} (hS : Disjoint S faults) :
    memoOf sectorSize info faults S ∅ =
      ⟨S, ∅, ∑ n ∈ S, (info n).initialPledge, ∑ n ∈ S, powerForSector sectorSize (info n), 0,
        ∑ n ∈ S, (info n).dailyFee⟩ := by
  have h₁ : S.filter (· ∉ faults) = S :=
    Finset.filter_true_of_mem fun n hn => Finset.disjoint_left.mp hS hn
  have h₂ : S.filter (· ∈ faults) = ∅ :=
    Finset.filter_false_of_mem fun n hn => Finset.disjoint_left.mp hS hn
  simp [memoOf, h₁, h₂]

/-- The totals of faulty sectors added early. -/
theorem memoOf_early {S : Finset Nat} :
    memoOf sectorSize info faults ∅ S =
      ⟨∅, S, 0, 0, ∑ n ∈ S, powerForSector sectorSize (info n), ∑ n ∈ S, (info n).dailyFee⟩ := by
  simp [memoOf]

/-- Removing active on-time sectors subtracts their pledge, power and fee. -/
theorem memoOf_sdiff_active {on early S : Finset Nat} (hS : S ⊆ on) (hSf : Disjoint S faults) :
    memoOf sectorSize info faults (on \ S) early =
      ⟨on \ S, early,
        (memoOf sectorSize info faults on early).onTimePledge - ∑ n ∈ S, (info n).initialPledge,
        (memoOf sectorSize info faults on early).activePower -
          ∑ n ∈ S, powerForSector sectorSize (info n),
        (memoOf sectorSize info faults on early).faultyPower,
        (memoOf sectorSize info faults on early).feeDeduction - ∑ n ∈ S, (info n).dailyFee⟩ := by
  have h := @memoOf_sdiff sectorSize info faults _ _ _ _ hS (Finset.empty_subset early)
  rw [Finset.sdiff_empty, memoOf_active hSf] at h
  rw [h]
  simp

/-- On-time sectors turning faulty move their power from active to faulty. -/
theorem memoOf_fault {on early S : Finset Nat} (hS : S ⊆ on) (hSf : Disjoint S faults) :
    memoOf sectorSize info (faults ∪ S) on early =
      { memoOf sectorSize info faults on early with
        activePower := (memoOf sectorSize info faults on early).activePower -
          ∑ n ∈ S, powerForSector sectorSize (info n)
        faultyPower := (memoOf sectorSize info faults on early).faultyPower +
          ∑ n ∈ S, powerForSector sectorSize (info n) } := by
  have h₁ : on.filter (· ∉ faults ∪ S) = on.filter (· ∉ faults) \ S := by
    ext n
    simp only [Finset.mem_filter, Finset.mem_union, not_or, Finset.mem_sdiff]
    tauto
  have h₂ : on.filter (· ∈ faults ∪ S) = on.filter (· ∈ faults) ∪ S := by
    ext n
    simp only [Finset.mem_filter, Finset.mem_union]
    constructor
    · rintro ⟨hn, hf | hs⟩
      · exact .inl ⟨hn, hf⟩
      · exact .inr hs
    · rintro (⟨hn, hf⟩ | hs)
      · exact ⟨hn, .inl hf⟩
      · exact ⟨hS hs, .inr hs⟩
  have hsub : S ⊆ on.filter (· ∉ faults) := fun n hn =>
    Finset.mem_filter.mpr ⟨hS hn, Finset.disjoint_left.mp hSf hn⟩
  have hdisj : Disjoint (on.filter (· ∈ faults)) S :=
    Finset.disjoint_left.mpr fun _ hn hs =>
      Finset.disjoint_left.mp hSf hs (Finset.mem_filter.mp hn).2
  simp only [memoOf, h₁, h₂, Finset.sum_sdiff_eq_sub hsub, Finset.sum_union hdisj]
  congr 1
  exact add_right_comm _ _ _

/-- Active and faulty power together are the power of all the sectors. -/
theorem memoOf_power_total {on early : Finset Nat} :
    (memoOf sectorSize info faults on early).activePower +
        (memoOf sectorSize info faults on early).faultyPower =
      ∑ n ∈ on, powerForSector sectorSize (info n) + ∑ n ∈ early, powerForSector sectorSize (info n) := by
  rw [← Finset.sum_filter_add_sum_filter_not on (· ∈ faults)]
  simp only [memoOf]
  abel

/-- All on-time sectors of an entry turning faulty, in place. -/
theorem memoOf_faultAll {on early : Finset Nat} :
    memoOf sectorSize info (faults ∪ on) on early =
      { memoOf sectorSize info faults on early with
        faultyPower := (memoOf sectorSize info faults on early).faultyPower +
          (memoOf sectorSize info faults on early).activePower
        activePower := 0 } := by
  have h₁ : on.filter (· ∉ faults ∪ on) = ∅ :=
    Finset.filter_false_of_mem fun n hn h => h (Finset.mem_union_right _ hn)
  have h₂ : on.filter (· ∈ faults ∪ on) = on :=
    Finset.filter_true_of_mem fun n hn => Finset.mem_union_right _ hn
  have hsplit := Finset.sum_filter_add_sum_filter_not on (· ∈ faults)
    fun n => powerForSector sectorSize (info n)
  simp only [memoOf, h₁, h₂, Finset.sum_empty]
  congr 1
  rw [← hsplit]
  abel

/-- Faulty sectors recovering: those on time turn active, those early leave. -/
theorem memoOf_recover {on early O E : Finset Nat} (hO : O ⊆ on) (hOf : O ⊆ faults)
    (hE : E ⊆ early) :
    memoOf sectorSize info (faults \ O) on (early \ E) =
      { memoOf sectorSize info faults on early with
        earlySectors := early \ E
        activePower := (memoOf sectorSize info faults on early).activePower +
          ∑ n ∈ O, powerForSector sectorSize (info n)
        faultyPower := (memoOf sectorSize info faults on early).faultyPower +
          -(∑ n ∈ O, powerForSector sectorSize (info n) + ∑ n ∈ E, powerForSector sectorSize (info n))
        feeDeduction := (memoOf sectorSize info faults on early).feeDeduction +
          -∑ n ∈ E, (info n).dailyFee } := by
  have h₁ : on.filter (· ∉ faults \ O) = on.filter (· ∉ faults) ∪ O := by
    ext n
    simp only [Finset.mem_filter, Finset.mem_sdiff, not_and, not_not, Finset.mem_union]
    constructor
    · rintro ⟨hn, h⟩
      by_cases hf : n ∈ faults
      · exact .inr (h hf)
      · exact .inl ⟨hn, hf⟩
    · rintro (⟨hn, hf⟩ | ho)
      · exact ⟨hn, fun h => absurd h hf⟩
      · exact ⟨hO ho, fun _ => ho⟩
  have h₂ : on.filter (· ∈ faults \ O) = on.filter (· ∈ faults) \ O := by
    ext n
    simp only [Finset.mem_filter, Finset.mem_sdiff]
    tauto
  have hdisj : Disjoint (on.filter (· ∉ faults)) O :=
    Finset.disjoint_left.mpr fun _ hn ho => (Finset.mem_filter.mp hn).2 (hOf ho)
  have hsub : O ⊆ on.filter (· ∈ faults) := fun n hn => Finset.mem_filter.mpr ⟨hO hn, hOf hn⟩
  simp only [memoOf, h₁, h₂, Finset.sum_union hdisj, Finset.sum_sdiff_eq_sub hsub,
    Finset.sum_sdiff_eq_sub hE]
  congr 1
  · abel
  · abel

/-- A faulty sector leaving an entry, on time or early, takes its totals with it. -/
theorem memoOf_erase_onTime {on early : Finset Nat} {n : Nat} (hn : n ∈ on) (hf : n ∈ faults) :
    memoOf sectorSize info faults (on.erase n) early =
      { memoOf sectorSize info faults on early with
        onTimeSectors := on.erase n
        onTimePledge := (memoOf sectorSize info faults on early).onTimePledge -
          (info n).initialPledge
        faultyPower := (memoOf sectorSize info faults on early).faultyPower -
          powerForSector sectorSize (info n)
        feeDeduction := (memoOf sectorSize info faults on early).feeDeduction -
          (info n).dailyFee } := by
  have h₁ : (on.erase n).filter (· ∉ faults) = on.filter (· ∉ faults) := by
    rw [Finset.filter_erase, Finset.erase_eq_of_notMem]
    simp [hf]
  have h₂ : n ∈ on.filter (· ∈ faults) := Finset.mem_filter.mpr ⟨hn, hf⟩
  simp only [memoOf, h₁, Finset.filter_erase, Finset.sum_erase_eq_sub hn,
    Finset.sum_erase_eq_sub h₂]
  congr 1
  · abel
  · abel

theorem memoOf_erase_early {on early : Finset Nat} {n : Nat} (hn : n ∈ early) :
    memoOf sectorSize info faults on (early.erase n) =
      { memoOf sectorSize info faults on early with
        earlySectors := early.erase n
        faultyPower := (memoOf sectorSize info faults on early).faultyPower -
          powerForSector sectorSize (info n)
        feeDeduction := (memoOf sectorSize info faults on early).feeDeduction -
          (info n).dailyFee } := by
  simp only [memoOf, Finset.sum_erase_eq_sub hn]
  congr 1
  · abel
  · abel

/-- A faulty sector joining a set, on time or early, brings its totals. -/
theorem memoOf_insert_onTime {on early : Finset Nat} {n : Nat} (hn : n ∉ on) (hf : n ∈ faults) :
    memoOf sectorSize info faults (insert n on) early =
      { memoOf sectorSize info faults on early with
        onTimeSectors := insert n on
        onTimePledge := (memoOf sectorSize info faults on early).onTimePledge +
          (info n).initialPledge
        faultyPower := (memoOf sectorSize info faults on early).faultyPower +
          powerForSector sectorSize (info n)
        feeDeduction := (memoOf sectorSize info faults on early).feeDeduction +
          (info n).dailyFee } := by
  have h₁ : (insert n on).filter (· ∉ faults) = on.filter (· ∉ faults) := by
    rw [Finset.filter_insert, if_neg (not_not.mpr hf)]
  have h₂ : (insert n on).filter (· ∈ faults) = insert n (on.filter (· ∈ faults)) := by
    rw [Finset.filter_insert, if_pos hf]
  have hn' : n ∉ on.filter (· ∈ faults) := fun h => hn (Finset.mem_filter.mp h).1
  simp only [memoOf, h₁, h₂, Finset.sum_insert hn, Finset.sum_insert hn']
  congr 1
  · abel
  · abel
  · abel

theorem memoOf_insert_early {on early : Finset Nat} {n : Nat} (hn : n ∉ early) :
    memoOf sectorSize info faults on (insert n early) =
      { memoOf sectorSize info faults on early with
        earlySectors := insert n early
        faultyPower := (memoOf sectorSize info faults on early).faultyPower +
          powerForSector sectorSize (info n)
        feeDeduction := (memoOf sectorSize info faults on early).feeDeduction +
          (info n).dailyFee } := by
  simp only [memoOf, Finset.sum_insert hn]
  congr 1
  · abel
  · abel

/-- The totals of a set of sectors read only the infos and fault status of
those sectors. -/
theorem memoOf_congr {info' : Nat → SectorOnChainInfo} {faults' : Finset Nat}
    {onTime early : Finset Nat} (hinfo : ∀ n ∈ onTime ∪ early, info' n = info n)
    (hfaults : ∀ n ∈ onTime, n ∈ faults' ↔ n ∈ faults) :
    memoOf sectorSize info' faults' onTime early = memoOf sectorSize info faults onTime early := by
  have hon : ∀ n ∈ onTime, info' n = info n := fun n hn => hinfo n (Finset.mem_union_left _ hn)
  have hearly : ∀ n ∈ early, info' n = info n := fun n hn => hinfo n (Finset.mem_union_right _ hn)
  have hf : onTime.filter (· ∉ faults') = onTime.filter (· ∉ faults) :=
    Finset.filter_congr fun n hn => not_congr (hfaults n hn)
  have hf' : onTime.filter (· ∈ faults') = onTime.filter (· ∈ faults) :=
    Finset.filter_congr hfaults
  have hsub : ∀ p : Nat → Prop, ∀ [DecidablePred p], ∀ n ∈ onTime.filter p, info' n = info n :=
    fun _ _ n hn => hon n (Finset.mem_filter.mp hn).1
  simp only [memoOf, hf, hf']
  congr 1
  · exact Finset.sum_congr rfl fun n hn => by rw [hon n hn]
  · exact Finset.sum_congr rfl fun n hn => by rw [hsub _ n hn]
  · congr 1
    · exact Finset.sum_congr rfl fun n hn => by rw [hsub _ n hn]
    · exact Finset.sum_congr rfl fun n hn => by rw [hearly n hn]
  · congr 1
    · exact Finset.sum_congr rfl fun n hn => by rw [hon n hn]
    · exact Finset.sum_congr rfl fun n hn => by rw [hearly n hn]

/-- Whether an entry is a memo reads only the infos and fault status of its
own sectors. -/
theorem Memo.congr {info' : Nat → SectorOnChainInfo} {faults' : Finset Nat} {es : ExpirationSet}
    (hm : Memo sectorSize info faults es) (hinfo : ∀ n ∈ es.sectors, info' n = info n)
    (hfaults : ∀ n ∈ es.sectors, n ∈ faults' ↔ n ∈ faults) :
    Memo sectorSize info' faults' es where
  eq_memoOf := by
    rw [memoOf_congr hinfo fun n hn => hfaults n (Finset.mem_union_left _ hn)]
    exact hm.eq_memoOf
  disjoint := hm.disjoint
  early_faulty n hn := (hfaults n (Finset.mem_union_right _ hn)).mpr (hm.early_faulty hn)
  nonempty := hm.nonempty

/-- An entry recovering the faulty sectors `O` on time and `D` early, with the
totals `rescheduleRecovered` writes, is the memo of what it keeps for the
faults without the recovered sectors. -/
theorem Memo.recover {es : ExpirationSet} (hm : Memo sectorSize info faults es)
    {O D : Finset Nat} (hO : O ⊆ es.onTimeSectors) (hOf : O ⊆ faults)
    (hD : D ⊆ es.earlySectors) :
    { es with
        earlySectors := es.earlySectors \ D
        activePower := es.activePower + ∑ n ∈ O, powerForSector sectorSize (info n)
        faultyPower := es.faultyPower + -(∑ n ∈ O, powerForSector sectorSize (info n) +
          ∑ n ∈ D, powerForSector sectorSize (info n))
        feeDeduction := es.feeDeduction + -∑ n ∈ D, (info n).dailyFee } =
      memoOf sectorSize info (faults \ (O ∪ D)) es.onTimeSectors (es.earlySectors \ D) := by
  -- the sectors leaving early are not on time, so their status reads nowhere
  have hcongr : memoOf sectorSize info (faults \ (O ∪ D)) es.onTimeSectors (es.earlySectors \ D) =
      memoOf sectorSize info (faults \ O) es.onTimeSectors (es.earlySectors \ D) := by
    refine memoOf_congr (fun _ _ => rfl) fun n hn => ?_
    have hnD : n ∉ D := fun h => Finset.disjoint_left.mp hm.disjoint hn (hD h)
    simp [hnD]
  rw [hcongr, memoOf_recover hO hOf hD, ← hm.eq_memoOf]

end Memo

end ExpirationSet

end BuiltinActors.Miner
