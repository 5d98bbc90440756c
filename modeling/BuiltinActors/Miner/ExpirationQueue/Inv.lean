import BuiltinActors.Miner.ExpirationQueue.Spec

/-! # The queue's representation invariant

What a well-formed queue looks like, relative to the sector infos, the epoch
each sector is scheduled to expire at, the faulty sectors and the live ones:
keys are quantized; every entry is the memo of its own sectors (`Memo`); an
on-time sector sits at its quantized scheduled epoch and an early one before
it; no sector is in two entries; and the live sectors are those of the
entries.

The scheduled epoch of a sector is its declared expiration until the sector
is rescheduled; `rescheduleExpirations` moves sectors without changing their
infos, so the invariant cannot read the schedule off the infos.

The lemmas of this file are the three ways the operations change a queue:
rewriting one entry with fewer sectors (or deleting it), adding sectors to
one entry, and deleting entries. Every operation is a sequence of these. -/

namespace BuiltinActors.Miner

namespace ExpirationQueue

/-- The sectors of the entry at `k`, none if there is no entry. -/
def sectorsAt (q : ExpirationQueue) (k : Int) : Finset Nat :=
  ((q.amt.get? k).map ExpirationSet.sectors).getD ∅

theorem mem_sectorsAt {q : ExpirationQueue} {k : Int} {n : Nat} :
    n ∈ q.sectorsAt k ↔ ∃ es, q.amt.get? k = some es ∧ n ∈ es.sectors := by
  unfold sectorsAt
  cases q.amt.get? k <;> simp

theorem sectorsAt_eq {q : ExpirationQueue} {k : Int} {es : ExpirationSet}
    (h : q.amt.get? k = some es) : q.sectorsAt k = es.sectors := by
  simp [sectorsAt, h]

theorem sectors_mayGet (q : ExpirationQueue) (k : Int) : (q.mayGet k).sectors = q.sectorsAt k := by
  rw [mayGet_eq, sectorsAt]
  cases q.amt.get? k <;> rfl

/-- Writing an entry back replaces its sectors; an empty one is deleted, which
leaves no sectors either. -/
theorem sectorsAt_mustUpdateOrDelete (q : ExpirationQueue) (k : Int) (es : ExpirationSet)
    (k' : Int) :
    (q.mustUpdateOrDelete k es).sectorsAt k' = if k' = k then es.sectors else q.sectorsAt k' := by
  simp only [sectorsAt, get?_mustUpdateOrDelete]
  split_ifs with hk he
  · exact ((ExpirationSet.isEmpty_iff es).mp he).symm
  · rfl
  · rfl

theorem sectorsAt_mustUpdate (q : ExpirationQueue) (k : Int) (es : ExpirationSet) (k' : Int) :
    (q.mustUpdate k es).sectorsAt k' = if k' = k then es.sectors else q.sectorsAt k' := by
  simp only [sectorsAt, get?_mustUpdate]
  split_ifs <;> rfl

/-- The sectors of the entries whose keys satisfy `p`. -/
def sectorsBy (q : ExpirationQueue) (p : Int → Prop) [DecidablePred p] : Finset Nat :=
  unionAll ((q.amt.entries.filter fun e => p e.1).map (·.2.sectors))

theorem mem_sectorsBy {q : ExpirationQueue} {p : Int → Prop} [DecidablePred p] {n : Nat} :
    n ∈ q.sectorsBy p ↔ ∃ k, p k ∧ n ∈ q.sectorsAt k := by
  simp only [sectorsBy, mem_unionAll, List.mem_map, List.mem_filter, decide_eq_true_eq,
    mem_sectorsAt]
  constructor
  · rintro ⟨_, ⟨⟨k, es⟩, ⟨he, hp⟩, rfl⟩, hn⟩
    exact ⟨k, hp, es, OrdMap.get?_eq_some_iff.mpr he, hn⟩
  · rintro ⟨k, hp, es, he, hn⟩
    exact ⟨_, ⟨(k, es), ⟨OrdMap.get?_eq_some_iff.mp he, hp⟩, rfl⟩, hn⟩

section Inv

variable (sectorSize : Nat) (info : Nat → SectorOnChainInfo) (sched : Nat → Int)
  (faults live : Finset Nat)

/-- The representation invariant of a queue holding the sectors `live`, with
infos `info`, faults `faults`, and on-time sectors scheduled at `sched`. -/
structure Inv (q : ExpirationQueue) : Prop where
  quantized : ∀ {k es}, q.amt.get? k = some es → q.quant.quantizeUp k = k
  memo : ∀ {k es}, q.amt.get? k = some es → es.Memo sectorSize info faults
  onTime_at : ∀ {k es n}, q.amt.get? k = some es → n ∈ es.onTimeSectors →
    k = q.quant.quantizeUp (sched n)
  early_before : ∀ {k es n}, q.amt.get? k = some es → n ∈ es.earlySectors →
    k < q.quant.quantizeUp (sched n)
  unique : ∀ {k k' n}, n ∈ q.sectorsAt k → n ∈ q.sectorsAt k' → k = k'
  live_iff : ∀ n, n ∈ live ↔ ∃ k, n ∈ q.sectorsAt k

variable {sectorSize info sched faults live} {q : ExpirationQueue}

theorem Inv.mem_live (hinv : Inv sectorSize info sched faults live q) {k : Int}
    {es : ExpirationSet} (hget : q.amt.get? k = some es) {n : Nat} (hn : n ∈ es.sectors) :
    n ∈ live :=
  (hinv.live_iff n).mpr ⟨k, mem_sectorsAt.mpr ⟨es, hget, hn⟩⟩

/-- A live sector sits in the entry at `k` only. -/
theorem Inv.eq_of_mem (hinv : Inv sectorSize info sched faults live q) {k k' : Int}
    {es es' : ExpirationSet} (hget : q.amt.get? k = some es) (hget' : q.amt.get? k' = some es')
    {n : Nat} (hn : n ∈ es.sectors) (hn' : n ∈ es'.sectors) : k = k' :=
  hinv.unique (mem_sectorsAt.mpr ⟨es, hget, hn⟩) (mem_sectorsAt.mpr ⟨es', hget', hn'⟩)

/-- Distinct entries hold disjoint sectors. -/
theorem Inv.pairwise_disjoint (hinv : Inv sectorSize info sched faults live q) :
    (q.amt.entries.map fun e => e.2.sectors).Pairwise Disjoint :=
  List.pairwise_map.mpr (q.amt.sorted.imp_of_mem fun ha hb hlt =>
    Finset.disjoint_left.mpr fun _ hna hnb => (ne_of_lt hlt)
      (hinv.eq_of_mem (OrdMap.get?_eq_some_iff.mpr ha) (OrdMap.get?_eq_some_iff.mpr hb) hna hnb))

/-- The invariant reads the infos, schedule and faults of live sectors only. -/
theorem Inv.congr (hinv : Inv sectorSize info sched faults live q)
    {info' : Nat → SectorOnChainInfo} {sched' : Nat → Int} {faults' : Finset Nat}
    (hinfo : ∀ n ∈ live, info' n = info n) (hsched : ∀ n ∈ live, sched' n = sched n)
    (hfaults : ∀ n ∈ live, n ∈ faults' ↔ n ∈ faults) :
    Inv sectorSize info' sched' faults' live q where
  quantized := hinv.quantized
  memo hget := (hinv.memo hget).congr (fun n hn => hinfo n (hinv.mem_live hget hn))
    (fun n hn => hfaults n (hinv.mem_live hget hn))
  onTime_at hget hn := by
    rw [hsched _ (hinv.mem_live hget (Finset.mem_union_left _ hn))]
    exact hinv.onTime_at hget hn
  early_before hget hn := by
    rw [hsched _ (hinv.mem_live hget (Finset.mem_union_right _ hn))]
    exact hinv.early_before hget hn
  unique := hinv.unique
  live_iff := hinv.live_iff

/-- The empty queue holds no sectors. -/
theorem inv_empty (quant : QuantSpec) :
    Inv sectorSize info sched faults ∅ ⟨OrdMap.empty, quant⟩ where
  quantized h := by cases h
  memo h := by cases h
  onTime_at h := by cases h
  early_before h := by cases h
  unique h := by simp [sectorsAt] at h
  live_iff n := by simp [sectorsAt]

/-- The entry a write starts from, the empty one if there is none, has the
totals of its sectors. -/
theorem Inv.mayGet (hinv : Inv sectorSize info sched faults live q) (k : Int) :
    q.mayGet k = ExpirationSet.memoOf sectorSize info faults (q.mayGet k).onTimeSectors
        (q.mayGet k).earlySectors ∧
      Disjoint (q.mayGet k).onTimeSectors (q.mayGet k).earlySectors ∧
      (q.mayGet k).earlySectors ⊆ faults := by
  rw [mayGet_eq]
  rcases hget : q.amt.get? k with _ | es
  · exact ⟨by simp [ExpirationSet.empty], by simp [ExpirationSet.empty],
      by simp [ExpirationSet.empty]⟩
  · have hm := hinv.memo hget
    exact ⟨hm.eq_memoOf, hm.disjoint, hm.early_faulty⟩

/-- **Rewriting one entry.** An entry written back with some of its sectors,
or deleted when none is left, keeps the invariant for the sectors left, with
new fault statuses for the entry's own sectors that its totals agree with. -/
theorem Inv.rewrite (hinv : Inv sectorSize info sched faults live q) {k : Int}
    {es es' : ExpirationSet} {faults' : Finset Nat} (hget : q.amt.get? k = some es)
    (hon : es'.onTimeSectors ⊆ es.onTimeSectors) (hearly : es'.earlySectors ⊆ es.earlySectors)
    (hmemo : es'.sectors.Nonempty → es'.Memo sectorSize info faults')
    (hfaults : ∀ n ∈ live, n ∉ es.sectors → (n ∈ faults' ↔ n ∈ faults)) :
    Inv sectorSize info sched faults' (live \ (es.sectors \ es'.sectors))
      (q.mustUpdateOrDelete k es') := by
  have hsec : es'.sectors ⊆ es.sectors := Finset.union_subset_union hon hearly
  have hsub : ∀ k', (q.mustUpdateOrDelete k es').sectorsAt k' ⊆ q.sectorsAt k' := by
    intro k'
    rw [sectorsAt_mustUpdateOrDelete]
    split_ifs with hk
    · rw [hk, sectorsAt_eq hget]
      exact hsec
    · exact subset_rfl
  -- an entry other than the rewritten one holds none of its sectors
  have hother : ∀ {k' e n}, q.amt.get? k' = some e → k' ≠ k → n ∈ e.sectors → n ∉ es.sectors :=
    fun h hk hn hn' => hk (hinv.eq_of_mem h hget hn hn')
  refine ⟨?_, ?_, ?_, ?_, ?_, ?_⟩
  · intro k' e h
    rw [get?_mustUpdateOrDelete] at h
    rw [mustUpdateOrDelete_quant]
    split_ifs at h with hk
    · rw [hk]
      exact hinv.quantized hget
    · exact hinv.quantized h
  · intro k' e h
    rw [get?_mustUpdateOrDelete] at h
    split_ifs at h with hk he
    · cases h
      exact hmemo ((ExpirationSet.isEmpty_eq_false_iff es').mp (Bool.eq_false_iff.mpr he))
    · exact (hinv.memo h).congr (fun _ _ => rfl)
        fun n hn => hfaults n (hinv.mem_live h hn) (hother h hk hn)
  · intro k' e n h hn
    rw [get?_mustUpdateOrDelete] at h
    rw [mustUpdateOrDelete_quant]
    split_ifs at h with hk he
    · cases h
      rw [hk]
      exact hinv.onTime_at hget (hon hn)
    · exact hinv.onTime_at h hn
  · intro k' e n h hn
    rw [get?_mustUpdateOrDelete] at h
    rw [mustUpdateOrDelete_quant]
    split_ifs at h with hk he
    · cases h
      rw [hk]
      exact hinv.early_before hget (hearly hn)
    · exact hinv.early_before h hn
  · intro k₁ k₂ n h₁ h₂
    exact hinv.unique (hsub k₁ h₁) (hsub k₂ h₂)
  · intro n
    simp only [Finset.mem_sdiff, not_and, not_not]
    constructor
    · rintro ⟨hl, hkeep⟩
      obtain ⟨k', hk'⟩ := (hinv.live_iff n).mp hl
      refine ⟨k', ?_⟩
      rw [sectorsAt_mustUpdateOrDelete]
      split_ifs with hk
      · rw [hk, sectorsAt_eq hget] at hk'
        exact hkeep hk'
      · exact hk'
    · rintro ⟨k', hk'⟩
      refine ⟨(hinv.live_iff n).mpr ⟨k', hsub k' hk'⟩, fun hn => ?_⟩
      rw [sectorsAt_mustUpdateOrDelete] at hk'
      split_ifs at hk' with hk
      · exact hk'
      · obtain ⟨e, h, hne⟩ := mem_sectorsAt.mp hk'
        exact absurd hn (hother h hk hne)

theorem Inv.mayGet_at (hinv : Inv sectorSize info sched faults live q) {k : Int} {n : Nat} :
    (n ∈ (q.mayGet k).onTimeSectors → k = q.quant.quantizeUp (sched n)) ∧
      (n ∈ (q.mayGet k).earlySectors → k < q.quant.quantizeUp (sched n)) := by
  rw [mayGet_eq]
  rcases hget : q.amt.get? k with _ | es
  · simp [ExpirationSet.empty]
  · exact ⟨hinv.onTime_at hget, hinv.early_before hget⟩

/-- **Rewriting entries in place.** Entries rewritten one by one without
moving a sector keep the invariant, with fault statuses their new totals
agree with. -/
theorem Inv.map (hinv : Inv sectorSize info sched faults live q) {q' : ExpirationQueue}
    {faults' : Finset Nat} (T : Int → ExpirationSet → ExpirationSet) (hquant : q'.quant = q.quant)
    (hget : ∀ k, q'.amt.get? k = (q.amt.get? k).map (T k))
    (hon : ∀ k es, q.amt.get? k = some es → (T k es).onTimeSectors = es.onTimeSectors)
    (hearly : ∀ k es, q.amt.get? k = some es → (T k es).earlySectors = es.earlySectors)
    (hmemo : ∀ k es, q.amt.get? k = some es → (T k es).Memo sectorSize info faults') :
    Inv sectorSize info sched faults' live q' := by
  have hsec : ∀ k, q'.sectorsAt k = q.sectorsAt k := by
    intro k
    simp only [sectorsAt, hget]
    rcases h : q.amt.get? k with _ | es
    · rfl
    · simp only [Option.map_some, Option.map_some, Option.getD_some, ExpirationSet.sectors,
        hon k es h, hearly k es h]
  -- every entry of the new queue is the image of one of the old
  have hinv' : ∀ {k e}, q'.amt.get? k = some e → ∃ es, q.amt.get? k = some es ∧ T k es = e :=
    fun h => by rwa [hget, Option.map_eq_some_iff] at h
  refine ⟨?_, ?_, ?_, ?_, ?_, ?_⟩
  · intro k e h
    obtain ⟨es, hq, -⟩ := hinv' h
    rw [hquant]
    exact hinv.quantized hq
  · intro k e h
    obtain ⟨es, hq, rfl⟩ := hinv' h
    exact hmemo k es hq
  · intro k e n h hn
    obtain ⟨es, hq, rfl⟩ := hinv' h
    rw [hquant]
    exact hinv.onTime_at hq (hon k es hq ▸ hn)
  · intro k e n h hn
    obtain ⟨es, hq, rfl⟩ := hinv' h
    rw [hquant]
    exact hinv.early_before hq (hearly k es hq ▸ hn)
  · intro k₁ k₂ n h₁ h₂
    rw [hsec] at h₁ h₂
    exact hinv.unique h₁ h₂
  · intro n
    simp only [hsec]
    exact hinv.live_iff n

section Entry

variable {k : Int} {es : ExpirationSet} {S : Finset Nat}

/-- Active on-time sectors leaving their entry, with their totals. -/
theorem Inv.removeActive (hinv : Inv sectorSize info sched faults live q)
    (hget : q.amt.get? k = some es) (hS : S ⊆ es.onTimeSectors) (hSf : Disjoint S faults) :
    Inv sectorSize info sched faults (live \ S)
      (q.mustUpdateOrDelete k ⟨es.onTimeSectors \ S, es.earlySectors,
        es.onTimePledge - ∑ n ∈ S, (info n).initialPledge,
        es.activePower - ∑ n ∈ S, powerForSector sectorSize (info n), es.faultyPower,
        es.feeDeduction - ∑ n ∈ S, (info n).dailyFee⟩) := by
  have hm := hinv.memo hget
  set E : ExpirationSet := ⟨es.onTimeSectors \ S, es.earlySectors,
      es.onTimePledge - ∑ n ∈ S, (info n).initialPledge,
      es.activePower - ∑ n ∈ S, powerForSector sectorSize (info n), es.faultyPower,
      es.feeDeduction - ∑ n ∈ S, (info n).dailyFee⟩ with hE
  have hE' : E = ExpirationSet.memoOf sectorSize info faults (es.onTimeSectors \ S)
      es.earlySectors := by
    rw [hE, ExpirationSet.memoOf_sdiff_active hS hSf, ← hm.eq_memoOf]
  -- the sectors leaving are on time, so none of them is early
  have hlive : live \ (es.sectors \ E.sectors) = live \ S := by
    ext n
    simp only [hE, Finset.mem_sdiff, ExpirationSet.mem_sectors]
    have := fun hn : n ∈ S => Finset.disjoint_left.mp hm.disjoint (hS hn)
    have := @hS n
    grind
  have hmemo : E.sectors.Nonempty → E.Memo sectorSize info faults := fun hne => by
    rw [hE']
    exact ExpirationSet.memo_memoOf (hm.disjoint.mono_left Finset.sdiff_subset)
      hm.early_faulty (by rw [← ExpirationSet.memoOf_sectors, ← hE']; exact hne)
  have h : Inv sectorSize info sched faults (live \ (es.sectors \ E.sectors))
      (q.mustUpdateOrDelete k E) :=
    hinv.rewrite hget Finset.sdiff_subset subset_rfl hmemo fun _ _ _ => Iff.rfl
  rwa [hlive] at h

/-- Active on-time sectors of an entry turning faulty, in place. -/
theorem Inv.faultOnTime (hinv : Inv sectorSize info sched faults live q)
    (hget : q.amt.get? k = some es) (hS : S ⊆ es.onTimeSectors) (hSf : Disjoint S faults) :
    Inv sectorSize info sched (faults ∪ S) live
      (q.mustUpdateOrDelete k { es with
        activePower := es.activePower - ∑ n ∈ S, powerForSector sectorSize (info n)
        faultyPower := es.faultyPower + ∑ n ∈ S, powerForSector sectorSize (info n) }) := by
  have hm := hinv.memo hget
  set E : ExpirationSet := { es with
      activePower := es.activePower - ∑ n ∈ S, powerForSector sectorSize (info n)
      faultyPower := es.faultyPower + ∑ n ∈ S, powerForSector sectorSize (info n) } with hE
  have hE' : E = ExpirationSet.memoOf sectorSize info (faults ∪ S) es.onTimeSectors
      es.earlySectors := by
    rw [hE, ExpirationSet.memoOf_fault hS hSf, ← hm.eq_memoOf]
  have hmemo : E.sectors.Nonempty → E.Memo sectorSize info (faults ∪ S) := fun _ => by
    rw [hE']
    exact ExpirationSet.memo_memoOf hm.disjoint (hm.early_faulty.trans Finset.subset_union_left)
      hm.nonempty
  -- only the entry's own sectors change status
  have hfaults : ∀ n ∈ live, n ∉ es.sectors → (n ∈ faults ∪ S ↔ n ∈ faults) := by
    intro n _ hn
    have : n ∉ S := fun hs => hn (Finset.mem_union_left _ (hS hs))
    simp [this]
  have h : Inv sectorSize info sched (faults ∪ S) (live \ (es.sectors \ E.sectors))
      (q.mustUpdateOrDelete k E) :=
    hinv.rewrite hget subset_rfl subset_rfl hmemo hfaults
  have hlive : live \ (es.sectors \ E.sectors) = live := by
    simp [hE, ExpirationSet.sectors]
  rwa [hlive] at h

end Entry

section Add

variable {raw : Int} {A B : Finset Nat} {active faulty : PowerPair} {pledge fee : Int}

/-- **Adding to one entry.** Adding new sectors with their totals, on time at
their scheduled epoch or early before it, keeps the invariant with the new
sectors live. -/
theorem Inv.addEntry (hinv : Inv sectorSize info sched faults live q)
    (htotals : (⟨A, B, pledge, active, faulty, fee⟩ : ExpirationSet) =
      ExpirationSet.memoOf sectorSize info faults A B)
    (hfresh : Disjoint (A ∪ B) live) (hAB : Disjoint A B) (hB : B ⊆ faults)
    (hne : (A ∪ B).Nonempty)
    (honTime : ∀ n ∈ A, q.quant.quantizeUp raw = q.quant.quantizeUp (sched n))
    (hearly : ∀ n ∈ B, q.quant.quantizeUp raw < q.quant.quantizeUp (sched n)) :
    Inv sectorSize info sched faults (live ∪ (A ∪ B))
      (q.mustUpdate (q.quant.quantizeUp raw)
        ((q.mayGet (q.quant.quantizeUp raw)).union ⟨A, B, pledge, active, faulty, fee⟩)) := by
  set kq := q.quant.quantizeUp raw
  obtain ⟨he₀, hd₀, hf₀⟩ := hinv.mayGet kq
  set e₀ := q.mayGet kq
  have hs₀ : e₀.sectors = q.sectorsAt kq := sectors_mayGet q kq
  -- the entry there holds live sectors only, so none of the new ones
  have hold : Disjoint e₀.sectors (A ∪ B) := by
    refine Disjoint.mono_left (fun n hn => (hinv.live_iff n).mpr ⟨kq, hs₀ ▸ hn⟩) hfresh.symm
  have hsubOn : e₀.onTimeSectors ⊆ e₀.sectors := Finset.subset_union_left
  have hsubEarly : e₀.earlySectors ⊆ e₀.sectors := Finset.subset_union_right
  have hA : A ⊆ A ∪ B := Finset.subset_union_left
  have hB' : B ⊆ A ∪ B := Finset.subset_union_right
  have hon : Disjoint e₀.onTimeSectors A := hold.mono hsubOn hA
  have hea : Disjoint e₀.earlySectors B := hold.mono hsubEarly hB'
  have hunion : e₀.union ⟨A, B, pledge, active, faulty, fee⟩ =
      ExpirationSet.memoOf sectorSize info faults (e₀.onTimeSectors ∪ A) (e₀.earlySectors ∪ B) := by
    have h := @ExpirationSet.memoOf_union sectorSize info faults _ _ _ _ hon hea
    rw [← he₀] at h
    rw [htotals, h]
  have hsecE : (ExpirationSet.memoOf sectorSize info faults (e₀.onTimeSectors ∪ A)
      (e₀.earlySectors ∪ B)).sectors = q.sectorsAt kq ∪ (A ∪ B) := by
    rw [ExpirationSet.memoOf_sectors, ← hs₀, ExpirationSet.sectors]
    exact Finset.union_union_union_comm _ _ _ _
  have hmemo : (ExpirationSet.memoOf sectorSize info faults (e₀.onTimeSectors ∪ A)
      (e₀.earlySectors ∪ B)).Memo sectorSize info faults := by
    refine ⟨rfl, ?_, ?_, ?_⟩
    · exact Finset.disjoint_union_left.mpr
        ⟨Finset.disjoint_union_right.mpr ⟨hd₀, hold.mono hsubOn hB'⟩,
          Finset.disjoint_union_right.mpr ⟨(hold.mono hsubEarly hA).symm, hAB⟩⟩
    · exact Finset.union_subset hf₀ hB
    · rw [hsecE]
      exact hne.mono Finset.subset_union_right
  have hsec : ∀ k, (q.mustUpdate kq (e₀.union ⟨A, B, pledge, active, faulty, fee⟩)).sectorsAt k =
      if k = kq then q.sectorsAt kq ∪ (A ∪ B) else q.sectorsAt k := by
    intro k
    rw [sectorsAt_mustUpdate, hunion, hsecE]
  rw [hunion] at hsec ⊢
  refine ⟨?_, ?_, ?_, ?_, ?_, ?_⟩
  · intro k e h
    rw [get?_mustUpdate] at h
    rw [mustUpdate_quant]
    split_ifs at h with hk
    · rw [hk]
      exact QuantSpec.quantizeUp_idem q.quant raw
    · exact hinv.quantized h
  · intro k e h
    rw [get?_mustUpdate] at h
    split_ifs at h with hk
    · cases h
      exact hmemo
    · exact hinv.memo h
  · intro k e n h hn
    rw [get?_mustUpdate] at h
    rw [mustUpdate_quant]
    split_ifs at h with hk
    · cases h
      rw [hk]
      rcases Finset.mem_union.mp hn with hn | hn
      · exact hinv.mayGet_at.1 hn
      · exact honTime n hn
    · exact hinv.onTime_at h hn
  · intro k e n h hn
    rw [get?_mustUpdate] at h
    rw [mustUpdate_quant]
    split_ifs at h with hk
    · cases h
      rw [hk]
      rcases Finset.mem_union.mp hn with hn | hn
      · exact hinv.mayGet_at.2 hn
      · exact hearly n hn
    · exact hinv.early_before h hn
  · -- a new sector is in the written entry only, since it was in no entry before
    have hnew : ∀ {k n}, k ≠ kq → n ∈ q.sectorsAt k → n ∉ A ∪ B := fun {k n} _ hn hn' =>
      Finset.disjoint_left.mp hfresh hn' ((hinv.live_iff n).mpr ⟨k, hn⟩)
    intro k₁ k₂ n h₁ h₂
    rw [hsec] at h₁ h₂
    split_ifs at h₁ h₂ with hk₁ hk₂ hk₂
    · rw [hk₁, hk₂]
    · rcases Finset.mem_union.mp h₁ with h₁ | h₁
      · exact hinv.unique (hk₁ ▸ h₁) h₂
      · exact absurd h₁ (hnew hk₂ h₂)
    · rcases Finset.mem_union.mp h₂ with h₂ | h₂
      · exact hinv.unique h₁ (hk₂ ▸ h₂)
      · exact absurd h₂ (hnew hk₁ h₁)
    · exact hinv.unique h₁ h₂
  · intro n
    rw [Finset.mem_union, hinv.live_iff n]
    constructor
    · rintro (⟨k, hk⟩ | hn)
      · refine ⟨k, ?_⟩
        rw [hsec]
        split_ifs with hk'
        · exact Finset.mem_union_left _ (hk' ▸ hk)
        · exact hk
      · exact ⟨kq, by rw [hsec, if_pos rfl]; exact Finset.mem_union_right _ hn⟩
    · rintro ⟨k, hk⟩
      rw [hsec] at hk
      split_ifs at hk with hk'
      · rcases Finset.mem_union.mp hk with hk | hk
        · exact .inl ⟨kq, hk⟩
        · exact .inr hk
      · exact .inl ⟨k, hk⟩

theorem Inv.add (hinv : Inv sectorSize info sched faults live q)
    {q' : ExpirationQueue} (hq' : q.add raw A B active faulty pledge fee = .ok q')
    (htotals : (⟨A, B, pledge, active, faulty, fee⟩ : ExpirationSet) =
      ExpirationSet.memoOf sectorSize info faults A B)
    (hfresh : Disjoint (A ∪ B) live) (hAB : Disjoint A B) (hB : B ⊆ faults)
    (hne : (A ∪ B).Nonempty)
    (honTime : ∀ n ∈ A, q.quant.quantizeUp raw = q.quant.quantizeUp (sched n))
    (hearly : ∀ n ∈ B, q.quant.quantizeUp raw < q.quant.quantizeUp (sched n)) :
    Inv sectorSize info sched faults (live ∪ (A ∪ B)) q' := by
  obtain rfl := add_ok hq'
  exact hinv.addEntry htotals hfresh hAB hB hne honTime hearly

end Add

/-- **Deleting entries.** A queue with some entries deleted keeps the
invariant for the sectors of the others. -/
theorem Inv.erase (hinv : Inv sectorSize info sched faults live q) {q' : ExpirationQueue}
    {ks : List Int} (hquant : q'.quant = q.quant)
    (hget : ∀ k, q'.amt.get? k = if k ∈ ks then none else q.amt.get? k) :
    Inv sectorSize info sched faults (live \ unionAll (ks.map q.sectorsAt)) q' := by
  have hsec : ∀ k, q'.sectorsAt k = if k ∈ ks then ∅ else q.sectorsAt k := by
    intro k
    simp only [sectorsAt, hget]
    split_ifs <;> rfl
  have hsub : ∀ k, q'.sectorsAt k ⊆ q.sectorsAt k := by
    intro k
    rw [hsec]
    split_ifs
    · exact Finset.empty_subset _
    · exact subset_rfl
  refine ⟨?_, ?_, ?_, ?_, ?_, ?_⟩
  · intro k e h
    rw [hget] at h
    split_ifs at h
    rw [hquant]
    exact hinv.quantized h
  · intro k e h
    rw [hget] at h
    split_ifs at h
    exact hinv.memo h
  · intro k e n h hn
    rw [hget] at h
    split_ifs at h
    rw [hquant]
    exact hinv.onTime_at h hn
  · intro k e n h hn
    rw [hget] at h
    split_ifs at h
    rw [hquant]
    exact hinv.early_before h hn
  · intro k₁ k₂ n h₁ h₂
    exact hinv.unique (hsub k₁ h₁) (hsub k₂ h₂)
  · intro n
    simp only [Finset.mem_sdiff, mem_unionAll, List.mem_map, hinv.live_iff n]
    constructor
    · rintro ⟨⟨k, hk⟩, hdel⟩
      refine ⟨k, ?_⟩
      rw [hsec]
      split_ifs with hks
      · exact absurd ⟨_, ⟨k, hks, rfl⟩, hk⟩ hdel
      · exact hk
    · rintro ⟨k, hk⟩
      have hks : k ∉ ks := by
        intro hks
        rw [hsec, if_pos hks] at hk
        simp at hk
      refine ⟨⟨k, hsub k hk⟩, ?_⟩
      rintro ⟨_, ⟨k', hk', rfl⟩, hn⟩
      rw [hinv.unique (hsub k hk) hn] at hks
      exact hks hk'

end Inv

end ExpirationQueue

end BuiltinActors.Miner
