import BuiltinActors.Miner.ExpirationQueue.InPlace

/-! # The queue over whole runs

A queue is tracked with the ghost state its invariant is relative to: the
sector infos, the epoch each sector is scheduled to expire at, the faulty
sectors and the live ones. Each public operation is a call that updates the
ghost state as its caller's bookkeeping does, under the conditions its caller
guarantees of the arguments. From an empty queue, every run of successful
calls leaves a queue that satisfies `Inv` for the ghost state it carries.

The schedule is ghost state because `rescheduleExpirations` moves sectors
without changing their infos: a sector's declared expiration says where it
sits only until it is rescheduled. -/

namespace BuiltinActors.Miner

namespace ExpirationQueue

/-- A queue with the ghost state its invariant reads. -/
structure Tracked where
  queue : ExpirationQueue
  info : Nat → SectorOnChainInfo
  sched : Nat → Int
  faults : Finset Nat
  live : Finset Nat

/-- The public operations of the queue, with their arguments. `removeSectors`
is passed the tracked faults, as the partition passes its own. -/
inductive Call where
  | addActiveSectors (sectors : List SectorOnChainInfo)
  | rescheduleExpirations (newExpiration : Int) (sectors : List SectorOnChainInfo)
  | rescheduleAsFaults (newExpiration : Int) (sectors : List SectorOnChainInfo)
  | rescheduleAllAsFaults (faultExpiration : Int)
  | rescheduleRecovered (sectors : List SectorOnChainInfo)
  | replaceSectors (oldSectors newSectors : List SectorOnChainInfo)
  | removeSectors (addressedSectorsMax : Nat) (sectors : List SectorOnChainInfo)
      (recovering : Finset Nat)
  | popUntil (untilEpoch : Int)

namespace Call

/-- The schedule once the sectors `S` sit at their declared expirations. -/
def declared (info : Nat → SectorOnChainInfo) (sched : Nat → Int) (S : Finset Nat) : Nat → Int :=
  fun n => if n ∈ S then (info n).expiration else sched n

/-- A call on a tracked queue: the operation, and the ghost state it leaves. -/
def apply (sectorSize : Nat) (t : Tracked) : Call → Except String Tracked
  | addActiveSectors sectors => do
    let (q, _) ← t.queue.addActiveSectors sectors sectorSize
    let info := overrideInfos t.info sectors
    return ⟨q, info, declared info t.sched (numbers sectors), t.faults, t.live ∪ numbers sectors⟩
  | rescheduleExpirations newExpiration sectors => do
    let q ← t.queue.rescheduleExpirations newExpiration sectors sectorSize
    return ⟨q, t.info, fun n => if n ∈ numbers sectors then newExpiration else t.sched n,
      t.faults, t.live⟩
  | rescheduleAsFaults newExpiration sectors => do
    let (q, _) ← t.queue.rescheduleAsFaults newExpiration sectors sectorSize
    return ⟨q, t.info, t.sched, t.faults ∪ numbers sectors, t.live⟩
  | rescheduleAllAsFaults faultExpiration => do
    let q ← t.queue.rescheduleAllAsFaults faultExpiration
    return ⟨q, t.info, t.sched, t.faults ∪ t.live, t.live⟩
  | rescheduleRecovered sectors => do
    let (q, _) ← t.queue.rescheduleRecovered sectors sectorSize
    return ⟨q, t.info, declared t.info t.sched (numbers sectors ∩ t.queue.earlySectors),
      t.faults \ numbers sectors, t.live⟩
  | replaceSectors oldSectors newSectors => do
    let (q, _) ← t.queue.replaceSectors oldSectors newSectors sectorSize
    let info := overrideInfos t.info newSectors
    return ⟨q, info, declared info t.sched (numbers newSectors), t.faults,
      t.live \ numbers oldSectors ∪ numbers newSectors⟩
  | removeSectors addressedSectorsMax sectors recovering => do
    let (q, _) ← t.queue.removeSectors addressedSectorsMax sectors t.faults recovering sectorSize
    return ⟨q, t.info, t.sched, t.faults, t.live \ numbers sectors⟩
  | popUntil untilEpoch => do
    let (q, popped) ← t.queue.popUntil untilEpoch
    return ⟨q, t.info, t.sched, t.faults, t.live \ popped.sectors⟩

/-- What the partition guarantees of a call's arguments: the sectors passed
are given with their current infos, none listed twice where they are added or
removed one by one; sectors added are new and active; sectors moved as active
are not faulty, and sectors recovering are. -/
def Pre (t : Tracked) : Call → Prop
  | addActiveSectors sectors => (sectors.map SectorOnChainInfo.sectorNumber).Nodup ∧
      Disjoint (numbers sectors) t.live ∧ Disjoint (numbers sectors) t.faults
  | rescheduleExpirations _ sectors =>
      InfosAgree t.info sectors ∧ Disjoint (numbers sectors) t.faults
  | rescheduleAsFaults _ sectors =>
      InfosAgree t.info sectors ∧ Disjoint (numbers sectors) t.faults
  | rescheduleAllAsFaults _ => True
  | rescheduleRecovered sectors => InfosAgree t.info sectors ∧ numbers sectors ⊆ t.faults
  | replaceSectors oldSectors newSectors => InfosAgree t.info oldSectors ∧
      Disjoint (numbers oldSectors) t.faults ∧
      (newSectors.map SectorOnChainInfo.sectorNumber).Nodup ∧
      Disjoint (numbers newSectors) (t.live \ numbers oldSectors) ∧
      Disjoint (numbers newSectors) t.faults
  | removeSectors _ sectors _ =>
      InfosAgree t.info sectors ∧ (sectors.map SectorOnChainInfo.sectorNumber).Nodup
  | popUntil _ => True

end Call

/-- The tracked queues of runs from an empty queue, in which every call meets
its caller's conditions and returns `Ok`. -/
inductive Reachable (sectorSize : Nat) : Tracked → Prop
  | init (quant : QuantSpec) (info : Nat → SectorOnChainInfo) (hu : 0 < quant.unit) :
      Reachable sectorSize ⟨⟨OrdMap.empty, quant⟩, info, fun n => (info n).expiration, ∅, ∅⟩
  | step {t t' : Tracked} (c : Call) : Reachable sectorSize t → c.Pre t →
      c.apply sectorSize t = .ok t' → Reachable sectorSize t'

/-- The invariant of a tracked queue: the queue's own, and a quantization
with a positive unit. -/
structure TrackedInv (sectorSize : Nat) (t : Tracked) : Prop where
  inv : Inv sectorSize t.info t.sched t.faults t.live t.queue
  unit : 0 < t.queue.quant.unit

variable {sectorSize : Nat} {t t' : Tracked}

/-- Sectors added new take infos of their own and are scheduled at their
declared expirations; nothing else the invariant reads changes. -/
theorem TrackedInv.addActiveSectors (hI : TrackedInv sectorSize t) {sectors : List SectorOnChainInfo}
    (hnd : (sectors.map SectorOnChainInfo.sectorNumber).Nodup)
    (hfresh : Disjoint (numbers sectors) t.live) (hactive : Disjoint (numbers sectors) t.faults)
    {q : ExpirationQueue} {r : Finset Nat × PowerPair × Int × Int}
    (h : t.queue.addActiveSectors sectors sectorSize = .ok (q, r)) :
    Inv sectorSize (overrideInfos t.info sectors)
      (Call.declared (overrideInfos t.info sectors) t.sched (numbers sectors)) t.faults
      (t.live ∪ numbers sectors) q := by
  have hnew : ∀ n ∈ t.live, n ∉ numbers sectors := fun n hn hs =>
    Finset.disjoint_left.mp hfresh hs hn
  have h₁ : Inv sectorSize (overrideInfos t.info sectors)
      (Call.declared (overrideInfos t.info sectors) t.sched (numbers sectors)) t.faults t.live
      t.queue :=
    hI.inv.congr (fun n hn => overrideInfos_of_notMem (hnew n hn))
      (fun n hn => if_neg (hnew n hn)) fun _ _ => Iff.rfl
  exact (h₁.addActiveSectors hI.unit (overrideInfos_agree hnd) hnd hfresh hactive
    (fun n hn => if_pos hn) h).1

/-- **One call keeps the tracked invariant.** -/
theorem Call.apply_inv {c : Call} (hI : TrackedInv sectorSize t) (hpre : c.Pre t)
    (h : c.apply sectorSize t = .ok t') : TrackedInv sectorSize t' := by
  cases c with
  | addActiveSectors sectors =>
    obtain ⟨hnd, hfresh, hactive⟩ := hpre
    simp only [apply, Except.bind_eq_ok, Except.pure_eq_ok] at h
    obtain ⟨⟨q, r⟩, hq, rfl⟩ := h
    exact ⟨hI.addActiveSectors hnd hfresh hactive hq, addActiveSectors_quant hq ▸ hI.unit⟩
  | rescheduleExpirations newExpiration sectors =>
    obtain ⟨hagree, hactive⟩ := hpre
    simp only [apply, Except.bind_eq_ok, Except.pure_eq_ok] at h
    obtain ⟨q, hq, rfl⟩ := h
    exact ⟨hI.inv.rescheduleExpirations hagree hactive hq,
      rescheduleExpirations_quant hq ▸ hI.unit⟩
  | rescheduleAsFaults newExpiration sectors =>
    obtain ⟨hagree, hactive⟩ := hpre
    simp only [apply, Except.bind_eq_ok, Except.pure_eq_ok] at h
    obtain ⟨⟨q, r⟩, hq, rfl⟩ := h
    exact ⟨(hI.inv.rescheduleAsFaults hagree hactive hq).1,
      rescheduleAsFaults_quant hq ▸ hI.unit⟩
  | rescheduleAllAsFaults faultExpiration =>
    simp only [apply, Except.bind_eq_ok, Except.pure_eq_ok] at h
    obtain ⟨q, hq, rfl⟩ := h
    exact ⟨hI.inv.rescheduleAllAsFaults hq, rescheduleAllAsFaults_quant hq ▸ hI.unit⟩
  | rescheduleRecovered sectors =>
    obtain ⟨hagree, hfaulty⟩ := hpre
    simp only [apply, Except.bind_eq_ok, Except.pure_eq_ok] at h
    obtain ⟨⟨q, r⟩, hq, rfl⟩ := h
    exact ⟨(hI.inv.rescheduleRecovered hI.unit hagree hfaulty hq).1,
      rescheduleRecovered_quant hq ▸ hI.unit⟩
  | replaceSectors oldSectors newSectors =>
    obtain ⟨hold, hactive, hnd, hfresh, hnew⟩ := hpre
    simp only [apply, Except.bind_eq_ok, Except.pure_eq_ok] at h
    obtain ⟨⟨q, r⟩, hq, rfl⟩ := h
    exact ⟨hI.inv.replaceSectors hI.unit hold hactive hnd hfresh hnew hq,
      replaceSectors_quant hq ▸ hI.unit⟩
  | removeSectors addressedSectorsMax sectors recovering =>
    obtain ⟨hagree, hnd⟩ := hpre
    simp only [apply, Except.bind_eq_ok, Except.pure_eq_ok] at h
    obtain ⟨⟨q, r⟩, hq, rfl⟩ := h
    exact ⟨(hI.inv.removeSectors hagree hnd hq).1, removeSectors_quant hq ▸ hI.unit⟩
  | popUntil untilEpoch =>
    simp only [apply, Except.bind_eq_ok, Except.pure_eq_ok] at h
    obtain ⟨⟨q, popped⟩, hq, rfl⟩ := h
    exact ⟨hI.inv.popUntil hq, popUntil_quant hq ▸ hI.unit⟩

/-- Every tracked queue of a run satisfies the tracked invariant. -/
theorem Reachable.trackedInv (h : Reachable sectorSize t) : TrackedInv sectorSize t := by
  induction h with
  | init quant info hu => exact ⟨inv_empty quant, hu⟩
  | step c _ hpre happly ih => exact c.apply_inv ih hpre happly

/-- **The queue invariant over whole runs.** Every queue a run of successful
calls leaves, from an empty queue, is well formed for the infos, schedule,
faults and live sectors its calls leave. -/
theorem Reachable.queue_inv (h : Reachable sectorSize t) :
    Inv sectorSize t.info t.sched t.faults t.live t.queue :=
  h.trackedInv.inv

theorem Reachable.queue_inv_after_add :
    ∃ t : Tracked, Reachable 32 t ∧ 1 ∈ t.live ∧
      Inv 32 t.info t.sched t.faults t.live t.queue := by
  have hreach : Reachable 32 _ :=
    Reachable.step (Call.addActiveSectors [⟨1, 0, 100, 0, 10, 0, 5⟩])
      (Reachable.init noQuantization (fun _ => default) (by decide)) ⟨by decide, by decide, by decide⟩
      rfl
  exact ⟨_, hreach, by decide, Reachable.queue_inv hreach⟩

/-- A sector's declared expiration does not say where it sits: once
`rescheduleExpirations` moves it, no fault or live set makes the queue well
formed for the declared schedule. -/
theorem rescheduleExpirations_off_declared :
    ∃ q q' : ExpirationQueue,
      Inv 32 (fun _ => ⟨1, 0, 100, 0, 10, 0, 5⟩) (fun _ => 100) ∅ {1} q ∧
      q.rescheduleExpirations 50 [⟨1, 0, 100, 0, 10, 0, 5⟩] 32 = .ok q' ∧
      ∀ faults live, ¬ Inv 32 (fun _ => ⟨1, 0, 100, 0, 10, 0, 5⟩) (fun _ => 100) faults live q' := by
  -- the queue holding the sector alone, at its declared expiration, and where it moves
  have hok : ((⟨OrdMap.empty.set 100 (ExpirationSet.memoOf 32 (fun _ => ⟨1, 0, 100, 0, 10, 0, 5⟩)
      ∅ {1} ∅), noQuantization⟩ : ExpirationQueue).rescheduleExpirations 50
      [⟨1, 0, 100, 0, 10, 0, 5⟩] 32).toBool = true := by
    decide +kernel
  obtain ⟨q', hq'⟩ := Except.exists_eq_ok_of_toBool hok
  set q : ExpirationQueue := ⟨OrdMap.empty.set 100 (ExpirationSet.memoOf 32
    (fun _ => ⟨1, 0, 100, 0, 10, 0, 5⟩) ∅ {1} ∅), noQuantization⟩
  have hadd : (⟨OrdMap.empty, noQuantization⟩ : ExpirationQueue).addActiveSectors
      [⟨1, 0, 100, 0, 10, 0, 5⟩] 32 =
      .ok (q, {1}, powerForSector 32 ⟨1, 0, 100, 0, 10, 0, 5⟩, 10, 5) := rfl
  have hagree : InfosAgree (fun _ => ⟨1, 0, 100, 0, 10, 0, 5⟩) [⟨1, 0, 100, 0, 10, 0, 5⟩] := by
    decide
  have hq : Inv 32 (fun _ => ⟨1, 0, 100, 0, 10, 0, 5⟩) (fun _ => 100) ∅ {1} q :=
    ((inv_empty noQuantization).addActiveSectors (by decide) hagree (by decide) (by decide)
      (by decide) (fun _ _ => rfl) hadd).1
  refine ⟨q, q', hq, hq', fun faults live hbad => ?_⟩
  -- the moved queue is well formed for the schedule that moved the sector
  have hmoved := hq.rescheduleExpirations hagree (by decide) hq'
  have hquant : q'.quant = noQuantization := by
    rw [rescheduleExpirations_quant hq', addActiveSectors_quant hadd]
  obtain ⟨k, hk⟩ := (hmoved.live_iff 1).mp (Finset.mem_singleton_self 1)
  obtain ⟨es, hget, hn⟩ := mem_sectorsAt.mp hk
  -- the sector is not faulty, so on time, at the epoch it was moved to
  have hon : 1 ∈ es.onTimeSectors := by
    rcases ExpirationSet.mem_sectors.mp hn with h | h
    · exact h
    · exact absurd ((hmoved.memo hget).early_faulty h) (Finset.notMem_empty 1)
  have h₁ := hmoved.onTime_at hget hon
  have h₂ := hbad.onTime_at hget hon
  rw [hquant] at h₁ h₂
  exact absurd (h₁.symm.trans h₂) (by decide)

end ExpirationQueue

end BuiltinActors.Miner
