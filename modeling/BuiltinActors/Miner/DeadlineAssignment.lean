import Mathlib

/-! # Assigning new sectors to deadlines

`assign_deadlines` places each new sector in turn into the deadline that
ranks first under `cmp` on the deadlines' current sector counts, and fails
when that deadline has reached the partition limit. The source keeps the
deadlines in a `BinaryHeap` of entries ordered by the reversed `cmp` and
mutates the top through `peek_mut`; the heap is modelled by its contract, a
list whose top is the entry least under `cmp`, restored after each mutation.

`cmp` is a chain of six comparisons whose fourth applies only when neither
deadline has a full partition. Folding the third and fourth into one key
makes the chain a lexicographic comparison, so it is a total order and the
top is least among all entries.

The capacity check reads the top only. The top ranks by partitions after
compaction, that is by live sectors, while the limit is on all sectors,
terminated ones included: a deadline full of terminated sectors can rank
first while another still has room, and the call then fails with the message
that the limit is reached for all deadlines. -/

namespace BuiltinActors.Miner

/-- Of a deadline, the assignment reads its two sector counts. -/
structure Deadline where
  liveSectors : Nat
  totalSectors : Nat
deriving DecidableEq, Repr

def divRoundingUp (dividend divisor : Nat) : Nat :=
  dividend / divisor + if dividend % divisor > 0 then 1 else 0

structure DeadlineAssignmentInfo where
  index : Nat
  liveSectors : Nat
  totalSectors : Nat
deriving DecidableEq, Repr

namespace DeadlineAssignmentInfo

variable (info : DeadlineAssignmentInfo) (partitionSize : Nat)

def partitionsAfterAssignment : Nat := divRoundingUp (info.totalSectors + 1) partitionSize

def compactPartitionsAfterAssignment : Nat := divRoundingUp (info.liveSectors + 1) partitionSize

def isFullNow : Bool := info.totalSectors % partitionSize == 0

def maxPartitionsReached (maxPartitions : Nat) : Bool :=
  decide (info.totalSectors ≥ partitionSize * maxPartitions)

end DeadlineAssignmentInfo

open DeadlineAssignmentInfo

/-- Fewest partitions after compaction, then fewest partitions, then an open
partition, the most full one first, then fewest live sectors, then the lowest
index. -/
def cmp (a b : DeadlineAssignmentInfo) (partitionSize : Nat) : Ordering :=
  (compare (a.compactPartitionsAfterAssignment partitionSize)
      (b.compactPartitionsAfterAssignment partitionSize)).then
    ((compare (a.partitionsAfterAssignment partitionSize)
        (b.partitionsAfterAssignment partitionSize)).then
      ((compare (a.isFullNow partitionSize) (b.isFullNow partitionSize)).then
        ((if !a.isFullNow partitionSize && !b.isFullNow partitionSize then
            (compare a.totalSectors b.totalSectors).swap
          else .eq).then
          ((compare a.liveSectors b.liveSectors).then (compare a.index b.index)))))

/-- The top of the heap: an entry least under `cmp`, the first of those met. -/
def heapTop (partitionSize : Nat) : List DeadlineAssignmentInfo → Option DeadlineAssignmentInfo
  | [] => none
  | x :: xs => some (xs.foldl (fun best y => if cmp y best partitionSize = .lt then y else best) x)

/-- One more sector in the deadline with the given index. -/
def bumpAt (index : Nat) (heap : List DeadlineAssignmentInfo) : List DeadlineAssignmentInfo :=
  heap.map fun info =>
    if info.index = index then
      { info with liveSectors := info.liveSectors + 1, totalSectors := info.totalSectors + 1 }
    else info

variable {α : Type}

/-- The loop over the sectors: each goes to the top deadline unless that one
has reached the limit. -/
def assignLoop (maxPartitions partitionSize : Nat) :
    List α → List DeadlineAssignmentInfo → List (List α) → Except String (List (List α))
  | [], _, changes => .ok changes
  | sector :: sectors, heap, changes =>
    match heapTop partitionSize heap with
    | none => .error "called unwrap on a None value"
    | some info =>
      if info.maxPartitionsReached partitionSize maxPartitions then
        .error s!"max partitions limit {maxPartitions} reached for all deadlines"
      else if info.index < changes.length then
        assignLoop maxPartitions partitionSize sectors (bumpAt info.index heap)
          (changes.modify info.index (· ++ [sector]))
      else .error s!"index out of bounds: the len is {changes.length} but the index is {info.index}"

/-- The heap's entries: the available deadlines, by index. -/
def deadlineInfos (deadlines : List (Option Deadline)) : List DeadlineAssignmentInfo :=
  deadlines.zipIdx.filterMap fun (deadline, index) =>
    deadline.map fun dl => ⟨index, dl.liveSectors, dl.totalSectors⟩

/-- Assigns the sectors to the available deadlines; the result lists, for
each of the `wpostPeriodDeadlines` deadlines, the sectors it receives. -/
def assignDeadlines (wpostPeriodDeadlines maxPartitions partitionSize : Nat)
    (deadlines : List (Option Deadline)) (sectors : List α) : Except String (List (List α)) :=
  let heap := deadlineInfos deadlines
  if heap.isEmpty then .error "assertion failed: !heap.is_empty()"
  else assignLoop maxPartitions partitionSize sectors heap (List.replicate wpostPeriodDeadlines [])

/-! ## The comparison is a total order -/

theorem divRoundingUp_add_self (dividend : Nat) {divisor : Nat} (hd : 0 < divisor) :
    divRoundingUp (dividend + divisor) divisor = divRoundingUp dividend divisor + 1 := by
  have hdiv : (dividend + divisor * 1) / divisor = dividend / divisor + 1 :=
    Nat.add_mul_div_left dividend 1 hd
  have hmod : (dividend + divisor * 1) % divisor = dividend % divisor :=
    Nat.add_mul_mod_self_left dividend divisor 1
  rw [Nat.mul_one] at hdiv hmod
  simp only [divRoundingUp, hdiv, hmod]
  omega

theorem divRoundingUp_one {divisor : Nat} (hd : 0 < divisor) : divRoundingUp 1 divisor = 1 := by
  rcases Nat.lt_or_ge 1 divisor with h | h
  · simp [divRoundingUp, Nat.div_eq_of_lt h, Nat.mod_eq_of_lt h]
  · have h1 : divisor = 1 := by omega
    subst h1
    rfl

/-- The third and fourth keys of `cmp` as one: a deadline with an open
partition ranks before one without, the fuller first among those. -/
def openPartitionKey (info : DeadlineAssignmentInfo) (partitionSize : Nat) : Int :=
  if info.isFullNow partitionSize then 1 else -(info.totalSectors : Int)

theorem compare_neg_natCast (x y : Nat) :
    compare (-(x : Int)) (-(y : Int)) = (compare x y).swap := by
  rcases lt_trichotomy x y with h | rfl | h
  · rw [compare_lt_iff_lt.mpr h, compare_gt_iff_gt.mpr (by omega)]
    rfl
  · simp
  · rw [compare_gt_iff_gt.mpr h, compare_lt_iff_lt.mpr (by omega)]
    rfl

/-- The fourth step applies only where the third found no difference, so the
two read together as one comparison of `openPartitionKey`. -/
theorem compare_isFullNow_then (a b : DeadlineAssignmentInfo) (partitionSize : Nat)
    (rest : Ordering) :
    (compare (a.isFullNow partitionSize) (b.isFullNow partitionSize)).then
        ((if !a.isFullNow partitionSize && !b.isFullNow partitionSize then
            (compare a.totalSectors b.totalSectors).swap
          else .eq).then rest) =
      (compare (openPartitionKey a partitionSize) (openPartitionKey b partitionSize)).then rest := by
  unfold openPartitionKey
  cases a.isFullNow partitionSize <;> cases b.isFullNow partitionSize
  case false.false =>
    simp only [Bool.not_false, Bool.and_self, if_true, Bool.false_eq_true, if_false,
      compare_neg_natCast]
    rfl
  case false.true =>
    have hlt : compare (-(a.totalSectors : Int)) 1 = .lt := compare_lt_iff_lt.mpr (by omega)
    simp only [Bool.false_eq_true, if_false, if_true, hlt]
    rfl
  case true.false =>
    have hgt : compare (1 : Int) (-(b.totalSectors : Int)) = .gt := compare_gt_iff_gt.mpr (by omega)
    simp only [Bool.false_eq_true, if_false, if_true, hgt]
    rfl
  case true.true => simp

/-- `cmp` is the lexicographic comparison of five keys. -/
theorem cmp_eq_compareLex (partitionSize : Nat) :
    (fun a b => cmp a b partitionSize) =
      compareLex (compareOn fun a : DeadlineAssignmentInfo =>
          a.compactPartitionsAfterAssignment partitionSize)
        (compareLex (compareOn fun a : DeadlineAssignmentInfo =>
            a.partitionsAfterAssignment partitionSize)
          (compareLex (compareOn fun a : DeadlineAssignmentInfo => openPartitionKey a partitionSize)
            (compareLex (compareOn DeadlineAssignmentInfo.liveSectors)
              (compareOn DeadlineAssignmentInfo.index)))) := by
  funext a b
  simp only [cmp, compareLex, compareOn, compare_isFullNow_then]

theorem cmp_transCmp (partitionSize : Nat) : Std.TransCmp (fun a b => cmp a b partitionSize) := by
  rw [cmp_eq_compareLex]
  infer_instance

/-! ## The top of the heap -/

/-- The fold that finds the top keeps an entry that is no later under `cmp`
than any entry it has passed. -/
theorem foldl_top_least (partitionSize : Nat) :
    ∀ (xs : List DeadlineAssignmentInfo) (best : DeadlineAssignmentInfo),
      let top := xs.foldl (fun best y => if cmp y best partitionSize = .lt then y else best) best
      top ∈ best :: xs ∧ ∀ j ∈ best :: xs, (cmp top j partitionSize).isLE := by
  have := cmp_transCmp partitionSize
  intro xs
  induction xs with
  | nil =>
    intro best
    refine ⟨List.mem_cons_self, fun j hj => ?_⟩
    rw [List.mem_singleton.mp hj]
    exact @Std.ReflCmp.isLE_rfl _ (fun a b => cmp a b partitionSize) _ _
  | cons y ys ih =>
    intro best
    by_cases hlt : cmp y best partitionSize = .lt
    · -- `y` takes over; it ranks before `best`, so before all `best` ranked before
      obtain ⟨hmem, hle⟩ := ih y
      simp only [List.foldl_cons, if_pos hlt]
      refine ⟨List.mem_cons_of_mem _ hmem, fun j hj => ?_⟩
      rcases List.mem_cons.mp hj with rfl | hj
      · exact Ordering.isLE_of_eq_lt
          (@Std.TransCmp.lt_of_isLE_of_lt _ (fun a b => cmp a b partitionSize) _ _ _ _
            (hle y List.mem_cons_self) hlt)
      · exact hle j hj
    · obtain ⟨hmem, hle⟩ := ih best
      simp only [List.foldl_cons, if_neg hlt]
      have hby : (cmp best y partitionSize).isLE := by
        rw [@Std.OrientedCmp.eq_swap _ (fun a b => cmp a b partitionSize) _ best y]
        cases h : cmp y best partitionSize <;> simp_all
      refine ⟨?_, fun j hj => ?_⟩
      · rcases List.mem_cons.mp hmem with h | h
        · rw [h]
          exact List.mem_cons_self
        · exact List.mem_cons_of_mem _ (List.mem_cons_of_mem _ h)
      · rcases List.mem_cons.mp hj with rfl | hj
        · exact hle j List.mem_cons_self
        · rcases List.mem_cons.mp hj with rfl | hj
          · exact @Std.TransCmp.isLE_trans _ (fun a b => cmp a b partitionSize) _ _ _ _
              (hle best List.mem_cons_self) hby
          · exact hle j (List.mem_cons_of_mem _ hj)

/-- The top is an entry of the heap least under `cmp`. -/
theorem heapTop_least {partitionSize : Nat} {heap : List DeadlineAssignmentInfo}
    {top : DeadlineAssignmentInfo} (h : heapTop partitionSize heap = some top) :
    top ∈ heap ∧ ∀ j ∈ heap, (cmp top j partitionSize).isLE := by
  cases heap with
  | nil => cases h
  | cons x xs =>
    cases h
    exact foldl_top_least partitionSize xs x

/-! ## A full deadline on top -/

/-- Deadline 0 holds the limit's worth of sectors, none of them live; deadline
1 holds one partition of live sectors, below the limit. Deadline 0 ranks first
by partitions after compaction, and the call fails as if every deadline were
full. -/
theorem assign_deadlines_rejects_with_room (wpostPeriodDeadlines : Nat)
    {maxPartitions partitionSize : Nat} (hps : 0 < partitionSize) (hmax : 2 ≤ maxPartitions)
    (sector : α) (sectors : List α) :
    (⟨partitionSize, partitionSize⟩ : Deadline).totalSectors < partitionSize * maxPartitions ∧
    assignDeadlines wpostPeriodDeadlines maxPartitions partitionSize
        [some ⟨0, partitionSize * maxPartitions⟩, some ⟨partitionSize, partitionSize⟩]
        (sector :: sectors) =
      .error s!"max partitions limit {maxPartitions} reached for all deadlines" := by
  have hroom : partitionSize < partitionSize * maxPartitions := by
    calc partitionSize = partitionSize * 1 := (Nat.mul_one _).symm
      _ < partitionSize * maxPartitions := Nat.mul_lt_mul_of_pos_left (by omega) hps
  refine ⟨hroom, ?_⟩
  set full : DeadlineAssignmentInfo := ⟨0, 0, partitionSize * maxPartitions⟩
  set open₁ : DeadlineAssignmentInfo := ⟨1, partitionSize, partitionSize⟩
  have hinfos : deadlineInfos [some ⟨0, partitionSize * maxPartitions⟩,
      some ⟨partitionSize, partitionSize⟩] = [full, open₁] := rfl
  -- after compaction the full deadline needs one partition, the other two
  have hcompact₀ : full.compactPartitionsAfterAssignment partitionSize = 1 := divRoundingUp_one hps
  have hcompact₁ : open₁.compactPartitionsAfterAssignment partitionSize = 2 := by
    show divRoundingUp (partitionSize + 1) partitionSize = 2
    rw [Nat.add_comm, divRoundingUp_add_self 1 hps, divRoundingUp_one hps]
  have hcmp : cmp open₁ full partitionSize = .gt := by
    simp only [cmp, hcompact₀, hcompact₁]
    rfl
  have htop : heapTop partitionSize [full, open₁] = some full := by
    simp [heapTop, hcmp]
  have hreached : full.maxPartitionsReached partitionSize maxPartitions = true := by
    simp [full, maxPartitionsReached]
  simp only [assignDeadlines, hinfos, List.isEmpty_cons, Bool.false_eq_true, if_false,
    assignLoop, htop, hreached, if_true]

theorem assign_deadlines_rejects_with_room_two :
    0 < 2 ∧ 2 ≤ 2 ∧
    (⟨2, 2⟩ : Deadline).totalSectors < 2 * 2 ∧
    assignDeadlines 48 2 2 [some ⟨0, 2 * 2⟩, some ⟨2, 2⟩] [()] =
      .error s!"max partitions limit {2} reached for all deadlines" :=
  ⟨by decide, le_rfl, assign_deadlines_rejects_with_room 48 (by decide) le_rfl () []⟩

/-! ## What a successful assignment did -/

/-- A greedy run of the assignment: each sector goes to an entry least under
`cmp` on the current counts, below the limit and naming a listed deadline;
that entry's counts grow by one and the sector joins its deadline's list. -/
inductive GreedyRun (maxPartitions partitionSize : Nat) :
    List DeadlineAssignmentInfo → List α → List (List α) → List (List α) → Prop
  | done (heap : List DeadlineAssignmentInfo) (changes : List (List α)) :
    GreedyRun maxPartitions partitionSize heap [] changes changes
  | step {heap : List DeadlineAssignmentInfo} {sector : α} {sectors : List α}
      {changes final : List (List α)} (top : DeadlineAssignmentInfo) (mem : top ∈ heap)
      (least : ∀ j ∈ heap, (cmp top j partitionSize).isLE)
      (room : top.totalSectors < partitionSize * maxPartitions)
      (listed : top.index < changes.length)
      (rest : GreedyRun maxPartitions partitionSize (bumpAt top.index heap) sectors
        (changes.modify top.index (· ++ [sector])) final) :
    GreedyRun maxPartitions partitionSize heap (sector :: sectors) changes final

/-- The loop is a greedy run. -/
theorem assignLoop_greedyRun {maxPartitions partitionSize : Nat} :
    ∀ {sectors : List α} {heap : List DeadlineAssignmentInfo} {changes final : List (List α)},
      assignLoop maxPartitions partitionSize sectors heap changes = .ok final →
      GreedyRun maxPartitions partitionSize heap sectors changes final := by
  intro sectors
  induction sectors with
  | nil =>
    intro heap changes final h
    cases h
    exact .done heap changes
  | cons sector sectors ih =>
    intro heap changes final h
    simp only [assignLoop] at h
    split at h
    · cases h
    · next top htop =>
      obtain ⟨hmem, hleast⟩ := heapTop_least htop
      split_ifs at h with hreached hlisted
      have hroom : top.totalSectors < partitionSize * maxPartitions := by
        simpa [maxPartitionsReached] using hreached
      exact .step top hmem hleast hroom hlisted (ih h)

/-! ### The heap's bookkeeping -/

/-- No two entries of the heap share an index. -/
def IndexInjective (heap : List DeadlineAssignmentInfo) : Prop :=
  ∀ x ∈ heap, ∀ y ∈ heap, x.index = y.index → x = y

theorem mem_bumpAt {k : Nat} {heap : List DeadlineAssignmentInfo} {info' : DeadlineAssignmentInfo}
    (h : info' ∈ bumpAt k heap) :
    ∃ info ∈ heap, info'.index = info.index ∧
      info' = if info.index = k then
        { info with liveSectors := info.liveSectors + 1, totalSectors := info.totalSectors + 1 }
      else info := by
  obtain ⟨info, hmem, rfl⟩ := List.mem_map.mp h
  refine ⟨info, hmem, ?_, rfl⟩
  split_ifs <;> rfl

theorem IndexInjective.bumpAt {heap : List DeadlineAssignmentInfo} (hinj : IndexInjective heap)
    (k : Nat) : IndexInjective (bumpAt k heap) := by
  intro x' hx' y' hy' hidx
  obtain ⟨x, hx, hxi, hx'⟩ := mem_bumpAt hx'
  obtain ⟨y, hy, hyi, hy'⟩ := mem_bumpAt hy'
  have hxy : x = y := hinj x hx y hy (by rw [← hxi, ← hyi, hidx])
  subst hxy
  rw [hx', hy']

/-- Appending to one deadline's list changes that list only. -/
theorem getD_modify_append {l : List (List α)} {k : Nat} (hk : k < l.length) (s : α) (i : Nat) :
    (l.modify k (· ++ [s])).getD i [] = if k = i then l.getD i [] ++ [s] else l.getD i [] := by
  simp only [List.getD_eq_getElem?_getD, List.getElem?_modify]
  split_ifs with hki
  · subst hki
    simp [List.getElem?_eq_getElem hk]
  · cases l[i]? <;> simp

/-- Appending to one deadline's list adds the sector to the whole. -/
theorem flatten_modify_append_perm {s : α} :
    ∀ {l : List (List α)} {k : Nat}, k < l.length →
      (l.modify k (· ++ [s])).flatten.Perm (l.flatten ++ [s])
  | [], _, hk => absurd hk (Nat.not_lt_zero _)
  | x :: xs, 0, _ => by
    simp only [List.modify_zero_cons, List.flatten_cons, List.append_assoc]
    exact List.Perm.append_left x List.perm_append_comm
  | x :: xs, k + 1, hk => by
    simp only [List.modify_succ_cons, List.flatten_cons, List.append_assoc]
    exact List.Perm.append_left x (flatten_modify_append_perm (by simpa using hk))

/-! ### A run's result -/

variable {maxPartitions partitionSize : Nat}

/-- A run hands out every sector once. -/
theorem GreedyRun.perm {heap : List DeadlineAssignmentInfo} {sectors : List α}
    {changes final : List (List α)} (h : GreedyRun maxPartitions partitionSize heap sectors changes final) :
    final.flatten.Perm (changes.flatten ++ sectors) := by
  induction h with
  | done heap changes => simp
  | step top _ _ _ listed _ ih =>
    refine ih.trans ?_
    have hmod := flatten_modify_append_perm (s := ‹α›) listed
    simpa using hmod.append_right _

/-- What a run adds to each deadline's list: sectors in input order, only to a
deadline of the heap, and no more than its room under the limit. -/
theorem GreedyRun.lists {heap : List DeadlineAssignmentInfo} {sectors : List α}
    {changes final : List (List α)} (h : GreedyRun maxPartitions partitionSize heap sectors changes final)
    (hinj : IndexInjective heap) (i : Nat) :
    ∃ added, final.getD i [] = changes.getD i [] ++ added ∧ added.Sublist sectors ∧
      (added ≠ [] → ∃ info ∈ heap, info.index = i ∧
        info.totalSectors + added.length ≤ partitionSize * maxPartitions) := by
  induction h with
  | done heap changes => exact ⟨[], by simp, List.nil_sublist _, fun h => absurd rfl h⟩
  | @step heap sector sectors changes final top mem _ room listed _ ih =>
    obtain ⟨added, hfinal, hsub, hroom⟩ := ih (hinj.bumpAt top.index)
    rw [getD_modify_append listed sector i] at hfinal
    by_cases hi : top.index = i
    · -- this deadline took the sector, and the run goes on from its bumped entry
      subst hi
      rw [if_pos rfl] at hfinal
      refine ⟨sector :: added, by rw [hfinal, List.append_assoc]; rfl, hsub.cons_cons sector,
        fun _ => ⟨top, mem, rfl, ?_⟩⟩
      by_cases hnil : added = []
      · subst hnil
        simp only [List.length_cons, List.length_nil]
        omega
      · obtain ⟨info', hmem', hidx', hle⟩ := hroom hnil
        obtain ⟨info, hinfo, hidx, rfl⟩ := mem_bumpAt hmem'
        have htop : info = top := hinj info hinfo top mem (by rw [← hidx, hidx'])
        subst htop
        rw [if_pos rfl] at hle
        dsimp only at hle
        simp only [List.length_cons]
        omega
    · rw [if_neg hi] at hfinal
      refine ⟨added, hfinal, hsub.cons sector, fun hnil => ?_⟩
      obtain ⟨info', hmem', hidx', hle⟩ := hroom hnil
      obtain ⟨info, hinfo, hidx, rfl⟩ := mem_bumpAt hmem'
      have hne : info.index ≠ top.index := fun he => hi (by rw [← he, ← hidx, hidx'])
      simp only [if_neg hne] at hidx' hle ⊢
      exact ⟨info, hinfo, hidx', hle⟩

/-! ### The deadlines' entries -/

theorem mem_deadlineInfos {deadlines : List (Option Deadline)} {info : DeadlineAssignmentInfo}
    (h : info ∈ deadlineInfos deadlines) :
    deadlines[info.index]? = some (some ⟨info.liveSectors, info.totalSectors⟩) := by
  simp only [deadlineInfos, List.mem_filterMap, Option.map_eq_some_iff] at h
  obtain ⟨⟨deadline, index⟩, hmem, dl, rfl, rfl⟩ := h
  exact List.mem_zipIdx_iff_getElem?.mp hmem

theorem indexInjective_deadlineInfos (deadlines : List (Option Deadline)) :
    IndexInjective (deadlineInfos deadlines) := by
  intro x hx y hy hidx
  have hxd := mem_deadlineInfos hx
  have hyd := mem_deadlineInfos hy
  rw [hidx, hyd] at hxd
  simp only [Option.some.injEq, Deadline.mk.injEq] at hxd
  cases x
  cases y
  simp_all

/-- **What a successful assignment did.** When `assign_deadlines` returns its
lists, it made a greedy run from the deadlines' counts: each sector went to a
deadline least under `cmp` on the counts after the earlier sectors, below the
limit. Every sector is in exactly one list; each list keeps the input order;
and only an available deadline receives sectors, no more than take it to the
limit. -/
theorem assign_deadlines_ok_law {wpostPeriodDeadlines : Nat} {deadlines : List (Option Deadline)}
    {sectors : List α} {changes : List (List α)}
    (h : assignDeadlines wpostPeriodDeadlines maxPartitions partitionSize deadlines sectors =
      .ok changes) :
    GreedyRun maxPartitions partitionSize (deadlineInfos deadlines) sectors
        (List.replicate wpostPeriodDeadlines []) changes ∧
      changes.flatten.Perm sectors ∧
      ∀ i, (changes.getD i []).Sublist sectors ∧
        (changes.getD i [] ≠ [] → ∃ d, deadlines[i]? = some (some d) ∧
          d.totalSectors + (changes.getD i []).length ≤ partitionSize * maxPartitions) := by
  simp only [assignDeadlines] at h
  split_ifs at h
  have hrun := assignLoop_greedyRun h
  refine ⟨hrun, by simpa using hrun.perm, fun i => ?_⟩
  obtain ⟨added, hfinal, hsub, hroom⟩ := hrun.lists (indexInjective_deadlineInfos deadlines) i
  have hnil : (List.replicate wpostPeriodDeadlines ([] : List α)).getD i [] = [] := by simp
  rw [hnil, List.nil_append] at hfinal
  rw [hfinal]
  refine ⟨hsub, fun hne => ?_⟩
  obtain ⟨info, hinfo, hidx, hle⟩ := hroom hne
  exact ⟨⟨info.liveSectors, info.totalSectors⟩, hidx ▸ mem_deadlineInfos hinfo, hle⟩

/-- Deadline 0 holds one live sector and deadline 2 none, deadline 1 is not
available; with partitions of two and a limit of two partitions, four sectors
go to deadlines 0, 2, 2 and 0. -/
theorem assign_deadlines_ok_law_four :
    assignDeadlines 3 2 2 [some ⟨1, 1⟩, none, some ⟨0, 0⟩] [1, 2, 3, 4] = .ok [[1, 4], [], [2, 3]] ∧
    GreedyRun 2 2 (deadlineInfos [some ⟨1, 1⟩, none, some ⟨0, 0⟩]) [1, 2, 3, 4]
        (List.replicate 3 []) [[1, 4], [], [2, 3]] ∧
      [[1, 4], [], [2, 3]].flatten.Perm [1, 2, 3, 4] ∧
      ∀ i, ([[1, 4], [], [2, 3]].getD i []).Sublist [1, 2, 3, 4] ∧
        ([[1, 4], [], [2, 3]].getD i [] ≠ [] →
          ∃ d, [some ⟨1, 1⟩, none, some (⟨0, 0⟩ : Deadline)][i]? = some (some d) ∧
            d.totalSectors + ([[1, 4], [], [2, 3]].getD i []).length ≤ 2 * 2) :=
  have h : assignDeadlines 3 2 2 [some ⟨1, 1⟩, none, some ⟨0, 0⟩] [1, 2, 3, 4] =
      .ok [[1, 4], [], [2, 3]] := by decide
  ⟨h, assign_deadlines_ok_law h⟩

end BuiltinActors.Miner
