import BuiltinActors.Verifreg.Spec

/-! # Removing expired allocations and claims

`remove_expired_allocations` and `remove_expired_claims` check every listed
ID against the owner's records before removing any, then remove the IDs that
passed, unwrapping each removed record. The check records one outcome per
listed ID, so `successes` gives back the listed IDs of expired records of the
owner, a repeated ID as often as it is listed; the second removal of a
repeated ID then finds the record gone, and the unwrap panics. -/

namespace BuiltinActors.Verifreg

variable {α : Type}

/-- A listed ID's outcome in `check_expired`: a success for an expired record
of the owner, `FORBIDDEN` for one not yet expired, `NOT_FOUND` otherwise. -/
def expiryOutcome [Expires α] (collection : MapMap α) (owner : Nat) (currEpoch : Int) (id : Nat) :
    Option ExitCode :=
  match collection.get owner id with
  | some record => if currEpoch ≥ Expires.expiration record then none else some .usrForbidden
  | none => some .usrNotFound

/-- The owner has an expired record under the ID. -/
def IsExpired [Expires α] (collection : MapMap α) (owner : Nat) (currEpoch : Int) (id : Nat) : Prop :=
  ∃ record, collection.get owner id = some record ∧ Expires.expiration record ≤ currEpoch

section Check

variable [Expires α] {collection : MapMap α} {owner : Nat} {currEpoch : Int}

theorem expiryOutcome_isNone_iff {id : Nat} :
    (expiryOutcome collection owner currEpoch id).isNone ↔ IsExpired collection owner currEpoch id := by
  unfold expiryOutcome IsExpired
  cases collection.get owner id with
  | none => simp
  | some record =>
    by_cases he : currEpoch ≥ Expires.expiration record <;> simp [he]

theorem checkExpiredOne_eq_record (gen : BatchReturnGen) (id : Nat) :
    checkExpiredOne collection owner currEpoch gen id =
      gen.record (expiryOutcome collection owner currEpoch id) := by
  unfold checkExpiredOne expiryOutcome
  cases collection.get owner id with
  | none => rfl
  | some record =>
    by_cases he : currEpoch ≥ Expires.expiration record <;> simp [he, BatchReturnGen.record]

/-- The IDs `check_expired` passes are the listed IDs of expired records of
the owner, in order and as often as they are listed. -/
theorem successes_checkExpired (ids : List Nat) :
    (checkExpired collection ids owner currEpoch).successes ids =
      ids.filter fun id => (expiryOutcome collection owner currEpoch id).isNone := by
  have hstep : checkExpiredOne collection owner currEpoch =
      fun gen id => gen.record (expiryOutcome collection owner currEpoch id) := by
    funext gen id
    exact checkExpiredOne_eq_record gen id
  rw [checkExpired, hstep]
  exact BatchReturnGen.successes_foldl_record _ ids ids.length

end Check

/-! ## The removal loop -/

section Remove

variable {owner : Nat}

/-- The removal fails only by the panic of its unwrap. -/
theorem removeEach_error : ∀ {ids : List Nat} {m : MapMap α} {e : ActorError},
    removeEach owner ids m = .error e → e = .panicked "called unwrap on a None value"
  | [], m, e, h => by simp [removeEach, pure, Except.pure] at h
  | id :: ids, m, e, h => by
    simp only [removeEach] at h
    split at h
    · next m' _ =>
      cases hrest : removeEach owner ids m' with
      | error e' =>
        rw [hrest, Except.error_bind] at h
        cases h
        exact removeEach_error hrest
      | ok r =>
        rw [hrest, Except.ok_bind] at h
        simp [pure, Except.pure] at h
    · simp only [throw, throwThe, MonadExceptOf.throw, Except.error.injEq] at h
      exact h.symm

/-- A successful removal removed records that were there, each once. -/
theorem removeEach_ok : ∀ {ids : List Nat} {m m' : MapMap α} {removed : List α},
    removeEach owner ids m = .ok (m', removed) →
      ids.Nodup ∧ ∀ id ∈ ids, (m.get owner id).isSome
  | [], _, _, _, _ => ⟨List.nodup_nil, fun _ h => nomatch h⟩
  | id :: ids, m, m', removed, h => by
    simp only [removeEach] at h
    split at h
    · next existing m₁ hremove =>
      obtain ⟨⟨m₂, rest⟩, hrest, -⟩ := Except.bind_eq_ok.mp h
      obtain ⟨hnodup, hsome⟩ := removeEach_ok hrest
      -- the first removal took the record away, so the rest cannot name it again
      have hm₁ : m₁ = (m.remove owner id).2 := by rw [hremove]
      have hgone : m₁.get owner id = none := by simp [hm₁]
      have hnotin : id ∉ ids := fun hin => by simpa [hgone] using hsome id hin
      have hhead : (m.get owner id).isSome := by
        have h₁ := MapMap.remove_fst m owner id
        rw [hremove] at h₁
        simp [← h₁]
      refine ⟨List.nodup_cons.mpr ⟨hnotin, hnodup⟩, fun id' hid' => ?_⟩
      rcases List.mem_cons.mp hid' with rfl | hid'
      · exact hhead
      · have h₂ := hsome id' hid'
        rw [hm₁, MapMap.get_remove] at h₂
        split_ifs at h₂ with hsame
        · exact absurd hid' (hsame.2 ▸ hnotin)
        · exact h₂
    · exact absurd h Except.throw_ne_ok

/-- A list naming an ID twice cannot be removed in full. -/
theorem removeEach_of_two_le_count {id : Nat} {ids : List Nat} {m : MapMap α}
    (h : 2 ≤ ids.count id) :
    removeEach owner ids m = .error (.panicked "called unwrap on a None value") := by
  cases hr : removeEach owner ids m with
  | error e => rw [removeEach_error hr]
  | ok r =>
    have hnodup := (removeEach_ok hr).1
    have hle := List.nodup_iff_count_le_one.mp hnodup id
    omega

end Remove

/-- An expired record listed twice is passed twice by the check, and its
second removal panics. -/
theorem removeEach_selectExpired_of_repeated [Expires α] {collection : MapMap α} {owner id : Nat}
    {ids : List Nat} {currEpoch : Int} (hrep : 2 ≤ ids.count id)
    (hexp : IsExpired collection owner currEpoch id) :
    removeEach owner (selectExpired collection owner ids currEpoch).2.2 collection =
      .error (.panicked "called unwrap on a None value") := by
  have hne : ids.isEmpty = false := by
    cases ids with
    | nil => simp at hrep
    | cons _ _ => rfl
  have hcount : (ids.filter fun id => (expiryOutcome collection owner currEpoch id).isNone).count id =
      ids.count id :=
    List.count_filter (expiryOutcome_isNone_iff.mpr hexp)
  simp only [selectExpired, hne, Bool.false_eq_true, if_false]
  rw [successes_checkExpired]
  exact removeEach_of_two_le_count (hcount ▸ hrep)

theorem remove_expired_repeated_id_panics {env : Env} {w : World} {owner id : Nat}
    {ids : List Nat} (hrep : 2 ≤ ids.count id) :
    (IsExpired w.registry.allocations owner env.currEpoch id →
      removeExpiredAllocations env ⟨owner, ids⟩ w =
        .error (.panicked "called unwrap on a None value")) ∧
    (IsExpired w.registry.claims owner env.currEpoch id →
      removeExpiredClaims env ⟨owner, ids⟩ w =
        .error (.panicked "called unwrap on a None value")) := by
  constructor
  · intro hexp
    have hremove := removeEach_selectExpired_of_repeated hrep hexp
    rcases hs : selectExpired w.registry.allocations owner ids env.currEpoch with
      ⟨considered, batchRet, toRemove⟩
    rw [hs] at hremove
    simp only [removeExpiredAllocations, hs, hremove, Except.error_bind]
  · intro hexp
    have hremove := removeEach_selectExpired_of_repeated hrep hexp
    rcases hs : selectExpired w.registry.claims owner ids env.currEpoch with
      ⟨considered, batchRet, toRemove⟩
    rw [hs] at hremove
    simp only [removeExpiredClaims, hs, hremove, Except.error_bind]

/-- Client 1000's allocation 1, expired at epoch 100, in an otherwise empty
registry; the epoch is 200 and no other actor is consulted. -/
def expiredAllocation : Allocation :=
  ⟨1000, 2000, ⟨1, 0x55, 0, []⟩, 1048576, 0, 0, 100⟩

def expiredWorld : World :=
  ⟨{ State.new ⟨100⟩ with allocations := MapMap.empty.put 1000 1 expiredAllocation },
    ⟨verifiedRegistryActorAddr, Datacap.TokenState.new⟩⟩

def expiredEnv : Env where
  currEpoch := 200
  policy := Policy.default
  getActorCodeCid _ := none
  resolveBuiltinActorType _ := none
  deserializeAllocationRequests _ := none
  authenticateMessage _ _ _ := .ok false
  receiverHook _ := .ok ()

theorem remove_expired_repeated_id_panics_twice :
    2 ≤ [1, 1].count 1 ∧ IsExpired expiredWorld.registry.allocations 1000 expiredEnv.currEpoch 1 ∧
      removeExpiredAllocations expiredEnv ⟨1000, [1, 1]⟩ expiredWorld =
        .error (.panicked "called unwrap on a None value") :=
  have hexp : IsExpired expiredWorld.registry.allocations 1000 expiredEnv.currEpoch 1 :=
    ⟨expiredAllocation, by rfl, by decide⟩
  ⟨by decide, hexp, (remove_expired_repeated_id_panics (by decide)).1 hexp⟩

end BuiltinActors.Verifreg
