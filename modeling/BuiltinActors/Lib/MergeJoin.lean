import Mathlib

/-! # Merging key-ordered sequences

`mergeJoinBy` walks two sequences ordered by a key and emits, at each step,
the element with the smaller key, or the two combined when the keys are
equal; once one side runs out the rest of the other follows. This is the
merge join of two sorted iterators.

The lemmas are the ones a ledger kept as such a sequence needs: an additive
weight over the merge is the sum of the weights of both sides, also when only
the elements below a key bound are counted, and the merge is again ordered. -/

namespace MergeJoin

variable {α β : Type} [LinearOrder β] (key : α → β) (both : α → α → α)

/-- The merge of `a :: as` with a sequence, given the merge of `as` with any
sequence as `rec`; recursion on the second sequence. -/
def mergeCons (a : α) (as : List α) (rec : List α → List α) : List α → List α
  | [] => a :: as
  | b :: bs =>
    if key a < key b then a :: rec (b :: bs)
    else if key b < key a then b :: mergeCons a as rec bs
    else both a b :: rec bs

def mergeJoinBy : List α → List α → List α
  | [], bs => bs
  | a :: as, bs => mergeCons key both a as (mergeJoinBy as) bs

@[simp] theorem mergeJoinBy_nil_left (bs : List α) : mergeJoinBy key both [] bs = bs := rfl

@[simp] theorem mergeJoinBy_nil_right (as : List α) : mergeJoinBy key both as [] = as := by
  cases as <;> rfl

theorem mergeJoinBy_cons_cons (a b : α) (as bs : List α) :
    mergeJoinBy key both (a :: as) (b :: bs) =
      if key a < key b then a :: mergeJoinBy key both as (b :: bs)
      else if key b < key a then b :: mergeJoinBy key both (a :: as) bs
      else both a b :: mergeJoinBy key both as bs := rfl

/-- Ordered by key, allowing repeats. -/
def Ordered (l : List α) : Prop := l.Pairwise (fun a b => key a ≤ key b)

variable {key both}

/-- Every element of a merge carries the key of an element of one side. -/
theorem key_mem_mergeJoinBy (hkey : ∀ a b, key (both a b) = key a) :
    ∀ {as bs : List α} {c : α}, c ∈ mergeJoinBy key both as bs →
      ∃ d, (d ∈ as ∨ d ∈ bs) ∧ key c = key d
  | [], bs, c, h => ⟨c, .inr h, rfl⟩
  | a :: as, [], c, h => ⟨c, .inl (by simpa using h), rfl⟩
  | a :: as, b :: bs, c, h => by
    rw [mergeJoinBy_cons_cons] at h
    split_ifs at h
    · rcases List.mem_cons.mp h with rfl | h
      · exact ⟨c, .inl List.mem_cons_self, rfl⟩
      · obtain ⟨d, hd, hk⟩ := key_mem_mergeJoinBy hkey h
        exact ⟨d, hd.imp (List.mem_cons_of_mem _) id, hk⟩
    · rcases List.mem_cons.mp h with rfl | h
      · exact ⟨c, .inr List.mem_cons_self, rfl⟩
      · obtain ⟨d, hd, hk⟩ := key_mem_mergeJoinBy hkey h
        exact ⟨d, hd.imp id (List.mem_cons_of_mem _), hk⟩
    · rcases List.mem_cons.mp h with rfl | h
      · exact ⟨a, .inl List.mem_cons_self, hkey a b⟩
      · obtain ⟨d, hd, hk⟩ := key_mem_mergeJoinBy hkey h
        exact ⟨d, hd.imp (List.mem_cons_of_mem _) (List.mem_cons_of_mem _), hk⟩

/-- A property of both sides that combining keeps holds of the merge. -/
theorem mergeJoinBy_forall (P : α → Prop) (hboth : ∀ a b, P a → P b → P (both a b)) :
    ∀ {as bs : List α}, (∀ a ∈ as, P a) → (∀ b ∈ bs, P b) →
      ∀ c ∈ mergeJoinBy key both as bs, P c
  | [], bs, _, hb => hb
  | a :: as, [], ha, _ => by simpa using ha
  | a :: as, b :: bs, ha, hb => by
    have ha' : ∀ c ∈ as, P c := fun c hc => ha c (List.mem_cons_of_mem _ hc)
    have hb' : ∀ c ∈ bs, P c := fun c hc => hb c (List.mem_cons_of_mem _ hc)
    rw [mergeJoinBy_cons_cons]
    split_ifs
    · exact List.forall_mem_cons.mpr ⟨ha a List.mem_cons_self, mergeJoinBy_forall P hboth ha' hb⟩
    · exact List.forall_mem_cons.mpr ⟨hb b List.mem_cons_self, mergeJoinBy_forall P hboth ha hb'⟩
    · exact List.forall_mem_cons.mpr ⟨hboth a b (ha a List.mem_cons_self) (hb b List.mem_cons_self),
        mergeJoinBy_forall P hboth ha' hb'⟩

/-- Merging two ordered sequences gives an ordered sequence. -/
theorem mergeJoinBy_ordered (hkey : ∀ a b, key (both a b) = key a) :
    ∀ {as bs : List α}, Ordered key as → Ordered key bs →
      Ordered key (mergeJoinBy key both as bs)
  | [], bs, _, hb => hb
  | a :: as, [], ha, _ => by simpa using ha
  | a :: as, b :: bs, ha, hb => by
    obtain ⟨ha₁, ha₂⟩ := List.pairwise_cons.mp ha
    obtain ⟨hb₁, hb₂⟩ := List.pairwise_cons.mp hb
    rw [mergeJoinBy_cons_cons]
    split_ifs with hlt hgt
    · refine List.Pairwise.cons (fun c hc => ?_) (mergeJoinBy_ordered hkey ha₂ hb)
      obtain ⟨d, hd, hk⟩ := key_mem_mergeJoinBy hkey hc
      rw [hk]
      rcases hd with hd | hd
      · exact ha₁ d hd
      · rcases List.mem_cons.mp hd with rfl | hd
        · exact hlt.le
        · exact hlt.le.trans (hb₁ d hd)
    · refine List.Pairwise.cons (fun c hc => ?_) (mergeJoinBy_ordered hkey ha hb₂)
      obtain ⟨d, hd, hk⟩ := key_mem_mergeJoinBy hkey hc
      rw [hk]
      rcases hd with hd | hd
      · rcases List.mem_cons.mp hd with rfl | hd
        · exact hgt.le
        · exact hgt.le.trans (ha₁ d hd)
      · exact hb₁ d hd
    · have heq : key a = key b := le_antisymm (not_lt.mp hgt) (not_lt.mp hlt)
      refine List.Pairwise.cons (fun c hc => ?_) (mergeJoinBy_ordered hkey ha₂ hb₂)
      obtain ⟨d, hd, hk⟩ := key_mem_mergeJoinBy hkey hc
      rw [hk, hkey]
      rcases hd with hd | hd
      · exact ha₁ d hd
      · exact heq ▸ hb₁ d hd

section Weight

variable {M : Type} [AddCommMonoid M] (w : α → M)

/-- An additive weight, counted over the elements whose key satisfies `p`,
is the sum of its counts over both sides. -/
theorem mergeJoinBy_sum_filter (p : β → Prop) [DecidablePred p]
    (hkey : ∀ a b, key (both a b) = key a) (hw : ∀ a b, w (both a b) = w a + w b) :
    ∀ as bs : List α, (((mergeJoinBy key both as bs).filter (fun c => p (key c))).map w).sum =
      ((as.filter (fun c => p (key c))).map w).sum + ((bs.filter (fun c => p (key c))).map w).sum
  | [], bs => by simp
  | a :: as, [] => by simp
  | a :: as, b :: bs => by
    have h₁ := mergeJoinBy_sum_filter p hkey hw as (b :: bs)
    have h₂ := mergeJoinBy_sum_filter p hkey hw (a :: as) bs
    have h₃ := mergeJoinBy_sum_filter p hkey hw as bs
    rw [mergeJoinBy_cons_cons]
    split_ifs with hlt hgt
    · by_cases hp : p (key a) <;> simp_all [List.filter_cons, add_assoc]
    · by_cases hp : p (key b) <;> simp_all [List.filter_cons, add_left_comm]
    · have heq : key a = key b := le_antisymm (not_lt.mp hgt) (not_lt.mp hlt)
      by_cases hp : p (key a)
      · have hpb : p (key b) := heq ▸ hp
        simp only [List.filter_cons, hkey, hp, hpb, decide_true, if_true, List.map_cons,
          List.sum_cons, h₃, hw]
        abel
      · have hpb : ¬ p (key b) := heq ▸ hp
        simp [hkey, hp, hpb, h₃]

theorem mergeJoinBy_sum (hkey : ∀ a b, key (both a b) = key a)
    (hw : ∀ a b, w (both a b) = w a + w b) (as bs : List α) :
    ((mergeJoinBy key both as bs).map w).sum = (as.map w).sum + (bs.map w).sum := by
  simpa using mergeJoinBy_sum_filter w (fun _ => True) hkey hw as bs

end Weight

/-- On an ordered sequence, the longest prefix below a bound is exactly the
elements below it. -/
theorem takeWhile_lt_eq_filter (e : β) :
    ∀ {l : List α}, Ordered key l →
      l.takeWhile (fun c => decide (key c < e)) = l.filter (fun c => decide (key c < e))
  | [], _ => rfl
  | c :: l, h => by
    obtain ⟨h₁, h₂⟩ := List.pairwise_cons.mp h
    by_cases hc : key c < e
    · simp [hc, takeWhile_lt_eq_filter e h₂]
    · have hnone : l.filter (fun c => decide (key c < e)) = [] := by
        rw [List.filter_eq_nil_iff]
        intro d hd
        simpa using fun hd' => hc (lt_of_le_of_lt (h₁ d hd) hd')
      simp [hc, hnone]

theorem dropWhile_lt_eq_filter (e : β) :
    ∀ {l : List α}, Ordered key l →
      l.dropWhile (fun c => decide (key c < e)) = l.filter (fun c => decide (e ≤ key c))
  | [], _ => rfl
  | c :: l, h => by
    obtain ⟨h₁, h₂⟩ := List.pairwise_cons.mp h
    by_cases hc : key c < e
    · simp [hc, dropWhile_lt_eq_filter e h₂]
    · have hall : l.filter (fun c => decide (e ≤ key c)) = l := by
        rw [List.filter_eq_self]
        intro d hd
        simpa using le_trans (not_lt.mp hc) (h₁ d hd)
      simp [not_lt.mp hc, hall]

end MergeJoin
