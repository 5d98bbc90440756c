import Mathlib

/-! # Lists read as unbounded arrays

A list read at every index, a default value past its end: the shape of a
memory that is stored up to its size and reads as zero beyond it. A write of
a block of values at an offset is `overwrite` on the reading, and the values
read from an offset are its `window`. The lemmas carry the list operations
that implement reads and writes (`take`, `drop`, `set`, appending a run of
defaults) to these two operations. -/

namespace PaddedList

variable {α : Type*}

/-- The list read as an unbounded array, `d` past its end. -/
def view (d : α) (l : List α) (i : Nat) : α := l.getD i d

/-- `f` with the values of `src` written from `start` on. -/
def overwrite (f : Nat → α) (start : Nat) (src : List α) (i : Nat) : α :=
  if start ≤ i then src[i - start]?.getD (f i) else f i

/-- The `n` values of `f` from `start` on. -/
def window (f : Nat → α) (start n : Nat) : List α := (List.range n).map fun i => f (start + i)

/-! ## Reading a list -/

variable {d : α}

theorem view_of_lt {l : List α} {i : Nat} (h : i < l.length) : view d l i = l[i] := by
  rw [view, List.getD_eq_getElem?_getD, List.getElem?_eq_getElem h, Option.getD_some]

theorem view_of_le {l : List α} {i : Nat} (h : l.length ≤ i) : view d l i = d := by
  rw [view, List.getD_eq_getElem?_getD, List.getElem?_eq_none h, Option.getD_none]

/-- Padding a list with its default changes no reading. -/
@[simp] theorem view_append_replicate (l : List α) (k : Nat) :
    view d (l ++ List.replicate k d) = view d l := by
  funext i
  by_cases hi : i < l.length
  · rw [view_of_lt hi, view_of_lt (by simp; omega), List.getElem_append_left hi]
  · rw [view_of_le (Nat.le_of_not_lt hi), view, List.getD_append_right _ _ _ _ (by omega)]
    simp

@[simp] theorem length_window (f : Nat → α) (start n : Nat) : (window f start n).length = n := by
  simp [window]

theorem getElem_window (f : Nat → α) (start n i : Nat) (h : i < (window f start n).length) :
    (window f start n)[i] = f (start + i) := by
  simp [window]

/-- A slice of a list within its length is a window of its reading. -/
theorem take_drop_eq_window (l : List α) {start n : Nat} (h : start + n ≤ l.length) :
    (l.drop start).take n = window (view d l) start n := by
  apply List.ext_getElem
  · simp; omega
  · intro i h₁ h₂
    rw [getElem_window, view_of_lt (by simp at h₁; omega)]
    simp

/-- A window of `m + n` values is the window of `m` followed by the window of
`n` after it. -/
theorem window_add (f : Nat → α) (start m n : Nat) :
    window f start (m + n) = window f start m ++ window f (start + m) n := by
  simp [window, List.range_add, Nat.add_assoc]

/-- What is left of a list from an offset, cut to `n` values and padded with
the default up to `n`, is a window of its reading. -/
theorem take_drop_append_replicate (l : List α) (start n : Nat) :
    (l.drop start).take n ++ List.replicate (n - (l.length - start)) d =
      window (view d l) start n := by
  apply List.ext_getElem
  · simp
    omega
  · intro i h₁ h₂
    have htake : ((l.drop start).take n).length = min n (l.length - start) := by simp
    have hi₂ : i < n := by simpa using h₂
    rw [getElem_window]
    -- the input up to its end, then the padding
    by_cases hi : i < min n (l.length - start)
    · rw [List.getElem_append_left (by omega), List.getElem_take, List.getElem_drop,
        view_of_lt (by omega)]
    · rw [List.getElem_append_right (by omega), List.getElem_replicate, view_of_le (by omega)]

/-! ## Writing a list -/

@[simp] theorem overwrite_nil (f : Nat → α) (start : Nat) : overwrite f start [] = f := by
  funext i
  simp [overwrite]

theorem overwrite_of_lt {f : Nat → α} {start : Nat} {src : List α} {i : Nat} (h : i < start) :
    overwrite f start src i = f i := by
  rw [overwrite, if_neg (by omega)]

theorem overwrite_of_le {f : Nat → α} {start : Nat} {src : List α} {i : Nat}
    (h : start + src.length ≤ i) : overwrite f start src i = f i := by
  rw [overwrite, if_pos (by omega), List.getElem?_eq_none (by omega), Option.getD_none]

theorem overwrite_of_mem {f : Nat → α} {start : Nat} {src : List α} {i : Nat} (h₁ : start ≤ i)
    (h₂ : i < start + src.length) : overwrite f start src i = src[i - start] := by
  rw [overwrite, if_pos h₁, List.getElem?_eq_getElem (by omega), Option.getD_some]

/-- Two writes of adjacent blocks are one write of the blocks joined. -/
theorem overwrite_append (f : Nat → α) (start : Nat) (s t : List α) :
    overwrite (overwrite f start s) (start + s.length) t = overwrite f start (s ++ t) := by
  funext i
  by_cases h₁ : i < start
  · rw [overwrite_of_lt (by omega), overwrite_of_lt h₁, overwrite_of_lt h₁]
  by_cases h₂ : i < start + s.length
  · rw [overwrite_of_lt h₂, overwrite_of_mem (by omega) h₂, overwrite_of_mem (by omega) (by simp; omega),
      List.getElem_append_left]
  · rw [overwrite, if_pos (by omega), overwrite_of_le (by omega), overwrite, if_pos (by omega),
      List.getElem?_append_right (by omega)]
    congr 2
    omega

/-- Reading back a written block gives the block. -/
theorem window_overwrite (f : Nat → α) (start : Nat) (src : List α) :
    window (overwrite f start src) start src.length = src := by
  apply List.ext_getElem
  · simp
  · intro i h₁ h₂
    rw [getElem_window, overwrite_of_mem (by omega) (by omega)]
    simp

/-- Replacing a slice of a list by a block of the same length writes the block. -/
theorem view_take_append_drop (l src : List α) {start : Nat} (h : start + src.length ≤ l.length) :
    view d (l.take start ++ src ++ l.drop (start + src.length)) = overwrite (view d l) start src := by
  funext i
  have htake : (l.take start).length = start := by simp; omega
  simp only [view, overwrite, List.getD_eq_getElem?_getD, List.append_assoc]
  by_cases h₁ : i < start
  · rw [if_neg (by omega), List.getElem?_append_left (by omega), List.getElem?_take_of_lt h₁]
  by_cases h₂ : i < start + src.length
  · rw [if_pos (by omega), List.getElem?_append_right (by omega), htake,
      List.getElem?_append_left (by omega), List.getElem?_eq_getElem (by omega)]
    simp
  · have hpast : src[i - start]? = none := List.getElem?_eq_none (by omega)
    rw [if_pos (by omega), hpast, Option.getD_none, List.getElem?_append_right (by omega), htake, List.getElem?_append_right (by omega),
      List.getElem?_drop]
    congr 2
    omega

/-- Setting one element writes a block of one. -/
theorem view_set (l : List α) {i : Nat} (v : α) (h : i < l.length) :
    view d (l.set i v) = overwrite (view d l) i [v] := by
  funext j
  by_cases hj : j = i
  · subst hj
    rw [overwrite_of_mem le_rfl (by simp), view_of_lt (by simpa using h)]
    simp
  · simp only [view, overwrite, List.getD_eq_getElem?_getD, List.getElem?_set_ne (Ne.symm hj)]
    split
    · have hpast : [v][j - i]? = none := List.getElem?_eq_none (by simp; omega)
      rw [hpast, Option.getD_none]
    · rfl

end PaddedList
