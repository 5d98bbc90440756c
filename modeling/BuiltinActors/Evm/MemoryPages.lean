import BuiltinActors.Evm.MemorySpec

/-! # Growing memory by whole pages

`Memory::grow` as `memory.rs` writes it, over the vector with the capacity it
has reserved: the new size is rounded up to a word, a rounding past the
capacity reserves the pages that cover it, and the vector is resized with
zeros. `Vec::reserve` and `Vec::resize` are the standard library's: a vector
short of room grows to twice its capacity, or to what it needs if that is
more, and a capacity past `isize::MAX` panics. An allocation the runtime
cannot give aborts, which is not modelled.

On `wasm32` with overflow checks two of `grow`'s `usize` computations can
overflow and panic, though its comment says the first cannot: the rounding
to a word for the last 31 sizes below `2 ^ 32`, and the size of the pages
for a rounding past the capacity within a page of `2 ^ 32`. Where it returns,
the bytes are those of `Memory.grow`. -/

namespace BuiltinActors.Evm

def pageSize : Nat := 4 * 1024

/-- `isize::MAX` on `wasm32`: no `Vec<u8>` holds more bytes. -/
def isizeMax : Nat := 2 ^ 31 - 1

/-- The least capacity a `Vec<u8>` that grows is given. -/
def minNonZeroCap : Nat := 8

/-- `a * b` in `usize`, which panics on overflow. -/
def mulUsize (a b : Nat) : Except ActorError Nat :=
  if a * b ≤ usizeMax then .ok (a * b) else .error (.panicked "attempt to multiply with overflow")

/-- `a - b` in `usize`, which panics on overflow. -/
def subUsize (a b : Nat) : Except ActorError Nat :=
  if b ≤ a then .ok (a - b) else .error (.panicked "attempt to subtract with overflow")

/-- `usize::div_ceil`. -/
def divCeil (a b : Nat) : Nat :=
  let d := a / b
  let r := a % b
  if r > 0 then d + 1 else d

/-- The panics of `usize` arithmetic under overflow checks. -/
def arithmeticOverflows : List String :=
  ["attempt to add with overflow", "attempt to subtract with overflow",
    "attempt to multiply with overflow"]

/-- The `Vec<u8>` under `Memory`: its bytes and the capacity it has reserved. -/
structure MemoryVec where
  bytes : List UInt8
  capacity : Nat
deriving DecidableEq, Repr

namespace MemoryVec

/-- `Memory::default`: no bytes, and room for a page. -/
instance : Inhabited MemoryVec := ⟨⟨[], pageSize⟩⟩

def len (v : MemoryVec) : Nat := v.bytes.length

/-- The bytes, which is all `Memory` keeps. -/
def toMemory (v : MemoryVec) : Memory := ⟨v.bytes⟩

@[simp] theorem len_toMemory (v : MemoryVec) : v.toMemory.len = v.len := rfl

/-- `Vec::reserve`: room for `additional` more bytes. A vector short of it
grows as `RawVec::grow_amortized` does. -/
def reserve (v : MemoryVec) (additional : Nat) : Except ActorError MemoryVec :=
  if additional ≤ v.capacity - v.len then .ok v
  else
    match checkedAdd usizeMax v.len additional with
    | none => .error (.panicked "capacity overflow")
    | some requiredCap =>
      let cap := max (v.capacity * 2) requiredCap
      let cap := max minNonZeroCap cap
      if isizeMax < cap then .error (.panicked "capacity overflow")
      else .ok { v with capacity := cap }

/-- `Vec::resize(new_len, 0)`: zeros up to `newLen` after reserving room for
them, or the bytes cut to `newLen`. -/
def resize (v : MemoryVec) (newLen : Nat) : Except ActorError MemoryVec :=
  if newLen > v.len then do
    let n := newLen - v.len
    let v ← v.reserve n
    pure { v with bytes := v.bytes ++ List.replicate n 0 }
  else .ok { v with bytes := v.bytes.take newLen }

/-- `reserve_pages`: room for `pages` whole pages. -/
def reservePages (v : MemoryVec) (pages : Nat) : Except ActorError MemoryVec := do
  let size ← mulUsize pageSize pages
  let additional ← subUsize size v.len
  v.reserve additional

/-- `Memory::grow`: the new size rounded up to a word; pages reserved over it
when it passes the capacity; then the vector resized to it. -/
def grow (v : MemoryVec) (newSize : Nat) : Except ActorError MemoryVec :=
  if newSize ≤ v.len then .ok v
  else do
    let alignment := newSize % evmWordSize
    let newSize ← if 0 < alignment then addUsize newSize (evmWordSize - alignment) else pure newSize
    let cap := v.capacity
    let v ← if newSize > cap then v.reservePages (divCeil newSize pageSize) else pure v
    v.resize newSize

/-! ## Rounding to pages -/

/-- `div_ceil` by its remainder: one more page for a partial one. -/
theorem pageSize_mul_divCeil (m : Nat) :
    pageSize * divCeil m pageSize = pageSize * (m / pageSize) + if m % pageSize = 0 then 0 else pageSize := by
  rcases Nat.eq_zero_or_pos (m % pageSize) with h | h
  · simp only [divCeil, h, gt_iff_lt, lt_self_iff_false, if_false, if_true]
    omega
  · simp only [divCeil, h, if_true, Nat.pos_iff_ne_zero.mp h, if_false]
    rw [Nat.mul_succ]

theorem le_pageCeil (m : Nat) : m ≤ pageSize * divCeil m pageSize := by
  rw [pageSize_mul_divCeil]
  unfold pageSize
  split <;> omega

theorem pageCeil_lt (m : Nat) : pageSize * divCeil m pageSize < m + pageSize := by
  rw [pageSize_mul_divCeil]
  unfold pageSize
  split <;> omega

/-! ## Reserving and resizing -/

theorem reserve_of_le {v : MemoryVec} {a : Nat} (h : a ≤ v.capacity - v.len) :
    v.reserve a = .ok v := by
  rw [reserve, if_pos h]

/-- A vector short of room grows to twice its capacity, or to what it needs
if that is more; past `isize::MAX` it panics. -/
theorem reserve_of_lt {v : MemoryVec} {a : Nat} (h : v.capacity - v.len < a)
    (hfit : v.len + a ≤ usizeMax) :
    v.reserve a =
      if isizeMax < max minNonZeroCap (max (v.capacity * 2) (v.len + a))
      then .error (.panicked "capacity overflow")
      else .ok { v with capacity := max minNonZeroCap (max (v.capacity * 2) (v.len + a)) } := by
  rw [reserve, if_neg (Nat.not_le.mpr h), checkedAdd, if_pos hfit]

/-- Resizing within the capacity: zeros appended, and no room reserved. -/
theorem resize_of_le_capacity {v : MemoryVec} {m : Nat} (hlen : v.len < m) (hcap : m ≤ v.capacity) :
    v.resize m = .ok ⟨v.bytes ++ List.replicate (m - v.len) 0, v.capacity⟩ := by
  rw [resize, if_pos hlen]
  simp only
  rw [reserve_of_le (by omega)]
  rfl

/-- The pages over `m`, reserved for a vector that `m` outgrows. -/
theorem reservePages_eq {v : MemoryVec} {m : Nat} (hlen : v.len < m) (hcap : v.capacity < m)
    (hfit : pageSize * divCeil m pageSize ≤ usizeMax) :
    v.reservePages (divCeil m pageSize) =
      if isizeMax < max minNonZeroCap (max (v.capacity * 2) (pageSize * divCeil m pageSize))
      then .error (.panicked "capacity overflow")
      else .ok { v with
        capacity := max minNonZeroCap (max (v.capacity * 2) (pageSize * divCeil m pageSize)) } := by
  have hle := le_pageCeil m
  -- the pages cover `m`, so the room they ask for is more than the vector has
  have hsum : v.len + (pageSize * divCeil m pageSize - v.len) = pageSize * divCeil m pageSize := by
    omega
  simp only [reservePages, mulUsize, if_pos hfit, subUsize,
    if_pos (show v.len ≤ pageSize * divCeil m pageSize by omega), Except.ok_bind]
  rw [reserve_of_lt (by omega) (by omega), hsum]

/-! ## Growing -/

theorem grow_of_le (v : MemoryVec) {n : Nat} (h : n ≤ v.len) : v.grow n = .ok v := by
  rw [grow, if_pos h]

/-- `grow` past the length: the rounding, then pages reserved when it passes
the capacity, then the resize. -/
theorem grow_of_lt (v : MemoryVec) {n : Nat} (hn : n ≤ usizeMax) (hlen : v.len < n) :
    v.grow n =
      if wordCeil n ≤ usizeMax then
        if v.capacity < wordCeil n then
          v.reservePages (divCeil (wordCeil n) pageSize) >>= fun v => v.resize (wordCeil n)
        else v.resize (wordCeil n)
      else .error (.panicked "attempt to add with overflow") := by
  rw [grow, if_neg (Nat.not_le.mpr hlen)]
  simp only
  rw [alignUp_bind hn]
  rfl

section Growing

variable (v : MemoryVec) {n : Nat} (hn : n ≤ usizeMax) (hlen : v.len < n)
include hn hlen

/-- A rounding past `usize::MAX` panics before anything is reserved. -/
theorem grow_of_usizeMax_lt (h : usizeMax < wordCeil n) :
    v.grow n = .error (.panicked "attempt to add with overflow") := by
  rw [grow_of_lt v hn hlen, if_neg (Nat.not_le.mpr h)]

theorem grow_of_le_capacity (hw : wordCeil n ≤ usizeMax) (hcap : wordCeil n ≤ v.capacity) :
    v.grow n = .ok ⟨v.bytes ++ List.replicate (wordCeil n - v.len) 0, v.capacity⟩ := by
  have hcover := le_wordCeil n
  rw [grow_of_lt v hn hlen, if_pos hw, if_neg (Nat.not_lt.mpr hcap),
    resize_of_le_capacity (by omega) hcap]

/-- A rounding past the capacity within a page of `2 ^ 32`: the size of its
pages is no `usize`. -/
theorem grow_of_pages_gt (hw : wordCeil n ≤ usizeMax) (hcap : v.capacity < wordCeil n)
    (h : usizeMax < pageSize * divCeil (wordCeil n) pageSize) :
    v.grow n = .error (.panicked "attempt to multiply with overflow") := by
  rw [grow_of_lt v hn hlen, if_pos hw, if_pos hcap]
  simp only [reservePages, mulUsize, if_neg (Nat.not_le.mpr h)]
  rfl

/-- A rounding past the capacity whose pages are a `usize`: the capacity grows
to cover them, and the resize then finds room. -/
theorem grow_of_pages_le (hcap : v.capacity < wordCeil n)
    (h : pageSize * divCeil (wordCeil n) pageSize ≤ usizeMax) :
    v.grow n =
      if isizeMax < max minNonZeroCap (max (v.capacity * 2) (pageSize * divCeil (wordCeil n) pageSize))
      then .error (.panicked "capacity overflow")
      else .ok ⟨v.bytes ++ List.replicate (wordCeil n - v.len) 0,
        max minNonZeroCap (max (v.capacity * 2) (pageSize * divCeil (wordCeil n) pageSize))⟩ := by
  have hcover := le_wordCeil n
  have hpages := le_pageCeil (wordCeil n)
  rw [grow_of_lt v hn hlen, if_pos (by omega), if_pos hcap, reservePages_eq (by omega) hcap h]
  split
  · rfl
  · rw [Except.ok_bind, resize_of_le_capacity (by exact Nat.lt_of_lt_of_le hlen hcover) (by simp; omega)]
    rfl

end Growing

/-- The page size overflowing, for a fresh memory and a rounding within a
page of `2 ^ 32`. -/
example : (default : MemoryVec).grow (2 ^ 32 - 32) =
    .error (.panicked "attempt to multiply with overflow") := by
  decide

/-- The source's own test: a fresh memory grown past two pages. -/
example : ((default : MemoryVec).grow (pageSize * 2 + 1)).map (fun w => (w.len, w.capacity)) =
    .ok (pageSize * 2 + evmWordSize, pageSize * 3) := by
  decide +kernel

/-- What a `grow` that returns leaves: the vector itself, when memory covers
`n`; otherwise the bytes with zeros up to the rounding, which is a `usize`,
within a capacity that is the old one or at most `isize::MAX`. -/
theorem grow_eq_ok {v w : MemoryVec} {n : Nat} (hn : n ≤ usizeMax) (h : v.grow n = .ok w) :
    n ≤ v.len ∧ w = v ∨
      v.len < n ∧ wordCeil n ≤ usizeMax ∧
        w.bytes = v.bytes ++ List.replicate (wordCeil n - v.len) 0 ∧ wordCeil n ≤ w.capacity ∧
        (w.capacity = v.capacity ∨ w.capacity ≤ isizeMax) := by
  by_cases hle : n ≤ v.len
  · rw [grow_of_le v hle] at h
    cases h
    exact .inl ⟨hle, rfl⟩
  rw [Nat.not_le] at hle
  have hpages := le_pageCeil (wordCeil n)
  by_cases hw : usizeMax < wordCeil n
  · rw [grow_of_usizeMax_lt v hn hle hw] at h
    cases h
  rw [Nat.not_lt] at hw
  by_cases hcap : wordCeil n ≤ v.capacity
  · rw [grow_of_le_capacity v hn hle hw hcap] at h
    cases h
    exact .inr ⟨hle, hw, rfl, hcap, .inl rfl⟩
  rw [Nat.not_le] at hcap
  by_cases hp : usizeMax < pageSize * divCeil (wordCeil n) pageSize
  · rw [grow_of_pages_gt v hn hle hw hcap hp] at h
    cases h
  rw [grow_of_pages_le v hn hle (Nat.lt_of_not_le (by omega)) (Nat.le_of_not_lt hp)] at h
  split at h
  · cases h
  · next hfit =>
    cases h
    exact .inr ⟨hle, hw, rfl, by simp only; omega, .inr (Nat.le_of_not_lt hfit)⟩

/-- The bytes `grow` leaves: zeros appended, up to the rounding where it grew. -/
theorem grow_eq_ok_bytes {v w : MemoryVec} {n : Nat} (hn : n ≤ usizeMax) (h : v.grow n = .ok w) :
    w.bytes = v.bytes ++ List.replicate (w.len - v.len) 0 ∧ (v.len < n → w.len = wordCeil n) := by
  rcases grow_eq_ok hn h with ⟨hle, rfl⟩ | ⟨hlt, -, hbytes, -⟩
  · exact ⟨by simp, fun hlt => absurd hle (Nat.not_le.mpr hlt)⟩
  · have hlen : w.len = wordCeil n := by
      have := le_wordCeil n
      simp only [len, hbytes, List.length_append, List.length_replicate] at hlt ⊢
      omega
    rw [hlen]
    exact ⟨hbytes, fun _ => rfl⟩

/-- Where `grow` returns, the bytes grow as `Memory.grow` grows them, and where
`Memory.grow` panics, so does `grow`: the capacity only adds panics. -/
theorem grow_refines (v : MemoryVec) {n : Nat} (hn : n ≤ usizeMax) :
    (∀ w, v.grow n = .ok w → v.toMemory.grow n = .ok w.toMemory) ∧
      ∀ e, v.toMemory.grow n = .error e → v.grow n = .error e := by
  constructor
  · intro w h
    rw [Memory.grow_eq _ hn, len_toMemory]
    rcases grow_eq_ok hn h with ⟨hle, rfl⟩ | ⟨hlt, hw, hbytes, -⟩
    · rw [if_pos hle]
    · rw [if_neg (Nat.not_le.mpr hlt), if_pos hw, toMemory, toMemory, hbytes]
  · intro e h
    rw [Memory.grow_eq _ hn] at h
    split at h
    · cases h
    · next hlt =>
      split at h
      · cases h
      · next hw =>
        cases h
        exact grow_of_usizeMax_lt v hn (Nat.lt_of_not_le hlt) (Nat.lt_of_not_le hw)

/-- What `Vec` keeps of its capacity, and `Memory` of its length: room for
the bytes, no more than `isize::MAX` of it, and whole words. -/
structure WellFormed (v : MemoryVec) : Prop where
  len_le : v.len ≤ v.capacity
  capacity_le : v.capacity ≤ isizeMax
  aligned : v.len % 32 = 0

theorem wellFormed_default : (default : MemoryVec).WellFormed := ⟨by decide, by decide, rfl⟩

theorem WellFormed.grow {v w : MemoryVec} {n : Nat} (hv : v.WellFormed) (hn : n ≤ usizeMax)
    (h : v.grow n = .ok w) : w.WellFormed := by
  rcases grow_eq_ok hn h with ⟨-, rfl⟩ | ⟨hlt, -, -, hroom, hcap⟩
  · exact hv
  -- the vector grew to the rounding, within the capacity it reserved
  have hlen : w.len = wordCeil n := (grow_eq_ok_bytes hn h).2 hlt
  refine ⟨by omega, ?_, by rw [hlen]; exact wordCeil_mod n⟩
  rcases hcap with hcap | hcap
  · exact hcap ▸ hv.capacity_le
  · exact hcap

/-- An outcome of `grow` as the claim reads it: which panic, if any, is of
`usize` arithmetic. -/
theorem overflow_error_iff {α : Type} (msg₀ : String) :
    (∃ msg ∈ arithmeticOverflows, (.error (.panicked msg₀) : Except ActorError α) = .error (.panicked msg)) ↔
      msg₀ ∈ arithmeticOverflows := by
  constructor
  · rintro ⟨msg, hmsg, h⟩
    cases h
    exact hmsg
  · intro h
    exact ⟨msg₀, h, rfl⟩

theorem not_overflow_ok {α : Type} (a : α) :
    ¬ ∃ msg ∈ arithmeticOverflows, (.ok a : Except ActorError α) = .error (.panicked msg) := by
  rintro ⟨msg, -, h⟩
  cases h

/-- `grow` on `wasm32`, for every size `get_memory_region` can ask for: the
sizes at which its arithmetic overflows, the sizes at which it returns, and
what it leaves then. -/
theorem grow_overflows_usize (v : MemoryVec) {n : Nat} (hn : n ≤ u32Max) :
    ((∃ msg ∈ arithmeticOverflows, v.grow n = .error (.panicked msg)) ↔
      v.len < n ∧ (usizeMax < wordCeil n ∨
        v.capacity < wordCeil n ∧ usizeMax < pageSize * divCeil (wordCeil n) pageSize)) ∧
    ((∃ w, v.grow n = .ok w) ↔ n ≤ v.len ∨ wordCeil n ≤ usizeMax ∧ (wordCeil n ≤ v.capacity ∨
        pageSize * divCeil (wordCeil n) pageSize ≤ isizeMax ∧ v.capacity * 2 ≤ isizeMax)) ∧
    ∀ w, v.grow n = .ok w →
      w.bytes = v.bytes ++ List.replicate (w.len - v.len) 0 ∧ (v.len < n → w.len = wordCeil n) := by
  have hn' : n ≤ usizeMax := hn
  refine and_assoc.mp ⟨?_, fun w h => grow_eq_ok_bytes hn' h⟩
  have hcover := le_wordCeil n
  have hpages := le_pageCeil (wordCeil n)
  have hsizes : minNonZeroCap ≤ isizeMax ∧ isizeMax < usizeMax := by decide
  by_cases hle : n ≤ v.len
  · -- memory covers `n`: nothing is computed
    rw [grow_of_le v hle]
    exact ⟨iff_of_false (not_overflow_ok v) (by omega), iff_of_true ⟨v, rfl⟩ (.inl hle)⟩
  rw [Nat.not_le] at hle
  by_cases hw : usizeMax < wordCeil n
  · -- the rounding overflows
    rw [grow_of_usizeMax_lt v hn' hle hw, overflow_error_iff]
    exact ⟨iff_of_true (by decide) ⟨hle, .inl hw⟩, iff_of_false (by simp) (by omega)⟩
  rw [Nat.not_lt] at hw
  by_cases hcap : wordCeil n ≤ v.capacity
  · -- the capacity covers the rounding: nothing is reserved
    rw [grow_of_le_capacity v hn' hle hw hcap]
    exact ⟨iff_of_false (not_overflow_ok _) (by omega), iff_of_true ⟨_, rfl⟩ (.inr ⟨hw, .inl hcap⟩)⟩
  rw [Nat.not_le] at hcap
  by_cases hp : usizeMax < pageSize * divCeil (wordCeil n) pageSize
  · -- the size of the pages overflows
    rw [grow_of_pages_gt v hn' hle hw hcap hp, overflow_error_iff]
    exact ⟨iff_of_true (by decide) ⟨hle, .inr ⟨hcap, hp⟩⟩, iff_of_false (by simp) (by omega)⟩
  rw [Nat.not_lt] at hp
  rw [grow_of_pages_le v hn' hle hcap hp]
  split
  · next hover =>
    -- the capacity the pages ask for passes `isize::MAX`
    rw [overflow_error_iff]
    exact ⟨iff_of_false (by decide) (by omega), iff_of_false (by simp) (by omega)⟩
  · next hfit =>
    exact ⟨iff_of_false (not_overflow_ok _) (by omega), iff_of_true ⟨_, rfl⟩ (.inr ⟨hw, .inr (by omega)⟩)⟩

/-- `get_memory_region` with offset `2 ^ 32 - 2` and size 1 passes its `u32`
checks and grows a fresh memory to `u32::MAX`, whose rounding overflows. -/
theorem grow_overflows_usize_u32Max :
    ∃ msg ∈ arithmeticOverflows, (default : MemoryVec).grow u32Max = .error (.panicked msg) :=
  (grow_overflows_usize default (Nat.le_refl u32Max)).1.2 ⟨by decide, .inl (by decide)⟩

end MemoryVec

end BuiltinActors.Evm
