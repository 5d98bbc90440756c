import BuiltinActors.Evm.Memory
import BuiltinActors.Lib.PaddedList
import BuiltinActors.Lib.Except
import BuiltinActors.Lib.Run

/-! # EVM memory as an unbounded byte array

The EVM specifies memory as an array of bytes at every offset, zero where
nothing was written, with a size `msize` that grows over every byte an
instruction touches, by whole words. `ByteArrayModel` is that array, and each
memory instruction has its meaning on it: a region is touched, then a word or
a block of bytes is read or written.

The interpreter's memory refines the model through `Memory.toModel`, which
reads the vector as the array padded with zeros: on a memory of whole words
every instruction succeeds exactly when its meaning on the model is defined,
and then leaves the memory the model describes and gives back what the model
gives (`MemoryOp.exec_refines`). Whole words are kept by every instruction,
so they hold of every memory the interpreter builds from an empty one.

One limit of the deployed target shows in the model: a region whose end,
rounded up to a word, passes `usize::MAX` of `wasm32` does not grow memory
but panics, unless memory already covers it. -/

namespace BuiltinActors.Evm

open PaddedList

/-- `32 * ceil(n / 32)`: `n` rounded up to whole words. -/
def wordCeil (n : Nat) : Nat := 32 * ((n + 31) / 32)

theorem le_wordCeil (n : Nat) : n ≤ wordCeil n := by
  unfold wordCeil
  omega

theorem wordCeil_mod (n : Nat) : wordCeil n % 32 = 0 := by
  unfold wordCeil
  omega

/-- A whole number of words that covers `n` covers its rounding. -/
theorem wordCeil_le {n L : Nat} (h : n ≤ L) (hL : L % 32 = 0) : wordCeil n ≤ L := by
  unfold wordCeil
  omega

/-! ## The byte-array model -/

/-- Memory as the EVM specifies it: a byte at every offset, and the size
`msize` of the part that instructions have touched. -/
structure ByteArrayModel where
  data : Nat → UInt8
  msize : Nat

namespace ByteArrayModel

/-- A size of whole words that is a `usize`. -/
structure WellFormed (m : ByteArrayModel) : Prop where
  aligned : m.msize % 32 = 0
  msize_le : m.msize ≤ usizeMax

/-- Touching `size` bytes at `offset`: nothing for no bytes; otherwise the end
of the region must be a `u32`, and `msize` grows to cover the region in whole
words, unless that passes `usize::MAX` where memory did not reach yet. -/
def touch (m : ByteArrayModel) (offset size : Nat) : Option ByteArrayModel :=
  if size = 0 then some m
  else if offset + size ≤ u32Max ∧ (offset + size ≤ m.msize ∨ wordCeil (offset + size) ≤ usizeMax)
  then some { m with msize := max m.msize (wordCeil (offset + size)) }
  else none

/-- `src` written from `offset` on. -/
def write (m : ByteArrayModel) (offset : Nat) (src : List UInt8) : ByteArrayModel :=
  { m with data := overwrite m.data offset src }

def mload (m : ByteArrayModel) (offset : Nat) : Option (ByteArrayModel × U256) :=
  (m.touch offset 32).bind fun m => some (m, U256.fromBigEndian (window m.data offset 32))

def mstore (m : ByteArrayModel) (offset : Nat) (value : U256) : Option ByteArrayModel :=
  (m.touch offset 32).bind fun m => some (m.write offset value.toBigEndian)

def mstore8 (m : ByteArrayModel) (offset : Nat) (value : UInt8) : Option ByteArrayModel :=
  (m.touch offset 1).bind fun m => some (m.write offset [value])

/-- A copy within memory reads the whole source before it writes. -/
def mcopy (m : ByteArrayModel) (dest src size : Nat) : Option ByteArrayModel :=
  (m.touch src size).bind fun m =>
    (m.touch dest size).bind fun m => some (m.write dest (window m.data src size))

/-- The bytes of `data` from `dataOffset` on, as many as fit in the region, and
zeros over the rest of the region when `zeroFill` is set. -/
def copyToMemory (m : ByteArrayModel) (dest size dataOffset : Nat) (data : List UInt8)
    (zeroFill : Bool) : Option ByteArrayModel :=
  (m.touch dest size).bind fun m =>
    let copied := (data.drop dataOffset).take size
    some (m.write dest (copied ++ if zeroFill then List.replicate (size - copied.length) 0 else []))

/-- The return data from `src` on, which must hold all `size` bytes. -/
def returndatacopy (m : ByteArrayModel) (returnData : List UInt8) (dest src size : Nat) :
    Option ByteArrayModel :=
  (m.touch dest size).bind fun m =>
    if returnData.length < src + size then none
    else some (m.write dest ((returnData.drop src).take size))

def exit (m : ByteArrayModel) (offset size : Nat) : Option (ByteArrayModel × List UInt8) :=
  (m.touch offset size).bind fun m => some (m, window m.data offset size)

/-! ### Touching and writing -/

@[simp] theorem touch_zero (m : ByteArrayModel) (offset : Nat) : m.touch offset 0 = some m := by
  simp [touch]

@[simp] theorem write_nil (m : ByteArrayModel) (offset : Nat) : m.write offset [] = m := by
  simp [write]

@[simp] theorem msize_write (m : ByteArrayModel) (offset : Nat) (src : List UInt8) :
    (m.write offset src).msize = m.msize := rfl

/-- Two writes of adjacent blocks are one write. -/
theorem write_write (m : ByteArrayModel) (offset : Nat) (s t : List UInt8) :
    (m.write offset s).write (offset + s.length) t = m.write offset (s ++ t) := by
  simp only [write, overwrite_append]

theorem WellFormed.write {m : ByteArrayModel} (hwf : m.WellFormed) (offset : Nat)
    (src : List UInt8) : (m.write offset src).WellFormed :=
  ⟨hwf.aligned, hwf.msize_le⟩

theorem touch_data {m m' : ByteArrayModel} {offset size : Nat} (h : m.touch offset size = some m') :
    m'.data = m.data := by
  unfold touch at h
  split at h
  · cases h
    rfl
  · split at h
    · cases h
      rfl
    · cases h

/-- Touching keeps whole words within `usize` and never shrinks memory. -/
theorem touch_wellFormed {m m' : ByteArrayModel} {offset size : Nat} (hwf : m.WellFormed)
    (h : m.touch offset size = some m') : m'.WellFormed ∧ m.msize ≤ m'.msize := by
  unfold touch at h
  split at h
  · cases h
    exact ⟨hwf, le_rfl⟩
  · split at h
    · next hfit =>
      cases h
      have hmod := wordCeil_mod (offset + size)
      have hcover : offset + size ≤ m.msize → wordCeil (offset + size) ≤ m.msize :=
        fun hle => wordCeil_le hle hwf.aligned
      refine ⟨⟨?_, ?_⟩, le_max_left _ _⟩
      · rcases le_total m.msize (wordCeil (offset + size)) with hle | hle
        · rw [max_eq_right hle]
          exact hmod
        · rw [max_eq_left hle]
          exact hwf.aligned
      · have := hwf.msize_le
        show max m.msize (wordCeil (offset + size)) ≤ usizeMax
        omega
    · cases h

end ByteArrayModel

/-! ## Growing memory -/

/-- The rounding `grow` makes, and what follows it: a `usize` up to a whole
word, which panics where the word passes `usize::MAX`. -/
theorem alignUp_bind {β : Type} {n : Nat} (hn : n ≤ usizeMax) (k : Nat → Except ActorError β) :
    (if 0 < n % evmWordSize then addUsize n (evmWordSize - n % evmWordSize) >>= k else pure n >>= k) =
      if wordCeil n ≤ usizeMax then k (wordCeil n)
      else .error (.panicked "attempt to add with overflow") := by
  by_cases ha : 0 < n % evmWordSize
  · -- the rounding is the addition the source makes
    have hceil : n + (evmWordSize - n % evmWordSize) = wordCeil n := by
      unfold wordCeil evmWordSize at *
      omega
    rw [if_pos ha, addUsize, hceil]
    split <;> rfl
  · have hceil : wordCeil n = n := by
      unfold wordCeil evmWordSize at *
      omega
    rw [if_neg ha, hceil, if_pos hn]
    rfl

namespace Memory

/-- The memory as the model reads it: its bytes, then zeros. -/
def toModel (mem : Memory) : ByteArrayModel := ⟨view 0 mem.bytes, mem.len⟩

@[simp] theorem toModel_msize (mem : Memory) : mem.toModel.msize = mem.len := rfl

/-- `grow` by the rounding of the new size: a size that memory covers changes
nothing, a larger one grows memory to its rounding with zeros when the rounding
is a `usize`, and panics when it is not. -/
theorem grow_eq (mem : Memory) {n : Nat} (hn : n ≤ usizeMax) :
    mem.grow n =
      if n ≤ mem.len then .ok mem
      else if wordCeil n ≤ usizeMax then .ok ⟨mem.bytes ++ List.replicate (wordCeil n - mem.len) 0⟩
      else .error (.panicked "attempt to add with overflow") := by
  unfold grow
  split
  · rfl
  · simp only
    rw [alignUp_bind hn]
    split <;> rfl

/-- What `grow` leaves, read by the model: the same bytes, and `msize` grown
over `n` in whole words; it fails when the rounding passes `usize::MAX` where
memory did not reach. -/
theorem grow_toModel (mem : Memory) {n : Nat} (hn : n ≤ usizeMax) (haligned : mem.len % 32 = 0) :
    (mem.grow n).toOption.map toModel =
      if n ≤ mem.len ∨ wordCeil n ≤ usizeMax
      then some { mem.toModel with msize := max mem.len (wordCeil n) } else none := by
  rw [grow_eq mem hn]
  by_cases hle : n ≤ mem.len
  · -- memory already covers the rounding: it is a whole number of words
    rw [if_pos hle, if_pos (.inl hle), max_eq_left (wordCeil_le hle haligned)]
    rfl
  · by_cases hceil : wordCeil n ≤ usizeMax
    · rw [if_neg hle, if_pos hceil, if_pos (.inr hceil)]
      show some (toModel _) = _
      have hgrown : mem.len + (wordCeil n - mem.len) = max mem.len (wordCeil n) := by
        have := le_wordCeil n
        omega
      simp only [toModel, len, List.length_append, List.length_replicate, view_append_replicate]
      rw [← len, hgrown]
    · rw [if_neg hle, if_neg hceil, if_neg (by omega)]
      rfl

/-- A grown memory covers the new size. -/
theorem le_len_of_grow {mem mem' : Memory} {n : Nat} (hn : n ≤ usizeMax)
    (h : mem.grow n = .ok mem') : n ≤ mem'.len := by
  rw [grow_eq mem hn] at h
  split at h
  · next hle =>
    cases h
    exact hle
  · split at h
    · cases h
      have := le_wordCeil n
      simp only [len, List.length_append, List.length_replicate] at *
      omega
    · cases h

/-- `grow` fails only by the panic of its rounding. -/
theorem grow_error {mem : Memory} {n : Nat} {e : ActorError} (hn : n ≤ usizeMax)
    (h : mem.grow n = .error e) : e = .panicked "attempt to add with overflow" := by
  rw [grow_eq mem hn] at h
  split at h
  · cases h
  · split at h
    · cases h
    · cases h
      rfl

end Memory

/-! ## Regions -/

@[simp] theorem getMemoryRegion_zero (mem : Memory) (offset : Nat) :
    getMemoryRegion mem offset 0 = .ok (mem, none) := by
  simp [getMemoryRegion, u32Max]

/-- What `get_memory_region` leaves, read by the model, is what touching the
region does: it fails exactly when touching is undefined. -/
theorem getMemoryRegion_toModel (mem : Memory) (hwf : mem.toModel.WellFormed) (offset size : Nat) :
    (getMemoryRegion mem offset size).toOption.map (·.1.toModel) = mem.toModel.touch offset size := by
  by_cases hsize : size = 0
  · subst hsize
    rw [getMemoryRegion_zero, ByteArrayModel.touch_zero]
    rfl
  unfold getMemoryRegion ByteArrayModel.touch
  rw [if_neg hsize]
  by_cases hsz : u32Max < size
  · rw [if_pos hsz, if_neg (by omega)]
    rfl
  rw [if_neg hsz, dif_neg hsize]
  by_cases hoff : u32Max < offset
  · rw [if_pos hoff, if_neg (by omega)]
    rfl
  rw [if_neg hoff]
  by_cases hsum : offset + size ≤ u32Max
  · -- the region is accepted, and memory grows over it
    have hgrow : (mem.grow (offset + size)).toOption.map Memory.toModel = _ :=
      Memory.grow_toModel mem (by unfold usizeMax; unfold u32Max at hsum; omega) hwf.aligned
    simp only [checkedAdd, if_pos hsum]
    cases hg : mem.grow (offset + size) with
    | error e =>
      rw [hg] at hgrow
      split at hgrow
      · cases hgrow
      · next hfit =>
        rw [if_neg (fun h => hfit h.2)]
        rfl
    | ok mem' =>
      rw [hg] at hgrow
      split at hgrow
      · next hfit =>
        rw [if_pos ⟨hsum, hfit⟩]
        exact hgrow
      · cases hgrow
  · simp only [checkedAdd, if_neg hsum]
    rw [if_neg (fun h => hsum h.1)]
    rfl

/-- A region of nonzero size that `get_memory_region` returns is the one asked
for, and memory covers it. -/
theorem getMemoryRegion_ok {mem mem' : Memory} {offset size : Nat} {region : Option MemoryRegion}
    (h : getMemoryRegion mem offset size = .ok (mem', region)) :
    (size = 0 ∧ region = none ∧ mem' = mem) ∨
      ∃ r, region = some r ∧ r.offset = offset ∧ r.size = size ∧ offset + size ≤ mem'.len := by
  unfold getMemoryRegion at h
  split at h
  · cases h
  split at h
  · next hsize =>
    cases h
    exact .inl ⟨hsize, rfl, rfl⟩
  split at h
  · cases h
  split at h
  · cases h
  · next newSize hadd =>
    have hsum : offset + size ≤ u32Max ∧ offset + size = newSize := by
      unfold checkedAdd at hadd
      split at hadd
      · cases hadd
        exact ⟨by assumption, rfl⟩
      · cases hadd
    obtain ⟨mem'', hgrow, hpure⟩ := Except.bind_eq_ok.mp h
    cases hpure
    have hcover := Memory.le_len_of_grow (by unfold usizeMax; unfold u32Max at hsum; omega) hgrow
    exact .inr ⟨_, rfl, rfl, rfl, hsum.2 ▸ hcover⟩

theorem getMemoryRegion_ok_of_pos {mem mem' : Memory} {offset size : Nat}
    {region : Option MemoryRegion} (h : getMemoryRegion mem offset size = .ok (mem', region))
    (hsize : 0 < size) :
    ∃ r, region = some r ∧ r.offset = offset ∧ r.size = size ∧ offset + size ≤ mem'.len := by
  rcases getMemoryRegion_ok h with ⟨hzero, -, -⟩ | hsome
  · omega
  · exact hsome

/-- A region `get_memory_region` returns ends within `u32`. -/
theorem getMemoryRegion_some_le {mem mem' : Memory} {offset size : Nat} {r : MemoryRegion}
    (h : getMemoryRegion mem offset size = .ok (mem', some r)) : offset + size ≤ u32Max := by
  unfold getMemoryRegion at h
  split at h
  · cases h
  split at h
  · cases h
  split at h
  · cases h
  split at h
  · cases h
  · next newSize hadd =>
    unfold checkedAdd at hadd
    split at hadd
    · assumption
    · cases hadd

/-- A region that memory already covers is returned as it is, and memory does
not change. -/
theorem getMemoryRegion_of_covered (mem : Memory) {offset size : Nat} (hsize : 0 < size)
    (hsum : offset + size ≤ u32Max) (hcover : offset + size ≤ mem.len) :
    getMemoryRegion mem offset size = .ok (mem, some ⟨offset, size, hsize⟩) := by
  have hgrow : mem.grow (offset + size) = .ok mem := by
    rw [Memory.grow_eq mem (by unfold usizeMax; unfold u32Max at hsum; omega), if_pos hcover]
  unfold getMemoryRegion
  rw [if_neg (by omega), dif_neg (by omega), if_neg (by omega)]
  simp only [checkedAdd, if_pos hsum, hgrow, Except.ok_bind]
  rfl

/-- The memory `get_memory_region` leaves is what touching the region makes of
the model. -/
theorem touch_of_getMemoryRegion {mem mem' : Memory} {offset size : Nat}
    {region : Option MemoryRegion} (hwf : mem.toModel.WellFormed)
    (h : getMemoryRegion mem offset size = .ok (mem', region)) :
    mem.toModel.touch offset size = some mem'.toModel := by
  rw [← getMemoryRegion_toModel mem hwf, h]
  rfl

/-- `get_memory_region` fails with `EVM_CONTRACT_ILLEGAL_MEMORY_ACCESS` exactly
when the offset, the size or their sum is not a `u32`; its only other failure
is the panic of `grow`. -/
theorem getMemoryRegion_illegal_iff (mem : Memory) (offset : Nat) {size : Nat} (hsize : size ≠ 0) :
    (∃ msg, getMemoryRegion mem offset size = .error ⟨evmContractIllegalMemoryAccess, msg⟩) ↔
      u32Max < offset ∨ u32Max < size ∨ u32Max < offset + size := by
  unfold getMemoryRegion
  rw [dif_neg hsize]
  by_cases hsz : u32Max < size
  · rw [if_pos hsz]
    exact iff_of_true ⟨_, rfl⟩ (.inr (.inl hsz))
  rw [if_neg hsz]
  by_cases hoff : u32Max < offset
  · rw [if_pos hoff]
    exact iff_of_true ⟨_, rfl⟩ (.inl hoff)
  rw [if_neg hoff]
  by_cases hsum : offset + size ≤ u32Max
  · simp only [checkedAdd, if_pos hsum]
    have hnot : ¬ (u32Max < offset ∨ u32Max < size ∨ u32Max < offset + size) := by omega
    simp only [hnot, iff_false, not_exists]
    intro msg hmsg
    cases hg : mem.grow (offset + size) with
    | error e =>
      rw [hg] at hmsg
      have he := Memory.grow_error (by unfold usizeMax; unfold u32Max at hsum; omega) hg
      cases hmsg
      cases he
    | ok mem' =>
      rw [hg] at hmsg
      cases hmsg
  · simp only [checkedAdd, if_neg hsum]
    exact iff_of_true ⟨_, rfl⟩ (.inr (.inr (by omega)))

/-! ## Slices -/

section Slices

variable {α : Type}

theorem sliceGet_eq (bytes : List α) {start n : Nat} (h : start + n ≤ bytes.length) :
    sliceGet bytes start (start + n) = .ok ((bytes.drop start).take n) := by
  rw [sliceGet, if_neg (by omega), if_neg (by omega), Nat.add_sub_cancel_left]

theorem sliceSet_eq (bytes src : List α) {start : Nat} (h : start + src.length ≤ bytes.length) :
    sliceSet bytes start (start + src.length) src =
      .ok (bytes.take start ++ src ++ bytes.drop (start + src.length)) := by
  have hlen : ((bytes.drop start).take src.length).length = src.length := by simp; omega
  simp only [sliceSet, sliceGet_eq bytes h, Except.ok_bind, hlen, ne_eq, not_true_eq_false,
    if_false]
  rfl

theorem copyWithin_eq (bytes : List α) {start n dest : Nat} (hsrc : start + n ≤ bytes.length)
    (hdest : dest + n ≤ bytes.length) :
    copyWithin bytes start (start + n) dest =
      .ok (bytes.take dest ++ (bytes.drop start).take n ++
        bytes.drop (dest + ((bytes.drop start).take n).length)) := by
  have hlen : ((bytes.drop start).take n).length = n := by simp; omega
  simp only [copyWithin, sliceGet_eq bytes hsrc, Except.ok_bind]
  rw [if_neg (by omega)]
  rfl

end Slices

namespace Memory

/-- Replacing bytes within memory writes them in the model. -/
theorem toModel_replace (mem : Memory) {start : Nat} {src : List UInt8}
    (h : start + src.length ≤ mem.len) :
    (⟨mem.bytes.take start ++ src ++ mem.bytes.drop (start + src.length)⟩ : Memory).toModel =
      mem.toModel.write start src := by
  have hlen : (mem.bytes.take start ++ src ++ mem.bytes.drop (start + src.length)).length = mem.len := by
    simp only [len] at h
    simp [len]
    omega
  simp only [toModel, ByteArrayModel.write, len] at hlen ⊢
  rw [hlen, view_take_append_drop _ _ h]

/-- Two replacements of adjacent blocks write both blocks in the model. -/
theorem toModel_replace_append (mem : Memory) {start : Nat} {s t : List UInt8}
    (h : start + s.length + t.length ≤ mem.len) :
    let once := mem.bytes.take start ++ s ++ mem.bytes.drop (start + s.length)
    (⟨once.take (start + s.length) ++ t ++ once.drop (start + s.length + t.length)⟩ : Memory).toModel =
      mem.toModel.write start (s ++ t) := by
  intro once
  have hfirst : (⟨once⟩ : Memory).toModel = mem.toModel.write start s :=
    toModel_replace mem (by omega)
  have hlen : (⟨once⟩ : Memory).len = mem.len := by
    simp only [len, once, List.length_append, List.length_take, List.length_drop]
    unfold len at h
    omega
  rw [toModel_replace ⟨once⟩ (by omega), hfirst, ByteArrayModel.write_write]

theorem toModel_set (mem : Memory) {i : Nat} (v : UInt8) (h : i < mem.len) :
    (⟨mem.bytes.set i v⟩ : Memory).toModel = mem.toModel.write i [v] := by
  simp only [toModel, ByteArrayModel.write, len, List.length_set]
  rw [view_set _ _ h]

end Memory

/-! ## The instructions refine the model -/

/-- The byte MSTORE8 stores, taken through the low 32 bits, is the low byte. -/
theorem ofNat_and_0xff (n : Nat) : UInt8.ofNat (n % 2 ^ 32 &&& 0xff) = UInt8.ofNat n := by
  have hmask : n % 2 ^ 32 &&& 0xff = n % 2 ^ 32 % 2 ^ 8 := Nat.and_two_pow_sub_one_eq_mod _ 8
  apply UInt8.toNat_inj.mp
  rw [UInt8.toNat_ofNat', UInt8.toNat_ofNat', hmask, Nat.mod_mod_of_dvd _ (by norm_num),
    Nat.mod_mod_of_dvd _ (by norm_num)]

/-- `copy_within_memory` grows memory over both regions and copies as the
model does, reading the source before writing. -/
theorem copyWithinMemory_refines (mem : Memory) (hwf : mem.toModel.WellFormed)
    (destIndex srcIndex size : U256) (hsize : 0 < size.toNat) :
    (copyWithinMemory mem destIndex srcIndex size).toOption.map Memory.toModel =
      mem.toModel.mcopy destIndex.toNat srcIndex.toNat size.toNat := by
  rw [copyWithinMemory, ByteArrayModel.mcopy]
  apply Except.toOption_map_bind (getMemoryRegion_toModel mem hwf _ _)
  rintro ⟨mem₁, region₁⟩ h₁
  obtain ⟨r₁, rfl, hoff₁, hsize₁, hcover₁⟩ := getMemoryRegion_ok_of_pos h₁ hsize
  have hgrow₁ := ByteArrayModel.touch_wellFormed hwf (touch_of_getMemoryRegion hwf h₁)
  simp only [expectRegion, Except.ok_bind]
  apply Except.toOption_map_bind (getMemoryRegion_toModel mem₁ hgrow₁.1 _ _)
  rintro ⟨mem₂, region₂⟩ h₂
  obtain ⟨r₂, rfl, hoff₂, -, hcover₂⟩ := getMemoryRegion_ok_of_pos h₂ hsize
  have hgrow₂ := ByteArrayModel.touch_wellFormed hgrow₁.1 (touch_of_getMemoryRegion hgrow₁.1 h₂)
  -- the second growth keeps the source covered
  have hsrc : srcIndex.toNat + size.toNat ≤ mem₂.len := by
    simp only [Memory.toModel_msize] at hgrow₂
    omega
  simp only [Except.ok_bind, hoff₁, hsize₁, hoff₂]
  rw [copyWithin_eq _ hsrc hcover₂, Except.ok_bind]
  have hfit : destIndex.toNat + ((mem₂.bytes.drop srcIndex.toNat).take size.toNat).length ≤
      mem₂.len := by
    simp only [Memory.len] at hsrc hcover₂ ⊢
    simp
    omega
  show some (Memory.toModel _) = _
  rw [Memory.toModel_replace mem₂ hfit, take_drop_eq_window _ hsrc]
  rfl

theorem usizeMin_eq (a : U256) {b : Nat} (hb : b ≤ usizeMax) : usizeMin a b = min a.toNat b := by
  unfold usizeMin asUsize
  split
  · next hlt =>
    have h64 : a.toNat < 2 ^ 64 := by
      unfold usizeMax at hb
      omega
    rw [Nat.mod_eq_of_lt h64, Nat.mod_eq_of_lt (by omega), min_eq_left hlt.le]
  · next hge =>
    rw [min_eq_right (by omega)]

/-- What `copy_to_memory` copies: the data from the offset on, clipped to the
region's size, with both cut to the data's length. -/
theorem take_drop_min (data : List UInt8) (dataOffset size : Nat) :
    (data.drop (min dataOffset data.length)).take (min size (data.length - min dataOffset data.length)) =
      (data.drop dataOffset).take size := by
  rcases le_total dataOffset data.length with h | h
  · have hclip := @List.take_eq_take_min _ (data.drop dataOffset) size
    rw [min_eq_left h, hclip, List.length_drop]
  · rw [min_eq_right h, List.drop_length, List.drop_eq_nil_of_le h]
    simp

/-- The copying step of `copy_to_memory`, which copies nothing when there is
nothing to copy, followed by the rest of the function. -/
theorem copyToMemory_copy_eq {β : Type} (bytes data : List UInt8) {o off cs : Nat}
    (K : List UInt8 → Except ActorError β) (hdata : off + cs ≤ data.length)
    (hbytes : o + cs ≤ bytes.length) :
    (if 0 < cs then do
        let src ← sliceGet data off (off + cs)
        let bytes ← sliceSet bytes o (o + cs) src
        K bytes
      else do
        let bytes ← pure bytes
        K bytes) =
      K (bytes.take o ++ (data.drop off).take cs ++ bytes.drop (o + ((data.drop off).take cs).length)) := by
  have hlen : ((data.drop off).take cs).length = cs := by simp; omega
  split
  · have hfit : o + ((data.drop off).take cs).length ≤ bytes.length := by
      rw [hlen]
      omega
    have hset := sliceSet_eq bytes _ hfit
    rw [hlen] at hset
    rw [sliceGet_eq _ hdata, Except.ok_bind, hset, Except.ok_bind, hlen]
  · next hcs =>
    have hzero : cs = 0 := by omega
    subst hzero
    simp

/-- The zero-filling step of `copy_to_memory`. -/
theorem copyToMemory_fill_eq {β : Type} (bytes : List UInt8) {o cs size : Nat} (zeroFill : Bool)
    (K : List UInt8 → Except ActorError β) (hbytes : o + size ≤ bytes.length) (hcs : cs ≤ size) :
    (if zeroFill ∧ cs < size then do
        let bytes ← sliceSet bytes (o + cs) (o + size) (List.replicate (size - cs) 0)
        K bytes
      else do
        let bytes ← pure bytes
        K bytes) =
      let zeros := if zeroFill then List.replicate (size - cs) 0 else []
      K (bytes.take (o + cs) ++ zeros ++ bytes.drop (o + cs + zeros.length)) := by
  split
  · next hfill =>
    have hsplit : o + size = o + cs + (List.replicate (size - cs) (0 : UInt8)).length := by
      simp
      omega
    rw [hsplit, sliceSet_eq _ _ (by simp; omega), Except.ok_bind, if_pos hfill.1]
  · next hnofill =>
    -- no zeros: either none are asked for, or the copy filled the region
    have hzeros : (if zeroFill then List.replicate (size - cs) (0 : UInt8) else []) = [] := by
      split
      · next hz =>
        have : size - cs = 0 := by
          by_contra hne
          exact hnofill ⟨hz, by omega⟩
        rw [this, List.replicate_zero]
      · rfl
    simp only [hzeros, List.append_nil, List.length_nil, Nat.add_zero, List.take_append_drop]
    rfl

/-- `copy_to_memory` grows memory over the region and writes what the model
writes: the data from its offset, then zeros when asked. -/
theorem copyToMemory_refines (mem : Memory) (hwf : mem.toModel.WellFormed)
    (destOffset destSize dataOffset : U256) (data : List UInt8) (zeroFill : Bool)
    (hdata : data.length ≤ usizeMax) :
    (copyToMemory mem destOffset destSize dataOffset data zeroFill).toOption.map Memory.toModel =
      mem.toModel.copyToMemory destOffset.toNat destSize.toNat dataOffset.toNat data zeroFill := by
  rw [copyToMemory, ByteArrayModel.copyToMemory]
  apply Except.toOption_map_bind (getMemoryRegion_toModel mem hwf _ _)
  rintro ⟨mem', region⟩ h
  rcases getMemoryRegion_ok h with ⟨hzero, rfl, rfl⟩ | ⟨r, rfl, hoff, hsize, hcover⟩
  · -- an empty region: nothing is copied
    simp [hzero]
    exact ⟨mem', rfl, rfl⟩
  · have hoffLe : min dataOffset.toNat data.length ≤ data.length := min_le_right _ _
    simp only [usizeMin_eq _ hdata, usizeMin_eq _ (le_trans (Nat.sub_le _ _) hdata), hoff, hsize]
    have hcopied := take_drop_min data dataOffset.toNat destSize.toNat
    obtain ⟨cs, hcs⟩ : ∃ cs, cs = min destSize.toNat (data.length - min dataOffset.toNat data.length) :=
      ⟨_, rfl⟩
    rw [← hcs] at hcopied ⊢
    have hcsLe : cs ≤ destSize.toNat := by omega
    unfold Memory.len at hcover
    rw [copyToMemory_copy_eq _ _ _ (by omega) (by omega),
      copyToMemory_fill_eq _ zeroFill _ (by simp; omega) hcsLe]
    have hzeros : (if zeroFill = true then List.replicate (destSize.toNat - cs) (0 : UInt8) else []).length ≤
        destSize.toNat - cs := by
      split <;> simp
    -- the model's write is the copy and then the zeros
    dsimp only
    have hlen : (List.take cs (List.drop (min dataOffset.toNat data.length) data)).length = cs := by
      simp
      omega
    rw [← hcopied, hlen]
    generalize List.take cs (List.drop (min dataOffset.toNat data.length) data) = copied at hlen ⊢
    generalize (if zeroFill = true then List.replicate (destSize.toNat - cs) (0 : UInt8) else []) =
      zeros at hzeros ⊢
    subst hlen
    exact congrArg some (Memory.toModel_replace_append mem' (by unfold Memory.len; omega))

/-- The return data of an exit is the region's window of the model. -/
theorem exitReturnData_refines (mem : Memory) (hwf : mem.toModel.WellFormed) (offset size : U256) :
    (exitReturnData mem offset size).toOption.map (fun p => (p.1.toModel, p.2)) =
      mem.toModel.exit offset.toNat size.toNat := by
  rw [exitReturnData, ByteArrayModel.exit]
  apply Except.toOption_map_bind (getMemoryRegion_toModel mem hwf _ _)
  rintro ⟨mem', region⟩ h
  rcases getMemoryRegion_ok h with ⟨hzero, rfl, rfl⟩ | ⟨r, rfl, hoff, hsize, hcover⟩
  · simp [hzero, window]
    exact ⟨mem', rfl, rfl⟩
  · simp only [hoff, hsize]
    rw [sliceGet_eq _ hcover, Except.ok_bind, take_drop_eq_window _ hcover]
    rfl

section Instructions

variable (st : ExecutionState) (hwf : st.memory.toModel.WellFormed)
include hwf

theorem mload_refines (index : U256) :
    (mload st index).toOption.map (fun p => (p.1.memory.toModel, p.2)) =
      st.memory.toModel.mload index.toNat := by
  rw [mload, ByteArrayModel.mload]
  apply Except.toOption_map_bind (getMemoryRegion_toModel st.memory hwf _ _)
  rintro ⟨mem', region⟩ h
  obtain ⟨r, rfl, hoff, hsize, hcover⟩ := getMemoryRegion_ok_of_pos h (by decide)
  simp only [expectRegion, Except.ok_bind, hoff, hsize]
  rw [sliceGet_eq _ hcover, Except.ok_bind, take_drop_eq_window _ hcover]
  rfl

theorem mstore_refines (index value : U256) :
    (mstore st index value).toOption.map (·.memory.toModel) =
      st.memory.toModel.mstore index.toNat value := by
  rw [mstore, ByteArrayModel.mstore]
  apply Except.toOption_map_bind (getMemoryRegion_toModel st.memory hwf _ _)
  rintro ⟨mem', region⟩ h
  obtain ⟨r, rfl, hoff, -, hcover⟩ := getMemoryRegion_ok_of_pos h (by decide)
  have hfit : index.toNat + value.toBigEndian.length ≤ mem'.len := by
    rw [U256.length_toBigEndian]
    exact hcover
  have hword : evmWordSize = value.toBigEndian.length := by simp [evmWordSize]
  simp only [expectRegion, Except.ok_bind, hoff]
  rw [hword, sliceSet_eq _ _ hfit, Except.ok_bind]
  exact congrArg some (Memory.toModel_replace mem' hfit)

theorem mstore8_refines (index value : U256) :
    (mstore8 st index value).toOption.map (·.memory.toModel) =
      st.memory.toModel.mstore8 index.toNat (UInt8.ofNat value.toNat) := by
  rw [mstore8, ByteArrayModel.mstore8]
  apply Except.toOption_map_bind (getMemoryRegion_toModel st.memory hwf _ _)
  rintro ⟨mem', region⟩ h
  obtain ⟨r, rfl, hoff, -, hcover⟩ := getMemoryRegion_ok_of_pos h (by decide)
  have hin : index.toNat < mem'.bytes.length := by
    unfold Memory.len at hcover
    omega
  simp only [expectRegion, Except.ok_bind, hoff]
  rw [indexSet, if_pos hin, Except.ok_bind, ofNat_and_0xff]
  exact congrArg some (Memory.toModel_set mem' _ hin)

theorem msize_refines :
    (msize st).toOption = some (BitVec.ofNat 256 st.memory.toModel.msize) := by
  have hle := hwf.msize_le
  rw [msize, if_pos (by unfold usizeMax at hle; simp only [Memory.toModel_msize] at hle; omega)]
  rfl

theorem mcopy_refines (destIndex srcIndex size : U256) :
    (mcopy st destIndex srcIndex size).toOption.map (·.memory.toModel) =
      st.memory.toModel.mcopy destIndex.toNat srcIndex.toNat size.toNat := by
  rw [mcopy]
  split
  · next hsize =>
    rw [Except.toOption_map_bind_pure]
    exact copyWithinMemory_refines st.memory hwf _ _ _ hsize
  · next hsize =>
    have hzero : size.toNat = 0 := by omega
    simp [ByteArrayModel.mcopy, hzero, window]
    exact ⟨st, rfl, rfl⟩

theorem returndatacopy_refines (memIndex inputIndex size : U256) :
    (returndatacopy st memIndex inputIndex size).toOption.map (·.memory.toModel) =
      st.memory.toModel.returndatacopy st.returnData memIndex.toNat inputIndex.toNat size.toNat := by
  rw [returndatacopy, ByteArrayModel.returndatacopy]
  apply Except.toOption_map_bind (getMemoryRegion_toModel st.memory hwf _ _)
  rintro ⟨mem', region⟩ h
  have hrd := st.returnData_length_le
  have hregion := getMemoryRegion_ok h
  have hsz : (region.map MemoryRegion.size).getD 0 = size.toNat := by
    rcases hregion with ⟨hzero, rfl, -⟩ | ⟨r, rfl, -, hsize, -⟩
    · exact hzero.symm
    · exact hsize
  dsimp only
  -- each check on the return data fails exactly when the data is too short
  by_cases hidx : usizeMax < inputIndex.toNat
  · rw [if_pos hidx, Except.throw_bind, if_pos (by omega)]
    rfl
  rw [if_neg hidx]
  by_cases hstart : st.returnData.length < inputIndex.toNat
  · rw [if_pos hstart, Except.throw_bind, if_pos (by omega)]
    rfl
  rw [if_neg hstart, hsz]
  by_cases hend : inputIndex.toNat + size.toNat ≤ usizeMax
  · simp only [checkedAdd, if_pos hend]
    by_cases hlong : st.returnData.length < inputIndex.toNat + size.toNat
    · rw [if_pos hlong, Except.throw_bind, if_pos hlong]
      rfl
    rw [if_neg hlong, if_neg hlong]
    rcases hregion with ⟨hzero, rfl, rfl⟩ | ⟨r, rfl, hoff, hsize, hcover⟩
    · simp [hzero]
      exact ⟨_, rfl, rfl⟩
    · -- the copied bytes are a block of the region's size
      simp only [hoff, hsize]
      have hdata : ((st.returnData.drop inputIndex.toNat).take size.toNat).length = size.toNat := by
        simp
        omega
      have hfit : memIndex.toNat + ((st.returnData.drop inputIndex.toNat).take size.toNat).length ≤
          mem'.len := by
        rw [hdata]
        exact hcover
      have hset := sliceSet_eq mem'.bytes _ hfit
      rw [hdata] at hset
      rw [sliceGet_eq _ (by omega), Except.ok_bind, hset, Except.ok_bind]
      show some (Memory.toModel _) = _
      rw [← Memory.toModel_replace mem' hfit, hdata]
  · simp only [checkedAdd, if_neg hend]
    rw [if_pos (by omega)]
    rfl

end Instructions

/-! ## Every instruction refines the model -/

/-- Each instruction's meaning on the model; a copy of return data reads the
state's return data. -/
def MemoryOp.spec (m : ByteArrayModel) (returnData : List UInt8) :
    MemoryOp → Option (ByteArrayModel × MemoryOut)
  | .mload index => (m.mload index.toNat).bind fun (m, value) => some (m, .word value)
  | .mstore index value => (m.mstore index.toNat value).bind fun m => some (m, .none)
  | .mstore8 index value =>
    (m.mstore8 index.toNat (UInt8.ofNat value.toNat)).bind fun m => some (m, .none)
  | .msize => some (m, .word (BitVec.ofNat 256 m.msize))
  | .mcopy destIndex srcIndex size =>
    (m.mcopy destIndex.toNat srcIndex.toNat size.toNat).bind fun m => some (m, .none)
  | .copyToMemory destOffset destSize dataOffset data zeroFill _ =>
    (m.copyToMemory destOffset.toNat destSize.toNat dataOffset.toNat data zeroFill).bind
      fun m => some (m, .none)
  | .returndatacopy memIndex inputIndex size =>
    (m.returndatacopy returnData memIndex.toNat inputIndex.toNat size.toNat).bind
      fun m => some (m, .none)
  | .exit offset size => (m.exit offset.toNat size.toNat).bind fun (m, data) => some (m, .bytes data)

/-- On a memory of whole words, every instruction succeeds exactly when its
meaning on the model is defined, and then leaves the memory and gives back
what the model does. -/
theorem MemoryOp.exec_refines (st : ExecutionState) (hwf : st.memory.toModel.WellFormed)
    (op : MemoryOp) :
    (op.exec st).toOption.map (fun p => (p.1.memory.toModel, p.2)) =
      op.spec st.memory.toModel st.returnData := by
  cases op with
  | mload index =>
    apply Except.toOption_map_bind (mload_refines st hwf index)
    rintro ⟨st', value⟩ -
    rfl
  | mstore index value =>
    apply Except.toOption_map_bind (mstore_refines st hwf index value)
    intro st' _
    rfl
  | mstore8 index value =>
    apply Except.toOption_map_bind (mstore8_refines st hwf index value)
    intro st' _
    rfl
  | msize =>
    have hsize := msize_refines st hwf
    cases hm : Evm.msize st with
    | error e =>
      rw [hm] at hsize
      cases hsize
    | ok value =>
      rw [hm] at hsize
      cases hsize
      show Option.map _ (Evm.msize st >>= fun value => pure (st, MemoryOut.word value)).toOption = _
      rw [hm]
      rfl
  | mcopy destIndex srcIndex size =>
    apply Except.toOption_map_bind (mcopy_refines st hwf destIndex srcIndex size)
    intro st' _
    rfl
  | copyToMemory destOffset destSize dataOffset data zeroFill hdata =>
    apply Except.toOption_map_bind
      (copyToMemory_refines st.memory hwf destOffset destSize dataOffset data zeroFill hdata)
    intro mem' _
    rfl
  | returndatacopy memIndex inputIndex size =>
    apply Except.toOption_map_bind (returndatacopy_refines st hwf memIndex inputIndex size)
    intro st' _
    rfl
  | exit offset size =>
    apply Except.toOption_map_bind (exitReturnData_refines st.memory hwf offset size)
    rintro ⟨mem', data⟩ -
    rfl

/-! ## Whole words over every run -/

/-- On the model, every instruction keeps whole words within `usize` and never
shrinks memory. -/
theorem MemoryOp.spec_wellFormed {m m' : ByteArrayModel} {returnData : List UInt8} {op : MemoryOp}
    {out : MemoryOut} (hwf : m.WellFormed) (h : op.spec m returnData = some (m', out)) :
    m'.WellFormed ∧ m.msize ≤ m'.msize := by
  cases op with
  | mload index =>
    simp only [MemoryOp.spec, ByteArrayModel.mload, Option.bind_eq_some_iff, Option.some.injEq] at h
    obtain ⟨⟨m₂, value⟩, ⟨m₁, h₁, hres⟩, hout⟩ := h
    cases hres
    cases hout
    exact ByteArrayModel.touch_wellFormed hwf h₁
  | mstore index value =>
    simp only [MemoryOp.spec, ByteArrayModel.mstore, Option.bind_eq_some_iff, Option.some.injEq] at h
    obtain ⟨m₂, ⟨m₁, h₁, rfl⟩, hout⟩ := h
    cases hout
    have htouch := ByteArrayModel.touch_wellFormed hwf h₁
    exact ⟨htouch.1.write _ _, htouch.2⟩
  | mstore8 index value =>
    simp only [MemoryOp.spec, ByteArrayModel.mstore8, Option.bind_eq_some_iff, Option.some.injEq] at h
    obtain ⟨m₂, ⟨m₁, h₁, rfl⟩, hout⟩ := h
    cases hout
    have htouch := ByteArrayModel.touch_wellFormed hwf h₁
    exact ⟨htouch.1.write _ _, htouch.2⟩
  | msize =>
    simp only [MemoryOp.spec, Option.some.injEq, Prod.mk.injEq] at h
    obtain ⟨rfl, -⟩ := h
    exact ⟨hwf, le_rfl⟩
  | mcopy destIndex srcIndex size =>
    simp only [MemoryOp.spec, ByteArrayModel.mcopy, Option.bind_eq_some_iff, Option.some.injEq] at h
    obtain ⟨m₃, ⟨m₁, h₁, m₂, h₂, rfl⟩, hout⟩ := h
    cases hout
    have htouch₁ := ByteArrayModel.touch_wellFormed hwf h₁
    have htouch₂ := ByteArrayModel.touch_wellFormed htouch₁.1 h₂
    exact ⟨htouch₂.1.write _ _, le_trans htouch₁.2 htouch₂.2⟩
  | copyToMemory destOffset destSize dataOffset data zeroFill hdata =>
    simp only [MemoryOp.spec, ByteArrayModel.copyToMemory, Option.bind_eq_some_iff,
      Option.some.injEq] at h
    obtain ⟨m₂, ⟨m₁, h₁, rfl⟩, hout⟩ := h
    cases hout
    have htouch := ByteArrayModel.touch_wellFormed hwf h₁
    exact ⟨htouch.1.write _ _, htouch.2⟩
  | returndatacopy memIndex inputIndex size =>
    simp only [MemoryOp.spec, ByteArrayModel.returndatacopy, Option.bind_eq_some_iff,
      Option.some.injEq] at h
    obtain ⟨m₂, ⟨m₁, h₁, hcopy⟩, hout⟩ := h
    cases hout
    split at hcopy
    · cases hcopy
    · cases hcopy
      have htouch := ByteArrayModel.touch_wellFormed hwf h₁
      exact ⟨htouch.1.write _ _, htouch.2⟩
  | exit offset size =>
    simp only [MemoryOp.spec, ByteArrayModel.exit, Option.bind_eq_some_iff, Option.some.injEq] at h
    obtain ⟨⟨m₂, data⟩, ⟨m₁, h₁, hres⟩, hout⟩ := h
    cases hres
    cases hout
    exact ByteArrayModel.touch_wellFormed hwf h₁

/-- A successful instruction keeps memory whole words and never shrinks it. -/
theorem MemoryOp.exec_wellFormed {st st' : ExecutionState} {op : MemoryOp} {out : MemoryOut}
    (hwf : st.memory.toModel.WellFormed) (h : op.exec st = .ok (st', out)) :
    st'.memory.toModel.WellFormed ∧ st.memory.len ≤ st'.memory.len := by
  have href := MemoryOp.exec_refines st hwf op
  rw [h] at href
  exact MemoryOp.spec_wellFormed hwf href.symm

/-- `ExecutionState::new`: execution starts with empty memory. -/
def ExecutionState.Fresh (st : ExecutionState) : Prop := st.memory = default

/-- Every memory the interpreter builds from an empty one is whole words. -/
theorem reachable_wellFormed {st : ExecutionState}
    (h : Run.Reachable MemoryOp.exec ExecutionState.Fresh st) : st.memory.toModel.WellFormed := by
  have hinit : ∀ s : ExecutionState, s.Fresh → s.memory.toModel.WellFormed := by
    intro s hs
    rw [hs]
    exact ⟨rfl, by decide⟩
  exact @Run.Reachable.rec_inv _ _ _ _ _ _ (fun s => s.memory.toModel.WellFormed) hinit
    (fun _ _ _ _ hwf hstep => (MemoryOp.exec_wellFormed hwf hstep).1) st h

/-! ## The memory instructions against the model -/

theorem mload_after_mstore {st st' : ExecutionState} {index value : U256}
    (h : mstore st index value = .ok st') : mload st' index = .ok (st', value) := by
  obtain ⟨⟨mem', region⟩, hregion, hrest⟩ := Except.bind_eq_ok.mp h
  obtain ⟨r, rfl, hoff, -, hcover⟩ := getMemoryRegion_ok_of_pos hregion (by decide)
  have hsum := getMemoryRegion_some_le hregion
  have hfit : index.toNat + value.toBigEndian.length ≤ mem'.bytes.length := by
    rw [U256.length_toBigEndian]
    exact hcover
  simp only [expectRegion, Except.ok_bind, hoff] at hrest
  rw [show evmWordSize = value.toBigEndian.length by simp [evmWordSize], sliceSet_eq _ _ hfit,
    Except.ok_bind] at hrest
  cases hrest
  -- the stored word is where MLOAD reads, and memory already covers it
  have htake : (mem'.bytes.take index.toNat).length = index.toNat := by simp; omega
  have hlen : (⟨mem'.bytes.take index.toNat ++ value.toBigEndian ++
      mem'.bytes.drop (index.toNat + value.toBigEndian.length)⟩ : Memory).len = mem'.len := by
    simp only [Memory.len, List.length_append, List.length_take, List.length_drop]
    omega
  rw [mload, getMemoryRegion_of_covered _ (by decide) hsum (by rw [hlen]; exact hcover)]
  simp only [expectRegion, Except.ok_bind]
  rw [sliceGet_eq _ (by rw [← Memory.len, hlen]; exact hcover), Except.ok_bind, List.append_assoc,
    List.drop_left' htake, List.take_left' (by simp [evmWordSize] : value.toBigEndian.length = evmWordSize),
    U256.fromBigEndian_toBigEndian]
  rfl

theorem mload_after_mstore_fresh :
    mstore ⟨default, [], by decide⟩ 0 7 = .ok ⟨⟨U256.toBigEndian 7⟩, [], by decide⟩ ∧
      mload ⟨⟨U256.toBigEndian 7⟩, [], by decide⟩ 0 =
        .ok (⟨⟨U256.toBigEndian 7⟩, [], by decide⟩, 7) := by
  have hstore : mstore ⟨default, [], by decide⟩ 0 7 = .ok ⟨⟨U256.toBigEndian 7⟩, [], by decide⟩ := by
    rfl
  exact ⟨hstore, mload_after_mstore hstore⟩

end BuiltinActors.Evm
