import Mathlib.Data.List.GetD
import Mathlib.Data.Int.Basic
import Mathlib.Tactic.Linarith

namespace ByteMemory

/-!
# Byte-addressed memory

A memory is a total map from byte offsets to bytes.  `write` stores a list of
bytes at an offset and `read` loads a given number of bytes; the lemmas say
that a load after a store returns what was stored, and that a load only sees
the bytes in its own range.  Integers are stored little-endian: `le16` and
`le32` give the bytes, `ofLe` reads them back, and `readInt32`/`writeInt32`
load and store a 32-bit two's complement `int`.
-/

/-- Load `count` bytes starting at `offset`. -/
def read (memory : Int → UInt8) (offset : Int) (count : Nat) : List UInt8 :=
  (List.range count).map fun (index : Nat) => memory (offset + index)

/-- Store `bytes` starting at `offset`. -/
def write (memory : Int → UInt8) (offset : Int) (bytes : List UInt8) : Int → UInt8 :=
  fun address =>
    if offset ≤ address ∧ address < offset + bytes.length then
      bytes.getD (address - offset).toNat 0
    else
      memory address

@[simp] theorem length_read (memory : Int → UInt8) (offset : Int) (count : Nat) :
    (read memory offset count).length = count := by
  simp [read]

/-- A store leaves every byte outside its range alone. -/
theorem write_of_not_mem
    (memory : Int → UInt8)
    {offset address : Int}
    {bytes : List UInt8}
    (outside : address < offset ∨ offset + bytes.length ≤ address) :
    write memory offset bytes address = memory address := by
  unfold write
  rw [if_neg]
  omega

/-- A load of two adjacent ranges is the two loads one after the other. -/
theorem read_add (memory : Int → UInt8) (offset : Int) (first second : Nat) :
    read memory offset (first + second) =
      read memory offset first ++ read memory (offset + first) second := by
  simp only [read, List.range_add, List.map_append, List.map_map]
  congr 1
  apply List.map_congr_left
  intro index _
  simp only [Function.comp_apply]
  congr 1
  omega

/-- The front of a load is a shorter load, and the back a load further on. -/
theorem read_take_drop
    (memory : Int → UInt8)
    (offset : Int)
    {count first : Nat}
    (le : first ≤ count) :
    (read memory offset count).take first = read memory offset first ∧
      (read memory offset count).drop first = read memory (offset + first) (count - first) := by
  have whole := read_add memory offset first (count - first)
  rw [Nat.add_sub_cancel' le] at whole
  rw [whole]
  constructor
  · exact List.take_left' (length_read memory offset first)
  · exact List.drop_left' (length_read memory offset first)

/-- Where a load returned `bytes`, a load further in returns a piece of them. -/
theorem read_drop_take
    {memory : Int → UInt8}
    {offset : Int}
    {bytes : List UInt8}
    (stored : read memory offset bytes.length = bytes)
    {skip count : Nat}
    (inside : skip + count ≤ bytes.length) :
    read memory (offset + skip) count = (bytes.drop skip).take count := by
  have rest := (read_take_drop memory offset (show skip ≤ bytes.length by omega)).2
  rw [stored] at rest
  rw [rest, (read_take_drop memory (offset + skip) (show count ≤ bytes.length - skip by omega)).1]

/-- A load sees only the bytes in its own range. -/
theorem read_congr
    {memory other : Int → UInt8}
    {offset : Int}
    {count : Nat}
    (agree : ∀ address, offset ≤ address → address < offset + count →
      other address = memory address) :
    read other offset count = read memory offset count := by
  unfold read
  refine List.map_congr_left fun index member => ?_
  have bound := List.mem_range.mp member
  exact agree _ (by omega) (by omega)

/-- A load of a range disjoint from a store sees the old bytes. -/
theorem read_write_of_disjoint
    (memory : Int → UInt8)
    {offset loadOffset : Int}
    {bytes : List UInt8}
    {count : Nat}
    (disjoint : loadOffset + count ≤ offset ∨ offset + bytes.length ≤ loadOffset) :
    read (write memory offset bytes) loadOffset count = read memory loadOffset count :=
  read_congr fun _ low high => write_of_not_mem memory (by omega)

/-- A load of exactly the stored range returns the stored bytes. -/
@[simp] theorem read_write_self
    (memory : Int → UInt8)
    (offset : Int)
    (bytes : List UInt8) :
    read (write memory offset bytes) offset bytes.length = bytes := by
  apply List.ext_getElem
  · simp
  · intro index readBound _
    simp only [read, List.getElem_map, List.getElem_range, write]
    rw [if_pos (by simp at readBound; omega)]
    simp [List.getElem?_eq_getElem (by simpa using readBound)]

/-- Storing the bytes that are already there changes nothing. -/
theorem write_read_self (memory : Int → UInt8) (offset : Int) (count : Nat) :
    write memory offset (read memory offset count) = memory := by
  funext address
  unfold write
  split_ifs with inRange
  · rw [length_read] at inRange
    have index : (address - offset).toNat < count := by omega
    simp [read, List.getD_eq_getElem?_getD, index]
    congr 1
    omega
  · rfl

/-- The little-endian bytes of the low 16 bits of `value`. -/
def le16 (value : Nat) : List UInt8 :=
  [UInt8.ofNat (value % 256), UInt8.ofNat (value / 256 % 256)]

/-- The little-endian bytes of the low 32 bits of `value`. -/
def le32 (value : Nat) : List UInt8 :=
  [UInt8.ofNat (value % 256), UInt8.ofNat (value / 256 % 256),
    UInt8.ofNat (value / 65536 % 256), UInt8.ofNat (value / 16777216 % 256)]

/-- Read little-endian bytes as a natural number. -/
def ofLe : List UInt8 → Nat
  | [] =>
      0
  | byte :: rest =>
      byte.toNat + 256 * ofLe rest

@[simp] theorem length_le16 (value : Nat) : (le16 value).length = 2 := rfl

@[simp] theorem length_le32 (value : Nat) : (le32 value).length = 4 := rfl

/-- Reading back the bytes of a 16-bit value. -/
theorem ofLe_le16 {value : Nat} (small : value < 65536) : ofLe (le16 value) = value := by
  simp only [le16, ofLe, UInt8.toNat_ofNat']
  omega

/-- Reading back the bytes of a 32-bit value. -/
theorem ofLe_le32 {value : Nat} (small : value < 4294967296) : ofLe (le32 value) = value := by
  simp only [le32, ofLe, UInt8.toNat_ofNat']
  omega

/-- A little-endian value of `count` bytes is below `256 ^ count`. -/
theorem ofLe_lt (bytes : List UInt8) : ofLe bytes < 256 ^ bytes.length := by
  induction bytes with
  | nil =>
      simp [ofLe]
  | cons byte rest inductionHypothesis =>
      have byteBound := byte.toNat_lt
      simp only [ofLe, List.length_cons, pow_succ]
      have : (2 : Nat) ^ 8 = 256 := rfl
      nlinarith

/-- Little-endian bytes of one length are determined by the value they stand for. -/
theorem ofLe_inj {first second : List UInt8} (sameLength : first.length = second.length)
    (sameValue : ofLe first = ofLe second) : first = second := by
  induction first generalizing second with
  | nil =>
      rw [List.length_nil, eq_comm, List.length_eq_zero_iff] at sameLength
      rw [sameLength]
  | cons byte rest inductionHypothesis =>
      obtain ⟨other, others, rfl⟩ := List.exists_cons_of_length_eq_add_one sameLength.symm
      have byteBound := byte.toNat_lt
      have otherBound := other.toNat_lt
      simp only [ofLe] at sameValue
      have sameByte : byte.toNat = other.toNat := by omega
      have sameRest : ofLe rest = ofLe others := by omega
      rw [UInt8.toNat_inj.mp sameByte,
        inductionHypothesis (Nat.succ.inj sameLength) sameRest]

/-- C's `memcmp` over two byte strings: the first differing byte, as unsigned, decides. -/
def memcmp : List UInt8 → List UInt8 → Ordering
  | first :: firstRest, second :: secondRest =>
      (compare first.toNat second.toNat).then (memcmp firstRest secondRest)
  | _, _ =>
      .eq

/-- Byte strings of one length compare equal exactly when they are equal. -/
theorem memcmp_eq_eq_iff {first second : List UInt8} (sameLength : first.length = second.length) :
    memcmp first second = .eq ↔ first = second := by
  induction first generalizing second with
  | nil =>
      rw [List.length_nil, eq_comm, List.length_eq_zero_iff] at sameLength
      simp [sameLength, memcmp]
  | cons byte rest inductionHypothesis =>
      obtain ⟨other, others, rfl⟩ := List.exists_cons_of_length_eq_add_one sameLength.symm
      rw [memcmp, Ordering.then_eq_eq, compare_eq_iff_eq,
        inductionHypothesis (Nat.succ.inj sameLength), UInt8.toNat_inj, List.cons.injEq]

/-- Lists compare part by part when their first parts have one length. -/
theorem compare_append {α : Type} [Ord α] {first second rest rest' : List α}
    (sameLength : first.length = second.length) :
    compare (first ++ rest) (second ++ rest') = (compare first second).then (compare rest rest') := by
  induction first generalizing second with
  | nil =>
      rw [List.length_nil, eq_comm, List.length_eq_zero_iff] at sameLength
      subst sameLength
      rfl
  | cons x xs inductionHypothesis =>
      obtain ⟨y, ys, rfl⟩ := List.exists_cons_of_length_eq_add_one sameLength.symm
      rw [List.cons_append, List.cons_append, List.compare_cons_cons, List.compare_cons_cons,
        inductionHypothesis (Nat.succ.inj sameLength), Ordering.then_assoc]

/-- Byte strings of one length compare as the lists of their values do. -/
theorem memcmp_eq_compare {first second : List UInt8} (sameLength : first.length = second.length) :
    memcmp first second = compare (first.map UInt8.toNat) (second.map UInt8.toNat) := by
  induction first generalizing second with
  | nil =>
      rw [List.length_nil, eq_comm, List.length_eq_zero_iff] at sameLength
      subst sameLength
      rfl
  | cons byte rest inductionHypothesis =>
      obtain ⟨other, others, rfl⟩ := List.exists_cons_of_length_eq_add_one sameLength.symm
      rw [memcmp, List.map_cons, List.map_cons, List.compare_cons_cons,
        inductionHypothesis (Nat.succ.inj sameLength)]

/-- The `int` that a 32-bit two's complement pattern stands for; also the
value a wider integer takes when it is stored in an `int`. -/
def toInt32 (value : Int) : Int :=
  value.bmod 4294967296

theorem toInt32_of_small
    {value : Int}
    (low : -2147483648 ≤ value)
    (high : value < 2147483648) :
    toInt32 value = value := by
  simp only [toInt32, Int.bmod]
  split <;> omega

/-- A value past the largest `int` comes back smaller. -/
theorem toInt32_lt_of_large {value : Int} (high : 2147483648 ≤ value) : toInt32 value < value := by
  simp only [toInt32, Int.bmod]
  split <;> omega

/-- Only the low 32 bits count. -/
theorem toInt32_emod (value : Int) : toInt32 (value % 4294967296) = toInt32 value := by
  simp only [toInt32, Int.bmod]
  split <;> split <;> omega

/-- Store a 32-bit `int` little-endian. -/
def writeInt32 (memory : Int → UInt8) (offset : Int) (value : Int) : Int → UInt8 :=
  write memory offset (le32 (value % 4294967296).toNat)

/-- Load a 32-bit `int` stored little-endian. -/
def readInt32 (memory : Int → UInt8) (offset : Int) : Int :=
  toInt32 (ofLe (read memory offset 4))

/-- Loading a stored `int` gives it back. -/
theorem readInt32_writeInt32
    (memory : Int → UInt8)
    (offset : Int)
    {value : Int}
    (low : -2147483648 ≤ value)
    (high : value < 2147483648) :
    readInt32 (writeInt32 memory offset value) offset = value := by
  have stored := read_write_self memory offset (le32 (value % 4294967296).toNat)
  rw [length_le32] at stored
  have pattern : ofLe (le32 (value % 4294967296).toNat) = (value % 4294967296).toNat :=
    ofLe_le32 (by omega)
  simp only [readInt32, writeInt32, stored, pattern]
  rw [Int.toNat_of_nonneg (by omega), toInt32_emod]
  exact toInt32_of_small low high

/-- A load of an `int` sees only its own four bytes. -/
theorem readInt32_congr
    {memory other : Int → UInt8}
    {offset : Int}
    (agree : ∀ address, offset ≤ address → address < offset + 4 →
      other address = memory address) :
    readInt32 other offset = readInt32 memory offset := by
  unfold readInt32
  rw [read_congr agree]

/-- A store of an `int` leaves every other byte alone. -/
theorem writeInt32_of_not_mem
    (memory : Int → UInt8)
    {offset address : Int}
    (value : Int)
    (outside : address < offset ∨ offset + 4 ≤ address) :
    writeInt32 memory offset value address = memory address :=
  write_of_not_mem memory (by simpa using outside)

end ByteMemory
