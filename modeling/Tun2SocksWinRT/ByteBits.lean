import Mathlib
import Tun2SocksWinRT.ByteMemory

namespace ByteBits

/-!
# Byte strings as bit strings

Network addresses and their masks are byte strings read in network order:
byte after byte, each from its most significant bit (`bits`).  A prefix mask
of width `w` has its first `p` bits set (`prefixMask`), and `&&&` of two byte
strings is `&&` of their bits, so comparing two strings under a prefix mask
compares exactly their first `p` bits (`zipWith_and_prefixMask_eq_iff`).

Two loops of C code build and recognise such masks one bit at a time:
`orLoop` sets the top `k` of `w` bits, and `prefixSearch` runs the same
updates until it meets a given value.  The first sets exactly the bits
`w - k` to `w - 1` (`testBit_orLoop`); the second stops at `k` exactly for
the value `orLoop w k` (`prefixSearch_eq_some`).
-/

/-- The low `w` bits of `t`, most significant first. -/
def numBits : Nat → Nat → List Bool
  | 0, _ => []
  | w + 1, t => t.testBit w :: numBits w t

/-- The bits of a byte, most significant first. -/
def byteBits (b : UInt8) : List Bool :=
  numBits 8 b.toNat

/-- The bits of a byte string in network order. -/
def bits (bytes : List UInt8) : List Bool :=
  bytes.flatMap byteBits

/-- A mask of `w` bits whose first `p` are set. -/
def prefixMask (w p : Nat) : List Bool :=
  List.replicate p true ++ List.replicate (w - p) false

/-- `t = 0; for (i = 0; i < k; i++) t |= 1 << (w - i - 1);`: the top `k` of `w` bits. -/
def orLoop (w k : Nat) : Nat :=
  (List.range k).foldl (fun t i => t ||| 1 <<< (w - i - 1)) 0

/--
`for (i = 0; i <= w; i++) { if (value == t) break; if (i < w) t |= 1 << (w - i - 1); }`
from pass `i`, with `left` passes to go: the pass it stops at, nothing when
the loop runs out.
-/
def prefixSearchLoop (w value : Nat) : (left t i : Nat) → Option Nat
  | 0, _, _ => none
  | left + 1, t, i =>
      if value = t then some i
      else prefixSearchLoop w value left (if i < w then t ||| 1 <<< (w - i - 1) else t) (i + 1)

/-- The search from `t = 0` and `i = 0`, with its `w + 1` passes. -/
def prefixSearch (w value : Nat) : Option Nat :=
  prefixSearchLoop w value (w + 1) 0 0

section NumBits

@[simp] theorem length_numBits (w t : Nat) : (numBits w t).length = w := by
  induction w with
  | zero => rfl
  | succ w inductionHypothesis => simp [numBits, inductionHypothesis]

/-- The bits of a number of `a + w` bits: those above bit `w`, then the low `w`. -/
theorem numBits_add (a w t : Nat) : numBits (a + w) t = numBits a (t / 2 ^ w) ++ numBits w t := by
  induction a with
  | zero => simp [numBits]
  | succ a inductionHypothesis =>
      rw [Nat.add_right_comm, numBits, inductionHypothesis, numBits, Nat.testBit_div_two_pow, List.cons_append]

theorem numBits_eq_iff {w t u : Nat} : numBits w t = numBits w u ↔ ∀ j < w, t.testBit j = u.testBit j := by
  induction w with
  | zero => simp [numBits]
  | succ w inductionHypothesis =>
      simp only [numBits, List.cons.injEq, inductionHypothesis]
      constructor
      · rintro ⟨top, low⟩ j below
        rcases Nat.lt_succ_iff_lt_or_eq.mp below with lower | rfl
        · exact low j lower
        · exact top
      · intro same
        exact ⟨same w (Nat.lt_succ_self w), fun j lower => same j (Nat.lt_succ_of_lt lower)⟩

theorem numBits_mod (w t : Nat) : numBits w (t % 2 ^ w) = numBits w t :=
  numBits_eq_iff.mpr fun j below => by simp [Nat.testBit_mod_two_pow, below]

theorem numBits_land (w t u : Nat) : numBits w (t &&& u) = List.zipWith (· && ·) (numBits w t) (numBits w u) := by
  induction w with
  | zero => rfl
  | succ w inductionHypothesis => simp [numBits, inductionHypothesis]

/-- A number whose bits below `w` are set from bit `w - k` up has the prefix mask of `k` as its bits. -/
theorem numBits_eq_prefixMask {w k t : Nat} (fits : k ≤ w) (top : ∀ j < w, t.testBit j = decide (w - k ≤ j)) :
    numBits w t = prefixMask w k := by
  induction w generalizing k with
  | zero =>
      obtain rfl : k = 0 := by omega
      rfl
  | succ w inductionHypothesis =>
      rw [numBits, top w (Nat.lt_succ_self w)]
      cases k with
      | zero =>
          have below : ∀ j < w, t.testBit j = decide (w - 0 ≤ j) := fun j lower => by
            rw [top j (by omega), decide_eq_decide]
            omega
          rw [inductionHypothesis (Nat.zero_le w) below]
          simp [prefixMask, List.replicate_succ]
      | succ k =>
          have below : ∀ j < w, t.testBit j = decide (w - k ≤ j) := fun j lower => by
            rw [top j (by omega), decide_eq_decide]
            omega
          rw [inductionHypothesis (by omega) below]
          simp [prefixMask, List.replicate_succ]

theorem numBits_inj {w t u : Nat} (tSmall : t < 2 ^ w) (uSmall : u < 2 ^ w) (same : numBits w t = numBits w u) :
    t = u := by
  apply Nat.eq_of_testBit_eq
  intro j
  by_cases low : j < w
  · exact numBits_eq_iff.mp same j low
  · have high : 2 ^ w ≤ 2 ^ j := Nat.pow_le_pow_right (by norm_num) (by omega)
    rw [Nat.testBit_lt_two_pow (lt_of_lt_of_le tSmall high), Nat.testBit_lt_two_pow (lt_of_lt_of_le uSmall high)]

theorem prefixMask_inj {w k m : Nat} (same : prefixMask w k = prefixMask w m) : k = m := by
  have counted := congrArg (List.count true) same
  simpa [prefixMask, List.count_replicate] using counted

theorem prefixMask_append_of_le {a n k : Nat} (short : k ≤ a) :
    prefixMask (a + n) k = prefixMask a k ++ List.replicate n false := by
  rw [prefixMask, prefixMask, show a + n - k = (a - k) + n by omega, List.replicate_add, List.append_assoc]

theorem replicate_append_prefixMask (a n k : Nat) :
    List.replicate a true ++ prefixMask n k = prefixMask (a + n) (a + k) := by
  rw [prefixMask, prefixMask, show a + n - (a + k) = n - k by omega, List.replicate_add, List.append_assoc]

/-- A prefix mask cut after `a` bits: a prefix mask and zeros, or ones and a prefix mask. -/
theorem append_eq_prefixMask_iff {ys xs : List Bool} {a n k : Nat} (ysWidth : ys.length = a)
    (xsWidth : xs.length = n) :
    ys ++ xs = prefixMask (a + n) k ↔
      (k ≤ a ∧ ys = prefixMask a k ∧ xs = List.replicate n false) ∨
        (a ≤ k ∧ ys = List.replicate a true ∧ xs = prefixMask n (k - a)) := by
  by_cases short : k ≤ a
  · rw [prefixMask_append_of_le short]
    have widths : ys.length = (prefixMask a k).length := by simp [prefixMask]; omega
    constructor
    · intro same
      exact .inl ⟨short, List.append_inj same widths⟩
    · rintro (⟨-, rfl, rfl⟩ | ⟨above, rfl, rfl⟩)
      · rfl
      · obtain rfl : k = a := by omega
        simp [prefixMask]
  · obtain ⟨more, rfl⟩ : ∃ more, k = a + more := ⟨k - a, by omega⟩
    rw [← replicate_append_prefixMask]
    constructor
    · intro same
      exact .inr ⟨by omega, by simpa using List.append_inj same (by simp [ysWidth])⟩
    · rintro (⟨below, -, -⟩ | ⟨-, rfl, rfl⟩)
      · omega
      · simp

end NumBits

section Bytes

@[simp] theorem length_byteBits (b : UInt8) : (byteBits b).length = 8 :=
  length_numBits 8 _

theorem byteBits_inj {a b : UInt8} (same : byteBits a = byteBits b) : a = b := by
  apply UInt8.toNat_inj.mp
  apply Nat.eq_of_testBit_eq
  intro j
  by_cases low : j < 8
  · exact numBits_eq_iff.mp same j low
  · -- no byte has a bit from the eighth up
    have high : 2 ^ 8 ≤ 2 ^ j := Nat.pow_le_pow_right (by norm_num) (by omega)
    rw [Nat.testBit_lt_two_pow (lt_of_lt_of_le a.toNat_lt high),
      Nat.testBit_lt_two_pow (lt_of_lt_of_le b.toNat_lt high)]

theorem byteBits_and (a b : UInt8) : byteBits (a &&& b) = List.zipWith (· && ·) (byteBits a) (byteBits b) := by
  rw [byteBits, UInt8.toNat_and, numBits_land]
  rfl

@[simp] theorem bits_nil : bits [] = [] := rfl

@[simp] theorem bits_cons (b : UInt8) (rest : List UInt8) : bits (b :: rest) = byteBits b ++ bits rest :=
  List.flatMap_cons

@[simp] theorem bits_append (front rest : List UInt8) : bits (front ++ rest) = bits front ++ bits rest :=
  List.flatMap_append

@[simp] theorem length_bits (bytes : List UInt8) : (bits bytes).length = 8 * bytes.length := by
  induction bytes with
  | nil => rfl
  | cons b rest inductionHypothesis =>
      rw [bits_cons, List.length_append, inductionHypothesis, length_byteBits, List.length_cons]
      ring

theorem bits_inj {a b : List UInt8} (sameLength : a.length = b.length) (same : bits a = bits b) : a = b := by
  induction a generalizing b with
  | nil =>
      cases b with
      | nil => rfl
      | cons y b => simp at sameLength
  | cons x a inductionHypothesis =>
      cases b with
      | nil => simp at sameLength
      | cons y b =>
          rw [bits_cons, bits_cons] at same
          obtain ⟨first, rest⟩ := List.append_inj same (by simp)
          rw [byteBits_inj first, inductionHypothesis (by simpa using sameLength) rest]

/-- `&&&` of two byte strings of one length is `&&` of their bits. -/
theorem bits_zipWith_and {a b : List UInt8} (sameLength : a.length = b.length) :
    bits (List.zipWith (· &&& ·) a b) = List.zipWith (· && ·) (bits a) (bits b) := by
  induction a generalizing b with
  | nil => rfl
  | cons x a inductionHypothesis =>
      cases b with
      | nil => simp at sameLength
      | cons y b =>
          rw [List.zipWith_cons_cons, bits_cons, bits_cons, bits_cons,
            List.zipWith_append (by simp), byteBits_and, inductionHypothesis (by simpa using sameLength)]

@[simp] theorem byteBits_255 : byteBits 255 = List.replicate 8 true := by
  decide

@[simp] theorem byteBits_zero : byteBits 0 = List.replicate 8 false := by
  decide

/-- A run of one byte whose bits are all `x` has all its bits `x`. -/
theorem bits_replicate {b : UInt8} {x : Bool} (same : byteBits b = List.replicate 8 x) (n : Nat) :
    bits (List.replicate n b) = List.replicate (8 * n) x := by
  induction n with
  | zero => rfl
  | succ n inductionHypothesis =>
      rw [List.replicate_succ, bits_cons, inductionHypothesis, same, Nat.mul_succ, Nat.add_comm,
        List.replicate_add]

/-- The first `8 * q` bits of a byte string are the bits of its first `q` bytes. -/
theorem take_bits_mul (bytes : List UInt8) (q : Nat) : (bits bytes).take (8 * q) = bits (bytes.take q) := by
  induction bytes generalizing q with
  | nil => simp
  | cons b rest inductionHypothesis =>
      cases q with
      | zero => simp
      | succ q =>
          rw [bits_cons, List.take_append, List.take_of_length_le (by simp), length_byteBits,
            show 8 * (q + 1) - 8 = 8 * q by omega, inductionHypothesis, List.take_succ_cons, bits_cons]

/-- Byte strings of one length agree in their first `8 * q` bits exactly when their first `q` bytes agree. -/
theorem take_bits_mul_eq_iff {a b : List UInt8} (sameLength : a.length = b.length) (q : Nat) :
    (bits a).take (8 * q) = (bits b).take (8 * q) ↔ a.take q = b.take q := by
  rw [take_bits_mul, take_bits_mul]
  exact ⟨bits_inj (by simp [sameLength]), fun same => by rw [same]⟩

/-- The first `8 * q + r` bits, `r < 8`: the bits of the first `q` bytes, then the first `r` bits of the next. -/
theorem take_bits_add (bytes : List UInt8) {q r : Nat} (small : r < 8) (inside : q < bytes.length) :
    (bits bytes).take (8 * q + r) = bits (bytes.take q) ++ (byteBits bytes[q]).take r := by
  conv => lhs; rw [← List.take_append_drop q bytes, List.drop_eq_getElem_cons inside]
  have front : (bits (bytes.take q)).length = 8 * q := by simp; omega
  rw [bits_append, bits_cons, List.take_append, List.take_of_length_le (by omega), front,
    Nat.add_sub_cancel_left, List.take_append_of_le_length (by simp; omega)]

/-- The bytes of `le32 t` from the last to the first, that is in network order, carry the 32 bits of `t`. -/
theorem bits_reverse_le32 (t : Nat) : bits (ByteMemory.le32 t).reverse = numBits 32 t := by
  have split : numBits 32 t =
      numBits 8 (t / 2 ^ 24) ++ (numBits 8 (t / 2 ^ 16) ++ (numBits 8 (t / 2 ^ 8) ++ numBits 8 t)) := by
    rw [show 32 = 8 + 24 from rfl, numBits_add, show 24 = 8 + 16 from rfl, numBits_add,
      show 16 = 8 + 8 from rfl, numBits_add]
  have byte : ∀ x : Nat, byteBits (UInt8.ofNat (x % 256)) = numBits 8 x := fun x => by
    rw [byteBits, UInt8.toNat_ofNat', Nat.mod_mod_of_dvd _ (by norm_num), numBits_mod]
  have reversed : (ByteMemory.le32 t).reverse =
      [UInt8.ofNat (t / 2 ^ 24 % 256), UInt8.ofNat (t / 2 ^ 16 % 256), UInt8.ofNat (t / 2 ^ 8 % 256),
        UInt8.ofNat (t % 256)] := rfl
  rw [reversed, split]
  simp only [bits_cons, bits_nil, List.append_nil, byte]

end Bytes

section Masks

variable {w p : Nat}

theorem prefixMask_succ_zero (w : Nat) : prefixMask (w + 1) 0 = false :: prefixMask w 0 := by
  simp [prefixMask, List.replicate_succ]

theorem prefixMask_succ_succ (w p : Nat) : prefixMask (w + 1) (p + 1) = true :: prefixMask w p := by
  simp [prefixMask, List.replicate_succ]

/-- Masking a bit string of width `w` with the prefix mask of `p` keeps its first `p` bits. -/
theorem zipWith_and_prefixMask {xs : List Bool} (width : xs.length = w) (fits : p ≤ w) :
    List.zipWith (· && ·) xs (prefixMask w p) = xs.take p ++ List.replicate (w - p) false := by
  induction xs generalizing w p with
  | nil =>
      subst width
      obtain rfl : p = 0 := by simp at fits; omega
      rfl
  | cons x xs inductionHypothesis =>
      subst width
      cases p with
      | zero =>
          rw [List.length_cons, prefixMask_succ_zero, List.zipWith_cons_cons,
            inductionHypothesis rfl (Nat.zero_le _)]
          simp [List.replicate_succ]
      | succ p =>
          rw [List.length_cons, prefixMask_succ_succ, List.zipWith_cons_cons,
            inductionHypothesis rfl (by simp at fits; omega)]
          simp

/-- Two bit strings of width `w` agree under the prefix mask of `p` exactly when their first `p` bits agree. -/
theorem zipWith_and_prefixMask_eq_iff {xs ys : List Bool} (xsWidth : xs.length = w) (ysWidth : ys.length = w)
    (fits : p ≤ w) :
    List.zipWith (· && ·) xs (prefixMask w p) = List.zipWith (· && ·) ys (prefixMask w p) ↔
      xs.take p = ys.take p := by
  rw [zipWith_and_prefixMask xsWidth fits, zipWith_and_prefixMask ysWidth fits, List.append_left_inj]

end Masks

section Loops

variable {w k : Nat}

theorem orLoop_succ (w k : Nat) : orLoop w (k + 1) = orLoop w k ||| 1 <<< (w - k - 1) := by
  simp [orLoop, List.range_succ, List.foldl_append]

/-- The loop sets exactly the bits from `w - k` to `w - 1`. -/
theorem testBit_orLoop (fits : k ≤ w) (j : Nat) : (orLoop w k).testBit j = decide (w - k ≤ j ∧ j < w) := by
  induction k with
  | zero => simp [orLoop]
  | succ k inductionHypothesis =>
      rw [orLoop_succ, Nat.testBit_lor, inductionHypothesis (by omega), Nat.shiftLeft_eq, Nat.one_mul,
        Nat.testBit_two_pow, Bool.eq_iff_iff]
      simp only [Bool.or_eq_true, decide_eq_true_eq]
      omega

theorem orLoop_lt (fits : k ≤ w) : orLoop w k < 2 ^ w :=
  Nat.lt_pow_two_of_testBit _ fun j above => by
    rw [testBit_orLoop fits]
    simp only [decide_eq_false_iff_not, not_and, not_lt]
    omega

theorem numBits_orLoop (fits : k ≤ w) : numBits w (orLoop w k) = prefixMask w k :=
  numBits_eq_prefixMask fits fun j below => by
    rw [testBit_orLoop fits, decide_eq_decide]
    omega

/-- The byte the loop builds for `w = 8` has the prefix mask of `k` as its bits. -/
theorem byteBits_orLoop (fits : k ≤ 8) : byteBits (UInt8.ofNat (orLoop 8 k)) = prefixMask 8 k := by
  rw [byteBits, UInt8.toNat_ofNat', numBits_mod, numBits_orLoop fits]

/-- Two bytes agree under the mask the loop builds for `k` exactly when their first `k` bits agree. -/
theorem and_orLoop_eq_iff (x y : UInt8) (fits : k ≤ 8) :
    (x &&& UInt8.ofNat (orLoop 8 k)) = (y &&& UInt8.ofNat (orLoop 8 k)) ↔
      (byteBits x).take k = (byteBits y).take k := by
  rw [← zipWith_and_prefixMask_eq_iff (length_byteBits x) (length_byteBits y) fits, ← byteBits_orLoop fits,
    ← byteBits_and, ← byteBits_and]
  exact ⟨fun same => by rw [same], byteBits_inj⟩

/-- A byte is the value `orLoop 8 k` exactly when its bits are the prefix mask of `k`. -/
theorem toNat_eq_orLoop_iff (b : UInt8) (fits : k ≤ 8) : b.toNat = orLoop 8 k ↔ byteBits b = prefixMask 8 k := by
  rw [← numBits_orLoop fits, byteBits]
  constructor
  · intro same
    rw [same]
  · exact numBits_inj b.toNat_lt (orLoop_lt fits)

theorem orLoop_inj {m : Nat} (kFits : k ≤ w) (mFits : m ≤ w) (same : orLoop w k = orLoop w m) : k = m :=
  prefixMask_inj ((numBits_orLoop kFits).symm.trans (same ▸ numBits_orLoop mFits))

/-- From pass `i` on, the search stops at the pass whose mask is the value, if any is. -/
theorem prefixSearchLoop_eq_some (w value left i r : Nat) (passes : i + left = w + 1) :
    prefixSearchLoop w value left (orLoop w i) i = some r ↔ i ≤ r ∧ r ≤ w ∧ value = orLoop w r := by
  induction left generalizing i with
  | zero =>
      simp only [prefixSearchLoop, reduceCtorEq, false_iff, not_and]
      omega
  | succ left inductionHypothesis =>
      rw [prefixSearchLoop]
      by_cases found : value = orLoop w i
      · -- the masks differ pass by pass, so no later pass matches
        rw [if_pos found, Option.some.injEq]
        constructor
        · rintro rfl
          exact ⟨le_refl _, by omega, found⟩
        · rintro ⟨-, high, again⟩
          exact orLoop_inj (by omega) high (found.symm.trans again)
      · rw [if_neg found]
        by_cases more : i < w
        · rw [if_pos more, ← orLoop_succ, inductionHypothesis (i + 1) (by omega)]
          constructor
          · rintro ⟨later, high, again⟩
            exact ⟨by omega, high, again⟩
          · rintro ⟨low, high, again⟩
            rcases Nat.lt_or_eq_of_le low with later | rfl
            · exact ⟨later, high, again⟩
            · exact absurd again found
        · -- the pass at `i = w` was the last
          obtain rfl : left = 0 := by omega
          simp only [prefixSearchLoop, reduceCtorEq, false_iff, not_and]
          intro low high again
          obtain rfl : r = i := by omega
          exact found again

/-- The search finds `k` exactly for the value `orLoop w k`. -/
theorem prefixSearch_eq_some (w value r : Nat) : prefixSearch w value = some r ↔ r ≤ w ∧ value = orLoop w r := by
  have whole := prefixSearchLoop_eq_some w value (w + 1) 0 r (by omega)
  rw [show orLoop w 0 = 0 from rfl] at whole
  rw [prefixSearch, whole]
  simp

end Loops

end ByteBits
