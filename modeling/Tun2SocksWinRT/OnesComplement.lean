import Mathlib.Tactic.Ring

namespace OnesComplement

/-!
# One's-complement sums of 16-bit words

The Internet checksum (RFC 1071) adds a byte string as big-endian 16-bit words
in a 32-bit accumulator, folds the carries above bit 16 back into the low 16
bits (`fold`) and stores the complement of the result (`complement`).

The fold keeps the sum modulo 65535 (`fold_mod`), so a checksum computed over
data whose checksum field is zero makes the data, checksum included, sum to
the all-ones word (`fold_add_complement`), which is how a receiver that adds
everything up verifies it.
-/

/-- The big-endian 16-bit word of two bytes. -/
def word (high low : UInt8) : Nat :=
  high.toNat * 256 + low.toNat

/-- The sum of the big-endian words of a byte string; an odd last byte is left out. -/
def wordSum : List UInt8 → Nat
  | high :: low :: rest => word high low + wordSum rest
  | _ => 0

/--
`while (t >> 16) t = (t & 0xFFFF) + (t >> 16);`, for at most `rounds` rounds.
-/
def foldRounds : Nat → Nat → Nat
  | 0, t => t
  | rounds + 1, t => if t / 65536 = 0 then t else foldRounds rounds (t % 65536 + t / 65536)

/-- The carry fold of a 32-bit sum: two rounds always end the loop (`foldRounds_of_two_le`). -/
def fold (t : Nat) : Nat :=
  foldRounds 2 t

/-- `~t`, kept to 16 bits. -/
def complement (t : Nat) : Nat :=
  65535 - t

theorem word_lt (high low : UInt8) : word high low < 65536 := by
  have := high.toNat_lt
  have := low.toNat_lt
  unfold word
  omega

@[simp] theorem wordSum_nil : wordSum [] = 0 :=
  rfl

@[simp] theorem wordSum_cons_cons (high low : UInt8) (rest : List UInt8) :
    wordSum (high :: low :: rest) = word high low + wordSum rest :=
  rfl

/-- Words of an even-length prefix do not straddle the join. -/
theorem wordSum_append {first : List UInt8} (even : first.length % 2 = 0) (second : List UInt8) :
    wordSum (first ++ second) = wordSum first + wordSum second := by
  induction first using wordSum.induct with
  | case1 high low rest inductionHypothesis =>
      simp only [List.length_cons] at even
      rw [List.cons_append, List.cons_append, wordSum_cons_cons, wordSum_cons_cons,
        inductionHypothesis (by omega), Nat.add_assoc]
  | case2 bytes notPair =>
      match bytes, notPair with
      | [], _ =>
          simp
      | [_], _ =>
          simp at even
      | _ :: _ :: _, notPair =>
          exact absurd rfl (notPair _ _ _)

/-- At most 65535 for each whole word. -/
theorem wordSum_le (bytes : List UInt8) : wordSum bytes ≤ 65535 * (bytes.length / 2) := by
  induction bytes using wordSum.induct with
  | case1 high low rest inductionHypothesis =>
      have wordBound := word_lt high low
      simp only [wordSum_cons_cons, List.length_cons]
      have halves : (rest.length + 1 + 1) / 2 = rest.length / 2 + 1 := by omega
      rw [halves, Nat.mul_add]
      omega
  | case2 bytes notPair =>
      match bytes, notPair with
      | [], _ =>
          simp
      | [_], _ =>
          simp [wordSum]
      | _ :: _ :: _, notPair =>
          exact absurd rfl (notPair _ _ _)

/-- A value below 2^16 is left as it is. -/
theorem foldRounds_of_lt {t : Nat} (small : t < 65536) (rounds : Nat) : foldRounds rounds t = t := by
  cases rounds with
  | zero =>
      rfl
  | succ rounds =>
      rw [foldRounds, if_pos (by omega)]

/-- One round of the fold keeps the value modulo 65535. -/
theorem round_mod (t : Nat) : (t % 65536 + t / 65536) % 65535 = t % 65535 := by
  omega

/-- Two rounds bring any 32-bit value below 2^16. -/
theorem fold_lt {t : Nat} (small : t < 2 ^ 32) : fold t < 65536 := by
  unfold fold foldRounds foldRounds foldRounds
  split_ifs <;> omega

/-- Further rounds change nothing after the second. -/
theorem foldRounds_of_two_le {t : Nat} (small : t < 2 ^ 32) {rounds : Nat} (enough : 2 ≤ rounds) :
    foldRounds rounds t = fold t := by
  obtain ⟨more, rfl⟩ : ∃ more, rounds = more + 2 := ⟨rounds - 2, by omega⟩
  unfold fold
  simp only [foldRounds]
  split_ifs with first second
  · rfl
  · rfl
  · -- the second round leaves less than 2^16, which the later rounds keep
    apply foldRounds_of_lt
    omega

/-- The fold keeps the value modulo 65535. -/
theorem fold_mod (t : Nat) : fold t % 65535 = t % 65535 := by
  unfold fold foldRounds foldRounds foldRounds
  split_ifs <;> omega

/-- Only zero folds to zero. -/
theorem fold_eq_zero_iff {t : Nat} (small : t < 2 ^ 32) : fold t = 0 ↔ t = 0 := by
  unfold fold foldRounds foldRounds foldRounds
  split_ifs <;> omega

/--
Adding the complement of the folded sum to the sum gives a sum that folds to
the all-ones word: the receiver's check of a checksum computed with its field
at zero.
-/
theorem fold_add_complement {t : Nat} (small : t + 65535 < 2 ^ 32) :
    fold (t + complement (fold t)) = 65535 := by
  have below : fold t < 65536 := fold_lt (by omega)
  have congruent := fold_mod t
  have onlyZero : fold t = 0 ↔ t = 0 := fold_eq_zero_iff (by omega)
  have complemented : complement (fold t) = 65535 - fold t := rfl
  generalize summed : t + complement (fold t) = total
  have totalSmall : total < 2 ^ 32 := by omega
  have totalCongruent := fold_mod total
  have totalBelow := fold_lt totalSmall
  -- the total is a nonzero multiple of 65535, and so is its fold
  have nonzero : fold total ≠ 0 := by
    rw [Ne, fold_eq_zero_iff totalSmall]
    omega
  omega

end OnesComplement
