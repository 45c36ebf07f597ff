import Mathlib

namespace DigitText

/-!
# Numbers written as digit strings

A digit string in base `b` is read most significant digit first (`value`).
Two facts about such strings serve readers of numbers of a bounded size:

* strings of one length compare, digit by digit from the left, as their
  values compare (`lexCompare_eq_compare`), so a bound on the value can be
  checked by comparing the text with the text of the bound;
* a reader that before each digit checks `acc ≤ max / b` and then
  `digit ≤ max - acc * b` refuses exactly when the value would pass `max`
  (`foldlM_checkedStep`), so it never needs a wider accumulator.

The last section ties `value` to the text core's `Nat.toDigits` prints: that
text is a digit string worth the number, and every digit string is that text
after some leading zeros.
-/

/-- The number a digit string stands for, most significant digit first. -/
def value (b : Nat) (digits : List Nat) : Nat :=
  digits.foldl (fun acc d => acc * b + d) 0

/-- Digit strings compared from the left, the first differing digit deciding. -/
def lexCompare : List Nat → List Nat → Ordering
  | d :: ds, e :: es => (compare d e).then (lexCompare ds es)
  | _, _ => .eq

/--
One step of a bounded reader: the next accumulator `acc * b + d`, refused when
it would pass `max`, with the two checks made before anything can overflow.
-/
def checkedStep (max b acc d : Nat) : Option Nat :=
  if acc > max / b then none else if d > max - acc * b then none else some (acc * b + d)

section Value

variable {b : Nat}

theorem foldl_value (digits : List Nat) (acc : Nat) :
    digits.foldl (fun acc d => acc * b + d) acc = acc * b ^ digits.length + value b digits := by
  induction digits generalizing acc with
  | nil => simp [value]
  | cons d ds inductionHypothesis =>
      rw [value, List.foldl_cons, List.foldl_cons, inductionHypothesis, inductionHypothesis (0 * b + d),
        List.length_cons, pow_succ]
      ring

@[simp] theorem value_nil : value b [] = 0 := rfl

theorem value_cons (d : Nat) (ds : List Nat) : value b (d :: ds) = d * b ^ ds.length + value b ds := by
  show (d :: ds).foldl _ 0 = _
  rw [List.foldl_cons, foldl_value]
  simp

theorem value_append_singleton (ds : List Nat) (d : Nat) : value b (ds ++ [d]) = value b ds * b + d := by
  simp [value, List.foldl_append]

/-- Leading zeros do not change the value. -/
theorem value_replicate_zero_append (k : Nat) (ds : List Nat) : value b (List.replicate k 0 ++ ds) = value b ds := by
  induction k with
  | zero => rfl
  | succ k inductionHypothesis =>
      rw [List.replicate_succ, List.cons_append, value_cons, inductionHypothesis]
      simp

theorem value_lt {ds : List Nat} (digits : ∀ d ∈ ds, d < b) : value b ds < b ^ ds.length := by
  induction ds with
  | nil => simp
  | cons d ds inductionHypothesis =>
      have rest := inductionHypothesis fun e member => digits e (List.mem_cons_of_mem d member)
      have first : d + 1 ≤ b := digits d List.mem_cons_self
      rw [value_cons, List.length_cons, pow_succ]
      calc d * b ^ ds.length + value b ds < d * b ^ ds.length + b ^ ds.length := by omega
        _ = (d + 1) * b ^ ds.length := by ring
        _ ≤ b * b ^ ds.length := Nat.mul_le_mul_right _ first
        _ = b ^ ds.length * b := Nat.mul_comm _ _

/-- A string that does not start with a zero is worth at least the smallest number of its length. -/
theorem pow_le_value {d : Nat} {ds : List Nat} (leading : 0 < d) : b ^ ds.length ≤ value b (d :: ds) := by
  rw [value_cons]
  calc b ^ ds.length ≤ d * b ^ ds.length := Nat.le_mul_of_pos_left _ leading
    _ ≤ d * b ^ ds.length + value b ds := Nat.le_add_right _ _

end Value

section Compare

theorem compare_add_add_left (a x y : Nat) : compare (a + x) (a + y) = compare x y := by
  rcases Nat.lt_trichotomy x y with below | rfl | above
  · rw [compare_lt_iff_lt.mpr below, compare_lt_iff_lt.mpr (by omega)]
  · simp
  · rw [compare_gt_iff_gt.mpr above, compare_gt_iff_gt.mpr (by omega)]

/-- A leading digit decides between two numbers whose rest is below one place. -/
theorem compare_mul_add {d e x y place : Nat} (xBelow : x < place) (yBelow : y < place) :
    compare (d * place + x) (e * place + y) = (compare d e).then (compare x y) := by
  rcases Nat.lt_trichotomy d e with less | rfl | greater
  · have : d * place + x < e * place + y :=
      calc d * place + x < (d + 1) * place := by rw [Nat.succ_mul]; omega
        _ ≤ e * place := Nat.mul_le_mul_right _ less
        _ ≤ e * place + y := Nat.le_add_right _ _
    simp [compare_lt_iff_lt.mpr this, compare_lt_iff_lt.mpr less]
  · -- the same leading digit: the rest decides
    rw [show compare d d = .eq from compare_eq_iff_eq.mpr rfl, compare_add_add_left]
    rfl
  · have : e * place + y < d * place + x :=
      calc e * place + y < (e + 1) * place := by rw [Nat.succ_mul]; omega
        _ ≤ d * place := Nat.mul_le_mul_right _ greater
        _ ≤ d * place + x := Nat.le_add_right _ _
    simp [compare_gt_iff_gt.mpr this, compare_gt_iff_gt.mpr greater]

/-- Digit strings of one length compare from the left as their values compare. -/
theorem lexCompare_eq_compare {b : Nat} {ds es : List Nat} (sameLength : ds.length = es.length)
    (dsDigits : ∀ d ∈ ds, d < b) (esDigits : ∀ e ∈ es, e < b) :
    lexCompare ds es = compare (value b ds) (value b es) := by
  induction ds generalizing es with
  | nil =>
      cases es with
      | nil => rfl
      | cons e es => simp at sameLength
  | cons d ds inductionHypothesis =>
      cases es with
      | nil => simp at sameLength
      | cons e es =>
          simp only [List.length_cons, Nat.add_right_cancel_iff] at sameLength
          have dsRest : ∀ d' ∈ ds, d' < b := fun d' member => dsDigits d' (List.mem_cons_of_mem d member)
          have esRest : ∀ e' ∈ es, e' < b := fun e' member => esDigits e' (List.mem_cons_of_mem e member)
          rw [lexCompare, inductionHypothesis sameLength dsRest esRest, value_cons, value_cons, ← sameLength,
            compare_mul_add (value_lt dsRest) (sameLength ▸ value_lt esRest)]

end Compare

section Checked

variable {max b : Nat}

/-- The two checks refuse exactly the steps that pass `max`. -/
theorem checkedStep_eq (base : 0 < b) (acc d : Nat) :
    checkedStep max b acc d = if acc * b + d ≤ max then some (acc * b + d) else none := by
  have divided : max / b < acc ↔ max < acc * b := Nat.div_lt_iff_lt_mul base
  unfold checkedStep
  by_cases tooBig : acc > max / b
  · have passed := divided.mp tooBig
    rw [if_pos tooBig, if_neg (by omega)]
  · have within : acc * b ≤ max := Nat.le_of_not_lt (mt divided.mpr tooBig)
    rw [if_neg tooBig]
    by_cases last : d > max - acc * b
    · rw [if_pos last, if_neg (by omega)]
    · rw [if_neg last, if_pos (by omega)]

/-- A bounded reader refuses a string exactly when its value, after what was read before, passes `max`. -/
theorem foldlM_checkedStep (base : 0 < b) (digits : List Nat) {acc : Nat} (start : acc ≤ max) :
    digits.foldlM (checkedStep max b) acc =
      if acc * b ^ digits.length + value b digits ≤ max then some (acc * b ^ digits.length + value b digits)
      else none := by
  induction digits generalizing acc with
  | nil => simp [start]
  | cons d ds inductionHypothesis =>
      -- the value after `d` grows the one before it: `acc * b + d` reached `max` only if the whole does
      have whole : acc * b ^ (d :: ds).length + value b (d :: ds) = (acc * b + d) * b ^ ds.length + value b ds := by
        rw [value_cons, List.length_cons, pow_succ]
        ring
      have grows : acc * b + d ≤ (acc * b + d) * b ^ ds.length + value b ds :=
        le_trans (Nat.le_mul_of_pos_right _ (Nat.pow_pos base)) (Nat.le_add_right _ _)
      rw [List.foldlM_cons, checkedStep_eq base, whole]
      split_ifs with fits total total
      · simp [inductionHypothesis fits, total]
      · simp [inductionHypothesis fits, total]
      · omega
      · rfl

end Checked

section Text

variable {b : Nat}

/-- The text of a number is a digit string worth that number. -/
theorem toDigits_eq_map_digitChar (base : 1 < b) (x : Nat) :
    ∃ ds, (∀ d ∈ ds, d < b) ∧ Nat.toDigits b x = ds.map Nat.digitChar ∧ value b ds = x := by
  induction x using Nat.strongRecOn with
  | ind x inductionHypothesis =>
      rw [Nat.toDigits_eq_if base]
      split
      · exact ⟨[x], by simpa, rfl, by simp [value]⟩
      · -- the text of x / b, then the last digit
        obtain ⟨ds, digits, text, worth⟩ := inductionHypothesis (x / b) (Nat.div_lt_self (by omega) base)
        refine ⟨ds ++ [x % b], ?_, by rw [text, List.map_append]; rfl, ?_⟩
        · intro d member
          rcases List.mem_append.mp member with early | last
          · exact digits d early
          · rw [List.mem_singleton.mp last]
            exact Nat.mod_lt _ (by omega)
        · rw [value_append_singleton, worth, Nat.div_add_mod']

/-- A digit string is the text of its value after some leading zeros. -/
theorem map_digitChar_eq_zeros_append_toDigits (base : 1 < b) {ds : List Nat} (digits : ∀ d ∈ ds, d < b)
    (nonempty : ds ≠ []) : ∃ k, ds.map Nat.digitChar = List.replicate k '0' ++ Nat.toDigits b (value b ds) := by
  induction ds using List.reverseRecOn with
  | nil => contradiction
  | append_singleton front d inductionHypothesis =>
      have last : d < b := digits d (by simp)
      rw [List.map_append, List.map_singleton, value_append_singleton]
      cases front with
      | nil => exact ⟨0, by simp [Nat.toDigits_of_lt_base last]⟩
      | cons e es =>
          obtain ⟨k, text⟩ := inductionHypothesis (fun f member => digits f (List.mem_append_left _ member)) (by simp)
          rw [text]
          rcases Nat.eq_zero_or_pos (value b (e :: es)) with zero | positive
          · -- only zeros so far: they join the leading ones
            refine ⟨k + 1, ?_⟩
            rw [zero, Nat.zero_mul, Nat.zero_add, Nat.toDigits_of_lt_base last, Nat.toDigits_of_lt_base (by omega)]
            simp [List.replicate_succ']
          · refine ⟨k, ?_⟩
            rw [List.append_assoc, ← Nat.toDigits_of_lt_base last, Nat.toDigits_append_toDigits base positive last,
              Nat.mul_comm]

end Text

end DigitText
