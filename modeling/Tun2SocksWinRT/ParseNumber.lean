import Mathlib
import Tun2SocksWinRT.DigitText
import Tun2SocksWinRT.ByteMemory
import Tun2SocksWinRT.Ipaddr6

namespace Tun2SocksWinRT

namespace ParseNumber

/-!
# Numbers as text (misc/parse_number.h)

The decimal and hexadecimal readers and the decimal writer of parse_number.h,
over texts as lists of characters; a `uintmax_t` is a natural number below
`2 ^ 64`.

`parse_unsigned_integer` strips the leading zeros, refuses a text longer than
the text of `UINTMAX_MAX` or as long and greater by `memcmp`, and only then
reads the digits with a reader that would wrap.  Together these accept exactly
the nonempty decimal texts whose value fits (`parseUnsignedInteger_eq`), which
is what the repository's parse_number_test compares against `strtoumax`.
`parse_unsigned_hex_integer` checks before each digit instead and accepts in
the same way in base 16.  `generate_decimal_repr` writes the text core's
`Nat.toDigits` prints, and `parse_unsigned_integer` reads it back.
-/

open DigitText
open Ipaddr6 (decodeDecimalDigit decodeHexDigit)

/-- `UINTMAX_MAX`, whose value the source asserts. -/
def uintmaxMax : Nat := 2 ^ 64 - 1

/-- `parse_number__uintmax_max_str`, the decimal text of `UINTMAX_MAX`. -/
def uintmaxMaxStr : List Char := "18446744073709551615".toList

section Parse

/-- `parse__no_overflow`: the digits accumulated in a `uintmax_t`, any other character refused. -/
def parseNoOverflow (n : Nat) : List Char → Option Nat
  | [] => some n
  | c :: str =>
      if c < '0' ∨ c > '9' then none
      else parseNoOverflow ((10 * n + (c.toNat - '0'.toNat)) % 2 ^ 64) str

def parseUnsignedInteger (str : List Char) : Option Nat :=
  -- we do not allow empty strings
  if str.length = 0 then none
  else
    -- remove leading zeros
    let str := str.dropWhile (· == '0')
    -- detect overflow
    if str.length > uintmaxMaxStr.length ∨
        (str.length = uintmaxMaxStr.length ∧
          ByteMemory.memcmp (str.map Char.toUInt8) (uintmaxMaxStr.map Char.toUInt8) = .gt) then
      none
    else
      -- will not overflow (but can still have invalid characters)
      parseNoOverflow 0 str

/-- The loop of `parse_unsigned_hex_integer`: both overflow checks come before the digit is added. -/
def hexLoop (n : Nat) : List Char → Option Nat
  | [] => some n
  | c :: str =>
      match decodeHexDigit c with
      | none => none
      | some digit =>
          if n > uintmaxMax / 16 then none
          else
            let n := n * 16
            if digit > uintmaxMax - n then none
            else hexLoop (n + digit) str

def parseUnsignedHexInteger (str : List Char) : Option Nat :=
  if str.length = 0 then none else hexLoop 0 str

/-- `parse_signmag_integer`: an optional `+` or `-`, then a decimal magnitude; the sign is `1` or `-1`. -/
def parseSignmagInteger (str : List Char) : Option (Int × Nat) :=
  let (sign, str) : Int × List Char :=
    match str with
    | c :: rest => if c = '+' ∨ c = '-' then (1 - 2 * (if c = '-' then 1 else 0), rest) else (1, c :: rest)
    | [] => (1, [])
  (parseUnsignedInteger str).map fun mag => (sign, mag)

end Parse

section Generate

/-- The do-while loop of `compute_decimal_repr_size`. -/
def reprSizeLoop (size x : Nat) : Nat :=
  let size := size + 1
  let x := x / 10
  if x > 0 then reprSizeLoop size x else size
termination_by x
decreasing_by omega

def computeDecimalReprSize (x : Nat) : Nat :=
  reprSizeLoop 0 x

/-- The do-while loop of `generate_decimal_repr`: digits written backwards, the last just before `out`. -/
def generateLoop (x out : Nat) (buf : List Char) : List Char :=
  let out := out - 1
  let buf := buf.set out (Char.ofNat ('0'.toNat + x % 10))
  let x := x / 10
  if x > 0 then generateLoop x out buf else buf
termination_by x
decreasing_by omega

/-- `generate_decimal_repr` at offset `out`; the size must be the one the source asserts. -/
def generateDecimalRepr (x : Nat) (buf : List Char) (out reprSize : Nat) : Option (List Char) :=
  if reprSize = computeDecimalReprSize x then some (generateLoop x (out + reprSize) buf) else none

/-- `generate_decimal_repr_string`: the digits and a terminating NUL at offset `out`, and their number. -/
def generateDecimalReprString (x : Nat) (buf : List Char) (out : Nat) : Option (List Char × Nat) :=
  let reprSize := computeDecimalReprSize x
  (generateDecimalRepr x buf out reprSize).map fun buf => (buf.set (out + reprSize) (Char.ofNat 0), reprSize)

end Generate

section Digits

theorem char_lt_iff {a b : Char} : a < b ↔ a.toNat < b.toNat :=
  Char.lt_def.trans UInt32.lt_iff_toNat_lt

theorem decodeDecimalDigit_eq_some {c : Char} {d : Nat} (decoded : decodeDecimalDigit c = some d) :
    d < 10 ∧ c = Nat.digitChar d := by
  unfold decodeDecimalDigit at decoded
  split at decoded <;> cases decoded <;> exact ⟨by decide, rfl⟩

/-- What the decoder refuses is what the source's range test refuses. -/
theorem decodeDecimalDigit_eq_none_iff (c : Char) : decodeDecimalDigit c = none ↔ c < '0' ∨ c > '9' := by
  unfold decodeDecimalDigit
  split
  rotate_left 10
  · -- no digit: the code point is outside 48 ..= 57
    rename_i n0 n1 n2 n3 n4 n5 n6 n7 n8 n9
    simp only [gt_iff_lt, char_lt_iff, true_iff]
    simp only [← Char.toNat_inj, Char.toNat_ofNat] at n0 n1 n2 n3 n4 n5 n6 n7 n8 n9 ⊢
    simp [Nat.isValidChar] at n0 n1 n2 n3 n4 n5 n6 n7 n8 n9 ⊢
    omega
  all_goals decide

theorem decodeDecimalDigit_digitChar : ∀ d < 10, decodeDecimalDigit (Nat.digitChar d) = some d := by
  decide

theorem toUInt8_digitChar : ∀ d < 10, (Nat.digitChar d).toUInt8.toNat = '0'.toNat + d := by
  decide

theorem ofNat_zero_add : ∀ d < 10, Char.ofNat ('0'.toNat + d) = Nat.digitChar d := by
  decide

/-- A decimal text is the digits it decodes to, each printed by `Nat.digitChar`. -/
theorem mapM_decodeDecimalDigit_eq_some {str : List Char} {ds : List Nat} :
    str.mapM decodeDecimalDigit = some ds ↔ (∀ d ∈ ds, d < 10) ∧ str = ds.map Nat.digitChar := by
  induction str generalizing ds with
  | nil => cases ds <;> simp
  | cons c str inductionHypothesis =>
      cases ds with
      | nil => simp [List.mapM_cons, Option.bind_eq_some_iff]
      | cons d ds =>
          constructor
          · intro decoded
            simp only [List.mapM_cons, Option.pure_def, Option.bind_eq_bind, Option.bind_eq_some_iff,
              Option.some.injEq, List.cons.injEq] at decoded
            obtain ⟨e, first, es, rest, rfl, rfl⟩ := decoded
            obtain ⟨bounded, rfl⟩ := decodeDecimalDigit_eq_some first
            obtain ⟨restBounded, rfl⟩ := inductionHypothesis.mp rest
            exact ⟨List.forall_mem_cons.mpr ⟨bounded, restBounded⟩, rfl⟩
          · rintro ⟨bounded, text⟩
            simp only [List.map_cons, List.cons.injEq] at text
            obtain ⟨rfl, rfl⟩ := text
            have restDecoded := inductionHypothesis.mpr ⟨fun e member => bounded e (by simp [member]), rfl⟩
            simp [List.mapM_cons, decodeDecimalDigit_digitChar d (bounded d (by simp)), restDecoded]

/-- Zeros in front of a decimal text decode to zero digits in front of its digits. -/
theorem mapM_zeros_append (k : Nat) (rest : List Char) :
    (List.replicate k '0' ++ rest).mapM decodeDecimalDigit =
      (rest.mapM decodeDecimalDigit).map (List.replicate k 0 ++ ·) := by
  induction k with
  | zero => simp
  | succ k inductionHypothesis =>
      rw [List.replicate_succ, List.cons_append, List.mapM_cons, inductionHypothesis]
      cases rest.mapM decodeDecimalDigit <;> rfl

/-- `memcmp` of two decimal texts compares their digits from the left. -/
theorem memcmp_map_digitChar {ds es : List Nat} (dsDigits : ∀ d ∈ ds, d < 10) (esDigits : ∀ e ∈ es, e < 10) :
    ByteMemory.memcmp ((ds.map Nat.digitChar).map Char.toUInt8) ((es.map Nat.digitChar).map Char.toUInt8) =
      lexCompare ds es := by
  induction ds generalizing es with
  | nil => rfl
  | cons d ds inductionHypothesis =>
      cases es with
      | nil => rfl
      | cons e es =>
          have rest := inductionHypothesis (fun d' member => dsDigits d' (List.mem_cons_of_mem d member))
            (fun e' member => esDigits e' (List.mem_cons_of_mem e member))
          simp only [List.map_cons, ByteMemory.memcmp, lexCompare, rest]
          rw [toUInt8_digitChar d (dsDigits d (by simp)), toUInt8_digitChar e (esDigits e (by simp)),
            compare_add_add_left]

/-- The text of `UINTMAX_MAX` decodes to digits worth `UINTMAX_MAX`. -/
theorem uintmaxMaxStr_digits :
    ∃ maxDigits, uintmaxMaxStr.mapM decodeDecimalDigit = some maxDigits ∧ value 10 maxDigits = uintmaxMax :=
  ⟨[1, 8, 4, 4, 6, 7, 4, 4, 0, 7, 3, 7, 0, 9, 5, 5, 1, 6, 1, 5], by decide, by decide⟩

end Digits

section Reading

/-- `parse__no_overflow` computes the value of the digits, wrapped to 64 bits. -/
theorem parseNoOverflow_eq (str : List Char) {n : Nat} (word : n < 2 ^ 64) :
    parseNoOverflow n str =
      (str.mapM decodeDecimalDigit).map fun ds => (n * 10 ^ ds.length + value 10 ds) % 2 ^ 64 := by
  induction str generalizing n with
  | nil =>
      show some n = some ((n * 10 ^ 0 + value 10 []) % 2 ^ 64)
      rw [Nat.pow_zero, value_nil, Nat.mul_one, Nat.add_zero, Nat.mod_eq_of_lt word]
  | cons c str inductionHypothesis =>
      rw [parseNoOverflow, List.mapM_cons]
      cases decoded : decodeDecimalDigit c with
      | none =>
          rw [if_pos ((decodeDecimalDigit_eq_none_iff c).mp decoded)]
          rfl
      | some d =>
          obtain ⟨digit, rfl⟩ := decodeDecimalDigit_eq_some decoded
          have inRange : ¬(Nat.digitChar d < '0' ∨ Nat.digitChar d > '9') := by
            rw [← decodeDecimalDigit_eq_none_iff, decoded]
            simp
          have shift : (Nat.digitChar d).toNat - '0'.toNat = d := by
            rw [Nat.toNat_digitChar_of_lt_ten digit, show '0'.toNat = 48 from rfl, Nat.add_sub_cancel_left]
          rw [if_neg inRange, inductionHypothesis (Nat.mod_lt _ (by norm_num)), shift]
          cases str.mapM decodeDecimalDigit with
          | none => rfl
          | some ds =>
              -- wrapping after each digit or once at the end gives the same word
              have wrapped : ((10 * n + d) % 2 ^ 64 * 10 ^ ds.length + value 10 ds) % 2 ^ 64 =
                  ((10 * n + d) * 10 ^ ds.length + value 10 ds) % 2 ^ 64 :=
                ((Nat.mod_modEq _ _).mul_right _).add_right _
              simp only [Option.map_some, Option.pure_def, Option.bind_eq_bind, Option.bind_some, List.length_cons,
                value_cons, wrapped]
              congr 2
              ring

/--
The length test and the `memcmp` with the text of `UINTMAX_MAX` detect exactly
the texts worth more than `UINTMAX_MAX`, once the leading zeros are gone.
-/
theorem overflow_iff {str : List Char} {ds : List Nat} (decoded : str.mapM decodeDecimalDigit = some ds)
    (leading : str.head? ≠ some '0') :
    (str.length > uintmaxMaxStr.length ∨
        (str.length = uintmaxMaxStr.length ∧
          ByteMemory.memcmp (str.map Char.toUInt8) (uintmaxMaxStr.map Char.toUInt8) = .gt)) ↔
      uintmaxMax < value 10 ds := by
  obtain ⟨bounded, rfl⟩ := mapM_decodeDecimalDigit_eq_some.mp decoded
  obtain ⟨maxDigits, maxDecoded, maxValue⟩ := uintmaxMaxStr_digits
  obtain ⟨maxBounded, maxText⟩ := mapM_decodeDecimalDigit_eq_some.mp maxDecoded
  have maxLength : maxDigits.length = 20 := by
    rw [← List.length_map (f := Nat.digitChar), ← maxText]
    rfl
  rw [maxText, memcmp_map_digitChar bounded maxBounded, List.length_map, List.length_map, maxLength]
  rcases Nat.lt_trichotomy ds.length 20 with short | same | long
  · -- fewer digits than UINTMAX_MAX has
    have below : value 10 ds < 10 ^ ds.length := value_lt bounded
    have small : 10 ^ ds.length ≤ 10 ^ 19 := Nat.pow_le_pow_right (by norm_num) (by omega)
    have : 10 ^ 19 < uintmaxMax := by norm_num [uintmaxMax]
    constructor
    · rintro (longer | ⟨equal, -⟩) <;> omega
    · intro exceeds
      omega
  · -- as many digits: memcmp compares the values
    rw [lexCompare_eq_compare (same.trans maxLength.symm) bounded maxBounded, maxValue, compare_gt_iff_gt]
    omega
  · -- more digits, and the first is no zero
    obtain ⟨d, rest, rfl⟩ := List.exists_cons_of_ne_nil (List.ne_nil_of_length_pos (by omega : 0 < ds.length))
    have first : 0 < d := by
      rcases Nat.eq_zero_or_pos d with rfl | positive
      · exact absurd rfl leading
      · exact positive
    have large : 10 ^ 20 ≤ 10 ^ rest.length := Nat.pow_le_pow_right (by norm_num) (by simp at long; omega)
    have : uintmaxMax < 10 ^ 20 := by norm_num [uintmaxMax]
    have worth : 10 ^ rest.length ≤ value 10 (d :: rest) := pow_le_value first
    constructor
    · intro _
      omega
    · intro _
      left
      exact long

/--
`parse_unsigned_integer` accepts exactly the nonempty decimal texts whose value
fits in a `uintmax_t`, and returns that value.
-/
theorem parseUnsignedInteger_eq (str : List Char) :
    parseUnsignedInteger str =
      (str.mapM decodeDecimalDigit).bind fun digits =>
        if digits ≠ [] ∧ value 10 digits ≤ uintmaxMax then some (value 10 digits) else none := by
  cases str with
  | nil => rfl
  | cons c more =>
      -- the text is the zeros the source strips, then the rest
      have stripped := List.takeWhile_append_dropWhile (p := (· == '0')) (l := c :: more)
      have dropped := List.head?_dropWhile_not (· == '0') (c :: more)
      have zeros : (c :: more).takeWhile (· == '0') =
          List.replicate ((c :: more).takeWhile (· == '0')).length '0' :=
        List.eq_replicate_iff.mpr ⟨rfl, fun b member => by simpa using List.mem_takeWhile_imp member⟩
      rw [zeros] at stripped
      generalize ((c :: more).takeWhile (· == '0')).length = k at stripped
      rw [parseUnsignedInteger, if_neg (by simp)]
      dsimp only
      generalize (c :: more).dropWhile (· == '0') = rest at stripped dropped ⊢
      have leading : rest.head? ≠ some '0' := by
        intro startsWithZero
        rw [startsWithZero] at dropped
        simp at dropped
      conv_rhs => rw [← stripped, mapM_zeros_append]
      cases decoded : rest.mapM decodeDecimalDigit with
      | none =>
          -- a character that is no digit: the reader refuses it
          have refused : parseNoOverflow 0 rest = none := by
            rw [parseNoOverflow_eq rest (by norm_num), decoded]
            rfl
          simp [refused]
      | some ds =>
          have nonempty : List.replicate k 0 ++ ds ≠ [] := by
            intro empty
            obtain ⟨-, rfl⟩ := mapM_decodeDecimalDigit_eq_some.mp decoded
            simp only [List.append_eq_nil_iff, List.replicate_eq_nil_iff] at empty
            obtain ⟨rfl, rfl⟩ := empty
            simp at stripped
          simp only [Option.map_some, Option.bind_some, value_replicate_zero_append, ne_eq, nonempty,
            not_false_eq_true, true_and]
          rw [parseNoOverflow_eq rest (by norm_num), decoded, Option.map_some, Nat.zero_mul, Nat.zero_add]
          by_cases fits : value 10 ds ≤ uintmaxMax
          · have word : value 10 ds < 2 ^ 64 := by
              unfold uintmaxMax at fits
              omega
            rw [if_neg (fun exceeds => absurd ((overflow_iff decoded leading).mp exceeds) (not_lt.mpr fits)),
              if_pos fits, Nat.mod_eq_of_lt word]
          · rw [if_pos ((overflow_iff decoded leading).mpr (not_le.mp fits)), if_neg fits]

example : parseUnsignedInteger "0018446744073709551615".toList = some uintmaxMax := by decide

example : parseUnsignedInteger "18446744073709551616".toList = none := by decide

/-- The digits of a decimal text are the ones a sign is never among. -/
theorem parseUnsignedInteger_cons_not_sign {c : Char} {rest : List Char} {mag : Nat}
    (accepted : parseUnsignedInteger (c :: rest) = some mag) : c ≠ '+' ∧ c ≠ '-' := by
  rw [parseUnsignedInteger_eq] at accepted
  obtain ⟨ds, decoded, -⟩ := Option.bind_eq_some_iff.mp accepted
  obtain ⟨bounded, text⟩ := mapM_decodeDecimalDigit_eq_some.mp decoded
  cases ds with
  | nil => simp at text
  | cons d ds =>
      simp only [List.map_cons, List.cons.injEq] at text
      rw [text.1]
      have noSign : ∀ d < 10, Nat.digitChar d ≠ '+' ∧ Nat.digitChar d ≠ '-' := by decide
      exact noSign d (bounded d List.mem_cons_self)

/-- What `parse_unsigned_integer` accepts is the decimal text of its value behind some zeros. -/
theorem eq_zeros_append_toDigits {str : List Char} {n : Nat} (accepted : parseUnsignedInteger str = some n) :
    n ≤ uintmaxMax ∧ ∃ k, str = List.replicate k '0' ++ Nat.toDigits 10 n := by
  rw [parseUnsignedInteger_eq] at accepted
  obtain ⟨ds, decoded, result⟩ := Option.bind_eq_some_iff.mp accepted
  split_ifs at result with valid
  obtain ⟨nonempty, fits⟩ := valid
  obtain rfl := Option.some.inj result
  obtain ⟨bounded, rfl⟩ := mapM_decodeDecimalDigit_eq_some.mp decoded
  exact ⟨fits, map_digitChar_eq_zeros_append_toDigits (by norm_num) bounded nonempty⟩

/-- `parse_unsigned_integer` reads back the decimal text of a value that fits, behind any zeros. -/
theorem parseUnsignedInteger_zeros_append_toDigits {n : Nat} (fits : n ≤ uintmaxMax) (k : Nat) :
    parseUnsignedInteger (List.replicate k '0' ++ Nat.toDigits 10 n) = some n := by
  obtain ⟨ds, bounded, text, rfl⟩ := toDigits_eq_map_digitChar (b := 10) (by norm_num) n
  have nonempty : ds ≠ [] := by
    rintro rfl
    have printed := Nat.length_toDigits_pos (b := 10) (n := value 10 [])
    rw [text] at printed
    simp at printed
  rw [parseUnsignedInteger_eq, mapM_zeros_append, text, mapM_decodeDecimalDigit_eq_some.mpr ⟨bounded, rfl⟩]
  simp [value_replicate_zero_append, nonempty, fits]

/-- A text `parse_unsigned_integer` accepts has nothing but decimal digits. -/
theorem isDigit_of_parseUnsignedInteger {str : List Char} {n : Nat} (accepted : parseUnsignedInteger str = some n) :
    ∀ c ∈ str, c.isDigit := by
  obtain ⟨-, k, rfl⟩ := eq_zeros_append_toDigits accepted
  intro c member
  rcases List.mem_append.mp member with zero | digit
  · rw [List.eq_of_mem_replicate zero]
    rfl
  · exact Nat.isDigit_of_mem_toDigits (by norm_num) (by norm_num) digit

/--
`parse_unsigned_integer` accepts with value `n` exactly the decimal text of
`n` behind any number of zeros, and only for `n` up to `UINTMAX_MAX`.
-/
theorem parseUnsignedInteger_eq_some_iff {str : List Char} {n : Nat} :
    parseUnsignedInteger str = some n ↔ n ≤ uintmaxMax ∧ ∃ k, str = List.replicate k '0' ++ Nat.toDigits 10 n := by
  constructor
  · exact eq_zeros_append_toDigits
  · rintro ⟨fits, k, rfl⟩
    exact parseUnsignedInteger_zeros_append_toDigits fits k

/-- The loop of `parse_unsigned_hex_integer` is the bounded reader of its digits. -/
theorem hexLoop_eq (n : Nat) (str : List Char) :
    hexLoop n str = (str.mapM decodeHexDigit).bind fun ds => ds.foldlM (checkedStep uintmaxMax 16) n := by
  induction str generalizing n with
  | nil => rfl
  | cons c str inductionHypothesis =>
      rw [hexLoop, List.mapM_cons]
      cases decodeHexDigit c with
      | none => rfl
      | some digit =>
          -- the digit's step comes first, then the rest of the text
          have commute : ((str.mapM decodeHexDigit).bind fun ds => (digit :: ds).foldlM (checkedStep uintmaxMax 16) n) =
              (checkedStep uintmaxMax 16 n digit).bind fun m =>
                (str.mapM decodeHexDigit).bind fun ds => ds.foldlM (checkedStep uintmaxMax 16) m := by
            simp only [List.foldlM_cons]
            cases str.mapM decodeHexDigit <;> cases checkedStep uintmaxMax 16 n digit <;> rfl
          simp only [Option.pure_def, Option.bind_eq_bind, Option.bind_some, Option.bind_assoc]
          rw [commute, checkedStep]
          split_ifs <;> simp [inductionHypothesis]

/--
`parse_unsigned_hex_integer` accepts exactly the nonempty hexadecimal texts
whose value fits in a `uintmax_t`, and returns that value.
-/
theorem parseUnsignedHexInteger_eq (str : List Char) :
    parseUnsignedHexInteger str =
      (str.mapM decodeHexDigit).bind fun digits =>
        if digits ≠ [] ∧ value 16 digits ≤ uintmaxMax then some (value 16 digits) else none := by
  cases str with
  | nil => rfl
  | cons c more =>
      rw [parseUnsignedHexInteger, if_neg (by simp), hexLoop_eq]
      cases decoded : (c :: more).mapM decodeHexDigit with
      | none => rfl
      | some ds =>
          have nonempty : ds ≠ [] := by
            rintro rfl
            simp [List.mapM_cons, Option.bind_eq_some_iff] at decoded
          rw [Option.bind_some, Option.bind_some, foldlM_checkedStep (by norm_num) ds (Nat.zero_le _)]
          simp [nonempty]

/--
`parse_signmag_integer` accepts exactly a magnitude `parse_unsigned_integer`
accepts, behind no sign or `+` (sign `1`) or behind `-` (sign `-1`).
-/
theorem parseSignmagInteger_eq_some_iff {str : List Char} {sign : Int} {mag : Nat} :
    parseSignmagInteger str = some (sign, mag) ↔
      ∃ rest, parseUnsignedInteger rest = some mag ∧
        (str = rest ∧ sign = 1 ∨ str = '+' :: rest ∧ sign = 1 ∨ str = '-' :: rest ∧ sign = -1) := by
  cases str with
  | nil =>
      -- no sign, and the empty magnitude is refused
      have refused : parseUnsignedInteger [] = none := rfl
      simp [parseSignmagInteger, refused]
  | cons c rest =>
      by_cases signed : c = '+' ∨ c = '-'
      · have magnitude : parseSignmagInteger (c :: rest) =
            (parseUnsignedInteger rest).map fun mag => (1 - 2 * (if c = '-' then 1 else 0), mag) := by
          simp [parseSignmagInteger, signed]
        rw [magnitude]
        constructor
        · intro accepted
          obtain ⟨m, parsed, result⟩ := Option.map_eq_some_iff.mp accepted
          obtain ⟨rfl, rfl⟩ := Prod.mk.inj result
          rcases signed with rfl | rfl
          · exact ⟨rest, parsed, Or.inr (Or.inl ⟨rfl, by decide⟩)⟩
          · exact ⟨rest, parsed, Or.inr (Or.inr ⟨rfl, by decide⟩)⟩
        · rintro ⟨r, parsed, ⟨rfl, -⟩ | ⟨text, rfl⟩ | ⟨text, rfl⟩⟩
          · exact absurd signed (by simpa using parseUnsignedInteger_cons_not_sign parsed)
          · obtain ⟨rfl, rfl⟩ := List.cons.inj text
            simp [parsed]
          · obtain ⟨rfl, rfl⟩ := List.cons.inj text
            simp [parsed]
      · have magnitude : parseSignmagInteger (c :: rest) = (parseUnsignedInteger (c :: rest)).map fun mag => (1, mag) := by
          simp [parseSignmagInteger, signed]
        rw [magnitude]
        constructor
        · intro accepted
          obtain ⟨m, parsed, result⟩ := Option.map_eq_some_iff.mp accepted
          obtain ⟨rfl, rfl⟩ := Prod.mk.inj result
          exact ⟨c :: rest, parsed, Or.inl ⟨rfl, rfl⟩⟩
        · rintro ⟨r, parsed, ⟨rfl, rfl⟩ | ⟨text, -⟩ | ⟨text, -⟩⟩
          · simp [parsed]
          · exact absurd (Or.inl (List.cons.inj text).1) signed
          · exact absurd (Or.inr (List.cons.inj text).1) signed

end Reading

section Writing

/-- The decimal text of a number of two digits or more: that of its tenth, then its last digit. -/
theorem toDigits_of_ten_le {x : Nat} (more : 10 ≤ x) :
    Nat.toDigits 10 x = Nat.toDigits 10 (x / 10) ++ [Nat.digitChar (x % 10)] := by
  rw [Nat.toDigits_eq_if (by norm_num), if_neg (by omega)]

theorem reprSizeLoop_eq (size x : Nat) : reprSizeLoop size x = size + (Nat.toDigits 10 x).length := by
  fun_induction reprSizeLoop size x with
  | case1 size x size' x' more inductionHypothesis =>
      dsimp only [size', x'] at more inductionHypothesis ⊢
      rw [inductionHypothesis, toDigits_of_ten_le (x := x) (by omega), List.length_append, List.length_singleton]
      omega
  | case2 size x size' x' last =>
      dsimp only [size', x'] at last ⊢
      rw [Nat.toDigits_of_lt_base (by omega), List.length_singleton]

/-- `compute_decimal_repr_size` counts the digits of the decimal text. -/
theorem computeDecimalReprSize_eq (x : Nat) : computeDecimalReprSize x = (Nat.toDigits 10 x).length := by
  rw [computeDecimalReprSize, reprSizeLoop_eq, Nat.zero_add]

/-- Writing the character before `out` splits the buffer there. -/
theorem drop_set_pred {buf : List Char} {out : Nat} {c : Char} (positive : 0 < out) (inside : out ≤ buf.length) :
    (buf.set (out - 1) c).drop (out - 1) = c :: buf.drop out := by
  rw [List.drop_set, if_neg (Nat.lt_irrefl _), Nat.sub_self, List.drop_eq_getElem_cons (by omega),
    List.set_cons_zero, Nat.sub_add_cancel positive]

/--
The loop of `generate_decimal_repr` leaves the decimal text of `x` just before
`out` and every other character of the buffer as it was.
-/
theorem generateLoop_eq (x out : Nat) (buf : List Char) (room : (Nat.toDigits 10 x).length ≤ out)
    (inside : out ≤ buf.length) :
    generateLoop x out buf = buf.take (out - (Nat.toDigits 10 x).length) ++ Nat.toDigits 10 x ++ buf.drop out := by
  fun_induction generateLoop x out buf with
  | case1 x out buf out' buf' x' more inductionHypothesis =>
      dsimp only [out', buf', x'] at more inductionHypothesis ⊢
      -- the digits of x / 10 go before the last one
      have text := toDigits_of_ten_le (x := x) (by omega)
      rw [text, List.length_append, List.length_singleton] at room ⊢
      rw [inductionHypothesis (by omega) (by simp; omega), List.take_set_of_le (by omega),
        drop_set_pred (by omega) inside, ofNat_zero_add _ (Nat.mod_lt _ (by norm_num))]
      simp only [List.append_assoc, List.singleton_append]
      congr 2
      omega
  | case2 x out buf out' buf' x' last =>
      dsimp only [out', buf', x'] at last ⊢
      have text : Nat.toDigits 10 x = [Nat.digitChar x] := Nat.toDigits_of_lt_base (by omega)
      rw [text, List.length_singleton] at room ⊢
      rw [List.set_eq_take_append_cons_drop, if_pos (by omega), Nat.sub_add_cancel room,
        Nat.mod_eq_of_lt (by omega), ofNat_zero_add x (by omega)]
      simp

/--
`generate_decimal_repr_string` writes the decimal text of `x` at `out` and a
NUL after it, changes nothing else, and returns the length of the text.
-/
theorem generateDecimalReprString_eq (x : Nat) (buf : List Char) (out : Nat)
    (room : out + (Nat.toDigits 10 x).length < buf.length) :
    generateDecimalReprString x buf out =
      some (buf.take out ++ Nat.toDigits 10 x ++ Char.ofNat 0 :: buf.drop (out + (Nat.toDigits 10 x).length + 1),
        (Nat.toDigits 10 x).length) := by
  rw [generateDecimalReprString, generateDecimalRepr, if_pos rfl, Option.map_some, computeDecimalReprSize_eq,
    generateLoop_eq x _ buf (by omega) (by omega), Nat.add_sub_cancel]
  -- the NUL goes on the first character after the text
  have before : (buf.take out ++ Nat.toDigits 10 x).length = out + (Nat.toDigits 10 x).length := by
    simp only [List.length_append, List.length_take]
    omega
  rw [List.set_append_right _ _ before.le, before, Nat.sub_self, List.drop_eq_getElem_cons (by omega),
    List.set_cons_zero]

theorem generateDecimalReprString_eq_at_one :
    1 + (Nat.toDigits 10 42).length < "......".toList.length ∧
      generateDecimalReprString 42 "......".toList 1 =
        some ("......".toList.take 1 ++ Nat.toDigits 10 42 ++
            Char.ofNat 0 :: "......".toList.drop (1 + (Nat.toDigits 10 42).length + 1),
          (Nat.toDigits 10 42).length) :=
  ⟨by decide, generateDecimalReprString_eq 42 "......".toList 1 (by decide)⟩

end Writing

end ParseNumber

end Tun2SocksWinRT
