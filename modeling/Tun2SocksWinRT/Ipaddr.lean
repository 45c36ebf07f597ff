import Mathlib
import Tun2SocksWinRT.ByteBits
import Tun2SocksWinRT.BAddr
import Tun2SocksWinRT.ParseNumber

namespace Tun2SocksWinRT

namespace Ipaddr

/-!
# IPv4 addresses and networks (misc/ipaddr.h)

An IPv4 address is a `uint32_t` in network byte order; as in `BAddr`, the
model keeps its four bytes as they lie in memory, `b[0]` first.  `&` of two
such words is `&` of their bytes, `hton32` lays a host number out most
significant byte first and `ntoh32` (`BAddr.ntoh`) reads it back.

`ipaddr_parse_ipv4_addr` reads four fields separated by dots, each of one to
three characters that `parse_unsigned_integer` reads as a byte.  It accepts
exactly the texts that are four such fields joined by dots
(`parseIpv4Addr_eq_some_iff`), so it reads back what `ipaddr_print_addr`
prints, and `ipaddr_parse_ipv4_ifaddr` reads back `ipaddr_print_ifaddr`.
`ipaddr_ipv4_prefix_from_mask` recognises exactly the masks
`ipaddr_ipv4_mask_from_prefix` builds, those whose first `p` bits are set,
and `ipaddr_ipv4_addrs_in_network` compares exactly the first `p` bits of two
addresses.
-/

open ByteBits
open ParseNumber (parseUnsignedInteger uintmaxMax)

/-- `MemRef_FindChar` (misc/memref.h): the position of the first `ch`. -/
def memRefFindChar (ch : Char) : List Char → Option Nat
  | [] => none
  | c :: rest => if c = ch then some 0 else (memRefFindChar ch rest).map (· + 1)

/-- `struct ipv4_ifaddr`: an address and the length of its network prefix. -/
structure Ipv4Ifaddr where
  addr : Vector UInt8 4
  prefixLength : Nat
  deriving DecidableEq, Repr

/-- `IPADDR_PRINT_MAX`. -/
def printMax : Nat := 19

/-- `hton32`: the bytes of a 32-bit number as they lie in memory, most significant first. -/
def hton32 (t : Nat) : Vector UInt8 4 :=
  ⟨(ByteMemory.le32 t).reverse.toArray, by simp⟩

section Parse

/-- The loop of `ipaddr_parse_ipv4_addr` at field `i`, with `out_addr` as written so far. -/
def parseIpv4AddrLoop (name : List Char) (i : Fin 4) (out : Vector UInt8 4) : Option (Vector UInt8 4) :=
  -- for (j = 0; j < name.len && name.ptr[j] != '.'; j++);
  let j := (name.takeWhile (· != '.')).length
  if (j = name.length ∧ i.val < 3) ∨ (j < name.length ∧ i.val = 3) then none
  else if j < 1 ∨ j > 3 then none
  else
    match parseUnsignedInteger (name.take j) with
    | none => none
    | some d =>
        if d > 255 then none
        else
          let out := out.set i.val (UInt8.ofNat d) i.isLt
          if last : i.val = 3 then some out
          else parseIpv4AddrLoop (name.drop (j + 1)) ⟨i.val + 1, Nat.lt_of_le_of_ne i.isLt (mt Nat.add_right_cancel last)⟩ out
termination_by 3 - i.val
decreasing_by
  show 3 - (i.val + 1) < 3 - i.val
  omega

/--
`ipaddr_parse_ipv4_addr`.  Each byte of `out_addr` is written before the loop
returns 1, so what it held before does not matter.
-/
def parseIpv4Addr (name : List Char) : Option (Vector UInt8 4) :=
  parseIpv4AddrLoop name 0 (Vector.replicate 4 0)

def parseIpv4Prefix (str : List Char) : Option Nat :=
  match parseUnsignedInteger str with
  | none => none
  | some d => if d > 32 then none else some d

def parseIpv4Ifaddr (str : List Char) : Option Ipv4Ifaddr :=
  match memRefFindChar '/' str with
  | none => none
  | some slashPos =>
      (parseIpv4Addr (str.take slashPos)).bind fun addr =>
        (parseIpv4Prefix (str.drop (slashPos + 1))).map fun prefixLength => ⟨addr, prefixLength⟩

end Parse

section Masks

def ipv4MaskFromPrefix (prefixLength : Nat) : Option (Vector UInt8 4) :=
  if prefixLength ≤ 32 then
    -- for (int i = 0; i < prefix; i++) t |= 1 << (32 - i - 1);
    some (hton32 (orLoop 32 prefixLength))
  else none

def ipv4PrefixFromMask (mask : Vector UInt8 4) : Option Nat :=
  -- for (i = 0; i <= 32; i++) { if (ntoh32(mask) == t) break; if (i < 32) t |= (1 << (32 - i - 1)); }
  prefixSearch 32 (BAddr.ntoh mask)

def ipv4IfaddrFromAddrMask (addr mask : Vector UInt8 4) : Option Ipv4Ifaddr :=
  (ipv4PrefixFromMask mask).map fun prefixLength => ⟨addr, prefixLength⟩

/-- `&` of two `uint32_t`: each byte of the result is the `&` of theirs. -/
def and32 (a b : Vector UInt8 4) : Vector UInt8 4 :=
  Vector.zipWith (· &&& ·) a b

def ipv4AddrsInNetwork (addr1 addr2 : Vector UInt8 4) (netPrefix : Nat) : Option Bool :=
  (ipv4MaskFromPrefix netPrefix).map fun mask => and32 addr1 mask == and32 addr2 mask

end Masks

section Print

/-- `%PRIu8`: the decimal text of a byte. -/
def byteText (b : UInt8) : List Char :=
  Nat.toDigits 10 b.toNat

def printAddr (addr : Vector UInt8 4) : List Char :=
  byteText addr[0] ++ '.' :: byteText addr[1] ++ '.' :: byteText addr[2] ++ '.' :: byteText addr[3]

/-- `ipaddr_print_ifaddr`, which asserts a prefix of at most 32. -/
def printIfaddr (ifaddr : Ipv4Ifaddr) : Option (List Char) :=
  if ifaddr.prefixLength ≤ 32 then
    some (printAddr ifaddr.addr ++ '/' :: Nat.toDigits 10 ifaddr.prefixLength)
  else none

end Print

section Fields

/-- A field of a dotted quad: at most three characters, which `parse_unsigned_integer` reads as the byte. -/
def Field (text : List Char) (b : UInt8) : Prop :=
  text.length ≤ 3 ∧ parseUnsignedInteger text = some b.toNat

instance (text : List Char) (b : UInt8) : Decidable (Field text b) :=
  inferInstanceAs (Decidable (_ ∧ _))

theorem Field.not_dot {text : List Char} {b : UInt8} (field : Field text b) : '.' ∉ text := fun member =>
  absurd (ParseNumber.isDigit_of_parseUnsignedInteger field.2 '.' member) (by decide)

theorem Field.length_pos {text : List Char} {b : UInt8} (field : Field text b) : 0 < text.length := by
  apply List.length_pos_iff.mpr
  rintro rfl
  exact absurd field.2 (by simp [show parseUnsignedInteger [] = none from rfl])

/--
The checks the loop makes on a field before it writes the byte: they pass,
and the loop goes on with the byte, exactly for a field of that byte.
-/
theorem fieldChecks_eq_some {α : Type} {text : List Char} (next : Nat → Option α) (r : α) :
    (if text.length < 1 ∨ text.length > 3 then none
      else
        match parseUnsignedInteger text with
        | none => none
        | some d => if d > 255 then none else next d) = some r ↔
      ∃ b : UInt8, Field text b ∧ next b.toNat = some r := by
  constructor
  · intro passed
    split_ifs at passed with lengths
    cases read : parseUnsignedInteger text with
    | none => simp [read] at passed
    | some d =>
        simp only [read] at passed
        split_ifs at passed with large
        refine ⟨UInt8.ofNat d, ⟨by omega, ?_⟩, ?_⟩ <;> rw [UInt8.toNat_ofNat', Nat.mod_eq_of_lt (by omega)]
        · exact read
        · exact passed
  · rintro ⟨b, field, passed⟩
    have small : b.toNat ≤ 255 := by have := b.toNat_lt; omega
    rw [if_neg (by have := field.length_pos; have := field.1; omega), field.2]
    simp only
    rw [if_neg (by omega)]
    exact passed

theorem takeWhile_not_dot {f : List Char} (noDot : '.' ∉ f) : f.takeWhile (· != '.') = f :=
  List.takeWhile_eq_self_iff.mpr fun c member => by simpa using ne_of_mem_of_not_mem member noDot

theorem takeWhile_not_dot_append {f : List Char} (noDot : '.' ∉ f) (rest : List Char) :
    (f ++ '.' :: rest).takeWhile (· != '.') = f := by
  rw [List.takeWhile_append_of_pos fun c member => by simpa using ne_of_mem_of_not_mem member noDot,
    List.takeWhile_cons_of_neg (by simp), List.append_nil]

/-- A text with a dot is the text before its first dot, the dot and the rest. -/
theorem exists_eq_append_dot {name : List Char} (dot : '.' ∈ name) :
    ∃ f rest, '.' ∉ f ∧ name = f ++ '.' :: rest := by
  induction name with
  | nil => simp at dot
  | cons c name inductionHypothesis =>
      by_cases first : c = '.'
      · exact ⟨[], name, List.not_mem_nil, by rw [first]; rfl⟩
      · obtain ⟨f, rest, noDot, rfl⟩ := inductionHypothesis (by simpa [Ne.symm first] using dot)
        exact ⟨c :: f, rest, by simp [Ne.symm first, noDot], rfl⟩

/-- Two texts split at their first dot split the same way. -/
theorem append_dot_inj {f g r s : List Char} (fNoDot : '.' ∉ f) (gNoDot : '.' ∉ g)
    (same : f ++ '.' :: r = g ++ '.' :: s) : f = g ∧ r = s := by
  have first : f = g := by
    rw [← takeWhile_not_dot_append fNoDot r, same, takeWhile_not_dot_append gNoDot s]
  subst first
  exact ⟨rfl, by simpa using same⟩

theorem drop_append_cons (f rest : List Char) (c : Char) : (f ++ c :: rest).drop (f.length + 1) = rest := by
  simp [List.drop_append]

theorem intercalate_dot_cons (g : List Char) {gs : List (List Char)} (more : gs ≠ []) :
    List.intercalate ['.'] (g :: gs) = g ++ '.' :: List.intercalate ['.'] gs := by
  obtain ⟨h, hs, rfl⟩ := List.exists_cons_of_ne_nil more
  rw [List.intercalate_cons_cons]
  simp

end Fields

section ParseLoop

/-- The bytes before field `i` after writing `x` at `i`: those before, then `x`. -/
theorem take_set_succ (out : Vector UInt8 4) (i : Fin 4) (x : UInt8) :
    (out.set i.val x i.isLt).toList.take (i.val + 1) = out.toList.take i.val ++ [x] := by
  rw [Vector.toList_set, List.take_add_one, List.getElem?_set_self (by simp), List.take_set_of_le (le_refl _)]
  rfl

theorem take_succ_toList (a : Vector UInt8 4) (i : Fin 4) :
    a.toList.take (i.val + 1) = a.toList.take i.val ++ [a[i]] := by
  rw [List.take_add_one, List.getElem?_eq_getElem (by simp)]
  simp

/--
From field `i` on, the loop accepts exactly the rest of a dotted quad: the
bytes before `i` stay as they were, and the text is the remaining fields of
the result joined by dots.
-/
theorem parseIpv4AddrLoop_eq_some (left : Nat) (name : List Char) (i : Fin 4) (out a : Vector UInt8 4)
    (passes : i.val + left = 3) :
    parseIpv4AddrLoop name i out = some a ↔
      a.toList.take i.val = out.toList.take i.val ∧
        ∃ fields, name = List.intercalate ['.'] fields ∧ List.Forall₂ Field fields (a.toList.drop i.val) := by
  induction left generalizing name i out with
  | zero =>
      -- the last field: the rest of the text, with no dot in it
      have three : i.val = 3 := by omega
      have dropped : a.toList.drop i.val = [a[i]] := by
        rw [List.drop_eq_getElem_cons (by simp), List.drop_eq_nil_of_le (by simp; omega)]
        simp
      have lastField : (∃ fields, name = List.intercalate ['.'] fields ∧ List.Forall₂ Field fields [a[i]]) ↔
          Field name a[i] := by
        constructor
        · rintro ⟨fields, rfl, read⟩
          cases read with
          | cons field rest =>
              cases rest
              simpa using field
        · intro field
          exact ⟨[name], List.intercalate_singleton.symm, List.Forall₂.cons field List.Forall₂.nil⟩
      rw [dropped, lastField, parseIpv4AddrLoop]
      dsimp only
      by_cases dot : '.' ∈ name
      · -- a fourth dot: the loop stops, and a single field has no dot
        obtain ⟨f, rest, noDot, rfl⟩ := exists_eq_append_dot dot
        rw [takeWhile_not_dot_append noDot, if_pos (Or.inr ⟨by simp, three⟩)]
        simp only [reduceCtorEq, false_iff, not_and]
        intro _ field
        exact field.not_dot dot
      · rw [takeWhile_not_dot dot, if_neg (by omega), List.take_length, fieldChecks_eq_some]
        simp only [dif_pos three, UInt8.ofNat_toNat, Option.some.injEq]
        constructor
        · rintro ⟨b, field, rfl⟩
          refine ⟨?_, by simpa using field⟩
          rw [Vector.toList_set, List.take_set_of_le (le_refl _)]
        · rintro ⟨before, field⟩
          refine ⟨a[i], field, Vector.toList_inj.mp ?_⟩
          -- the byte written last completes the address
          have whole := take_set_succ out i a[i]
          rw [← before, ← take_succ_toList, List.take_of_length_le (by simp; omega),
            List.take_of_length_le (by simp; omega)] at whole
          exact whole
  | succ left inductionHypothesis =>
      have notLast : i.val ≠ 3 := by omega
      have more : a.toList.drop (i.val + 1) ≠ [] := by simp; omega
      rw [parseIpv4AddrLoop]
      dsimp only
      by_cases dot : '.' ∈ name
      · -- a field, a dot, and the fields after it
        obtain ⟨f, rest, noDot, rfl⟩ := exists_eq_append_dot dot
        rw [takeWhile_not_dot_append noDot, if_neg (by simp; omega), List.take_left' rfl, drop_append_cons,
          fieldChecks_eq_some]
        have step := fun out => inductionHypothesis rest ⟨i.val + 1, by omega⟩ out (by simp; omega)
        simp only [dif_neg notLast, UInt8.ofNat_toNat, step, take_set_succ, take_succ_toList a i,
          List.drop_eq_getElem_cons (show i.val < a.toList.length by simp)]
        constructor
        · rintro ⟨b, field, taken, fs, rfl, read⟩
          obtain ⟨before, last⟩ := List.append_inj taken (by simp)
          obtain rfl : a[i] = b := by simpa using last
          have later : fs ≠ [] := fun empty => more (List.eq_nil_of_length_eq_zero (by
            rw [← read.length_eq, empty, List.length_nil]))
          refine ⟨before, f :: fs, by rw [intercalate_dot_cons f later], ?_⟩
          simpa using List.Forall₂.cons field read
        · rintro ⟨before, fields, text, read⟩
          cases read with
          | cons field rest' =>
              rename_i g gs
              have later : gs ≠ [] := fun empty => more (List.eq_nil_of_length_eq_zero (by
                rw [← rest'.length_eq, empty, List.length_nil]))
              rw [intercalate_dot_cons g later] at text
              obtain ⟨rfl, rfl⟩ := append_dot_inj noDot field.not_dot text
              exact ⟨a[i], by simpa using field, by rw [before], gs, rfl, rest'⟩
      · -- fields remain but no dot: the loop stops, and fields joined by dots have one
        rw [takeWhile_not_dot dot, if_pos (Or.inl ⟨rfl, by omega⟩)]
        simp only [reduceCtorEq, false_iff, not_and, not_exists]
        intro _ fields text read
        rw [List.drop_eq_getElem_cons (show i.val < a.toList.length by simp)] at read
        cases read with
        | cons field rest' =>
            rename_i g gs
            have later : gs ≠ [] := fun empty => more (List.eq_nil_of_length_eq_zero (by
              rw [← rest'.length_eq, empty, List.length_nil]))
            rw [intercalate_dot_cons g later] at text
            exact dot (text ▸ List.mem_append_right g List.mem_cons_self)

/--
`ipaddr_parse_ipv4_addr` accepts exactly four fields joined by dots, each of
one to three characters that `parse_unsigned_integer` reads as its byte.
-/
theorem parseIpv4Addr_eq_some_iff (name : List Char) (a : Vector UInt8 4) :
    parseIpv4Addr name = some a ↔ ∃ fields, name = List.intercalate ['.'] fields ∧ List.Forall₂ Field fields a.toList := by
  rw [parseIpv4Addr, parseIpv4AddrLoop_eq_some 3 name 0 _ a rfl]
  simp

end ParseLoop

section RoundTrip

theorem field_byteText (b : UInt8) : Field (byteText b) b := by
  have small : b.toNat < 256 := b.toNat_lt
  refine ⟨Nat.toDigits_length 10 _ 3 (by norm_num) (by omega), ?_⟩
  have read := ParseNumber.parseUnsignedInteger_zeros_append_toDigits (n := b.toNat)
    (by unfold uintmaxMax; omega) 0
  rwa [List.replicate_zero, List.nil_append] at read

theorem printAddr_eq_intercalate (a : Vector UInt8 4) :
    printAddr a = List.intercalate ['.'] (a.toList.map byteText) := by
  have four : a.toList = [a[0], a[1], a[2], a[3]] :=
    List.ext_getElem (by simp) fun k inside _ => by
      simp only [Vector.length_toList] at inside
      interval_cases k <;> simp
  rw [four, printAddr]
  simp [List.intercalate_cons_cons]

/-- `ipaddr_parse_ipv4_addr` reads back what `ipaddr_print_addr` prints. -/
theorem parseIpv4Addr_printAddr (a : Vector UInt8 4) : parseIpv4Addr (printAddr a) = some a := by
  rw [parseIpv4Addr, parseIpv4AddrLoop_eq_some 3 _ 0 _ a rfl]
  refine ⟨rfl, a.toList.map byteText, printAddr_eq_intercalate a, ?_⟩
  rw [Fin.val_zero, List.drop_zero, List.forall₂_map_left_iff, List.forall₂_same]
  exact fun b _ => field_byteText b

theorem isDigit_of_mem_byteText {b : UInt8} {c : Char} (member : c ∈ byteText b) : c.isDigit :=
  Nat.isDigit_of_mem_toDigits (by norm_num) (by norm_num) member

theorem slash_not_mem_printAddr (a : Vector UInt8 4) : '/' ∉ printAddr a := by
  have noSlash : ∀ b : UInt8, '/' ∉ byteText b := fun b member =>
    absurd (isDigit_of_mem_byteText member) (by decide)
  simp [printAddr, noSlash]

theorem memRefFindChar_append {ch : Char} {front : List Char} (absent : ch ∉ front) (rest : List Char) :
    memRefFindChar ch (front ++ ch :: rest) = some front.length := by
  induction front with
  | nil => simp [memRefFindChar]
  | cons c front inductionHypothesis =>
      have other : c ≠ ch := fun same => absent (same ▸ List.mem_cons_self)
      rw [List.cons_append, memRefFindChar, if_neg other,
        inductionHypothesis fun member => absent (List.mem_cons_of_mem c member)]
      rfl

theorem parseIpv4Prefix_toDigits {p : Nat} (fits : p ≤ 32) : parseIpv4Prefix (Nat.toDigits 10 p) = some p := by
  have read := ParseNumber.parseUnsignedInteger_zeros_append_toDigits (n := p)
    (by unfold uintmaxMax; omega) 0
  rw [List.replicate_zero, List.nil_append] at read
  rw [parseIpv4Prefix, read]
  simp only
  rw [if_neg (by omega)]

/-- `ipaddr_parse_ipv4_ifaddr` reads back what `ipaddr_print_ifaddr` prints. -/
theorem parseIpv4Ifaddr_printIfaddr {ifaddr : Ipv4Ifaddr} {text : List Char}
    (printed : printIfaddr ifaddr = some text) : parseIpv4Ifaddr text = some ifaddr := by
  unfold printIfaddr at printed
  split_ifs at printed with fits
  obtain rfl := Option.some.inj printed
  rw [parseIpv4Ifaddr, memRefFindChar_append (slash_not_mem_printAddr ifaddr.addr)]
  simp only
  rw [List.take_left' rfl, parseIpv4Addr_printAddr, Option.bind_some, drop_append_cons,
    parseIpv4Prefix_toDigits fits, Option.map_some]

theorem parseIpv4Ifaddr_printIfaddr_lan :
    printIfaddr ⟨#v[192, 168, 1, 7], 24⟩ = some "192.168.1.7/24".toList ∧
      parseIpv4Ifaddr "192.168.1.7/24".toList = some ⟨#v[192, 168, 1, 7], 24⟩ :=
  ⟨by decide, parseIpv4Ifaddr_printIfaddr (by decide)⟩

theorem length_byteText_le (b : UInt8) : (byteText b).length ≤ 3 :=
  (field_byteText b).1

/-- The text of `ipaddr_print_ifaddr` and its NUL fit in `IPADDR_PRINT_MAX` characters. -/
theorem length_printIfaddr_lt (ifaddr : Ipv4Ifaddr) {text : List Char} (printed : printIfaddr ifaddr = some text) :
    text.length < printMax := by
  unfold printIfaddr at printed
  split_ifs at printed with fits
  obtain rfl := Option.some.inj printed
  have prefixDigits : (Nat.toDigits 10 ifaddr.prefixLength).length ≤ 2 :=
    Nat.toDigits_length 10 _ 2 (by norm_num) (by omega)
  have b0 := length_byteText_le ifaddr.addr[0]
  have b1 := length_byteText_le ifaddr.addr[1]
  have b2 := length_byteText_le ifaddr.addr[2]
  have b3 := length_byteText_le ifaddr.addr[3]
  simp only [printAddr, List.length_append, List.length_cons, printMax]
  omega

end RoundTrip

section MaskLemmas

theorem toList_hton32 (t : Nat) : (hton32 t).toList = (ByteMemory.le32 t).reverse := by
  simp [hton32]

theorem bits_hton32 (t : Nat) : bits (hton32 t).toList = numBits 32 t := by
  rw [toList_hton32, bits_reverse_le32]

theorem ntoh_hton32 {t : Nat} (small : t < 2 ^ 32) : BAddr.ntoh (hton32 t) = t := by
  rw [BAddr.ntoh, toList_hton32, List.reverse_reverse, ByteMemory.ofLe_le32 small]

/--
`ipaddr_ipv4_prefix_from_mask` recognises exactly the masks
`ipaddr_ipv4_mask_from_prefix` builds, and gives back their prefix.
-/
theorem ipv4PrefixFromMask_eq_some_iff (mask : Vector UInt8 4) (p : Nat) :
    ipv4PrefixFromMask mask = some p ↔ ipv4MaskFromPrefix p = some mask := by
  rw [ipv4PrefixFromMask, prefixSearch_eq_some, ipv4MaskFromPrefix]
  constructor
  · rintro ⟨fits, value⟩
    rw [if_pos fits, Option.some.injEq]
    apply BAddr.ntoh_inj
    rw [ntoh_hton32 (orLoop_lt fits), value]
  · intro made
    split_ifs at made with fits
    obtain rfl := Option.some.inj made
    exact ⟨fits, ntoh_hton32 (orLoop_lt fits)⟩

example : ipv4PrefixFromMask #v[255, 255, 254, 0] = some 23 := by decide

example : ipv4PrefixFromMask #v[255, 0, 255, 0] = none := by decide

theorem bits_and32 (a b : Vector UInt8 4) :
    bits (and32 a b).toList = List.zipWith (· && ·) (bits a.toList) (bits b.toList) := by
  rw [and32, Vector.toList_zipWith, bits_zipWith_and (by simp)]

theorem and32_eq_iff {a b mask : Vector UInt8 4} :
    and32 a mask = and32 b mask ↔ bits (and32 a mask).toList = bits (and32 b mask).toList := by
  constructor
  · intro same
    rw [same]
  · intro same
    exact Vector.toList_inj.mp (bits_inj (by simp) same)

/--
`ipaddr_ipv4_addrs_in_network` holds exactly when the first `netprefix` bits
of the two addresses agree, for a prefix of at most 32 bits.
-/
theorem ipv4AddrsInNetwork_eq_some_iff (addr1 addr2 : Vector UInt8 4) (netPrefix : Nat) (r : Bool) :
    ipv4AddrsInNetwork addr1 addr2 netPrefix = some r ↔
      netPrefix ≤ 32 ∧ (r = true ↔ (bits addr1.toList).take netPrefix = (bits addr2.toList).take netPrefix) := by
  unfold ipv4AddrsInNetwork ipv4MaskFromPrefix
  split_ifs with fits
  · -- under the mask, the words are equal exactly when their first bits are
    have same : and32 addr1 (hton32 (orLoop 32 netPrefix)) = and32 addr2 (hton32 (orLoop 32 netPrefix)) ↔
        (bits addr1.toList).take netPrefix = (bits addr2.toList).take netPrefix := by
      rw [and32_eq_iff, bits_and32, bits_and32, bits_hton32, numBits_orLoop fits,
        zipWith_and_prefixMask_eq_iff (by simp) (by simp) fits]
    rw [Option.map_some, Option.some.injEq, ← same]
    cases r <;> simp [fits]
  · simp [fits]

end MaskLemmas

end Ipaddr

end Tun2SocksWinRT
