import Mathlib
import Tun2SocksWinRT.ByteBits
import Tun2SocksWinRT.ParseNumber
import Tun2SocksWinRT.Ipaddr
import Tun2SocksWinRT.Ipaddr6Print

namespace Tun2SocksWinRT

namespace Ipaddr6

/-!
# IPv6 networks (misc/ipaddr6.h)

The prefix and mask functions of `ipaddr6.h` work on the sixteen bytes of a
`struct ipv6_addr`, in network order, which the model keeps as a
`Vector UInt8 16`; the text functions keep an address as its eight groups
(`Addr`).  `ipaddr6_ipv6_mask_from_prefix` sets the first `prefix` bits of
the mask, `ipaddr6_ipv6_prefix_from_mask` recognises exactly such masks
(`ipv6PrefixFromMask_eq_some_iff`), and `ipaddr6_ipv6_addrs_in_network`
compares exactly the first `netprefix` bits of two addresses, a `memcmp` of
the whole bytes and a masked compare of the byte the prefix ends in.
`ipaddr6_parse_ipv6_ifaddr` reads back what `ipaddr6_print_ifaddr` prints,
which fits in `IPADDR6_PRINT_MAX` characters.
-/

open ByteBits
open ParseNumber (parseUnsignedInteger uintmaxMax)

/-- `struct ipv6_ifaddr`: an address and the length of its network prefix. -/
structure Ifaddr where
  addr : Addr
  prefixLength : Nat

section Masks

/--
The bytes `ipaddr6_ipv6_mask_from_prefix` writes: `quot` bytes of
`UINT8_MAX`, the rest zero, then the bits the loop ORs into `bytes[quot]`.
-/
def maskBytes (prefixLength : Nat) : List UInt8 :=
  let quot := prefixLength / 8
  let rem := prefixLength % 8
  -- memset(out_mask->bytes, UINT8_MAX, quot); memset(out_mask->bytes + quot, 0, 16 - quot);
  let bytes := List.replicate quot 255 ++ List.replicate (16 - quot) 0
  -- for (int i = 0; i < rem; i++) out_mask->bytes[quot] |= (uint8_t)1 << (8 - i - 1);
  bytes.modify quot (· ||| UInt8.ofNat (orLoop 8 rem))

theorem length_maskBytes {prefixLength : Nat} (fits : prefixLength ≤ 128) : (maskBytes prefixLength).length = 16 := by
  simp only [maskBytes, List.length_modify, List.length_append, List.length_replicate]
  omega

/-- `ipaddr6_ipv6_mask_from_prefix`, which asserts a prefix of at most 128. -/
def ipv6MaskFromPrefix (prefixLength : Nat) : Option (Vector UInt8 16) :=
  if fits : prefixLength ≤ 128 then some ⟨(maskBytes prefixLength).toArray, by simp [length_maskBytes fits]⟩
  else none

/--
The loops of `ipaddr6_ipv6_prefix_from_mask` over the bytes left, after
`prefix` bits of `UINT8_MAX` bytes: more such bytes, then one byte found by
the search over `t`, then zero bytes only.
-/
def prefixFromMaskLoop (prefixLength : Nat) : List UInt8 → Option Nat
  | [] => some prefixLength
  | b :: rest =>
      if b = 255 then prefixFromMaskLoop (prefixLength + 8) rest
      else
        -- for (j = 0; j <= 8; j++) { if (mask.bytes[i] == t) break; if (j < 8) t |= ((uint8_t)1 << (8 - j - 1)); }
        match prefixSearch 8 b.toNat with
        | none => none
        | some j => if rest.all (· == 0) then some (prefixLength + j) else none

def ipv6PrefixFromMask (mask : Vector UInt8 16) : Option Nat :=
  prefixFromMaskLoop 0 mask.toList

/-- `ipaddr6_ipv6_ifaddr_from_addr_mask`: it only copies the address. -/
def ipv6IfaddrFromAddrMask (addr : Addr) (mask : Vector UInt8 16) : Option Ifaddr :=
  (ipv6PrefixFromMask mask).map fun prefixLength => ⟨addr, prefixLength⟩

/-- `ipaddr6_ipv6_addrs_in_network`, which asserts a prefix of at most 128. -/
def ipv6AddrsInNetwork (addr1 addr2 : Vector UInt8 16) (netPrefix : Nat) : Option Bool :=
  if netPrefix ≤ 128 then
    let quot := netPrefix / 8
    let rem := netPrefix % 8
    if ByteMemory.memcmp (addr1.toList.take quot) (addr2.toList.take quot) ≠ .eq then some false
    else if rem = 0 then some true
    else
      -- for (int i = 0; i < rem; i++) t |= (uint8_t)1 << (8 - i - 1);
      let t := UInt8.ofNat (orLoop 8 rem)
      some ((addr1.toList.getD quot 0 &&& t) == (addr2.toList.getD quot 0 &&& t))
  else none

end Masks

section Text

def parseIpv6Prefix (str : List Char) : Option Nat :=
  match parseUnsignedInteger str with
  | none => none
  | some d => if d > 128 then none else some d

/--
`ipaddr6_parse_ipv6_ifaddr`.  The address parser never reads before the name
(`parseIpv6Addr_wellFormed`), and what it accepts has eight groups.
-/
def parseIpv6Ifaddr (str : List Char) : Option Ifaddr :=
  match Ipaddr.memRefFindChar '/' str with
  | none => none
  | some slashPos =>
      match accepted : parseIpv6Addr (str.take slashPos) with
      | .accepted groups =>
          (parseIpv6Prefix (str.drop (slashPos + 1))).map fun prefixLength =>
            ⟨⟨groups, by simpa [accepted, Outcome.WellFormed] using parseIpv6Addr_wellFormed (str.take slashPos)⟩,
              prefixLength⟩
      | .rejected => none
      | .outOfBounds => none

/-- `ipaddr6_print_ifaddr`, which asserts a prefix of at most 128. -/
def printIfaddr (ifaddr : Ifaddr) : Option (List Char) :=
  if ifaddr.prefixLength ≤ 128 then
    some (printAddr ifaddr.addr ++ '/' :: Nat.toDigits 10 ifaddr.prefixLength)
  else none

end Text

section MaskLemmas

theorem modify_append_cons {α : Type} {front : List α} {i : Nat} (index : i = front.length) (rest : List α) (a : α)
    (f : α → α) : (front ++ a :: rest).modify i f = front ++ f a :: rest := by
  subst index
  induction front with
  | nil => exact List.modify_zero_cons f a rest
  | cons b front inductionHypothesis => rw [List.cons_append, List.length_cons, List.modify_succ_cons,
      inductionHypothesis, List.cons_append]

/-- The mask of a prefix of at most 128 bits has exactly its first `prefix` bits set. -/
theorem bits_maskBytes {p : Nat} (fits : p ≤ 128) : bits (maskBytes p) = prefixMask 128 p := by
  by_cases whole : p = 128
  · subst whole
    decide
  · -- the prefix ends inside byte `p / 8`, whose first `p % 8` bits the loop sets
    have zeros : List.replicate (16 - p / 8) (0 : UInt8) = 0 :: List.replicate (15 - p / 8) 0 := by
      rw [show 16 - p / 8 = (15 - p / 8) + 1 by omega, List.replicate_succ]
    simp only [maskBytes]
    rw [zeros, modify_append_cons List.length_replicate.symm, UInt8.zero_or, bits_append, bits_cons, bits_replicate byteBits_255,
      bits_replicate byteBits_zero, byteBits_orLoop (by omega), ← prefixMask_append_of_le (by omega),
      replicate_append_prefixMask]
    congr 1 <;> omega

/-- The bytes after the partial byte are zero exactly when all their bits are clear. -/
theorem all_zero_iff (rest : List UInt8) :
    rest.all (· == 0) = true ↔ bits rest = List.replicate (8 * rest.length) false := by
  rw [List.all_eq_true]
  constructor
  · intro zero
    have allZero : rest = List.replicate rest.length 0 :=
      List.eq_replicate_iff.mpr ⟨rfl, fun b member => by simpa using zero b member⟩
    rw [allZero, bits_replicate byteBits_zero, List.length_replicate]
  · intro clear
    have allZero : rest = List.replicate rest.length 0 :=
      bits_inj (by simp) (by rw [clear, bits_replicate byteBits_zero])
    intro b member
    rw [allZero] at member
    simp [List.eq_of_mem_replicate member]

/-- The byte the search stops at: its bits are a prefix mask of at most 8 bits. -/
theorem prefixSearch_byte_eq_some (b : UInt8) (j : Nat) :
    prefixSearch 8 b.toNat = some j ↔ j ≤ 8 ∧ byteBits b = prefixMask 8 j := by
  rw [prefixSearch_eq_some]
  constructor
  · rintro ⟨fits, value⟩
    exact ⟨fits, (toNat_eq_orLoop_iff b fits).mp value⟩
  · rintro ⟨fits, value⟩
    exact ⟨fits, (toNat_eq_orLoop_iff b fits).mpr value⟩

/--
From any byte on, the loops of `ipaddr6_ipv6_prefix_from_mask` accept exactly
the bytes whose bits are a prefix mask, and add its length to the prefix.
-/
theorem prefixFromMaskLoop_eq_some (acc : Nat) (m : List UInt8) (p : Nat) :
    prefixFromMaskLoop acc m = some p ↔ ∃ k, bits m = prefixMask (8 * m.length) k ∧ p = acc + k := by
  induction m generalizing acc with
  | nil =>
      simp only [prefixFromMaskLoop, Option.some.injEq, bits_nil, List.length_nil, Nat.mul_zero]
      constructor
      · rintro rfl
        exact ⟨0, rfl, rfl⟩
      · rintro ⟨k, empty, rfl⟩
        have none : k = 0 := by simpa [prefixMask] using (congrArg List.length empty).symm
        rw [none, Nat.add_zero]
  | cons b rest inductionHypothesis =>
      have width : 8 * (b :: rest).length = 8 + 8 * rest.length := by simp; ring
      simp only [prefixFromMaskLoop, bits_cons, width, append_eq_prefixMask_iff (length_byteBits b) (length_bits rest)]
      by_cases full : b = 255
      · -- a byte of ones: eight more bits of the prefix
        subst full
        rw [if_pos rfl, inductionHypothesis]
        constructor
        · rintro ⟨k, bitsRest, rfl⟩
          exact ⟨8 + k, .inr ⟨by omega, byteBits_255, by simpa using bitsRest⟩, by ring⟩
        · rintro ⟨k, ⟨short, first, clear⟩ | ⟨long, -, bitsRest⟩, rfl⟩
          · have eight : k = 8 := prefixMask_inj (first.symm.trans (by rw [byteBits_255]; rfl))
            subst eight
            exact ⟨0, by rw [clear]; simp [prefixMask], by ring⟩
          · exact ⟨k - 8, bitsRest, by omega⟩
      · -- the byte the prefix ends in, then zero bytes
        rw [if_neg full]
        have notOnes : byteBits b ≠ List.replicate 8 true := fun ones =>
          full (byteBits_inj (ones.trans byteBits_255.symm))
        cases search : prefixSearch 8 b.toNat with
        | none =>
            simp only [reduceCtorEq, false_iff, not_exists, not_and]
            rintro k (⟨short, first, -⟩ | ⟨-, ones, -⟩) -
            · exact absurd ((prefixSearch_byte_eq_some b k).mpr ⟨short, first⟩) (by simp [search])
            · exact notOnes ones
        | some j =>
            obtain ⟨fits, first⟩ := (prefixSearch_byte_eq_some b j).mp search
            simp only
            constructor
            · intro found
              split_ifs at found with zeros
              obtain rfl := Option.some.inj found
              exact ⟨j, .inl ⟨fits, first, (all_zero_iff rest).mp zeros⟩, rfl⟩
            · rintro ⟨k, ⟨short, same, clear⟩ | ⟨-, ones, -⟩, rfl⟩
              · obtain rfl : j = k := prefixMask_inj (first.symm.trans same)
                rw [if_pos ((all_zero_iff rest).mpr clear)]
              · exact absurd ones notOnes

/-- `ipaddr6_ipv6_prefix_from_mask` accepts exactly the masks whose bits are a prefix mask. -/
theorem ipv6PrefixFromMask_spec (mask : Vector UInt8 16) (p : Nat) :
    ipv6PrefixFromMask mask = some p ↔ p ≤ 128 ∧ bits mask.toList = prefixMask 128 p := by
  rw [ipv6PrefixFromMask, prefixFromMaskLoop_eq_some, Vector.length_toList]
  constructor
  · rintro ⟨k, bitsMask, rfl⟩
    have width := congrArg List.length bitsMask
    simp only [length_bits, Vector.length_toList, prefixMask, List.length_append, List.length_replicate] at width
    exact ⟨by omega, by simpa using bitsMask⟩
  · rintro ⟨-, bitsMask⟩
    exact ⟨p, bitsMask, by ring⟩

theorem ipv6MaskFromPrefix_spec (p : Nat) (mask : Vector UInt8 16) :
    ipv6MaskFromPrefix p = some mask ↔ p ≤ 128 ∧ bits mask.toList = prefixMask 128 p := by
  unfold ipv6MaskFromPrefix
  split_ifs with fits
  · constructor
    · intro made
      obtain rfl := Option.some.inj made
      exact ⟨fits, by simpa using bits_maskBytes fits⟩
    · rintro ⟨-, bitsMask⟩
      congr 1
      apply Vector.toList_inj.mp
      exact bits_inj (by simp [length_maskBytes fits]) (by simpa [bits_maskBytes fits] using bitsMask.symm)
  · simp [fits]

/--
`ipaddr6_ipv6_prefix_from_mask` recognises exactly the masks
`ipaddr6_ipv6_mask_from_prefix` builds, and gives back their prefix.
-/
theorem ipv6PrefixFromMask_eq_some_iff (mask : Vector UInt8 16) (p : Nat) :
    ipv6PrefixFromMask mask = some p ↔ ipv6MaskFromPrefix p = some mask := by
  rw [ipv6PrefixFromMask_spec, ipv6MaskFromPrefix_spec]

example : ipv6PrefixFromMask ⟨#[255, 255, 255, 255, 255, 255, 255, 192, 0, 0, 0, 0, 0, 0, 0, 0], rfl⟩ = some 58 := by
  decide

end MaskLemmas

section NetworkLemmas

/--
`ipaddr6_ipv6_addrs_in_network` compares exactly the first `netprefix` bits of
the two addresses: the `memcmp` the whole bytes before the one the prefix ends
in, the mask the first bits of that byte.
-/
theorem ipv6AddrsInNetwork_eq_some_iff (addr1 addr2 : Vector UInt8 16) (netPrefix : Nat) (r : Bool) :
    ipv6AddrsInNetwork addr1 addr2 netPrefix = some r ↔
      netPrefix ≤ 128 ∧ (r = true ↔ (bits addr1.toList).take netPrefix = (bits addr2.toList).take netPrefix) := by
  obtain ⟨q, rm, small, rfl⟩ : ∃ q rm, rm < 8 ∧ netPrefix = 8 * q + rm :=
    ⟨netPrefix / 8, netPrefix % 8, Nat.mod_lt _ (by norm_num), (Nat.div_add_mod _ _).symm⟩
  have quot : (8 * q + rm) / 8 = q := by omega
  have rem : (8 * q + rm) % 8 = rm := by omega
  have sameLength : addr1.toList.length = addr2.toList.length := by simp
  have wholeBytes : ByteMemory.memcmp (addr1.toList.take q) (addr2.toList.take q) = .eq ↔
      addr1.toList.take q = addr2.toList.take q :=
    ByteMemory.memcmp_eq_eq_iff (by simp)
  unfold ipv6AddrsInNetwork
  simp only [quot, rem]
  split_ifs with fits differ whole
  · -- a byte before the one the prefix ends in differs, and so do the first bits
    have apart : (bits addr1.toList).take (8 * q + rm) ≠ (bits addr2.toList).take (8 * q + rm) := fun same => by
      have front := congrArg (List.take (8 * q)) same
      rw [List.take_take, List.take_take, Nat.min_eq_left (by omega), take_bits_mul_eq_iff sameLength] at front
      exact differ (wholeBytes.mpr front)
    cases r <;> simp [fits, apart]
  · -- the prefix ends at a byte boundary
    subst whole
    rw [Nat.add_zero] at fits
    have same := (take_bits_mul_eq_iff sameLength q).mpr (wholeBytes.mp (not_not.mp differ))
    cases r <;> simp [fits, same]
  · -- the first bits of byte q, compared under the mask
    have inside : q < addr1.toList.length := by simp; omega
    have before := wholeBytes.mp (not_not.mp differ)
    have firstBits : (bits addr1.toList).take (8 * q + rm) = (bits addr2.toList).take (8 * q + rm) ↔
        (byteBits addr1.toList[q]).take rm = (byteBits addr2.toList[q]).take rm := by
      rw [take_bits_add _ small inside, take_bits_add _ small (sameLength ▸ inside), before,
        List.append_cancel_left_eq]
    rw [List.getD_eq_getElem _ _ inside, List.getD_eq_getElem _ _ (sameLength ▸ inside), Option.some.injEq,
      firstBits, ← and_orLoop_eq_iff _ _ (by omega : rm ≤ 8)]
    cases r <;> simp [fits]
  · simp [fits]

end NetworkLemmas

section TextLemmas

/-- The text of groups is hex digits and colons. -/
theorem mem_joinHex {groups : List UInt16} {c : Char} (member : c ∈ joinHex groups) :
    c = ':' ∨ c ∈ "0123456789abcdef".toList := by
  cases groups with
  | nil => simp [joinHex] at member
  | cons g groups =>
      rw [joinHex_cons, List.mem_append, List.mem_flatMap] at member
      rcases member with inFirst | ⟨block, -, inBlock⟩
      · exact .inr ((hex_lowerHex g).2.1 c inFirst)
      · rcases List.mem_cons.mp inBlock with colon | inHex
        · exact .inl colon
        · exact .inr ((hex_lowerHex block).2.1 c inHex)

theorem slash_not_mem_joinHex (groups : List UInt16) : '/' ∉ joinHex groups := fun member => by
  rcases mem_joinHex member with colon | digit
  · exact absurd colon (by decide)
  · exact absurd digit (by decide)

theorem slash_not_mem_printAddr (a : Addr) : '/' ∉ printAddr a := by
  rw [printAddr_eq]
  split_ifs
  · simp [slash_not_mem_joinHex]
  · exact slash_not_mem_joinHex _

theorem parseIpv6Prefix_toDigits {p : Nat} (fits : p ≤ 128) : parseIpv6Prefix (Nat.toDigits 10 p) = some p := by
  have read := ParseNumber.parseUnsignedInteger_zeros_append_toDigits (n := p)
    (by unfold uintmaxMax; omega) 0
  rw [List.replicate_zero, List.nil_append] at read
  rw [parseIpv6Prefix, read]
  simp only
  rw [if_neg (by omega)]

/-- `ipaddr6_parse_ipv6_ifaddr` reads back what `ipaddr6_print_ifaddr` prints. -/
theorem parseIpv6Ifaddr_printIfaddr {ifaddr : Ifaddr} {text : List Char} (printed : printIfaddr ifaddr = some text) :
    parseIpv6Ifaddr text = some ifaddr := by
  unfold printIfaddr at printed
  split_ifs at printed with fits
  obtain rfl := Option.some.inj printed
  have address : parseIpv6Addr ((printAddr ifaddr.addr ++ '/' :: Nat.toDigits 10 ifaddr.prefixLength).take
      (printAddr ifaddr.addr).length) = .accepted ifaddr.addr.groups := by
    rw [List.take_left' rfl, parseIpv6Addr_printAddr]
  unfold parseIpv6Ifaddr
  rw [Ipaddr.memRefFindChar_append (slash_not_mem_printAddr ifaddr.addr)]
  simp only
  split
  · rename_i groups accepted
    obtain rfl : ifaddr.addr.groups = groups := Outcome.accepted.inj (address.symm.trans accepted)
    rw [Ipaddr.drop_append_cons, parseIpv6Prefix_toDigits fits, Option.map_some]
  · rename_i accepted
    exact absurd (address.symm.trans accepted) (by simp)
  · rename_i accepted
    exact absurd (address.symm.trans accepted) (by simp)

theorem parseIpv6Ifaddr_printIfaddr_documentation :
    printIfaddr ⟨⟨[0x2001, 0xdb8, 0, 0, 0, 0, 0, 1], rfl⟩, 64⟩ = some "2001:db8::1/64".toList ∧
      parseIpv6Ifaddr "2001:db8::1/64".toList = some ⟨⟨[0x2001, 0xdb8, 0, 0, 0, 0, 0, 1], rfl⟩, 64⟩ :=
  ⟨by decide, parseIpv6Ifaddr_printIfaddr (by decide)⟩

/-- The text of `ipaddr6_print_ifaddr` and its NUL fit in `IPADDR6_PRINT_MAX` characters. -/
theorem printIfaddr_fits_printMax (ifaddr : Ifaddr) {text : List Char} (printed : printIfaddr ifaddr = some text) :
    text.length < printMax := by
  unfold printIfaddr at printed
  split_ifs at printed with fits
  obtain rfl := Option.some.inj printed
  have prefixDigits : (Nat.toDigits 10 ifaddr.prefixLength).length ≤ 3 :=
    Nat.toDigits_length 10 _ 3 (by norm_num) (by omega)
  have addressText := length_printAddr_le ifaddr.addr
  simp only [List.length_append, List.length_cons, printMax]
  omega

end TextLemmas

end Ipaddr6

end Tun2SocksWinRT
