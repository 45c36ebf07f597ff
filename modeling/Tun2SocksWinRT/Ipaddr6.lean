import Mathlib

namespace Tun2SocksWinRT

namespace Ipaddr6

/-!
# `ipaddr6`: IPv6 addresses as text

`misc/ipaddr6.h` parses an IPv6 address from a byte string
(`ipaddr6_parse_ipv6_addr`) and prints one (`ipaddr6_print_addr`).  An
address, `struct ipv6_addr`, is sixteen bytes, which both functions read and
write in big-endian pairs; the model keeps the eight 16-bit groups.

The parser is a loop over the characters with the counters `num_blocks`,
`compress_pos`, `block` and `empty`; the model runs it over the characters
left (`name` from `i` on), one case per branch of the loop body.  A dot sends
it to `ipv4_ending`, which walks back to the last `':'` and reads a dotted
quad in a loop of its own; both end at `ipv4_done`, where the groups after
the `"::"` are moved to the end and the gap between is zeroed.  Where the
source returns 0 the model is `rejected`.  The walk back reads
`name.ptr[i - 1]` with no bound: reading before the name is `outOfBounds`.
-/

/-- `decode_hex_digit`: nothing for a character that is not a hex digit. -/
def decodeHexDigit (c : Char) : Option Nat :=
  match c with
  | '0' => some 0
  | '1' => some 1
  | '2' => some 2
  | '3' => some 3
  | '4' => some 4
  | '5' => some 5
  | '6' => some 6
  | '7' => some 7
  | '8' => some 8
  | '9' => some 9
  | 'A' | 'a' => some 10
  | 'B' | 'b' => some 11
  | 'C' | 'c' => some 12
  | 'D' | 'd' => some 13
  | 'E' | 'e' => some 14
  | 'F' | 'f' => some 15
  | _ => none

/-- `decode_decimal_digit`. -/
def decodeDecimalDigit (c : Char) : Option Nat :=
  match c with
  | '0' => some 0
  | '1' => some 1
  | '2' => some 2
  | '3' => some 3
  | '4' => some 4
  | '5' => some 5
  | '6' => some 6
  | '7' => some 7
  | '8' => some 8
  | '9' => some 9
  | _ => none

/-- `struct ipv6_addr`: group `i` is the pair `bytes[2 * i]`, `bytes[2 * i + 1]`. -/
structure Addr where
  groups : List UInt16
  length_groups : groups.length = 8

/-- What `ipaddr6_parse_ipv6_addr` does with a name. -/
inductive Outcome
  /-- it returns 1, with these groups in `out_addr` -/
  | accepted (groups : List UInt16)
  /-- it returns 0 -/
  | rejected
  /-- it reads `name.ptr[-1]` -/
  | outOfBounds
  deriving DecidableEq, Repr

section Parse

/--
`ipv4_done` with the groups written so far (`num_blocks` of them): without a
`"::"` there must be eight and `compress_pos` becomes 0; then the `num_rear`
groups after `compress_pos` move to the end (`memmove`) and the groups
between are zeroed (`memset`).
-/
def ipv4Done (blocks : List UInt16) (compressPos : Option Nat) : Outcome :=
  let fill (compressPos : Nat) :=
    let numRear := blocks.length - compressPos
    Outcome.accepted (blocks.take compressPos ++ List.replicate (8 - numRear - compressPos) 0 ++
      blocks.drop compressPos)
  match compressPos with
  | none => if blocks.length ≠ 8 then .rejected else fill 0
  | some compressPos => fill compressPos

/-- The counters of the loop of `ipv4_ending`: the bytes read (`cur_byte` of them), `byte` and `empty`. -/
structure Ipv4State where
  bytes : List Nat
  byte : Nat
  empty : Bool
  deriving DecidableEq, Repr

/--
The loop of `ipv4_ending` over the characters left, after the groups
`blocks` and with `compress_pos`: four decimal bytes without leading zeros,
which take the place of two groups.
-/
def ipv4Loop (blocks : List UInt16) (compressPos : Option Nat) : Ipv4State → List Char → Outcome
  | v, [] =>
      if v.bytes.length ≠ 3 ∨ v.empty then
        .rejected
      else
        let bytes := v.bytes ++ [v.byte]
        if 8 - blocks.length < 2 then
          .rejected
        else
          -- `memcpy` of the four bytes into two groups
          ipv4Done (blocks ++ [(bytes.getD 0 0 * 256 + bytes.getD 1 0).toUInt16,
            (bytes.getD 2 0 * 256 + bytes.getD 3 0).toUInt16]) compressPos
  | v, '.' :: rest =>
      if v.empty ∨ v.bytes.length = 3 then
        .rejected
      else
        ipv4Loop blocks compressPos ⟨v.bytes ++ [v.byte], 0, true⟩ rest
  | v, c :: rest =>
      if ¬v.empty ∧ v.byte = 0 then
        .rejected
      else
        match decodeDecimalDigit c with
        | none => .rejected
        | some digit =>
            if v.byte > 255 / 10 then
              .rejected
            else if digit > 255 - v.byte * 10 then
              .rejected
            else
              ipv4Loop blocks compressPos ⟨v.bytes, v.byte * 10 + digit, false⟩ rest

/-- The walk back of `ipv4_ending`: `while (name.ptr[i - 1] != ':') i--;`, nothing where it would read `name.ptr[-1]`. -/
def rewind (name : List Char) : Nat → Option Nat
  | 0 => none
  | i + 1 => if name[i]? = some ':' then some (i + 1) else rewind name i

/-- The counters of the loop of `ipaddr6_parse_ipv6_addr` and the groups written to `out_addr` so far. -/
structure State where
  /-- the groups written, `num_blocks` of them -/
  blocks : List UInt16
  /-- `compress_pos`, nothing for -1 -/
  compressPos : Option Nat
  /-- `block`, the group being read; the checks keep it within `uint16_t` -/
  block : Nat
  empty : Bool
  /-- `i`, the index of the next character -/
  i : Nat
  deriving DecidableEq, Repr

/-- The counters before the loop. -/
def State.init : State :=
  ⟨[], none, 0, true, 0⟩

/-- `ipv4_ending`, from the dot at `s.i`: the current group's digits are read again as the first byte. -/
def ipv4Ending (name : List Char) (s : State) : Outcome :=
  if s.empty ∨ (s.blocks.length = 0 ∧ s.compressPos = none) then
    .rejected
  else
    match rewind name s.i with
    | none => .outOfBounds
    | some i => ipv4Loop s.blocks s.compressPos ⟨[], 0, true⟩ (name.drop i)

/--
The branch of the loop at a `':'`, `isDouble` when a second one follows: the
group read so far is written (at the start only a `"::"` may stand), then a
`"::"` marks where the zero groups go.
-/
def colon (s : State) (isDouble : Bool) : Option State :=
  let written :=
    if s.i > 0 then
      if s.empty ∨ s.blocks.length = 7 then
        none
      else
        some { s with blocks := s.blocks ++ [s.block.toUInt16], block := 0, empty := true }
    else if ¬isDouble then
      none
    else
      some s
  written.bind fun s =>
    if isDouble then
      if s.compressPos.isSome then none else some { s with compressPos := some s.blocks.length }
    else
      some s

/-- After the loop: the last group is written, or else the name must end in the `"::"`. -/
def finish (s : State) : Outcome :=
  if ¬s.empty then
    ipv4Done (s.blocks ++ [s.block.toUInt16]) s.compressPos
  else if s.compressPos ≠ some s.blocks.length then
    .rejected
  else
    ipv4Done s.blocks s.compressPos

/-- The loop of `ipaddr6_parse_ipv6_addr` over the characters left, `name` from `s.i` on. -/
def parseLoop (name : List Char) : State → List Char → Outcome
  | s, [] => finish s
  | s, '.' :: _ => ipv4Ending name s
  | s, ':' :: ':' :: rest =>
      match colon s true with
      | none => .rejected
      | some s => parseLoop name { s with i := s.i + 2 } rest
  | s, ':' :: rest =>
      match colon s false with
      | none => .rejected
      | some s => parseLoop name { s with i := s.i + 1 } rest
  | s, c :: rest =>
      match decodeHexDigit c with
      | none => .rejected
      | some digit =>
          if s.block > 65535 / 16 then
            .rejected
          else if digit > 65535 - s.block * 16 then
            .rejected
          else
            parseLoop name { s with block := s.block * 16 + digit, empty := false, i := s.i + 1 } rest

/-- `ipaddr6_parse_ipv6_addr`. -/
def parseIpv6Addr (name : List Char) : Outcome :=
  parseLoop name State.init name

end Parse

section Print

/-- `IPADDR6_PRINT_MAX`, the size of the buffer `ipaddr6_print_addr` writes. -/
def printMax : Nat :=
  44

/-- `"%" PRIx16`: lowercase hex without leading zeros. -/
def hex (block : UInt16) : List Char :=
  Nat.toDigits 16 block.toNat

/-- The counters of the first loop of `ipaddr6_print_addr`. -/
structure Scan where
  largestStart : Nat
  largestLen : Nat
  currentStart : Nat
  currentLen : Nat
  deriving DecidableEq, Repr

/-- One round of that loop at group `i`: a zero group lengthens the current run, which becomes the largest only when strictly longer. -/
def scanStep (s : Scan) (i : Nat) (block : UInt16) : Scan :=
  if block = 0 then
    let currentLen := s.currentLen + 1
    if currentLen > s.largestLen then
      { s with currentLen, largestStart := s.currentStart, largestLen := currentLen }
    else
      { s with currentLen }
  else
    { s with currentStart := i + 1, currentLen := 0 }

/-- The first loop of `ipaddr6_print_addr`, from group `i` on. -/
def scan : Nat → Scan → List UInt16 → Scan
  | _, s, [] => s
  | i, s, block :: rest => scan (i + 1) (scanStep s i block) rest

/-- The loop of `ipaddr6_print_addr` without a `"::"`: each group after `separator`, `":"` after the first. -/
def printGroups (separator : List Char) : List UInt16 → List Char
  | [] => []
  | block :: rest => separator ++ hex block ++ printGroups [':'] rest

/-- `ipaddr6_print_addr`: the text it writes, without the terminating null. -/
def printAddr (a : Addr) : List Char :=
  let s := scan 0 ⟨0, 0, 0, 0⟩ a.groups
  if s.largestLen > 1 then
    (a.groups.take s.largestStart).flatMap (fun block => hex block ++ [':']) ++
      (if s.largestStart = 0 then [':'] else []) ++
      (a.groups.drop (s.largestStart + s.largestLen)).flatMap (fun block => ':' :: hex block) ++
      (if s.largestStart + s.largestLen = 8 then [':'] else [])
  else
    printGroups [] a.groups

end Print

end Ipaddr6

end Tun2SocksWinRT
