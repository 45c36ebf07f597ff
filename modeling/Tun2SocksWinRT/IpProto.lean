import Mathlib.Data.Vector.Basic
import Tun2SocksWinRT.OnesComplement

namespace Tun2SocksWinRT

/-!
# IPv4, IPv6 and UDP headers

`misc/ipv4_proto.h`, `misc/ipv6_proto.h` and `misc/udp_proto.h`: the packed
header structures, their checksums and the three parsers `ipv4_check`,
`ipv6_check` and `udp_check`.

A header is a structure whose fields are the bytes the C structure holds, with
multi-byte fields in network order; `toBytes` is its memory image and `ofBytes`
the `memcpy` that fills it from a packet.  The checksum functions are kept as
the code computes them: a 32-bit accumulator of big-endian words, the carry
fold of `OnesComplement`, and `hton16(~t)`.

Main facts:
* `Ipv4Header.ofBytes_toBytes_append` and its two siblings: a parser reads
  back the fields of a header laid out in front of other bytes;
* `udpChecksumSum_lt`, `udpIp6ChecksumSum_lt`: the 32-bit accumulators of the
  UDP checksums never wrap, whatever the 16-bit payload length;
* `ntoh16_finishChecksum`: the checksum is the complement of the folded sum,
  so the `t == 0` test of `udp_checksum` never fires (`t` is 32 bits wide
  after `~t`);
* `ipv4Checksum_verifies`, `udpChecksum_verifies`, `udpIp6Checksum_verifies`:
  a header or datagram that carries the checksum the code computes sums to the
  all-ones word (RFC 1071);
* `ipv4Check_toBytes_append`, `ipv6Check_toBytes_append`,
  `udpCheck_toBytes_append`: what each parser accepts of a laid-out header.
-/

open OnesComplement

/-- `IPV4_PROTOCOL_UDP`. -/
def ipv4ProtocolUdp : Nat := 17

/-- `IPV6_NEXT_UDP`. -/
def ipv6NextUdp : Nat := 17

/-! ## Byte order -/

/-- `hton16`: the two bytes a 16-bit field holds, the value first cut to 16 bits. -/
def hton16 (value : Nat) : Vector UInt8 2 :=
  #v[UInt8.ofNat (value / 256), UInt8.ofNat value]

/-- `hton32`: the four bytes a 32-bit field holds. -/
def hton32 (value : Nat) : Vector UInt8 4 :=
  #v[UInt8.ofNat (value / 16777216), UInt8.ofNat (value / 65536), UInt8.ofNat (value / 256),
    UInt8.ofNat value]

/-- `ntoh16`, also `badvpn_read_be16` on a field: the value of two network-order bytes. -/
def ntoh16 (bytes : Vector UInt8 2) : Nat :=
  word bytes[0] bytes[1]

@[simp] theorem ntoh16_hton16 (value : Nat) : ntoh16 (hton16 value) = value % 65536 := by
  simp only [ntoh16, hton16, word, UInt8.toNat_ofNat', Vector.getElem_mk, List.getElem_toArray,
    List.getElem_cons_zero, List.getElem_cons_succ]
  omega

theorem ntoh16_lt (bytes : Vector UInt8 2) : ntoh16 bytes < 65536 :=
  word_lt _ _

/-- The words of a two-byte field are its value. -/
@[simp] theorem wordSum_toList_two (field : Vector UInt8 2) : wordSum field.toList = ntoh16 field := by
  obtain ⟨⟨bytes⟩, size⟩ := field
  match bytes, size with
  | [_, _], _ => simp [ntoh16]

/-- A field of even width adds its own words and does not straddle the next. -/
theorem wordSum_toList_append {n : Nat} (field : Vector UInt8 n) (even : n % 2 = 0) (rest : List UInt8) :
    wordSum (field.toList ++ rest) = wordSum field.toList + wordSum rest :=
  wordSum_append (by simpa using even) rest

theorem wordSum_toList_le {n : Nat} (field : Vector UInt8 n) : wordSum field.toList ≤ 65535 * (n / 2) := by
  simpa using wordSum_le field.toList

/-! ## Fields filled by `memcpy` -/

/-- The `n` bytes at `offset`, as `memcpy` copies them into a field. -/
def slice (bytes : List UInt8) (offset : Nat) : Vector UInt8 n :=
  Vector.ofFn fun index => bytes.getD (offset + index) 0

@[simp] theorem slice_cons_succ (byte : UInt8) (bytes : List UInt8) (offset : Nat) :
    (slice (byte :: bytes) (offset + 1) : Vector UInt8 n) = slice bytes offset := by
  ext index below
  simp [slice, Nat.add_right_comm]

@[simp] theorem slice_toList_append (field : Vector UInt8 n) (rest : List UInt8) :
    slice (field.toList ++ rest) 0 = field := by
  ext index below
  simp [slice, List.getD_eq_getElem?_getD, List.getElem?_append_left]

theorem slice_toList_append_add (field : Vector UInt8 n) (rest : List UInt8) (offset : Nat) :
    (slice (field.toList ++ rest) (offset + n) : Vector UInt8 m) = slice rest offset := by
  ext index below
  have skipped : (field.toList ++ rest)[offset + n + index]? = rest[offset + index]? := by
    rw [List.getElem?_append_right (by simp; omega), Vector.length_toList]
    congr 1
    omega
  simp [slice, List.getD_eq_getElem?_getD, skipped]

/-- A field past another is read from the bytes after it. -/
@[simp] theorem slice_toList_append_of_le (field : Vector UInt8 n) (rest : List UInt8) {offset : Nat}
    (past : n ≤ offset) :
    (slice (field.toList ++ rest) offset : Vector UInt8 m) = slice rest (offset - n) := by
  obtain ⟨more, rfl⟩ : ∃ more, offset = more + n := ⟨offset - n, by omega⟩
  rw [slice_toList_append_add, Nat.add_sub_cancel]

/-! ## Header structures -/

/-- `struct ipv4_header`. -/
structure Ipv4Header where
  version4Ihl4 : UInt8
  ds : UInt8
  totalLength : Vector UInt8 2
  identification : Vector UInt8 2
  flags3Fragmentoffset13 : Vector UInt8 2
  ttl : UInt8
  protocol : UInt8
  checksum : Vector UInt8 2
  sourceAddress : Vector UInt8 4
  destinationAddress : Vector UInt8 4
  deriving DecidableEq, Repr

/-- `struct ipv6_header`. -/
structure Ipv6Header where
  version4Tc4 : UInt8
  tc4Fl4 : UInt8
  fl : Vector UInt8 2
  payloadLength : Vector UInt8 2
  nextHeader : UInt8
  hopLimit : UInt8
  sourceAddress : Vector UInt8 16
  destinationAddress : Vector UInt8 16
  deriving DecidableEq, Repr

/-- `struct udp_header`. -/
structure UdpHeader where
  sourcePort : Vector UInt8 2
  destPort : Vector UInt8 2
  length : Vector UInt8 2
  checksum : Vector UInt8 2
  deriving DecidableEq, Repr

namespace Ipv4Header

/-- The 20 bytes of the packed structure. -/
def toBytes (header : Ipv4Header) : List UInt8 :=
  [header.version4Ihl4, header.ds] ++ header.totalLength.toList ++ header.identification.toList ++
    header.flags3Fragmentoffset13.toList ++ [header.ttl, header.protocol] ++ header.checksum.toList ++
    header.sourceAddress.toList ++ header.destinationAddress.toList

/-- `memcpy(out_header, data, sizeof(*out_header))`. -/
def ofBytes (bytes : List UInt8) : Ipv4Header where
  version4Ihl4 := bytes.getD 0 0
  ds := bytes.getD 1 0
  totalLength := slice bytes 2
  identification := slice bytes 4
  flags3Fragmentoffset13 := slice bytes 6
  ttl := bytes.getD 8 0
  protocol := bytes.getD 9 0
  checksum := slice bytes 10
  sourceAddress := slice bytes 12
  destinationAddress := slice bytes 16

/-- `IPV4_GET_VERSION`. -/
def version (header : Ipv4Header) : Nat :=
  ((header.version4Ihl4 &&& 0xF0) >>> 4).toNat

/-- `IPV4_GET_IHL`: the header length in 32-bit words. -/
def ihl (header : Ipv4Header) : Nat :=
  (header.version4Ihl4 &&& 0x0F).toNat

@[simp] theorem length_toBytes (header : Ipv4Header) : header.toBytes.length = 20 := by
  simp [toBytes]

theorem ofBytes_toBytes_append (header : Ipv4Header) (rest : List UInt8) :
    ofBytes (header.toBytes ++ rest) = header := by
  simp [ofBytes, toBytes, List.getElem?_append_right]

/-- The header's words, with the checksum field's value apart. -/
theorem wordSum_toBytes (header : Ipv4Header) :
    wordSum header.toBytes = wordSum { header with checksum := hton16 0 }.toBytes + ntoh16 header.checksum := by
  simp only [toBytes, List.append_assoc, List.cons_append, List.nil_append, wordSum_cons_cons,
    wordSum_toList_append _ (by decide : 2 % 2 = 0), wordSum_toList_append _ (by decide : 4 % 2 = 0),
    wordSum_toList_two, ntoh16_hton16]
  omega

end Ipv4Header

namespace Ipv6Header

/-- The 40 bytes of the packed structure. -/
def toBytes (header : Ipv6Header) : List UInt8 :=
  [header.version4Tc4, header.tc4Fl4] ++ header.fl.toList ++ header.payloadLength.toList ++
    [header.nextHeader, header.hopLimit] ++ header.sourceAddress.toList ++
    header.destinationAddress.toList

/-- `memcpy(out_header, data, sizeof(*out_header))`. -/
def ofBytes (bytes : List UInt8) : Ipv6Header where
  version4Tc4 := bytes.getD 0 0
  tc4Fl4 := bytes.getD 1 0
  fl := slice bytes 2
  payloadLength := slice bytes 4
  nextHeader := bytes.getD 6 0
  hopLimit := bytes.getD 7 0
  sourceAddress := slice bytes 8
  destinationAddress := slice bytes 24

@[simp] theorem length_toBytes (header : Ipv6Header) : header.toBytes.length = 40 := by
  simp [toBytes]

theorem ofBytes_toBytes_append (header : Ipv6Header) (rest : List UInt8) :
    ofBytes (header.toBytes ++ rest) = header := by
  simp [ofBytes, toBytes, List.getElem?_append_right]

end Ipv6Header

namespace UdpHeader

/-- The 8 bytes of the packed structure. -/
def toBytes (header : UdpHeader) : List UInt8 :=
  header.sourcePort.toList ++ header.destPort.toList ++ header.length.toList ++ header.checksum.toList

/-- `memcpy(out_header, data, sizeof(*out_header))`. -/
def ofBytes (bytes : List UInt8) : UdpHeader where
  sourcePort := slice bytes 0
  destPort := slice bytes 2
  length := slice bytes 4
  checksum := slice bytes 6

@[simp] theorem length_toBytes (header : UdpHeader) : header.toBytes.length = 8 := by
  simp [toBytes]

theorem ofBytes_toBytes_append (header : UdpHeader) (rest : List UInt8) :
    ofBytes (header.toBytes ++ rest) = header := by
  simp [ofBytes, toBytes]

theorem wordSum_toBytes (header : UdpHeader) :
    wordSum header.toBytes =
      ntoh16 header.sourcePort + ntoh16 header.destPort + ntoh16 header.length + ntoh16 header.checksum := by
  simp only [toBytes, List.append_assoc, wordSum_toList_append _ (by decide : 2 % 2 = 0),
    wordSum_toList_two]
  omega

end UdpHeader

/-! ## Checksums -/

/-- The words `ipv4_checksum` adds: the header, then `extra_len` bytes of options. -/
def ipv4ChecksumSum (header : Ipv4Header) (extra : List UInt8) (extraLen : Nat) : Nat :=
  wordSum header.toBytes + wordSum (extra.take extraLen)

/-- `ipv4_checksum`: `hton16(~t)` of the folded 32-bit sum. -/
def ipv4Checksum (header : Ipv4Header) (extra : List UInt8) (extraLen : Nat) : Vector UInt8 2 :=
  hton16 (4294967295 - fold (ipv4ChecksumSum header extra extraLen % 4294967296))

/--
`udp_checksum_summer`: the big-endian words of the first `len` bytes.  Every
call passes an even `len` below 2^16, so its 32-bit sum never wraps
(`udpChecksumSummer_le`).
-/
def udpChecksumSummer (data : List UInt8) (len : Nat) : Nat :=
  wordSum (data.take len)

/-- The payload's words in `udp_checksum` and `udp_ip6_checksum`: an odd last byte is padded with zero. -/
def udpPayloadSum (payload : List UInt8) (payloadLen : Nat) : Nat :=
  if payloadLen % 2 = 0 then
    udpChecksumSummer payload payloadLen
  else
    udpChecksumSummer payload (payloadLen - 1) +
      udpChecksumSummer (hton16 ((payload.getD (payloadLen - 1) 0).toNat <<< 8)).toList 2

/-- The words `udp_checksum` adds: the IPv4 pseudo-header, the UDP header and the payload. -/
def udpChecksumSum (header : UdpHeader) (payload : List UInt8) (payloadLen : Nat)
    (sourceAddr destAddr : Vector UInt8 4) : Nat :=
  udpChecksumSummer sourceAddr.toList 4 + udpChecksumSummer destAddr.toList 4 +
    udpChecksumSummer (hton16 ipv4ProtocolUdp).toList 2 +
    udpChecksumSummer (hton16 (8 + payloadLen)).toList 2 +
    udpChecksumSummer header.toBytes 8 + udpPayloadSum payload payloadLen

/-- The words `udp_ip6_checksum` adds: the IPv6 pseudo-header, the UDP header and the payload. -/
def udpIp6ChecksumSum (header : UdpHeader) (payload : List UInt8) (payloadLen : Nat)
    (sourceAddr destAddr : Vector UInt8 16) : Nat :=
  udpChecksumSummer sourceAddr.toList 16 + udpChecksumSummer destAddr.toList 16 +
    udpChecksumSummer (hton32 (8 + payloadLen)).toList 4 +
    udpChecksumSummer (hton32 ipv6NextUdp).toList 4 +
    udpChecksumSummer header.toBytes 8 + udpPayloadSum payload payloadLen

/--
The common end of `udp_checksum` and `udp_ip6_checksum`: fold the 32-bit
accumulator, `t = ~t` on 32 bits, replace a zero by `UINT16_MAX`, `hton16(t)`.
-/
def finishChecksum (sum : Nat) : Vector UInt8 2 :=
  let t := 4294967295 - fold (sum % 4294967296)
  let t := if t = 0 then 65535 else t
  hton16 t

/-- `udp_checksum`. -/
def udpChecksum (header : UdpHeader) (payload : List UInt8) (payloadLen : Nat)
    (sourceAddr destAddr : Vector UInt8 4) : Vector UInt8 2 :=
  finishChecksum (udpChecksumSum header payload payloadLen sourceAddr destAddr)

/-- `udp_ip6_checksum`. -/
def udpIp6Checksum (header : UdpHeader) (payload : List UInt8) (payloadLen : Nat)
    (sourceAddr destAddr : Vector UInt8 16) : Vector UInt8 2 :=
  finishChecksum (udpIp6ChecksumSum header payload payloadLen sourceAddr destAddr)

theorem udpChecksumSummer_le (data : List UInt8) (len : Nat) :
    udpChecksumSummer data len ≤ 65535 * (len / 2) := by
  have bound := wordSum_le (data.take len)
  have shorter : (data.take len).length / 2 ≤ len / 2 :=
    Nat.div_le_div_right (by simp)
  have scaled := Nat.mul_le_mul_left 65535 shorter
  exact bound.trans scaled

/-- The summer over a whole UDP header. -/
theorem udpChecksumSummer_toBytes (header : UdpHeader) :
    udpChecksumSummer header.toBytes 8 = wordSum header.toBytes := by
  rw [udpChecksumSummer, ← header.length_toBytes, List.take_length]

theorem udpPayloadSum_le (payload : List UInt8) {payloadLen : Nat} (small : payloadLen < 65536) :
    udpPayloadSum payload payloadLen ≤ 65535 * 32768 := by
  unfold udpPayloadSum
  split_ifs with even
  · have := udpChecksumSummer_le payload payloadLen
    omega
  · have := udpChecksumSummer_le payload (payloadLen - 1)
    have := udpChecksumSummer_le (hton16 ((payload.getD (payloadLen - 1) 0).toNat <<< 8)).toList 2
    omega

/-- The accumulator of `udp_checksum` never wraps. -/
theorem udpChecksumSum_lt (header : UdpHeader) (payload : List UInt8) {payloadLen : Nat}
    (small : payloadLen < 65536) (sourceAddr destAddr : Vector UInt8 4) :
    udpChecksumSum header payload payloadLen sourceAddr destAddr + 65535 < 2 ^ 32 := by
  have := udpChecksumSummer_le sourceAddr.toList 4
  have := udpChecksumSummer_le destAddr.toList 4
  have := udpChecksumSummer_le (hton16 ipv4ProtocolUdp).toList 2
  have := udpChecksumSummer_le (hton16 (8 + payloadLen)).toList 2
  have := udpChecksumSummer_le header.toBytes 8
  have := udpPayloadSum_le payload small
  unfold udpChecksumSum
  omega

/-- The accumulator of `udp_ip6_checksum` never wraps. -/
theorem udpIp6ChecksumSum_lt (header : UdpHeader) (payload : List UInt8) {payloadLen : Nat}
    (small : payloadLen < 65536) (sourceAddr destAddr : Vector UInt8 16) :
    udpIp6ChecksumSum header payload payloadLen sourceAddr destAddr + 65535 < 2 ^ 32 := by
  have := udpChecksumSummer_le sourceAddr.toList 16
  have := udpChecksumSummer_le destAddr.toList 16
  have := udpChecksumSummer_le (hton32 (8 + payloadLen)).toList 4
  have := udpChecksumSummer_le (hton32 ipv6NextUdp).toList 4
  have := udpChecksumSummer_le header.toBytes 8
  have := udpPayloadSum_le payload small
  unfold udpIp6ChecksumSum
  omega

/-- The accumulator of `ipv4_checksum` never wraps on a header and up to 40 bytes of options. -/
theorem ipv4ChecksumSum_lt (header : Ipv4Header) (extra : List UInt8) {extraLen : Nat}
    (options : extraLen ≤ 40) :
    ipv4ChecksumSum header extra extraLen + 65535 < 2 ^ 32 := by
  have headerBound := wordSum_le header.toBytes
  have extraBound := udpChecksumSummer_le extra extraLen
  simp only [Ipv4Header.length_toBytes] at headerBound
  unfold ipv4ChecksumSum
  unfold udpChecksumSummer at extraBound
  omega

/--
The value `finishChecksum` stores is the complement of the folded sum: `~t`
is a 32-bit number at least 2^32 - 2^16, so the zero test never replaces it.
-/
theorem ntoh16_finishChecksum (sum : Nat) :
    ntoh16 (finishChecksum sum) = complement (fold (sum % 4294967296)) := by
  have below : fold (sum % 4294967296) < 65536 := fold_lt (Nat.mod_lt _ (by decide))
  have nonzero : 4294967295 - fold (sum % 4294967296) ≠ 0 := by omega
  simp only [finishChecksum, if_neg nonzero, ntoh16_hton16, complement]
  omega

theorem ntoh16_ipv4Checksum (header : Ipv4Header) (extra : List UInt8) (extraLen : Nat) :
    ntoh16 (ipv4Checksum header extra extraLen) =
      complement (fold (ipv4ChecksumSum header extra extraLen % 4294967296)) := by
  have below : fold (ipv4ChecksumSum header extra extraLen % 4294967296) < 65536 :=
    fold_lt (Nat.mod_lt _ (by decide))
  simp only [ipv4Checksum, ntoh16_hton16, complement]
  omega

/--
RFC 1071 at the receiver: an IPv4 header whose checksum field holds what
`ipv4_checksum` computes with the field at zero sums to the all-ones word.
-/
theorem ipv4Checksum_verifies {header : Ipv4Header}
    (filled : header.checksum = ipv4Checksum { header with checksum := hton16 0 } [] 0) :
    fold (wordSum header.toBytes) = 65535 := by
  have small := ipv4ChecksumSum_lt { header with checksum := hton16 0 } [] (Nat.zero_le 40)
  have noOptions : ipv4ChecksumSum { header with checksum := hton16 0 } [] 0 =
      wordSum { header with checksum := hton16 0 }.toBytes := by
    simp [ipv4ChecksumSum]
  rw [noOptions] at small
  rw [Ipv4Header.wordSum_toBytes, filled, ntoh16_ipv4Checksum, noOptions, Nat.mod_eq_of_lt (by omega)]
  exact fold_add_complement small

/-- Adding the stored checksum completes the folded sum to the all-ones word. -/
theorem fold_add_finishChecksum {sum : Nat} (small : sum + 65535 < 2 ^ 32) :
    fold (sum + ntoh16 (finishChecksum sum)) = 65535 := by
  rw [ntoh16_finishChecksum, Nat.mod_eq_of_lt (by omega)]
  exact fold_add_complement small

/-- The sum of `udp_checksum` is that over the header with its checksum cleared, plus the checksum. -/
theorem udpChecksumSum_eq_cleared_add (header : UdpHeader) (payload : List UInt8) (payloadLen : Nat)
    (sourceAddr destAddr : Vector UInt8 4) :
    udpChecksumSum header payload payloadLen sourceAddr destAddr =
      udpChecksumSum { header with checksum := hton16 0 } payload payloadLen sourceAddr destAddr +
        ntoh16 header.checksum := by
  simp only [udpChecksumSum, udpChecksumSummer_toBytes, UdpHeader.wordSum_toBytes, ntoh16_hton16]
  omega

/-- The same for the sum of `udp_ip6_checksum`. -/
theorem udpIp6ChecksumSum_eq_cleared_add (header : UdpHeader) (payload : List UInt8) (payloadLen : Nat)
    (sourceAddr destAddr : Vector UInt8 16) :
    udpIp6ChecksumSum header payload payloadLen sourceAddr destAddr =
      udpIp6ChecksumSum { header with checksum := hton16 0 } payload payloadLen sourceAddr destAddr +
        ntoh16 header.checksum := by
  simp only [udpIp6ChecksumSum, udpChecksumSummer_toBytes, UdpHeader.wordSum_toBytes, ntoh16_hton16]
  omega

/--
RFC 768 at the receiver: a UDP datagram whose checksum field holds what
`udp_checksum` computes with the field at zero sums, with its pseudo-header,
to the all-ones word.
-/
theorem udpChecksum_verifies {header : UdpHeader} {payload : List UInt8} {payloadLen : Nat}
    (small : payloadLen < 65536) {sourceAddr destAddr : Vector UInt8 4}
    (filled : header.checksum =
      udpChecksum { header with checksum := hton16 0 } payload payloadLen sourceAddr destAddr) :
    fold (udpChecksumSum header payload payloadLen sourceAddr destAddr) = 65535 := by
  rw [udpChecksumSum_eq_cleared_add, filled, udpChecksum]
  exact fold_add_finishChecksum (udpChecksumSum_lt _ payload small sourceAddr destAddr)

/-- The same for `udp_ip6_checksum` and the IPv6 pseudo-header. -/
theorem udpIp6Checksum_verifies {header : UdpHeader} {payload : List UInt8} {payloadLen : Nat}
    (small : payloadLen < 65536) {sourceAddr destAddr : Vector UInt8 16}
    (filled : header.checksum =
      udpIp6Checksum { header with checksum := hton16 0 } payload payloadLen sourceAddr destAddr) :
    fold (udpIp6ChecksumSum header payload payloadLen sourceAddr destAddr) = 65535 := by
  rw [udpIp6ChecksumSum_eq_cleared_add, filled, udpIp6Checksum]
  exact fold_add_finishChecksum (udpIp6ChecksumSum_lt _ payload small sourceAddr destAddr)

/-! ## Parsers -/

/-- `ipv4_check`: the header and the `total_length - header_len` bytes after it. -/
def ipv4Check (data : List UInt8) : Option (Ipv4Header × List UInt8) :=
  if data.length < 20 then none
  else
    let header := Ipv4Header.ofBytes data
    if header.version ≠ 4 then none
    else
      -- options
      let headerLen := header.ihl * 4
      if headerLen < 20 then none
      else if headerLen > data.length then none
      else
        let totalLength := ntoh16 header.totalLength
        if totalLength < headerLen then none
        else if totalLength > data.length then none
        else
          -- the checksum is recomputed over the header with its field at zero
          let checksumComputed :=
            ipv4Checksum { header with checksum := hton16 0 } (data.drop 20) (headerLen - 20)
          if header.checksum ≠ checksumComputed then none
          else some (header, (data.drop headerLen).take (totalLength - headerLen))

/-- `ipv6_check`: the header and the `payload_length` bytes after it. -/
def ipv6Check (data : List UInt8) : Option (Ipv6Header × List UInt8) :=
  if data.length < 40 then none
  else
    let header := Ipv6Header.ofBytes data
    if (header.version4Tc4 >>> 4).toNat ≠ 6 then none
    else
      let payloadLength := ntoh16 header.payloadLength
      if payloadLength > data.length - 40 then none
      else some (header, (data.drop 40).take payloadLength)

/-- `udp_check`: the header and the `length - 8` bytes after it; stray data is ignored. -/
def udpCheck (data : List UInt8) : Option (UdpHeader × List UInt8) :=
  if data.length < 8 then none
  else
    let header := UdpHeader.ofBytes data
    let rest := data.drop 8
    let udpLength := ntoh16 header.length
    if udpLength < 8 then none
    else if udpLength > 8 + rest.length then none
    else some (header, rest.take (udpLength - 8))

/-- An IPv4 header without options, in front of exactly `total_length - 20` bytes. -/
theorem ipv4Check_toBytes_append {header : Ipv4Header} {rest : List UInt8}
    (versionIhl : header.version4Ihl4 = 69) (total : ntoh16 header.totalLength = 20 + rest.length)
    (checksum : header.checksum = ipv4Checksum { header with checksum := hton16 0 } [] 0) :
    ipv4Check (header.toBytes ++ rest) = some (header, rest) := by
  have version : header.version = 4 := by
    rw [Ipv4Header.version, versionIhl]
    decide
  have ihl : header.ihl = 5 := by
    rw [Ipv4Header.ihl, versionIhl]
    decide
  have noOptions : ipv4Checksum { header with checksum := hton16 0 } ((header.toBytes ++ rest).drop 20) 0 =
      ipv4Checksum { header with checksum := hton16 0 } [] 0 := by
    simp [ipv4Checksum, ipv4ChecksumSum]
  simp only [ipv4Check, Ipv4Header.ofBytes_toBytes_append, List.length_append, Ipv4Header.length_toBytes,
    version, ihl, total, noOptions, checksum]
  simp

/-- An IPv6 header in front of exactly `payload_length` bytes. -/
theorem ipv6Check_toBytes_append {header : Ipv6Header} {rest : List UInt8}
    (version : (header.version4Tc4 >>> 4).toNat = 6) (payload : ntoh16 header.payloadLength = rest.length) :
    ipv6Check (header.toBytes ++ rest) = some (header, rest) := by
  simp [ipv6Check, Ipv6Header.ofBytes_toBytes_append, version, payload]

/-- A UDP header in front of exactly `length - 8` bytes. -/
theorem udpCheck_toBytes_append {header : UdpHeader} {payload : List UInt8}
    (length : ntoh16 header.length = 8 + payload.length) :
    udpCheck (header.toBytes ++ payload) = some (header, payload) := by
  simp [udpCheck, UdpHeader.ofBytes_toBytes_append, length]

end Tun2SocksWinRT
