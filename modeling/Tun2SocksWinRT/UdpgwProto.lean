import Tun2SocksWinRT.BAddr

namespace Tun2SocksWinRT

namespace Udpgw

/-!
# The udpgw message format

`protocol/udpgw_proto.h`: a udpgw message, carried in one PacketProto frame,
is a `struct udpgw_header` (a flags byte and a 16-bit little-endian connection
id), then the remote address as a `struct udpgw_addr_ipv4` or
`struct udpgw_addr_ipv6` (address and port bytes as stored, network order), then
the UDP payload.  The `UDPGW_CLIENT_FLAG_IPV6` bit of the flags says which
address follows.

The client (`UdpGwClient.c`) and the server (`udpgw.c`) write messages the same
way (`encode`) and read them with the same steps, which `parseHeader` and
`parseAddr` model with the texts each end logs when a step fails.  Reading a
written message gives back what was written (`parseHeader_encodeHeader`,
`parseAddr_encodeAddr`), as long as the IPv6 flag matches the address, which
the writers ensure (`addrFlags`).
-/

open ByteMemory

/-- `UDPGW_CLIENT_FLAG_KEEPALIVE`. -/
def udpgwClientFlagKeepalive : UInt8 := 1

/-- `UDPGW_CLIENT_FLAG_REBIND`. -/
def udpgwClientFlagRebind : UInt8 := 2

/-- `UDPGW_CLIENT_FLAG_DNS`. -/
def udpgwClientFlagDns : UInt8 := 4

/-- `UDPGW_CLIENT_FLAG_IPV6`. -/
def udpgwClientFlagIpv6 : UInt8 := 8

/-- Whether `flags` has the bit `flag` set (`flags & flag` in C). -/
def hasFlag (flags flag : UInt8) : Bool :=
  flags &&& flag != 0

/-- A `struct udpgw_header`; the conid is stored little-endian (`htol16`). -/
def encodeHeader (flags : UInt8) (conid : Nat) : List UInt8 :=
  flags :: le16 conid

/-- A `struct udpgw_addr_ipv4` or `struct udpgw_addr_ipv6`. -/
def encodeAddr : BAddr → List UInt8
  | .ipv4 ip port => ip.toList ++ port.toList
  | .ipv6 ip port => ip.toList ++ port.toList

/-- A whole message: header, address, payload. -/
def encode (flags : UInt8) (conid : Nat) (addr : BAddr) (data : List UInt8) : List UInt8 :=
  encodeHeader flags conid ++ encodeAddr addr ++ data

/-- The writers set `UDPGW_CLIENT_FLAG_IPV6` exactly for an IPv6 address. -/
def addrFlags (flags : UInt8) : BAddr → UInt8
  | .ipv4 _ _ => flags
  | .ipv6 _ _ => flags ||| udpgwClientFlagIpv6

/-- The first `width` bytes, as a fixed-width field. -/
def takeVector (bytes : List UInt8) (width : Nat) (enough : width ≤ bytes.length) :
    Vector UInt8 width :=
  ⟨(bytes.take width).toArray, by simp [enough]⟩

/-- Read a `struct udpgw_header` off the front of a message. -/
def parseHeader : List UInt8 → Except String (UInt8 × Nat × List UInt8)
  | flags :: low :: high :: rest =>
      .ok (flags, ofLe [low, high], rest)
  | _ =>
      .error "missing header"

/-- Read the address the flags announce off the front of what follows the header. -/
def parseAddr (flags : UInt8) (data : List UInt8) : Except String (BAddr × List UInt8) :=
  if hasFlag flags udpgwClientFlagIpv6 then
    if enough : 18 ≤ data.length then
      .ok (.ipv6 (takeVector data 16 (by omega)) (takeVector (data.drop 16) 2 (by simp; omega)),
        data.drop 18)
    else
      .error "missing ipv6 address"
  else
    if enough : 6 ≤ data.length then
      .ok (.ipv4 (takeVector data 4 (by omega)) (takeVector (data.drop 4) 2 (by simp; omega)),
        data.drop 6)
    else
      .error "missing ipv4 address"

/-- A chain of checks succeeds only if its first step does and the rest succeeds on its result. -/
theorem except_bind_eq_ok {α β : Type} {first : Except String α} {rest : α → Except String β}
    {result : β} (succeeded : first >>= rest = .ok result) :
    ∃ value, first = .ok value ∧ rest value = .ok result := by
  cases first with
  | error message =>
      cases succeeded
  | ok value =>
      exact ⟨value, rfl, succeeded⟩

/-- A field is read back from the bytes written for it. -/
theorem takeVector_of_take
    {bytes : List UInt8}
    {width : Nat}
    {field : Vector UInt8 width}
    (written : bytes.take width = field.toList)
    (enough : width ≤ bytes.length) :
    takeVector bytes width enough = field := by
  apply Vector.toList_inj.mp
  simp [takeVector, written]

/-- Setting the IPv6 bit sets it. -/
theorem hasFlag_or_ipv6 (flags : UInt8) :
    hasFlag (flags ||| udpgwClientFlagIpv6) udpgwClientFlagIpv6 = true := by
  have setBit : (flags ||| udpgwClientFlagIpv6) &&& udpgwClientFlagIpv6 = udpgwClientFlagIpv6 := by
    apply UInt8.toBitVec_inj.mp
    simp only [UInt8.toBitVec_and, UInt8.toBitVec_or]
    ext index inRange
    simp only [BitVec.getElem_and, BitVec.getElem_or]
    cases udpgwClientFlagIpv6.toBitVec[index] <;> simp
  simp only [hasFlag, setBit]
  decide

/-- Or-ing flags without the IPv6 bit gives flags without it. -/
theorem hasFlag_or_of_not
    {flags other : UInt8}
    (flagsClear : hasFlag flags udpgwClientFlagIpv6 = false)
    (otherClear : hasFlag other udpgwClientFlagIpv6 = false) :
    hasFlag (flags ||| other) udpgwClientFlagIpv6 = false := by
  simp only [hasFlag, bne_eq_false_iff_eq] at flagsClear otherClear ⊢
  apply UInt8.toBitVec_inj.mp
  have flagsBits := congrArg UInt8.toBitVec flagsClear
  have otherBits := congrArg UInt8.toBitVec otherClear
  simp only [UInt8.toBitVec_and, UInt8.toBitVec_or] at flagsBits otherBits ⊢
  rw [BitVec.and_or_distrib_right, flagsBits, otherBits]
  rfl

/-- The flags written with an address announce it, when they did not claim IPv6 before. -/
theorem hasFlag_addrFlags
    {flags : UInt8}
    (clear : hasFlag flags udpgwClientFlagIpv6 = false)
    (addr : BAddr) :
    hasFlag (addrFlags flags addr) udpgwClientFlagIpv6 =
      match addr with
      | .ipv4 _ _ => false
      | .ipv6 _ _ => true := by
  cases addr with
  | ipv4 ip port =>
      exact clear
  | ipv6 ip port =>
      exact hasFlag_or_ipv6 flags

/-- A header is read back as written, for a conid of 16 bits. -/
theorem parseHeader_encodeHeader
    (flags : UInt8)
    {conid : Nat}
    (small : conid < 65536)
    (rest : List UInt8) :
    parseHeader (encodeHeader flags conid ++ rest) = .ok (flags, conid, rest) := by
  have conidBytes : ofLe (le16 conid) = conid := ofLe_le16 small
  simp only [le16] at conidBytes
  simp [encodeHeader, le16, parseHeader, conidBytes]

/-- An address is read back as written, when the flags announce its type. -/
theorem parseAddr_encodeAddr
    {flags : UInt8}
    (clear : hasFlag flags udpgwClientFlagIpv6 = false)
    (addr : BAddr)
    (rest : List UInt8) :
    parseAddr (addrFlags flags addr) (encodeAddr addr ++ rest) = .ok (addr, rest) := by
  have announced := hasFlag_addrFlags clear addr
  cases addr with
  | ipv4 ip port =>
      have enough : 6 ≤ (encodeAddr (.ipv4 ip port) ++ rest).length := by
        simp only [encodeAddr, List.length_append, Vector.length_toList]
        omega
      have ipBytes : (encodeAddr (.ipv4 ip port) ++ rest).take 4 = ip.toList := by
        simp [encodeAddr]
      have portBytes : ((encodeAddr (.ipv4 ip port) ++ rest).drop 4).take 2 = port.toList := by
        simp [encodeAddr]
      have restBytes : (encodeAddr (.ipv4 ip port) ++ rest).drop 6 = rest := by
        simp [encodeAddr, List.drop_append]
      simp only at announced
      rw [parseAddr, announced, if_neg Bool.false_ne_true, dif_pos enough,
        takeVector_of_take ipBytes, takeVector_of_take portBytes, restBytes]
  | ipv6 ip port =>
      have enough : 18 ≤ (encodeAddr (.ipv6 ip port) ++ rest).length := by
        simp only [encodeAddr, List.length_append, Vector.length_toList]
        omega
      have ipBytes : (encodeAddr (.ipv6 ip port) ++ rest).take 16 = ip.toList := by
        simp [encodeAddr]
      have portBytes : ((encodeAddr (.ipv6 ip port) ++ rest).drop 16).take 2 = port.toList := by
        simp [encodeAddr]
      have restBytes : (encodeAddr (.ipv6 ip port) ++ rest).drop 18 = rest := by
        simp [encodeAddr, List.drop_append]
      simp only at announced
      rw [parseAddr, announced, if_pos rfl, dif_pos enough,
        takeVector_of_take ipBytes, takeVector_of_take portBytes, restBytes]

/-- A whole message's header is read back as written. -/
theorem parseHeader_encode
    (flags : UInt8)
    {conid : Nat}
    (small : conid < 65536)
    (addr : BAddr)
    (data : List UInt8) :
    parseHeader (encode flags conid addr data) = .ok (flags, conid, encodeAddr addr ++ data) := by
  rw [encode, List.append_assoc]
  exact parseHeader_encodeHeader flags small _

/--
What a reader takes from a message written with flags that announce its
address: the conid, the address and the payload it was written with.
-/
theorem encode_parsed
    {flags : UInt8}
    (clear : hasFlag flags udpgwClientFlagIpv6 = false)
    {conid : Nat}
    (small : conid < 65536)
    {addr : BAddr}
    {data : List UInt8}
    {readFlags : UInt8}
    {readConid : Nat}
    {rest : List UInt8}
    {readAddr : BAddr}
    {payload : List UInt8}
    (header : parseHeader (encode (addrFlags flags addr) conid addr data) = .ok (readFlags, readConid, rest))
    (address : parseAddr readFlags rest = .ok (readAddr, payload)) :
    readConid = conid ∧ readAddr = addr ∧ payload = data := by
  rw [parseHeader_encode _ small] at header
  simp only [Except.ok.injEq, Prod.mk.injEq] at header
  obtain ⟨rfl, rfl, rfl⟩ := header
  rw [parseAddr_encodeAddr clear] at address
  simp only [Except.ok.injEq, Prod.mk.injEq] at address
  obtain ⟨rfl, rfl⟩ := address
  exact ⟨rfl, rfl, rfl⟩

end Udpgw

end Tun2SocksWinRT
