import Tun2SocksWinRT.IpProto
import Tun2SocksWinRT.BAddr

namespace Tun2SocksWinRT

/-!
# The UDP paths of tun2socks

`tun2socks/tun2socks.c`: `process_device_udp_packet` parses a packet read from
the TUN device and hands its datagram to the udpgw client;
`udpgw_client_handler_received` builds the IPv4 or IPv6 packet that carries a
datagram coming back from udpgw and writes it to the device.

Main facts:
* `udpgw_packets_parse_on_device`: the handler writes a packet exactly for a
  payload within its size checks, and every packet it writes is read
  back by the device-side parsers with the addresses swapped and exactly the
  original payload, with every 16-bit length exact and no checksum
  accumulator wrapping;
* `processDeviceUdpPacket` is exactly the conjunction of the checks it makes,
  which leaves out two that the UDP and IP standards ask for: see
  `device_parser_accepts_fragments_and_refuses_unchecked`.
-/

open OnesComplement

/-- The globals of `tun2socks.c` that its UDP paths read. -/
structure Globals where
  /-- `options.udpgw_remote_server_addr` is set: udpgw is in use. -/
  udpgwRemoteServerAddr : Bool
  udpgwTransparentDns : Bool
  /-- `options.netif_ip6addr` is set: IPv6 is enabled. -/
  netifIp6addr : Bool
  /-- `netif_ipaddr.ipv4`, in network order. -/
  netifIpaddr : Vector UInt8 4
  udpMtu : Int
  /-- `device_mtu`, that is `SockTun_GetMTU(&tunnel)`. -/
  deviceMtu : Int

/-- The arguments `process_device_udp_packet` passes to `SocksUdpGwClient_SubmitPacket`. -/
structure Datagram where
  localAddr : BAddr
  remoteAddr : BAddr
  isDns : Bool
  data : List UInt8
  deriving DecidableEq, Repr

/-! ## From the device -/

/-- The `case 4` block of `process_device_udp_packet`. -/
def processIpv4Packet (globals : Globals) (data : List UInt8) : Option Datagram := do
  -- ignore non-UDP packets
  if data.length < 20 ∨ (data.getD 9 0).toNat ≠ ipv4ProtocolUdp then none
  let (ipv4Header, data) ← ipv4Check data
  let (udpHeader, data) ← udpCheck data
  -- verify UDP checksum: `payload_len` is a `uint16_t`
  let checksumComputed := udpChecksum { udpHeader with checksum := hton16 0 } data (data.length % 65536)
    ipv4Header.sourceAddress ipv4Header.destinationAddress
  if udpHeader.checksum ≠ checksumComputed then none
  some {
    localAddr := .ipv4 ipv4Header.sourceAddress udpHeader.sourcePort
    remoteAddr := .ipv4 ipv4Header.destinationAddress udpHeader.destPort
    isDns := globals.udpgwTransparentDns && ipv4Header.destinationAddress == globals.netifIpaddr &&
      udpHeader.destPort == hton16 53
    data }

/-- The `case 6` block of `process_device_udp_packet`. -/
def processIpv6Packet (globals : Globals) (data : List UInt8) : Option Datagram := do
  -- ignore if IPv6 support is disabled
  if !globals.netifIp6addr then none
  -- ignore non-UDP packets
  if data.length < 40 ∨ (data.getD 6 0).toNat ≠ ipv6NextUdp then none
  let (ipv6Header, data) ← ipv6Check data
  let (udpHeader, data) ← udpCheck data
  let checksumComputed := udpIp6Checksum { udpHeader with checksum := hton16 0 } data (data.length % 65536)
    ipv6Header.sourceAddress ipv6Header.destinationAddress
  if udpHeader.checksum ≠ checksumComputed then none
  some {
    localAddr := .ipv6 ipv6Header.sourceAddress udpHeader.sourcePort
    remoteAddr := .ipv6 ipv6Header.destinationAddress udpHeader.destPort
    isDns := false
    data }

/-- The `switch (ip_version)` of `process_device_udp_packet`. -/
def deviceUdpDatagram (globals : Globals) (data : List UInt8) : Option Datagram :=
  let ipVersion := if data.length > 0 then (data.getD 0 0 >>> 4).toNat else 0
  if ipVersion = 4 then processIpv4Packet globals data
  else if ipVersion = 6 then processIpv6Packet globals data
  else none

/-- `process_device_udp_packet`: the datagram it submits to udpgw, or `none` where it returns 0. -/
def processDeviceUdpPacket (globals : Globals) (data : List UInt8) : Option Datagram := do
  -- do nothing if we don't have udpgw
  if !globals.udpgwRemoteServerAddr then none
  let datagram ← deviceUdpDatagram globals data
  -- check payload length
  if (datagram.data.length : Int) > globals.udpMtu then none
  some datagram

set_option maxRecDepth 4096 in
/--
The device parser takes the first fragment of a datagram for the whole
datagram, and drops two datagrams that RFC 768 accepts: one sent without a
checksum (field zero, allowed over IPv4) and one whose checksum is written
0xFFFF, the form RFC 768 prescribes when the complement is zero.  The parser
recomputes the checksum and compares, and the computation yields 0x0000 there
(`ntoh16_finishChecksum`: the zero test of `udp_checksum` is dead).
-/
theorem device_parser_accepts_fragments_and_refuses_unchecked :
    let globals : Globals :=
      { udpgwRemoteServerAddr := true, udpgwTransparentDns := false, netifIp6addr := false
        netifIpaddr := ⟨#[10, 0, 0, 1], rfl⟩, udpMtu := 1472, deviceMtu := 1500 }
    -- 10.0.0.2:1024 to 8.8.8.8:53, one byte, "more fragments" set: the first fragment of a longer datagram
    let fragment : List UInt8 :=
      [69, 0, 0, 29, 0, 0, 32, 0, 64, 17, 64, 191, 10, 0, 0, 2, 8, 8, 8, 8, 4, 0, 0, 53, 0, 9, 218, 149, 7]
    -- the same datagram unfragmented and sent without a checksum
    let unchecked : List UInt8 :=
      [69, 0, 0, 29, 0, 0, 0, 0, 64, 17, 96, 191, 10, 0, 0, 2, 8, 8, 8, 8, 4, 0, 0, 53, 0, 9, 0, 0, 7]
    -- a datagram whose checksum complement is zero, sent as 0xFFFF
    let allOnes : List UInt8 :=
      [69, 0, 0, 30, 0, 0, 0, 0, 64, 17, 96, 190, 10, 0, 0, 2, 8, 8, 8, 8, 4, 0, 0, 53, 0, 10, 255, 255, 225, 147]
    (Ipv4Header.ofBytes fragment).flags3Fragmentoffset13 = hton16 0x2000 ∧
      processDeviceUdpPacket globals fragment =
        some { localAddr := .ipv4 ⟨#[10, 0, 0, 2], rfl⟩ ⟨#[4, 0], rfl⟩,
               remoteAddr := .ipv4 ⟨#[8, 8, 8, 8], rfl⟩ ⟨#[0, 53], rfl⟩, isDns := false, data := [7] } ∧
      (UdpHeader.ofBytes (unchecked.drop 20)).checksum = hton16 0 ∧
      processDeviceUdpPacket globals unchecked = none ∧
      fold (udpChecksumSum (UdpHeader.ofBytes (allOnes.drop 20)) (allOnes.drop 28) 2
        ⟨#[10, 0, 0, 2], rfl⟩ ⟨#[8, 8, 8, 8], rfl⟩) = 65535 ∧
      processDeviceUdpPacket globals allOnes = none := by
  decide
/-! ## To the device -/

/-- `IPV4_MAKE_VERSION_IHL(size)`. -/
def ipv4MakeVersionIhl (size : Nat) : UInt8 :=
  UInt8.ofNat (size / 4 + (4 <<< 4))

/-- "build IP header" of `udpgw_client_handler_received`, checksum included. -/
def buildIpv4Header (localIp remoteIp : Vector UInt8 4) (data : List UInt8) : Ipv4Header :=
  let iph : Ipv4Header := {
    version4Ihl4 := ipv4MakeVersionIhl 20
    ds := 0
    totalLength := hton16 (20 + 8 + data.length)
    identification := hton16 0
    flags3Fragmentoffset13 := hton16 0
    ttl := 64
    protocol := UInt8.ofNat ipv4ProtocolUdp
    checksum := hton16 0
    sourceAddress := remoteIp
    destinationAddress := localIp }
  { iph with checksum := ipv4Checksum iph [] 0 }

/-- "build IPv6 header" of `udpgw_client_handler_received`. -/
def buildIpv6Header (localIp remoteIp : Vector UInt8 16) (data : List UInt8) : Ipv6Header where
  version4Tc4 := UInt8.ofNat (6 <<< 4)
  tc4Fl4 := 0
  fl := hton16 0
  payloadLength := hton16 (8 + data.length)
  nextHeader := UInt8.ofNat ipv6NextUdp
  hopLimit := 64
  sourceAddress := remoteIp
  destinationAddress := localIp

/-- "build UDP header" of `udpgw_client_handler_received`, before its checksum is filled in. -/
def buildUdpHeader (localPort remotePort : Vector UInt8 2) (data : List UInt8) : UdpHeader where
  sourcePort := remotePort
  destPort := localPort
  length := hton16 (8 + data.length)
  checksum := hton16 0

/-- The IPv4 packet `udpgw_client_handler_received` writes to `device_write_buf`. -/
def buildIpv4Packet (localIp remoteIp : Vector UInt8 4) (localPort remotePort : Vector UInt8 2)
    (data : List UInt8) : List UInt8 :=
  let iph := buildIpv4Header localIp remoteIp data
  let udph := buildUdpHeader localPort remotePort data
  let udph := { udph with
    checksum := udpChecksum udph data (data.length % 65536) iph.sourceAddress iph.destinationAddress }
  iph.toBytes ++ udph.toBytes ++ data

/-- The IPv6 packet `udpgw_client_handler_received` writes to `device_write_buf`. -/
def buildIpv6Packet (localIp remoteIp : Vector UInt8 16) (localPort remotePort : Vector UInt8 2)
    (data : List UInt8) : List UInt8 :=
  let iph := buildIpv6Header localIp remoteIp data
  let udph := buildUdpHeader localPort remotePort data
  let udph := { udph with
    checksum := udpIp6Checksum udph data (data.length % 65536) iph.sourceAddress iph.destinationAddress }
  iph.toBytes ++ udph.toBytes ++ data

/--
`udpgw_client_handler_received`: the packet sent to the device, an error it
logs before returning, or `none` where an `ASSERT` fails.
-/
def udpgwClientHandlerReceived (globals : Globals) (localAddr remoteAddr : BAddr) (data : List UInt8) :
    Option (Except String (List UInt8)) :=
  if !globals.udpgwRemoteServerAddr then none
  else
    match localAddr, remoteAddr with
    | .ipv4 localIp localPort, .ipv4 remoteIp remotePort =>
        if data.length > 65535 - (20 + 8) ∨ (data.length : Int) > globals.deviceMtu - (20 + 8) then
          some (.error "UDP: packet is too large")
        else
          some (.ok (buildIpv4Packet localIp remoteIp localPort remotePort data))
    | .ipv6 localIp localPort, .ipv6 remoteIp remotePort =>
        if !globals.netifIp6addr then
          some (.error "got IPv6 packet from udpgw but IPv6 is disabled")
        else if data.length > 65535 - 8 ∨ (data.length : Int) > globals.deviceMtu - (40 + 8) then
          some (.error "UDP/IPv6: packet is too large")
        else
          some (.ok (buildIpv6Packet localIp remoteIp localPort remotePort data))
    -- `ASSERT(local_addr.type == remote_addr.type)`
    | _, _ => none

/--
Addresses of one family and a payload that passes that family's size checks in
`udpgw_client_handler_received` (and, for IPv6, IPv6 enabled).
-/
def WithinSizeChecks (globals : Globals) (data : List UInt8) : BAddr → BAddr → Prop
  | .ipv4 .., .ipv4 .. => data.length ≤ 65535 - (20 + 8) ∧ (data.length : Int) ≤ globals.deviceMtu - (20 + 8)
  | .ipv6 .., .ipv6 .. =>
      globals.netifIp6addr = true ∧ data.length ≤ 65535 - 8 ∧ (data.length : Int) ≤ globals.deviceMtu - (40 + 8)
  | _, _ => False

/-! ## The device parser, check by check -/

/-- What the `case 4` block accepts. -/
theorem processIpv4Packet_eq_some {globals : Globals} {data : List UInt8} {datagram : Datagram} :
    processIpv4Packet globals data = some datagram ↔
      20 ≤ data.length ∧ (data.getD 9 0).toNat = ipv4ProtocolUdp ∧
      ∃ ipv4Header segment udpHeader,
        ipv4Check data = some (ipv4Header, segment) ∧
        udpCheck segment = some (udpHeader, datagram.data) ∧
        udpHeader.checksum = udpChecksum { udpHeader with checksum := hton16 0 } datagram.data
          (datagram.data.length % 65536) ipv4Header.sourceAddress ipv4Header.destinationAddress ∧
        { localAddr := .ipv4 ipv4Header.sourceAddress udpHeader.sourcePort
          remoteAddr := .ipv4 ipv4Header.destinationAddress udpHeader.destPort
          isDns := globals.udpgwTransparentDns && ipv4Header.destinationAddress == globals.netifIpaddr &&
            udpHeader.destPort == hton16 53
          data := datagram.data } = datagram := by
  rcases datagram with ⟨localAddr, remoteAddr, isDns, payload⟩
  simp [processIpv4Packet, Option.bind_eq_some_iff, and_assoc]

/-- What the `case 6` block accepts. -/
theorem processIpv6Packet_eq_some {globals : Globals} {data : List UInt8} {datagram : Datagram} :
    processIpv6Packet globals data = some datagram ↔
      globals.netifIp6addr = true ∧ 40 ≤ data.length ∧ (data.getD 6 0).toNat = ipv6NextUdp ∧
      ∃ ipv6Header segment udpHeader,
        ipv6Check data = some (ipv6Header, segment) ∧
        udpCheck segment = some (udpHeader, datagram.data) ∧
        udpHeader.checksum = udpIp6Checksum { udpHeader with checksum := hton16 0 } datagram.data
          (datagram.data.length % 65536) ipv6Header.sourceAddress ipv6Header.destinationAddress ∧
        { localAddr := .ipv6 ipv6Header.sourceAddress udpHeader.sourcePort
          remoteAddr := .ipv6 ipv6Header.destinationAddress udpHeader.destPort
          isDns := false
          data := datagram.data } = datagram := by
  rcases datagram with ⟨localAddr, remoteAddr, isDns, payload⟩
  simp [processIpv6Packet, Option.bind_eq_some_iff, and_assoc]

/-! ## Packets to the device read back -/

/-- What `udpgw_client_handler_received` sends: one of the two packets, for addresses of one family. -/
theorem udpgwClientHandlerReceived_eq_ok {globals : Globals} {localAddr remoteAddr : BAddr}
    {data packet : List UInt8}
    (sent : udpgwClientHandlerReceived globals localAddr remoteAddr data = some (.ok packet)) :
    (∃ localIp localPort remoteIp remotePort,
        localAddr = .ipv4 localIp localPort ∧ remoteAddr = .ipv4 remoteIp remotePort ∧
        data.length ≤ 65535 - 28 ∧ packet = buildIpv4Packet localIp remoteIp localPort remotePort data) ∨
    (∃ localIp localPort remoteIp remotePort,
        localAddr = .ipv6 localIp localPort ∧ remoteAddr = .ipv6 remoteIp remotePort ∧
        globals.netifIp6addr = true ∧ data.length ≤ 65535 - 8 ∧
        packet = buildIpv6Packet localIp remoteIp localPort remotePort data) := by
  unfold udpgwClientHandlerReceived at sent
  split at sent
  · cases sent
  · split at sent
    · -- IPv4: the size checks passed
      split_ifs at sent with tooLarge
      · cases sent
      · simp only [Option.some.injEq, Except.ok.injEq] at sent
        exact .inl ⟨_, _, _, _, rfl, rfl, by omega, sent.symm⟩
    · -- IPv6: enabled, and the size checks passed
      split_ifs at sent with disabled tooLarge
      · cases sent
      · cases sent
      · simp only [Option.some.injEq, Except.ok.injEq] at sent
        exact .inr ⟨_, _, _, _, rfl, rfl, by simpa using disabled, by omega, sent.symm⟩
    · cases sent

/-- With udpgw in use, a packet is built exactly when the addresses and the payload pass the checks. -/
theorem udpgwClientHandlerReceived_ok_iff {globals : Globals} {localAddr remoteAddr : BAddr}
    {data : List UInt8} (server : globals.udpgwRemoteServerAddr = true) :
    (∃ packet, udpgwClientHandlerReceived globals localAddr remoteAddr data = some (.ok packet)) ↔
      WithinSizeChecks globals data localAddr remoteAddr := by
  cases localAddr <;> cases remoteAddr <;>
    simp only [udpgwClientHandlerReceived, server, WithinSizeChecks, Bool.not_true, Bool.false_eq_true,
      if_false, reduceCtorEq, exists_const]
  case ipv4.ipv4 =>
    split_ifs with tooLarge
    · simp only [Option.some.injEq, reduceCtorEq, exists_const, false_iff]
      omega
    · simp only [Option.some.injEq, Except.ok.injEq, exists_eq', true_iff]
      omega
  case ipv6.ipv6 =>
    -- the IPv6 branch checks that IPv6 is enabled before the sizes
    split_ifs with disabled tooLarge <;> simp only [Bool.not_eq_true'] at disabled
    · simp [disabled]
    · simp only [Option.some.injEq, reduceCtorEq, exists_const, false_iff]
      omega
    · simp only [Option.some.injEq, Except.ok.injEq, exists_eq', true_iff]
      simp only [Bool.not_eq_false] at disabled
      exact ⟨disabled, by omega, by omega⟩

/-- The built UDP header reads back with exactly the payload, whatever its checksum. -/
theorem udpCheck_buildUdpHeader (localPort remotePort : Vector UInt8 2) {data : List UInt8}
    (small : data.length ≤ 65535 - 8) (checksum : Vector UInt8 2) :
    udpCheck (({ buildUdpHeader localPort remotePort data with checksum } : UdpHeader).toBytes ++ data) =
      some ({ buildUdpHeader localPort remotePort data with checksum }, data) :=
  udpCheck_toBytes_append (by simp [buildUdpHeader]; omega)

/-- The built IPv4 header passes `ipv4_check` in front of its UDP datagram. -/
theorem ipv4Check_buildIpv4Header (localIp remoteIp : Vector UInt8 4) {data rest : List UInt8}
    (small : data.length ≤ 65535 - 28) (datagram : rest.length = 8 + data.length) :
    ipv4Check ((buildIpv4Header localIp remoteIp data).toBytes ++ rest) =
      some (buildIpv4Header localIp remoteIp data, rest) := by
  apply ipv4Check_toBytes_append rfl _ rfl
  simp only [buildIpv4Header, ntoh16_hton16, datagram]
  omega

/-- The built IPv6 header passes `ipv6_check` in front of its UDP datagram. -/
theorem ipv6Check_buildIpv6Header (localIp remoteIp : Vector UInt8 16) {data rest : List UInt8}
    (small : data.length ≤ 65535 - 8) (datagram : rest.length = 8 + data.length) :
    ipv6Check ((buildIpv6Header localIp remoteIp data).toBytes ++ rest) =
      some (buildIpv6Header localIp remoteIp data, rest) := by
  apply ipv6Check_toBytes_append (by simp only [buildIpv6Header]; decide)
  simp only [buildIpv6Header, ntoh16_hton16, datagram]
  omega

/-- A UDP-over-IPv4 packet whose headers pass the parsers is read as the datagram it carries. -/
theorem processIpv4Packet_toBytes_append {globals : Globals} {ipv4Header : Ipv4Header}
    {udpHeader : UdpHeader} {data : List UInt8}
    (ip : ipv4Check (ipv4Header.toBytes ++ (udpHeader.toBytes ++ data)) =
      some (ipv4Header, udpHeader.toBytes ++ data))
    (protocol : ipv4Header.protocol.toNat = ipv4ProtocolUdp)
    (udp : udpCheck (udpHeader.toBytes ++ data) = some (udpHeader, data))
    (checksum : udpHeader.checksum = udpChecksum { udpHeader with checksum := hton16 0 } data
      (data.length % 65536) ipv4Header.sourceAddress ipv4Header.destinationAddress) :
    processIpv4Packet globals (ipv4Header.toBytes ++ (udpHeader.toBytes ++ data)) =
      some { localAddr := .ipv4 ipv4Header.sourceAddress udpHeader.sourcePort
             remoteAddr := .ipv4 ipv4Header.destinationAddress udpHeader.destPort
             isDns := globals.udpgwTransparentDns && ipv4Header.destinationAddress == globals.netifIpaddr &&
               udpHeader.destPort == hton16 53
             data } := by
  -- the protocol byte is the header's
  have protocolByte := congrArg Ipv4Header.protocol
    (Ipv4Header.ofBytes_toBytes_append ipv4Header (udpHeader.toBytes ++ data))
  simp only [Ipv4Header.ofBytes] at protocolByte
  apply processIpv4Packet_eq_some.mpr
  exact ⟨by simp, by rw [protocolByte, protocol], _, _, _, ip, udp, checksum, rfl⟩

/-- A UDP-over-IPv6 packet whose headers pass the parsers is read as the datagram it carries. -/
theorem processIpv6Packet_toBytes_append {globals : Globals} (enabled : globals.netifIp6addr = true)
    {ipv6Header : Ipv6Header} {udpHeader : UdpHeader} {data : List UInt8}
    (ip : ipv6Check (ipv6Header.toBytes ++ (udpHeader.toBytes ++ data)) =
      some (ipv6Header, udpHeader.toBytes ++ data))
    (nextHeader : ipv6Header.nextHeader.toNat = ipv6NextUdp)
    (udp : udpCheck (udpHeader.toBytes ++ data) = some (udpHeader, data))
    (checksum : udpHeader.checksum = udpIp6Checksum { udpHeader with checksum := hton16 0 } data
      (data.length % 65536) ipv6Header.sourceAddress ipv6Header.destinationAddress) :
    processIpv6Packet globals (ipv6Header.toBytes ++ (udpHeader.toBytes ++ data)) =
      some { localAddr := .ipv6 ipv6Header.sourceAddress udpHeader.sourcePort
             remoteAddr := .ipv6 ipv6Header.destinationAddress udpHeader.destPort
             isDns := false
             data } := by
  have nextHeaderByte := congrArg Ipv6Header.nextHeader
    (Ipv6Header.ofBytes_toBytes_append ipv6Header (udpHeader.toBytes ++ data))
  simp only [Ipv6Header.ofBytes] at nextHeaderByte
  apply processIpv6Packet_eq_some.mpr
  exact ⟨enabled, by simp, by rw [nextHeaderByte, nextHeader], _, _, _, ip, udp, checksum, rfl⟩

/-- The device reads an IPv4 packet from udpgw as the datagram it carries, addresses swapped. -/
theorem processIpv4Packet_buildIpv4Packet (globals : Globals) (localIp remoteIp : Vector UInt8 4)
    (localPort remotePort : Vector UInt8 2) {data : List UInt8} (small : data.length ≤ 65535 - 28) :
    processIpv4Packet globals (buildIpv4Packet localIp remoteIp localPort remotePort data) =
      some { localAddr := .ipv4 remoteIp remotePort, remoteAddr := .ipv4 localIp localPort
             isDns := globals.udpgwTransparentDns && localIp == globals.netifIpaddr && localPort == hton16 53
             data } := by
  rw [buildIpv4Packet, List.append_assoc]
  exact processIpv4Packet_toBytes_append
    (ipv4Check_buildIpv4Header localIp remoteIp small (by simp))
    rfl (udpCheck_buildUdpHeader localPort remotePort (by omega) _) rfl

/-- The device reads an IPv6 packet from udpgw as the datagram it carries, addresses swapped. -/
theorem processIpv6Packet_buildIpv6Packet {globals : Globals} (enabled : globals.netifIp6addr = true)
    (localIp remoteIp : Vector UInt8 16) (localPort remotePort : Vector UInt8 2) {data : List UInt8}
    (small : data.length ≤ 65535 - 8) :
    processIpv6Packet globals (buildIpv6Packet localIp remoteIp localPort remotePort data) =
      some { localAddr := .ipv6 remoteIp remotePort, remoteAddr := .ipv6 localIp localPort, isDns := false
             data } := by
  rw [buildIpv6Packet, List.append_assoc]
  exact processIpv6Packet_toBytes_append enabled
    (ipv6Check_buildIpv6Header localIp remoteIp small (by simp))
    rfl (udpCheck_buildUdpHeader localPort remotePort small _) rfl

/-- The version nibble of an IPv4 header sends a packet to the `case 4` block. -/
theorem deviceUdpDatagram_ipv4 (globals : Globals) {header : Ipv4Header} (rest : List UInt8)
    (version : (header.version4Ihl4 >>> 4).toNat = 4) :
    deviceUdpDatagram globals (header.toBytes ++ rest) = processIpv4Packet globals (header.toBytes ++ rest) := by
  have firstByte := congrArg Ipv4Header.version4Ihl4 (Ipv4Header.ofBytes_toBytes_append header rest)
  simp only [Ipv4Header.ofBytes] at firstByte
  unfold deviceUdpDatagram
  rw [firstByte]
  simp [version]

/-- The version nibble of an IPv6 header sends a packet to the `case 6` block. -/
theorem deviceUdpDatagram_ipv6 (globals : Globals) {header : Ipv6Header} (rest : List UInt8)
    (version : (header.version4Tc4 >>> 4).toNat = 6) :
    deviceUdpDatagram globals (header.toBytes ++ rest) = processIpv6Packet globals (header.toBytes ++ rest) := by
  have firstByte := congrArg Ipv6Header.version4Tc4 (Ipv6Header.ofBytes_toBytes_append header rest)
  simp only [Ipv6Header.ofBytes] at firstByte
  unfold deviceUdpDatagram
  rw [firstByte]
  simp [version]

/--
The IPv4 packet to the device, header by header: both parsers accept it, its
length fields are exact, no accumulator wraps, and both checksums verify.
-/
theorem buildIpv4Packet_parses (localIp remoteIp : Vector UInt8 4) (localPort remotePort : Vector UInt8 2)
    {data : List UInt8} (small : data.length ≤ 65535 - 28) :
    ∃ ipv4Header udpHeader,
      ipv4Check (buildIpv4Packet localIp remoteIp localPort remotePort data) =
        some (ipv4Header, udpHeader.toBytes ++ data) ∧
      udpCheck (udpHeader.toBytes ++ data) = some (udpHeader, data) ∧
      ntoh16 ipv4Header.totalLength = (buildIpv4Packet localIp remoteIp localPort remotePort data).length ∧
      ntoh16 udpHeader.length = 8 + data.length ∧
      data.length % 65536 = data.length ∧
      ipv4ChecksumSum { ipv4Header with checksum := hton16 0 } [] 0 + 65535 < 2 ^ 32 ∧
      udpChecksumSum { udpHeader with checksum := hton16 0 } data data.length remoteIp localIp + 65535 < 2 ^ 32 ∧
      fold (wordSum ipv4Header.toBytes) = 65535 ∧
      fold (udpChecksumSum udpHeader data data.length remoteIp localIp) = 65535 := by
  have exact : data.length % 65536 = data.length := Nat.mod_eq_of_lt (by omega)
  rw [buildIpv4Packet, List.append_assoc]
  refine ⟨buildIpv4Header localIp remoteIp data, _,
    ipv4Check_buildIpv4Header localIp remoteIp small (by simp),
    udpCheck_buildUdpHeader localPort remotePort (by omega) _, ?total, ?udpLength, exact,
    ipv4ChecksumSum_lt _ _ (Nat.zero_le 40), udpChecksumSum_lt _ _ (by omega) _ _,
    ipv4Checksum_verifies rfl, ?verifies⟩
  case total =>
    simp only [buildIpv4Header, ntoh16_hton16, List.length_append, Ipv4Header.length_toBytes,
      UdpHeader.length_toBytes]
    omega
  case udpLength =>
    simp only [buildUdpHeader, ntoh16_hton16]
    omega
  case verifies =>
    apply udpChecksum_verifies (by omega)
    rw [exact]
    rfl

/-- The IPv6 packet to the device, header by header. -/
theorem buildIpv6Packet_parses (localIp remoteIp : Vector UInt8 16) (localPort remotePort : Vector UInt8 2)
    {data : List UInt8} (small : data.length ≤ 65535 - 8) :
    ∃ ipv6Header udpHeader,
      ipv6Check (buildIpv6Packet localIp remoteIp localPort remotePort data) =
        some (ipv6Header, udpHeader.toBytes ++ data) ∧
      udpCheck (udpHeader.toBytes ++ data) = some (udpHeader, data) ∧
      40 + ntoh16 ipv6Header.payloadLength = (buildIpv6Packet localIp remoteIp localPort remotePort data).length ∧
      ntoh16 udpHeader.length = 8 + data.length ∧
      data.length % 65536 = data.length ∧
      udpIp6ChecksumSum { udpHeader with checksum := hton16 0 } data data.length remoteIp localIp + 65535 < 2 ^ 32 ∧
      fold (udpIp6ChecksumSum udpHeader data data.length remoteIp localIp) = 65535 := by
  have exact : data.length % 65536 = data.length := Nat.mod_eq_of_lt (by omega)
  rw [buildIpv6Packet, List.append_assoc]
  refine ⟨buildIpv6Header localIp remoteIp data, _,
    ipv6Check_buildIpv6Header localIp remoteIp small (by simp),
    udpCheck_buildUdpHeader localPort remotePort small _, ?total, ?udpLength, exact,
    udpIp6ChecksumSum_lt _ _ (by omega) _ _, ?verifies⟩
  case total =>
    simp only [buildIpv6Header, ntoh16_hton16, List.length_append, Ipv6Header.length_toBytes,
      UdpHeader.length_toBytes]
    omega
  case udpLength =>
    simp only [buildUdpHeader, ntoh16_hton16]
    omega
  case verifies =>
    apply udpIp6Checksum_verifies (by omega)
    rw [exact]
    rfl

/--
With udpgw in use, `udpgw_client_handler_received` writes a packet to the
device exactly for addresses of one family and a payload within that family's
size checks; and every packet it writes is read back by the parsers of
`process_device_udp_packet` as the datagram it carries, source and destination
swapped; its 16-bit lengths are exact, the checksum accumulators do not wrap,
and the checksums verify.
-/
theorem udpgw_packets_parse_on_device (globals : Globals) (localAddr remoteAddr : BAddr) (data : List UInt8)
    (server : globals.udpgwRemoteServerAddr = true) :
    ((∃ packet, udpgwClientHandlerReceived globals localAddr remoteAddr data = some (.ok packet)) ↔
      WithinSizeChecks globals data localAddr remoteAddr) ∧
    ∀ packet, udpgwClientHandlerReceived globals localAddr remoteAddr data = some (.ok packet) →
    (∃ isDns, deviceUdpDatagram globals packet =
        some { localAddr := remoteAddr, remoteAddr := localAddr, isDns, data }) ∧
    (∀ localIp localPort remoteIp remotePort,
        localAddr = .ipv4 localIp localPort → remoteAddr = .ipv4 remoteIp remotePort →
        ∃ ipv4Header udpHeader,
          ipv4Check packet = some (ipv4Header, udpHeader.toBytes ++ data) ∧
          udpCheck (udpHeader.toBytes ++ data) = some (udpHeader, data) ∧
          ntoh16 ipv4Header.totalLength = packet.length ∧
          ntoh16 udpHeader.length = 8 + data.length ∧
          data.length % 65536 = data.length ∧
          ipv4ChecksumSum { ipv4Header with checksum := hton16 0 } [] 0 + 65535 < 2 ^ 32 ∧
          udpChecksumSum { udpHeader with checksum := hton16 0 } data data.length remoteIp localIp + 65535 <
            2 ^ 32 ∧
          fold (wordSum ipv4Header.toBytes) = 65535 ∧
          fold (udpChecksumSum udpHeader data data.length remoteIp localIp) = 65535) ∧
    (∀ localIp localPort remoteIp remotePort,
        localAddr = .ipv6 localIp localPort → remoteAddr = .ipv6 remoteIp remotePort →
        ∃ ipv6Header udpHeader,
          ipv6Check packet = some (ipv6Header, udpHeader.toBytes ++ data) ∧
          udpCheck (udpHeader.toBytes ++ data) = some (udpHeader, data) ∧
          40 + ntoh16 ipv6Header.payloadLength = packet.length ∧
          ntoh16 udpHeader.length = 8 + data.length ∧
          data.length % 65536 = data.length ∧
          udpIp6ChecksumSum { udpHeader with checksum := hton16 0 } data data.length remoteIp localIp + 65535 <
            2 ^ 32 ∧
          fold (udpIp6ChecksumSum udpHeader data data.length remoteIp localIp) = 65535) := by
  refine ⟨udpgwClientHandlerReceived_ok_iff server, fun packet sent => ?_⟩
  rcases udpgwClientHandlerReceived_eq_ok sent with
    ⟨localIp, localPort, remoteIp, remotePort, rfl, rfl, small, rfl⟩ |
    ⟨localIp, localPort, remoteIp, remotePort, rfl, rfl, enabled, small, rfl⟩
  · refine ⟨⟨globals.udpgwTransparentDns && localIp == globals.netifIpaddr && localPort == hton16 53,
      ?datagram⟩, ?layout, ?other⟩
    case datagram =>
      rw [buildIpv4Packet, List.append_assoc, deviceUdpDatagram_ipv4 _ _ (by simp only [buildIpv4Header]; decide),
        ← List.append_assoc]
      exact processIpv4Packet_buildIpv4Packet globals localIp remoteIp localPort remotePort small
    case layout =>
      rintro _ _ _ _ ⟨⟩ ⟨⟩
      exact buildIpv4Packet_parses localIp remoteIp localPort remotePort small
    case other =>
      rintro _ _ _ _ ⟨⟩
  · refine ⟨⟨false, ?datagram⟩, ?other, ?layout⟩
    case datagram =>
      rw [buildIpv6Packet, List.append_assoc, deviceUdpDatagram_ipv6 _ _ (by simp only [buildIpv6Header]; decide),
        ← List.append_assoc]
      exact processIpv6Packet_buildIpv6Packet enabled localIp remoteIp localPort remotePort small
    case layout =>
      rintro _ _ _ _ ⟨⟩ ⟨⟩
      exact buildIpv6Packet_parses localIp remoteIp localPort remotePort small
    case other =>
      rintro _ _ _ _ ⟨⟩

theorem udpgw_dns_reply_parses_on_device :
    WithinSizeChecks
        { udpgwRemoteServerAddr := true, udpgwTransparentDns := false, netifIp6addr := false
          netifIpaddr := ⟨#[10, 0, 0, 1], rfl⟩, udpMtu := 1472, deviceMtu := 1500 } [1, 2, 3]
        (.ipv4 ⟨#[10, 0, 0, 2], rfl⟩ ⟨#[4, 0], rfl⟩) (.ipv4 ⟨#[8, 8, 8, 8], rfl⟩ ⟨#[0, 53], rfl⟩) ∧
    ∃ packet,
      udpgwClientHandlerReceived
          { udpgwRemoteServerAddr := true, udpgwTransparentDns := false, netifIp6addr := false
            netifIpaddr := ⟨#[10, 0, 0, 1], rfl⟩, udpMtu := 1472, deviceMtu := 1500 }
          (.ipv4 ⟨#[10, 0, 0, 2], rfl⟩ ⟨#[4, 0], rfl⟩) (.ipv4 ⟨#[8, 8, 8, 8], rfl⟩ ⟨#[0, 53], rfl⟩) [1, 2, 3] =
        some (.ok packet) ∧
      ∃ isDns,
        deviceUdpDatagram
            { udpgwRemoteServerAddr := true, udpgwTransparentDns := false, netifIp6addr := false
              netifIpaddr := ⟨#[10, 0, 0, 1], rfl⟩, udpMtu := 1472, deviceMtu := 1500 } packet =
          some { localAddr := .ipv4 ⟨#[8, 8, 8, 8], rfl⟩ ⟨#[0, 53], rfl⟩
                 remoteAddr := .ipv4 ⟨#[10, 0, 0, 2], rfl⟩ ⟨#[4, 0], rfl⟩, isDns, data := [1, 2, 3] } := by
  have fits : WithinSizeChecks
      { udpgwRemoteServerAddr := true, udpgwTransparentDns := false, netifIp6addr := false
        netifIpaddr := ⟨#[10, 0, 0, 1], rfl⟩, udpMtu := 1472, deviceMtu := 1500 } [1, 2, 3]
      (.ipv4 ⟨#[10, 0, 0, 2], rfl⟩ ⟨#[4, 0], rfl⟩) (.ipv4 ⟨#[8, 8, 8, 8], rfl⟩ ⟨#[0, 53], rfl⟩) := by
    simp [WithinSizeChecks]
  have facts := udpgw_packets_parse_on_device
    { udpgwRemoteServerAddr := true, udpgwTransparentDns := false, netifIp6addr := false
      netifIpaddr := ⟨#[10, 0, 0, 1], rfl⟩, udpMtu := 1472, deviceMtu := 1500 }
    (.ipv4 ⟨#[10, 0, 0, 2], rfl⟩ ⟨#[4, 0], rfl⟩) (.ipv4 ⟨#[8, 8, 8, 8], rfl⟩ ⟨#[0, 53], rfl⟩) [1, 2, 3] rfl
  obtain ⟨packet, sent⟩ := facts.1.mpr fits
  exact ⟨fits, packet, sent, (facts.2 packet sent).1⟩

end Tun2SocksWinRT
