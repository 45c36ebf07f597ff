import Mathlib
import Tun2SocksWinRT.DeviceUdp
import Tun2SocksWinRT.UdpgwWire
import Tun2SocksWinRT.PacketProto

namespace Tun2SocksWinRT

/-!
# The device paths of tun2socks

`tun2socks/tun2socks.c` sits between the device (`SockTun`) and lwIP.  A
packet read from the device goes to `device_read_handler_send`: UDP that
`process_device_udp_packet` takes goes to udpgw, the rest into a pbuf and to
`netif_input_func`, which hands IPv4 to `ip_input` and IPv6 (when enabled) to
`ip6_input`.  A packet lwIP sends comes to `common_netif_output` as a pbuf
chain, which is written to the device directly (one pbuf) or through
`device_write_buf` (several).  `tun2socks_Init` sizes `udp_mtu` from the device
MTU and refuses an MTU whose udpgw messages would not fit a PacketProto frame.

Main facts:
* `nonUdp_reaches_lwip`: the UDP interception takes nothing but UDP; every
  other IPv4 packet, and every IPv6 packet when IPv6 is enabled, reaches lwIP
  byte for byte;
* `commonNetifOutput_eq`: the two write paths agree, and a packet goes out
  whole or not at all;
* `processDeviceUdpPacket_of_fits`: the `udp_mtu` of `tun2socks_Init` never
  refuses a datagram of a packet within the device MTU; what its check on
  `udpgw_compute_mtu` gives the stream to udpgw is in `UdpgwStream`.

A pbuf chain is the list of its payloads; what `SockTun_Send` writes is the
datagram sent on the socket.
-/

section Input

/-- Where `device_read_handler_send` puts a packet read from the device. -/
inductive DeviceInput
  /-- `SocksUdpGwClient_SubmitPacket` -/
  | udpgw (datagram : Datagram)
  /-- "device read: packet too large" -/
  | tooLarge
  /-- "device read: pbuf_alloc failed" -/
  | pbufAllocFailed
  /-- lwIP's `ip_input` -/
  | ipInput (packet : List UInt8)
  /-- lwIP's `ip6_input` -/
  | ip6Input (packet : List UInt8)
  /-- `pbuf_free` in `netif_input_func` -/
  | freed
  deriving DecidableEq, Repr

/-- `netif_input_func`: by the version in the first byte. -/
def netifInputFunc (globals : Globals) (p : List UInt8) : DeviceInput :=
  let ipVersion := if p.length > 0 then (p.getD 0 0 >>> 4).toNat else 0
  if ipVersion = 4 then .ipInput p
  else if ipVersion = 6 ∧ globals.netifIp6addr = true then .ip6Input p
  else .freed

/-- `device_read_handler_send`, where `pbufAlloc` is whether `pbuf_alloc` succeeds. -/
def deviceReadHandlerSend (globals : Globals) (data : List UInt8) (pbufAlloc : Bool) : DeviceInput :=
  -- process UDP directly
  match processDeviceUdpPacket globals data with
  | some datagram => .udpgw datagram
  | none =>
      if data.length > 65535 then .tooLarge
      else if !pbufAlloc then .pbufAllocFailed
      else netifInputFunc globals data

end Input

section Output

/-- `SockTun_Send`: the datagram written to the socket. -/
def sockTunSend (data : List UInt8) : Option (List UInt8) :=
  -- ignore frames without an Ethernet header, or we get errors in WriteFile
  if data.length < 14 then none else some data

/--
The `do ... while (p = p->next)` loop of `common_netif_output`; `written` is
`device_write_buf` up to `len`.
-/
def copyChain (deviceMtu : Int) (written : List UInt8) : List (List UInt8) → Option (List UInt8)
  | [] => some written
  | chunk :: rest =>
      if (chunk.length : Int) > deviceMtu - written.length then none
      else copyChain deviceMtu (written ++ chunk) rest

/-- `common_netif_output` for the chain `first :: rest`: what is written to the device. -/
def commonNetifOutput (quitting : Bool) (deviceMtu : Int) (first : List UInt8) (rest : List (List UInt8)) :
    Option (List UInt8) :=
  if quitting then none
  -- if there is just one chunk, send it directly, else via buffer
  else if rest = [] then
    if (first.length : Int) > deviceMtu then none else sockTunSend first
  else
    (copyChain deviceMtu [] (first :: rest)).bind sockTunSend

end Output

section Mtu

/-- `udpgw_compute_mtu`: header, the larger address and the datagram, -1 where the `bsize_t` sum overflows. -/
def udpgwComputeMtu (dgramMtu : Int) : Int :=
  if dgramMtu < 0 ∨ 3 + max 6 18 + dgramMtu > 2147483647 then -1 else 3 + max 6 18 + dgramMtu

/-- The `udp_mtu` of `tun2socks_Init`: the larger UDP payload of the device MTU, at least zero. -/
def initUdpMtu (mtu : Int) (netifIp6addr : Bool) : Int :=
  let udpMtu := mtu - (20 + 8)
  let udpMtu :=
    if netifIp6addr then
      let udpIp6Mtu := mtu - (40 + 8)
      if udpMtu < udpIp6Mtu then udpIp6Mtu else udpMtu
    else udpMtu
  if udpMtu < 0 then 0 else udpMtu

/-- The check of `tun2socks_Init` that fails with "device MTU is too large for UDP". -/
def udpgwMtuAccepted (udpMtu : Int) : Bool :=
  let udpgwMtu := udpgwComputeMtu udpMtu
  !(udpgwMtu < 0 || udpgwMtu > PacketProto.maxPayload)

end Mtu

section InputLemmas

/-- A packet with a version in its first byte is not empty. -/
theorem length_pos_of_version {data : List UInt8} {v : Nat} (version : (data.getD 0 0 >>> 4).toNat = v)
    (positive : 0 < v) : data.length > 0 := by
  cases data with
  | nil =>
      simp at version
      omega
  | cons b rest => simp

/-- A packet whose protocol field is not UDP is not taken for udpgw. -/
theorem processDeviceUdpPacket_of_not_udp (globals : Globals) {data : List UInt8}
    (notUdp : ((data.getD 0 0 >>> 4).toNat = 4 ∧ (data.getD 9 0).toNat ≠ ipv4ProtocolUdp) ∨
      ((data.getD 0 0 >>> 4).toNat = 6 ∧ (data.getD 6 0).toNat ≠ ipv6NextUdp)) :
    processDeviceUdpPacket globals data = none := by
  have datagram : deviceUdpDatagram globals data = none := by
    unfold deviceUdpDatagram
    dsimp only
    rcases notUdp with ⟨four, protocol⟩ | ⟨six, next⟩
    · rw [if_pos (length_pos_of_version four (by norm_num)), if_pos four, processIpv4Packet,
        if_pos (Or.inr protocol)]
      rfl
    · rw [if_pos (length_pos_of_version six (by norm_num)), if_neg (by omega), if_pos six, processIpv6Packet]
      -- with IPv6 off the packet is dropped before its next header is read
      cases globals.netifIp6addr
      · rfl
      · rw [if_neg (by decide), if_pos (Or.inr next)]
        rfl
  simp only [processDeviceUdpPacket, datagram, Option.bind_eq_bind, Option.bind_none]
  split <;> rfl

/--
The UDP interception takes nothing but UDP: an IPv4 packet from the device
whose protocol is not UDP (TCP, ICMP, ...), and an IPv6 packet whose next
header is not UDP when IPv6 is enabled, reach lwIP's input byte for byte, once
they fit a pbuf.
-/
theorem nonUdp_reaches_lwip (globals : Globals) {data : List UInt8}
    (notUdp : ((data.getD 0 0 >>> 4).toNat = 4 ∧ (data.getD 9 0).toNat ≠ ipv4ProtocolUdp) ∨
      ((data.getD 0 0 >>> 4).toNat = 6 ∧ globals.netifIp6addr = true ∧ (data.getD 6 0).toNat ≠ ipv6NextUdp))
    (small : data.length ≤ 65535) :
    deviceReadHandlerSend globals data true =
      if (data.getD 0 0 >>> 4).toNat = 4 then .ipInput data else .ip6Input data := by
  have skipped := processDeviceUdpPacket_of_not_udp globals (notUdp.imp id fun six => ⟨six.1, six.2.2⟩)
  simp only [deviceReadHandlerSend, skipped]
  rw [if_neg (by omega), if_neg (by decide), netifInputFunc]
  rcases notUdp with ⟨four, -⟩ | ⟨six, enabled, -⟩
  · rw [if_pos (length_pos_of_version four (by norm_num)), if_pos four, if_pos four]
  · rw [if_pos (length_pos_of_version six (by norm_num)), if_neg (by omega), if_pos ⟨six, enabled⟩,
      if_neg (by omega)]

end InputLemmas

section OutputLemmas

/-- The copy loop writes the whole chain after what is written, when it all fits `device_mtu`. -/
theorem copyChain_eq {deviceMtu : Int} {written : List UInt8} (room : (written.length : Int) ≤ deviceMtu)
    (chunks : List (List UInt8)) :
    copyChain deviceMtu written chunks =
      if ((written ++ chunks.flatten).length : Int) ≤ deviceMtu then some (written ++ chunks.flatten) else none := by
  induction chunks generalizing written with
  | nil => simp [copyChain, room]
  | cons chunk rest inductionHypothesis =>
      simp only [List.flatten_cons, List.length_append, copyChain]
      by_cases fits : (chunk.length : Int) ≤ deviceMtu - written.length
      · -- the chunk is copied, and the loop goes on from after it
        rw [if_neg (by omega), inductionHypothesis (by simp; omega), List.append_assoc]
        simp only [List.length_append]
      · -- the chunk does not fit: nothing is sent, and the whole would not fit either
        rw [if_pos (by omega), if_neg (by omega)]

/--
lwIP's output reaches the device whole or not at all: one pbuf sent directly
and a chain copied into `device_write_buf` write the same bytes, the chain's
payloads in order, when they fit `device_mtu`, and nothing otherwise.
-/
theorem commonNetifOutput_eq (deviceMtu : Int) (first : List UInt8) (rest : List (List UInt8)) :
    commonNetifOutput false deviceMtu first rest =
      if (((first :: rest).flatten).length : Int) ≤ deviceMtu then sockTunSend (first :: rest).flatten else none := by
  unfold commonNetifOutput
  rw [if_neg Bool.false_ne_true]
  by_cases single : rest = []
  · subst single
    rw [if_pos rfl]
    simp only [List.flatten_cons, List.flatten_nil, List.append_nil]
    by_cases fits : (first.length : Int) ≤ deviceMtu
    · rw [if_neg (by omega), if_pos fits]
    · rw [if_pos (by omega), if_neg fits]
  · rw [if_neg single]
    by_cases fits : (first.length : Int) ≤ deviceMtu
    · -- the first pbuf is copied, then the rest of the chain
      rw [copyChain, if_neg (by simp; omega), copyChain_eq (by simpa using fits), List.nil_append,
        List.flatten_cons]
      split_ifs <;> rfl
    · have grows : first.length ≤ ((first :: rest).flatten).length := by
        rw [List.flatten_cons, List.length_append]
        omega
      have whole : ¬ (((first :: rest).flatten).length : Int) ≤ deviceMtu := by omega
      rw [copyChain, if_pos (by simp; omega), Option.bind_none, if_neg whole]

end OutputLemmas

section MtuLemmas

theorem length_lt_of_ipv4Check {data rest : List UInt8} {header : Ipv4Header}
    (checked : ipv4Check data = some (header, rest)) : rest.length + 20 ≤ data.length := by
  unfold ipv4Check at checked
  dsimp only at checked
  split_ifs at checked
  obtain ⟨-, rfl⟩ := Prod.mk.inj (Option.some.inj checked)
  simp only [List.length_take, List.length_drop]
  omega

theorem length_lt_of_ipv6Check {data rest : List UInt8} {header : Ipv6Header}
    (checked : ipv6Check data = some (header, rest)) : rest.length + 40 ≤ data.length := by
  unfold ipv6Check at checked
  dsimp only at checked
  split_ifs at checked
  obtain ⟨-, rfl⟩ := Prod.mk.inj (Option.some.inj checked)
  simp only [List.length_take, List.length_drop]
  omega

theorem length_lt_of_udpCheck {data rest : List UInt8} {header : UdpHeader}
    (checked : udpCheck data = some (header, rest)) : rest.length + 8 ≤ data.length := by
  unfold udpCheck at checked
  dsimp only at checked
  split_ifs at checked
  obtain ⟨-, rfl⟩ := Prod.mk.inj (Option.some.inj checked)
  simp only [List.length_take, List.length_drop]
  omega

/-- A datagram of a packet carries at most the packet's length less an IPv4 and a UDP header. -/
theorem length_data_of_deviceUdpDatagram {globals : Globals} {data : List UInt8} {datagram : Datagram}
    (parsed : deviceUdpDatagram globals data = some datagram) : datagram.data.length + 28 ≤ data.length := by
  unfold deviceUdpDatagram at parsed
  dsimp only at parsed
  split_ifs at parsed
  · -- IPv4: the header of at least 20 bytes, then the UDP header
    obtain ⟨-, -, ipv4Header, segment, udpHeader, ipv4, udp, -⟩ := processIpv4Packet_eq_some.mp parsed
    have := length_lt_of_ipv4Check ipv4
    have := length_lt_of_udpCheck udp
    omega
  · -- IPv6: the fixed header of 40 bytes, then the UDP header
    obtain ⟨-, -, -, ipv6Header, segment, udpHeader, ipv6, udp, -⟩ := processIpv6Packet_eq_some.mp parsed
    have := length_lt_of_ipv6Check ipv6
    have := length_lt_of_udpCheck udp
    omega
  · -- an empty packet has version 0
    contradiction

theorem le_initUdpMtu (mtu : Int) (netifIp6addr : Bool) : mtu - 28 ≤ initUdpMtu mtu netifIp6addr := by
  unfold initUdpMtu
  dsimp only
  split_ifs <;> omega

/-- Within `int`, `udpgw_compute_mtu` is the `udpgwMtu` the udpgw client model sizes its messages by. -/
theorem udpgwComputeMtu_eq_udpgwMtu (o : Udpgw.Client.UdpGwClient) (small : 3 + 18 + o.udpMtu ≤ 2147483647) :
    udpgwComputeMtu o.udpMtu = o.udpgwMtu := by
  unfold udpgwComputeMtu Udpgw.Client.UdpGwClient.udpgwMtu
  rw [if_neg (by omega)]
  simp

/-- What `process_device_udp_packet` submits: a datagram of the packet within `udp_mtu`, with udpgw on. -/
theorem processDeviceUdpPacket_eq_some {globals : Globals} {data : List UInt8} {datagram : Datagram} :
    processDeviceUdpPacket globals data = some datagram ↔
      globals.udpgwRemoteServerAddr = true ∧ deviceUdpDatagram globals data = some datagram ∧
        (datagram.data.length : Int) ≤ globals.udpMtu := by
  simp [processDeviceUdpPacket, Option.bind_eq_some_iff]

/--
With the `udp_mtu` of `tun2socks_Init`, the payload check of
`process_device_udp_packet` never refuses a datagram whose packet fits the
device MTU, which every packet `SockTun` reads does.
-/
theorem processDeviceUdpPacket_of_fits {globals : Globals}
    (configured : globals.udpMtu = initUdpMtu globals.deviceMtu globals.netifIp6addr)
    (udpgw : globals.udpgwRemoteServerAddr = true) {data : List UInt8} (fits : (data.length : Int) ≤ globals.deviceMtu) :
    processDeviceUdpPacket globals data = deviceUdpDatagram globals data := by
  unfold processDeviceUdpPacket
  simp only [udpgw, Bool.not_true, Bool.false_eq_true, if_false, Option.bind_eq_bind]
  cases parsed : deviceUdpDatagram globals data with
  | none => rfl
  | some datagram =>
      have short := length_data_of_deviceUdpDatagram parsed
      have room := le_initUdpMtu globals.deviceMtu globals.netifIp6addr
      rw [Option.bind_some, if_neg (by omega)]

/-- On an Ethernet-sized device, a DNS query from 10.0.0.2 goes to udpgw as it parses. -/
theorem processDeviceUdpPacket_of_fits_dns :
    processDeviceUdpPacket
        { udpgwRemoteServerAddr := true, udpgwTransparentDns := false, netifIp6addr := false
          netifIpaddr := ⟨#[10, 0, 0, 1], rfl⟩, udpMtu := 1472, deviceMtu := 1500 }
        [69, 0, 0, 31, 0, 0, 0, 0, 64, 17, 96, 189, 10, 0, 0, 2, 8, 8, 8, 8, 4, 0, 0, 53, 0, 11, 221, 143, 1, 2, 3] =
      deviceUdpDatagram
        { udpgwRemoteServerAddr := true, udpgwTransparentDns := false, netifIp6addr := false
          netifIpaddr := ⟨#[10, 0, 0, 1], rfl⟩, udpMtu := 1472, deviceMtu := 1500 }
        [69, 0, 0, 31, 0, 0, 0, 0, 64, 17, 96, 189, 10, 0, 0, 2, 8, 8, 8, 8, 4, 0, 0, 53, 0, 11, 221, 143, 1, 2, 3] :=
  processDeviceUdpPacket_of_fits (by decide) rfl (by decide)

end MtuLemmas

end Tun2SocksWinRT
