import Mathlib
import Tun2SocksWinRT.UdpGwClientRecency
import Tun2SocksWinRT.PacketProtoDecoder
import Tun2SocksWinRT.DeviceIo

namespace Tun2SocksWinRT

namespace Udpgw

/-!
# The stream to the server, as bytes

`UdpgwSystem` keeps the stream from the client to the server as the list of
the messages in it.  On the wire each message is a PacketProto frame: the
connection's `PacketProtoFlow` puts a two-byte length before it, the
`PacketPassFairQueue` of the client picks which connection's frame goes out
next, and the server reads frames back with a `PacketProtoDecoder` whose output
is the client's `recv_if`, of MTU the `udpgw_mtu` that `udpgw.c` computes from
its `udp_mtu`.

`written` collects what the client writes over a run.  The server reads it in
order (`toServer_run?`), and all of it is at most the client's `udpgw_mtu`
long (`length_written_le`, from the step lemma of `SubmitPacket` and the
system invariant).  So with a `udp_mtu` that `tun2socks_Init` accepts, and the
server given the same one, the bytes of any of those messages, framed, decode
to exactly them, in order, whatever chunks the connection delivers them in
(`stream_to_server_decodes`).
-/

open Client Client.UdpGwClient

/--
The `udpgw_mtu` of `udpgw.c`'s `main`: `udpgw_compute_mtu(udp_mtu)`, or
`PACKETPROTO_MAXPAYLOAD` where that is below zero or above it.
-/
def Server.udpgwMtu (udpMtu : Int) : Int :=
  let udpgwMtu := udpgwComputeMtu udpMtu
  if udpgwMtu < 0 ∨ udpgwMtu > PacketProto.maxPayload then PacketProto.maxPayload else udpgwMtu

/-- The server's `udpgw_mtu` is never above `PACKETPROTO_MAXPAYLOAD`. -/
theorem Server.udpgwMtu_le (udpMtu : Int) : Server.udpgwMtu udpMtu ≤ PacketProto.maxPayload := by
  unfold Server.udpgwMtu
  dsimp only
  split_ifs with outside
  · exact le_refl _
  · omega

/-- With a `udp_mtu` that `tun2socks_Init` accepts, the server's `udpgw_mtu` is the client's. -/
theorem Server.udpgwMtu_of_accepted {udpMtu : Nat} (accepted : udpgwMtuAccepted udpMtu = true) :
    Server.udpgwMtu udpMtu = 3 + 18 + udpMtu := by
  simp only [udpgwMtuAccepted, Bool.not_eq_true', Bool.or_eq_false_iff, decide_eq_false_iff_not,
    not_lt] at accepted
  have computed : udpgwComputeMtu udpMtu = 3 + 18 + udpMtu := by
    unfold udpgwComputeMtu at accepted ⊢
    split_ifs at accepted ⊢ with outside
    · simp at accepted
    · simp
  rw [Server.udpgwMtu, computed, if_neg (by rw [computed] at accepted; omega)]

/-- The messages the client writes in one step: those of `SubmitPacket` and the jobs it set. -/
def Event.written (s : System) : Event → List (List UInt8)
  | .submitPacket localAddr remoteAddr isDns data allocation =>
      ((Client.submitPacketThenJobs s.client localAddr remoteAddr isDns data allocation).map Prod.snd).getD []
  | _ => []

/-- The messages the client writes to the server over a run, in the order it writes them. -/
def written (s : System) : List Event → List (List UInt8)
  | [] => []
  | event :: rest =>
      match event.step? s with
      | some next => event.written s ++ written next rest
      | none => []

section Steps

variable {s s' : System}

/-- No step changes the client's `udp_mtu`. -/
theorem udpMtu_step? (sound : Sound s) {event : Event} (step : event.step? s = some s') :
    s'.client.udpMtu = s.client.udpMtu := by
  cases event with
  | submitPacket localAddr remoteAddr isDns data allocation =>
      obtain ⟨⟨client, out⟩, submitted, rfl⟩ := Option.map_eq_some_iff.mp step
      exact (sound.table.config_submitPacketThenJobs submitted).1
  | serverReceives initSucceeds =>
      simp only [Event.step?] at step
      split at step
      · cases step
      · obtain ⟨outcome, -, rfl⟩ := Option.map_eq_some_iff.mp step
        cases outcome <;> rfl
  | udpReceived conid data =>
      simp only [Event.step?] at step
      split at step
      · cases step
      · split at step
        · cases step
          rfl
        · cases step
  | udpError conid =>
      obtain ⟨-, -, rfl⟩ := Option.map_eq_some_iff.mp step
      rfl
  | clientReceives =>
      simp only [Event.step?] at step
      split at step
      · cases step
      · obtain ⟨outcome, received, rfl⟩ := Option.map_eq_some_iff.mp step
        cases outcome with
        | error _ =>
            rfl
        | ok result =>
            obtain ⟨client, delivery⟩ := result
            obtain ⟨-, -, -, -, -, con, -, -, -, -, -, rfl, -⟩ := recvInterfaceHandlerSend_eq_ok received
            rfl
  | clientWriterRecv con =>
      obtain ⟨client, stepped, rfl⟩ := Option.map_eq_some_iff.mp step
      obtain ⟨-, -, rfl⟩ := writerRecv_step? stepped
      rfl
  | serverWriterRecv conid writer =>
      obtain ⟨-, -, rfl⟩ := Option.map_eq_some_iff.mp step
      rfl

/-- No step changes the client's `udpgw_mtu`. -/
theorem udpgwMtu_step? (sound : Sound s) {event : Event} (step : event.step? s = some s') :
    s'.client.udpgwMtu = s.client.udpgwMtu := by
  simp only [udpgwMtu, udpMtu_step? sound step]

/--
One step: the server takes messages off the front of the stream, and the
client appends what it writes.
-/
theorem toServer_step? {event : Event} (step : event.step? s = some s') :
    ∃ read, read ++ s'.toServer.map Prod.fst = s.toServer.map Prod.fst ++ event.written s := by
  cases event with
  | submitPacket localAddr remoteAddr isDns data allocation =>
      obtain ⟨⟨client, out⟩, submitted, rfl⟩ := Option.map_eq_some_iff.mp step
      refine ⟨[], ?_⟩
      simp [Event.written, submitted, List.map_map, Function.comp_def]
  | serverReceives initSucceeds =>
      -- the server takes the first message off
      simp only [Event.step?] at step
      split at step
      · cases step
      · rename_i first origin rest queued
        obtain ⟨outcome, -, rfl⟩ := Option.map_eq_some_iff.mp step
        refine ⟨[first], ?_⟩
        cases outcome <;> simp [Event.written, queued]
  | udpReceived conid data =>
      simp only [Event.step?] at step
      split at step
      · cases step
      · split at step
        · cases step
          exact ⟨[], by simp [Event.written]⟩
        · cases step
  | udpError conid =>
      obtain ⟨-, -, rfl⟩ := Option.map_eq_some_iff.mp step
      exact ⟨[], by simp [Event.written]⟩
  | clientReceives =>
      simp only [Event.step?] at step
      split at step
      · cases step
      · obtain ⟨outcome, -, rfl⟩ := Option.map_eq_some_iff.mp step
        cases outcome <;> exact ⟨[], by simp [Event.written]⟩
  | clientWriterRecv con =>
      obtain ⟨client, -, rfl⟩ := Option.map_eq_some_iff.mp step
      exact ⟨[], by simp [Event.written]⟩
  | serverWriterRecv conid writer =>
      obtain ⟨server, -, rfl⟩ := Option.map_eq_some_iff.mp step
      exact ⟨[], by simp [Event.written]⟩

/--
Over every run the server reads the client's messages in the order they were
written: what it has read, then what is still in the stream, is what was in
the stream at the start and then what the client wrote.
-/
theorem toServer_run? {events : List Event} (ran : run? s events = some s') :
    ∃ read, read ++ s'.toServer.map Prod.fst = s.toServer.map Prod.fst ++ written s events := by
  induction events generalizing s with
  | nil =>
      cases ran
      exact ⟨[], by simp [written]⟩
  | cons event rest inductionHypothesis =>
      obtain ⟨next, stepped, ranRest⟩ := Option.bind_eq_some_iff.mp ran
      obtain ⟨readNow, now⟩ := toServer_step? stepped
      obtain ⟨readLater, later⟩ := inductionHypothesis ranRest
      refine ⟨readNow ++ readLater, ?_⟩
      calc readNow ++ readLater ++ s'.toServer.map Prod.fst
          = readNow ++ next.toServer.map Prod.fst ++ written next rest := by
            rw [List.append_assoc, later, List.append_assoc]
        _ = s.toServer.map Prod.fst ++ written s (event :: rest) := by
            rw [now, written, stepped, List.append_assoc]

/-- What the client writes in one step from a sound state fits its `udpgw_mtu`. -/
theorem Event.length_written_le (sound : Sound s) (event : Event) :
    ∀ message ∈ event.written s, message.length ≤ s.client.udpgwMtu := by
  intro message member
  cases event
  case submitPacket localAddr remoteAddr isDns data allocation =>
    cases submitted : Client.submitPacketThenJobs s.client localAddr remoteAddr isDns data allocation with
    | none =>
        simp [Event.written, submitted] at member
    | some result =>
        simp only [Event.written, submitted, Option.map_some, Option.getD_some] at member
        exact (sound.table.submitPacket_sends sound.idle submitted).1 _ member
  all_goals simp [Event.written] at member

/--
Everything the client writes over a run from a sound state fits its
`udpgw_mtu`: each step's messages fit the bound of the state it starts from,
the system stays sound, and no step changes the bound.
-/
theorem length_written_le (sound : Sound s) (events : List Event) :
    ∀ message ∈ written s events, message.length ≤ s.client.udpgwMtu := by
  induction events generalizing s with
  | nil =>
      intro message member
      cases member
  | cons event rest inductionHypothesis =>
      intro message member
      simp only [written] at member
      split at member
      · rename_i next stepped
        rcases List.mem_append.mp member with now | later
        · exact event.length_written_le sound message now
        · rw [← udpgwMtu_step? sound stepped]
          exact inductionHypothesis (sound.step? stepped) message later
      · cases member

end Steps

/--
The stream to the server carries frames the server reads back whole. With a
`udp_mtu` that the check of `tun2socks_Init` on `udpgw_compute_mtu(udp_mtu)`
accepts, and the server given the same `udp_mtu`: take any run of the client
and the server from the client's connection to it, and any of the messages the
client wrote in it, in any order (the fair queue picks which connection's frame
goes out next, and frames still buffered are not yet sent).  A
`PacketProtoDecoder` with the server's `udpgw_mtu`, fed those messages each
framed by `PacketProtoFlow`, in any chunks the connection delivers, has passed,
once it waits for more input, exactly those messages in order, with no frame
refused as too large.
-/
theorem stream_to_server_decodes
    {udpMtu maxConnections : Nat}
    (positive : 0 < maxConnections)
    (maxConnectionsForClient : Nat)
    (dnsAddr : Option BAddr)
    (accepted : udpgwMtuAccepted udpMtu = true)
    (events : List Event)
    {sent : List (List UInt8)}
    (carried : sent.Subperm (written (System.init udpMtu maxConnections maxConnectionsForClient dnsAddr) events))
    {allocation : Option (Int → UInt8)}
    {enc : PacketProtoDecoder}
    {call : PacketProtoDecoder.Call}
    (initialized : PacketProtoDecoder.init (Server.udpgwMtu udpMtu) allocation = some (enc, call))
    {chunks : List PacketProtoDecoder.Event}
    {final : PacketProtoDecoder.Session}
    {log : List PacketProtoDecoder.Output}
    (decoded : (PacketProtoDecoder.Session.ofCall enc call).1.run? chunks = some (final, log))
    (stream : (PacketProtoDecoder.Event.chunks chunks).flatten = (sent.map PacketProto.encode).flatten)
    {offset len : Int}
    (waiting : final.outstanding = .recv offset len) :
    log = sent.map .packet := by
  have initial := sound_init udpMtu positive maxConnectionsForClient dnsAddr
  have room := Server.udpgwMtu_le udpMtu
  rw [Server.udpgwMtu_of_accepted accepted] at room
  -- the client's `udpgw_mtu` is the server's, so what it writes fits the server's decoder
  have decoderMtu : enc.outputMtu.toNat = 3 + 18 + udpMtu := by
    rw [PacketProtoDecoder.init_outputMtu initialized, Server.udpgwMtu_of_accepted accepted]
    omega
  have fits : ∀ payload ∈ sent, payload.length ≤ enc.outputMtu.toNat := by
    intro payload member
    rw [decoderMtu]
    exact length_written_le initial events payload (carried.subset member)
  exact PacketProtoDecoder.init_run?_encoded (by rw [Server.udpgwMtu_of_accepted accepted]; omega)
    initialized decoded fits stream waiting

/--
With `udp_mtu` 10, a packet from `10.0.0.1:1024` to `8.8.8.8:53` makes the
REBIND message of conid 0; the server, reading its frame in two chunks cut
inside the address, passes that message whole.
-/
theorem stream_to_server_decodes_first_message :
    ∃ enc call final,
      written (System.init 10 1 16 none)
          [.submitPacket (.ipv4 ⟨#[10, 0, 0, 1], rfl⟩ ⟨#[4, 0], rfl⟩)
            (.ipv4 ⟨#[8, 8, 8, 8], rfl⟩ ⟨#[0, 53], rfl⟩) false [7] .succeeds] =
        [[2, 0, 0, 8, 8, 8, 8, 0, 53, 7]] ∧
      PacketProtoDecoder.init (Server.udpgwMtu 10) (some fun _ => 0) = some (enc, call) ∧
      (PacketProtoDecoder.Session.ofCall enc call).1.run?
          [.received [10, 0, 2, 0, 0], .received [8, 8, 8, 8, 0, 53, 7], .sent] =
        some (final, [.packet [2, 0, 0, 8, 8, 8, 8, 0, 53, 7]]) ∧
      [PacketProtoDecoder.Output.packet [2, 0, 0, 8, 8, 8, 8, 0, 53, 7]] =
        [[2, 0, 0, 8, 8, 8, 8, 0, 53, 7]].map .packet := by
  have wrote : written (System.init 10 1 16 none)
      [.submitPacket (.ipv4 ⟨#[10, 0, 0, 1], rfl⟩ ⟨#[4, 0], rfl⟩)
        (.ipv4 ⟨#[8, 8, 8, 8], rfl⟩ ⟨#[0, 53], rfl⟩) false [7] .succeeds] =
      [[2, 0, 0, 8, 8, 8, 8, 0, 53, 7]] := by
    decide
  refine ⟨_, _, _, wrote, rfl, rfl, ?_⟩
  exact @stream_to_server_decodes 10 1 (by decide) 16 none (by decide)
    [.submitPacket (.ipv4 ⟨#[10, 0, 0, 1], rfl⟩ ⟨#[4, 0], rfl⟩)
      (.ipv4 ⟨#[8, 8, 8, 8], rfl⟩ ⟨#[0, 53], rfl⟩) false [7] .succeeds]
    _ (wrote ▸ List.Subperm.refl _) (some fun _ => 0) _ _ rfl
    [.received [10, 0, 2, 0, 0], .received [8, 8, 8, 8, 0, 53, 7], .sent] _ _ (by rfl) (by decide)
    _ _ (by rfl)

end Udpgw

end Tun2SocksWinRT
