import RoboControl.Proto.Validate
import RoboControl.RelayServer.Sessions

/-!
# Packets of the protocol at the relay server

`relay_server.c` declares the header of a packet and its magic anew, and the magic is another one
than that of `rc_proto.h`. So no packet that the core library builds or accepts passes the check of
the relay server (`valid_packets_dropped`).
-/

namespace RoboControl.RelayServer
open Base Proto

/-- A packet is dropped at the check of its header: nothing is sent, and the server
stays as it is. -/
def Malformed (host : Endian) (buf : List UInt8) : Prop :=
  admits host buf = false ∧
    ∀ srv src now, relayPacket host srv src buf now = some (none, srv)

/-- A packet with the magic of the protocol is dropped. -/
lemma malformed_of_rcMagic {host : Endian} {buf : List UInt8}
    (h : htonl host (UInt32.ofNat (readField host 0 4 buf)) = rcMagic) : Malformed host buf := by
  have hadmits : admits host buf = false := by
    rw [admits, h]
    exact Bool.and_false _
  exact ⟨hadmits, fun srv src now => by rw [relayPacket, if_pos hadmits]⟩

/-- Every packet that `rc_pkt_validate` accepts is dropped, and so is every packet that starts with
a header which was initialised and packed by the core library. -/
theorem valid_packets_dropped (host : Endian) :
    (∀ buf, pktValidate host buf = 0 → Malformed host buf) ∧
      ∀ type seq conn ack timestamp payloadLen flags dst, headerSize ≤ dst.length →
        Malformed host (hdrPack host dst { hdrInit type seq conn with
          ack := ack, timestamp := timestamp, payloadLen := payloadLen, flags := flags }) := by
  refine ⟨fun buf h => ?_, fun type seq conn ack timestamp payloadLen flags dst hl => ?_⟩
  · have hmagic := ((hdrUnpack_eq_zero_iff host buf).mp (hdrUnpack_of_pktValidate h)).1
    rw [hdrUnpack_snd] at hmagic
    exact malformed_of_rcMagic hmagic
  · exact malformed_of_rcMagic (magic_hdrPack hl _)

/-- A ping with two bytes of payload. -/
def samplePing : List UInt8 :=
  hdrPack .little (List.replicate 32 0) { hdrInit .ping 7 1 with payloadLen := 2 } ++ [0xAB, 0xCD]

/-- A valid PING, and one that `rc_hdr_pack` writes. -/
theorem valid_packets_dropped_sample :
    pktValidate .little samplePing = 0 ∧ Malformed .little samplePing ∧
      headerSize ≤ (List.replicate 34 (0 : UInt8)).length ∧
      Malformed .little (hdrPack .little (List.replicate 34 0) { hdrInit .ping 7 1 with
        ack := 0, timestamp := 0, payloadLen := 2, flags := 0 }) :=
  ⟨by decide +kernel, (valid_packets_dropped .little).1 samplePing (by decide +kernel),
    by decide,
      (valid_packets_dropped .little).2 .ping 7 1 0 0 2 0 (List.replicate 34 0) (by decide)⟩

/-- The core library accepts the ping and the relay server does not. -/
theorem ping_not_admitted :
    pktValidate .little samplePing = 0 ∧ admits .little samplePing = false :=
  ⟨by decide +kernel, by decide +kernel⟩

end RoboControl.RelayServer
