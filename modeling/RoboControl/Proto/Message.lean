import RoboControl.Proto.Header

/-!
# Handshake messages

Model of the handshake structs of `include/rc_proto.h`: `ClientHello` (C `rc_client_hello_t`),
`ServerHello` (C `rc_server_hello_t`) and `Finish` (C `rc_finish_t`). The structs are packed and
sent as they lie in memory, so their bytes (`ClientHello.bytes` and so on) keep the byte order of
the host; only the header in front of them is converted (`packet`).
-/

namespace RoboControl.Proto
open Base

/-- AES-256-GCM as a cipher suite (C `RC_CS_AES_256_GCM`). -/
def csAes256Gcm : UInt16 := 0x0001

/-- ChaCha20-Poly1305 as a cipher suite (C `RC_CS_CHACHA20_POLY1305`). -/
def csChacha20Poly1305 : UInt16 := 0x0002

/-- First message of the handshake (C `rc_client_hello_t`). -/
structure ClientHello where
  connId : UInt32
  clientRandom : Bytes 32
  clientPubkey : Bytes 32
  cipherSuites : Vector UInt16 4
  extensionsLen : UInt16
  extensions : Bytes 128
  deriving DecidableEq

/-- Second message of the handshake (C `rc_server_hello_t`). -/
structure ServerHello where
  connId : UInt32
  serverRandom : Bytes 32
  serverPubkey : Bytes 32
  selectedCipher : UInt16
  sessionId : UInt32
  extensionsLen : UInt16
  extensions : Bytes 128
  deriving DecidableEq

/-- Third message of the handshake (C `rc_finish_t`). -/
structure Finish where
  connId : UInt32
  verifyData : Bytes 32
  deriving DecidableEq

/-- Size of a ClientHello (C `sizeof(rc_client_hello_t)`). -/
def clientHelloSize : Nat := 206

/-- Size of a ServerHello (C `sizeof(rc_server_hello_t)`). -/
def serverHelloSize : Nat := 204

/-- Size of a Finish (C `sizeof(rc_finish_t)`). -/
def finishSize : Nat := 36

/-- A ClientHello in memory. -/
def ClientHello.bytes (host : Endian) (m : ClientHello) : List UInt8 :=
  store host 4 m.connId.toNat ++ m.clientRandom.toList ++ m.clientPubkey.toList ++
    m.cipherSuites.toList.flatMap (fun s => store host 2 s.toNat) ++
    store host 2 m.extensionsLen.toNat ++ m.extensions.toList

/-- A ServerHello in memory. -/
def ServerHello.bytes (host : Endian) (m : ServerHello) : List UInt8 :=
  store host 4 m.connId.toNat ++ m.serverRandom.toList ++ m.serverPubkey.toList ++
    store host 2 m.selectedCipher.toNat ++ store host 4 m.sessionId.toNat ++
    store host 2 m.extensionsLen.toNat ++ m.extensions.toList

/-- A Finish in memory. -/
def Finish.bytes (host : Endian) (m : Finish) : List UInt8 :=
  store host 4 m.connId.toNat ++ m.verifyData.toList

/-- A packet: a serialised header and a payload behind it. -/
def packet (host : Endian) (hdr : PktHdr) (payload : List UInt8) : List UInt8 :=
  hdrPack host (List.replicate headerSize 0) hdr ++ payload

/-! The structs are as long as `sizeof` says. -/

@[simp] lemma ClientHello.length_bytes (host : Endian) (m : ClientHello) :
    (m.bytes host).length = clientHelloSize := by
  simp [bytes, clientHelloSize]

@[simp] lemma ServerHello.length_bytes (host : Endian) (m : ServerHello) :
    (m.bytes host).length = serverHelloSize := by
  simp [bytes, serverHelloSize]

@[simp] lemma Finish.length_bytes (host : Endian) (m : Finish) :
    (m.bytes host).length = finishSize := by
  simp [bytes, finishSize]

/-- A header and its payload. -/
lemma packet_eq (host : Endian) (hdr : PktHdr) (payload : List UInt8) :
    packet host hdr payload = hdrBytes host hdr ++ payload := by
  have hl : (List.replicate headerSize (0 : UInt8)).length = 32 := List.length_replicate
  rw [packet, hdrPack_of_length hl]

@[simp] lemma length_packet (host : Endian) (hdr : PktHdr) (payload : List UInt8) :
    (packet host hdr payload).length = headerSize + payload.length := by
  rw [packet_eq, List.length_append, length_hdrBytes]
  rfl

/-- Packets that begin alike have headers with the same flags. -/
lemma flags_eq_of_packet_append_eq {host : Endian} {g h : PktHdr} {p q r t : List UInt8}
    (e : packet host g p ++ r = packet host h q ++ t) : g.flags = h.flags := by
  rw [packet_eq, packet_eq, List.append_assoc, List.append_assoc] at e
  exact flags_eq_of_hdrBytes_eq (List.append_inj e (by simp)).1

end RoboControl.Proto
