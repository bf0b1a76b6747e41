import Mathlib.Data.List.TakeWhile
import RoboControl.Signaling.Broadcast

/-!
# What a message is read from

`handle_message` converts every field of the header but the magic. So a header in network order, as
the server's own replies have it, is rejected on a little-endian host
(`network_header_accepted_iff`).

A token or a room name is copied from the receive buffer as long as the header says, not as long as
what was received. So the result depends on what an earlier message left in the buffer exactly if
such a string reaches beyond the received bytes before it ends (`received_only_iff`).
-/

namespace RoboControl.Signaling
open Base Proto Connection

/-! ## Headers -/

section Headers
variable {host : Endian}

@[simp] lemma SigHdr.length_bytes (host : Endian) (hdr : SigHdr) :
    (hdr.bytes host).length = sigHdrSize := by
  simp [SigHdr.bytes, sigHdrSize]

/-- A header is read as it was stored. -/
lemma SigHdr.ofMem_bytes (host : Endian) (hdr : SigHdr) :
    SigHdr.ofMem host (hdr.bytes host) = hdr := by
  have key : ∀ (pre rest : List UInt8) (off w n : Nat), pre.length = off → n < 256 ^ w →
      hdr.bytes host = pre ++ store host w n ++ rest →
        readField host off w (hdr.bytes host) = n := by
    intro pre rest off w n hoff hn e
    rw [readField, e, readAt_append hoff (length_store _ _ _), load_store, Nat.mod_eq_of_lt hn]
  have e0 := key [] _ 0 4 hdr.magic.toNat rfl hdr.magic.toNat_lt (by simp [bytes]; rfl)
  have e1 := key (store host 4 hdr.magic.toNat) _ 4 2 hdr.msgType.toNat (by simp)
    hdr.msgType.toNat_lt (by simp [bytes]; rfl)
  have e2 := key (store host 4 hdr.magic.toNat ++ store host 2 hdr.msgType.toNat) _ 6 2
    hdr.payloadLen.toNat (by simp) hdr.payloadLen.toNat_lt (by simp [bytes]; rfl)
  have e3 := key (store host 4 hdr.magic.toNat ++ store host 2 hdr.msgType.toNat ++
    store host 2 hdr.payloadLen.toNat) _ 8 4 hdr.roomId.toNat (by simp) hdr.roomId.toNat_lt
    (by simp [bytes]; rfl)
  have e4 := key (store host 4 hdr.magic.toNat ++ store host 2 hdr.msgType.toNat ++
    store host 2 hdr.payloadLen.toNat ++ store host 4 hdr.roomId.toNat) [] 12 4 hdr.seq.toNat
      (by simp)
    hdr.seq.toNat_lt (by simp [bytes])
  rw [SigHdr.ofMem, e0, e1, e2, e3, e4]
  simp only [UInt32.ofNat_toNat, UInt16.ofNat_toNat]

/-- The header of a message is the one it begins with. -/
lemma hdrOf_append (host : Endian) (hdr : SigHdr) (payload : List UInt8) :
    hdrOf host (hdr.bytes host ++ payload) = hdr.convert host := by
  rw [hdrOf, List.take_append_of_le_length (by simp), List.take_of_length_le (by simp),
    SigHdr.ofMem_bytes]

/-- A header in network order. -/
def SigHdr.hton (host : Endian) (hdr : SigHdr) : SigHdr where
  magic := htonl host hdr.magic
  msgType := htons host hdr.msgType
  payloadLen := htons host hdr.payloadLen
  roomId := htonl host hdr.roomId
  seq := htonl host hdr.seq

/-- The server's replies are in network order. -/
lemma replyHdr_eq_hton (host : Endian) (type : MsgType) :
    replyHdr host type = SigHdr.hton host ⟨sigMagic, type.code, 0, 0, 0⟩ := by
  cases host <;> cases type <;> decide

/-- The conversion restores the header but for its magic. -/
lemma SigHdr.convert_hton (host : Endian) (hdr : SigHdr) :
    (SigHdr.hton host hdr).convert host = { hdr with magic := htonl host hdr.magic } := by
  simp only [SigHdr.hton, SigHdr.convert, htons_htons, htonl_htonl]

/-- The magic is symmetric on big-endian hosts only. -/
lemma htonl_sigMagic_eq_iff (host : Endian) : htonl host sigMagic = sigMagic ↔ host = .big := by
  cases host <;> decide

/-- A message with the wrong magic is dropped. -/
lemma handleMessage_bad_magic {env : Env} {srv : Server} {c : Ptr} {data : Nat → UInt8} {len : Nat}
    (h : (receivedHdr host data).magic ≠ sigMagic) :
    handleMessage host env srv c data len = some srv := by
  rw [handleMessage]
  split
  · rfl
  · exact if_pos h

end Headers

/-- A header in network order, as the server's replies have it, is taken for what it says exactly on
a big-endian host; on a little-endian one the message is dropped. -/
theorem network_header_accepted_iff (host : Endian) (msgType payloadLen : UInt16)
    (roomId seq : UInt32) :
    (hdrOf host ((SigHdr.hton host ⟨sigMagic, msgType, payloadLen, roomId, seq⟩).bytes host) =
      ⟨sigMagic, msgType, payloadLen, roomId, seq⟩ ↔ host = .big) ∧
    (host = .little → ∀ (env : Env) (srv : Server) (c : Ptr) (data : Nat → UInt8) (len : Nat),
      copyOut data 0 sigHdrSize =
        (SigHdr.hton host ⟨sigMagic, msgType, payloadLen, roomId, seq⟩).bytes host →
      handleMessage host env srv c data len = some srv) ∧
    ∀ type, replyHdr host type = SigHdr.hton host ⟨sigMagic, type.code, 0, 0, 0⟩ := by
  have hconv : hdrOf host
      ((SigHdr.hton host ⟨sigMagic, msgType, payloadLen, roomId, seq⟩).bytes host) =
      ⟨htonl host sigMagic, msgType, payloadLen, roomId, seq⟩ := by
    rw [← List.append_nil (SigHdr.bytes _ _), hdrOf_append, SigHdr.convert_hton]
  refine ⟨?_, ?_, replyHdr_eq_hton host⟩
  · rw [hconv, SigHdr.mk.injEq, htonl_sigMagic_eq_iff]
    simp only [and_true]
  · rintro rfl env srv c data len hdata
    refine handleMessage_bad_magic ?_
    rw [receivedHdr, hdata, SigHdr.ofMem_bytes, SigHdr.convert_hton]
    show htonl .little sigMagic ≠ sigMagic
    decide

/-- A PING in network order is not answered by a little-endian server. -/
theorem network_header_rejected :
    ((mainRun .little false (fun _ => 0) [.accept 0 5]).bind fun m => (m.step .little
      (.received .plain 5 ((SigHdr.hton .little ⟨sigMagic, MsgType.ping.code, 0, 0, 0⟩).bytes
        .little))).map
        (·.srv.out)) = some [] ∧
    ((mainRun .little false (fun _ => 0) [.accept 0 5]).bind fun m => (m.step .little
      (.received .plain 5 (message .little .ping []))).map (·.srv.out)) =
        some [.send 5 ((replyHdr .little .pong).bytes .little)] := by
  decide +kernel

/-! ## Strings in the buffer -/

section Strings
variable {host : Endian} {data data' : Nat → UInt8} {bytes : List UInt8}

/-- Bytes beyond are left from earlier. -/
lemma copyOut_beyond {n off k : Nat} (h : copyOut data 0 n = bytes) (hoff : off ≤ n)
    (hle : n ≤ off + k) :
    copyOut data off k = bytes.drop off ++ copyOut data n (off + k - n) := by
  subst h
  refine List.ext_getElem ?_ fun i hi hi' => ?_
  · simp only [copyOut, List.length_map, List.length_range, List.length_append, List.length_drop]
    omega
  · simp only [copyOut, List.getElem_map, List.getElem_range, List.getElem_append, List.length_drop,
      List.length_map, List.length_range, List.getElem_drop, Nat.zero_add]
    split
    · rfl
    · congr 1
      omega

/-- A string ends at its first zero. -/
lemma cstr_append_of_mem {xs : List UInt8} (h : 0 ∈ xs) (ys : List UInt8) :
    cstr (xs ++ ys) = cstr xs := by
  have hlen : (xs.takeWhile (· ≠ 0)).length ≠ xs.length := fun e => by
    have hself := (List.takeWhile_prefix (l := xs) (· ≠ 0)).eq_of_length e
    exact of_decide_eq_true (List.takeWhile_eq_self_iff.mp hself 0 h) rfl
  rw [cstr, cstr, List.takeWhile_append, if_neg hlen]

/-- A string without a zero goes on behind its end. -/
lemma cstr_append_of_not_mem {xs : List UInt8} (h : 0 ∉ xs) (ys : List UInt8) :
    cstr (xs ++ ys) = xs ++ cstr ys := by
  rw [cstr, cstr, List.takeWhile_append_of_pos]
  intro b hb
  exact decide_eq_true fun e => h (e ▸ hb)

/-- A text without a zero. -/
lemma cstr_of_not_mem {xs : List UInt8} (h : 0 ∉ xs) : cstr xs = xs :=
  List.takeWhile_eq_self_iff.mpr fun _ hb => decide_eq_true fun e => h (e ▸ hb)

/-- A string of at most `k` bytes behind the header ends within the received bytes. -/
def Inside (bytes : List UInt8) (k : Nat) : Prop :=
  sigHdrSize + k ≤ bytes.length ∨ 0 ∈ bytes.drop sigHdrSize

/-- Such a string is the same whatever the buffer has behind. -/
lemma Inside.cstr_eq {k : Nat} (h : Inside bytes k) (hlen : sigHdrSize ≤ bytes.length)
    (hd : copyOut data 0 bytes.length = bytes) (hd' : copyOut data' 0 bytes.length = bytes) :
    cstr (copyOut data sigHdrSize k) = cstr (copyOut data' sigHdrSize k) := by
  by_cases hk : sigHdrSize + k ≤ bytes.length
  · rw [copyOut_received hd hk, copyOut_received hd' hk]
  · have hzero := h.resolve_left hk
    rw [copyOut_beyond hd hlen (by omega), copyOut_beyond hd' hlen (by omega),
      cstr_append_of_mem hzero, cstr_append_of_mem hzero]

/-- The received bytes in a buffer that has one value everywhere else. -/
def filled (b : UInt8) (bytes : List UInt8) : Nat → UInt8 := copyIn (fun _ => b) 0 bytes

/-- What was received. -/
lemma copyOut_filled (b : UInt8) (bytes : List UInt8) :
    copyOut (filled b bytes) 0 bytes.length = bytes := copyOut_copyIn _ bytes

/-- What is behind what was received. -/
lemma copyOut_filled_beyond (b : UInt8) (bytes : List UInt8) (n : Nat) :
    copyOut (filled b bytes) bytes.length n = List.replicate n b := by
  refine List.ext_getElem (by simp [copyOut]) fun i hi hi' => ?_
  simp [copyOut, filled, copyIn]

/-- Any other string is not. -/
lemma cstr_filled {k : Nat} (h : ¬ Inside bytes k) (hlen : sigHdrSize ≤ bytes.length) :
    cstr (copyOut (filled 0 bytes) sigHdrSize k) ≠ cstr
      (copyOut (filled 1 bytes) sigHdrSize k) := by
  obtain ⟨hk, hzero⟩ := not_or.mp h
  obtain ⟨n, hn⟩ : ∃ n, sigHdrSize + k - bytes.length = n + 1 :=
    Nat.exists_eq_add_of_le' (by omega)
  have hsplit : ∀ b, copyOut (filled b bytes) sigHdrSize k =
      bytes.drop sigHdrSize ++ b :: List.replicate n b := fun b => by
    rw [copyOut_beyond (copyOut_filled b bytes) hlen (by omega), copyOut_filled_beyond, hn,
      List.replicate_succ]
  rw [hsplit, hsplit, cstr_append_of_not_mem hzero, cstr_append_of_not_mem hzero]
  intro e
  have e' := List.append_cancel_left e
  simp [cstr] at e'

/-! The two strings that a handler reads. -/

/-- The token that is read. -/
lemma receivedToken_eq (hdr : SigHdr) (data : Nat → UInt8) :
    receivedToken hdr data = cstr (copyOut data sigHdrSize
      (min hdr.payloadLen.toNat authTokenLen)) := by
  rw [receivedToken, min_def_lt]

/-- The name of the room that is read. -/
lemma receivedRoom_eq (hdr : SigHdr) (data : Nat → UInt8) :
    receivedRoom hdr data = cstr (copyOut data sigHdrSize
      (min hdr.payloadLen.toNat (roomIdLen - 1))) := by
  rw [receivedRoom, min_def_lt]

end Strings

/-! ## Messages -/

section Messages
variable {host : Endian} {env : Env} {srv : Server} {c : Ptr} {hdr : SigHdr}
  {data data' : Nat → UInt8}
  {bytes : List UInt8} {len : Nat}

lemma MsgType.code_eq_of_ofCode {code : UInt16} {type : MsgType} (h : ofCode code = some type) :
    code = type.code := by
  have hfound := List.find?_some h
  exact (of_decide_eq_true hfound).symm

/-- The switch reads a token, a room name, or what it relays. -/
lemma dispatch_congr
    (hauth : hdr.msgType = MsgType.auth.code → receivedToken hdr data = receivedToken hdr data')
    (hjoin : hdr.msgType = MsgType.joinRoom.code → receivedRoom hdr data = receivedRoom hdr data')
    (hrelay : copyOut data 0 len = copyOut data' 0 len) :
    dispatch host env srv c hdr data len = dispatch host env srv c hdr data' len := by
  rw [dispatch, dispatch, hrelay]
  cases htype : MsgType.ofCode hdr.msgType with
  | none => rfl
  | some type =>
    have hcode := MsgType.code_eq_of_ofCode htype
    cases type with
    | auth => simp only [hauth hcode]
    | joinRoom => simp only [hjoin hcode]
    | _ => rfl

/-- What a message is read from was received with it: the message is dropped, or the token or room
name it has ends within what was received. -/
def Contained (host : Endian) (bytes : List UInt8) : Prop :=
  bytes.length < sigHdrSize ∨ (hdrOf host bytes).magic ≠ sigMagic ∨
    (((hdrOf host bytes).msgType = MsgType.auth.code →
      Inside bytes (min (hdrOf host bytes).payloadLen.toNat authTokenLen)) ∧
    ((hdrOf host bytes).msgType = MsgType.joinRoom.code →
      Inside bytes (min (hdrOf host bytes).payloadLen.toNat (roomIdLen - 1))))

/-- Such a message has one effect, whatever the buffer has behind. -/
lemma Contained.handleMessage_congr (h : Contained host bytes)
    (hd : copyOut data 0 bytes.length = bytes) (hd' : copyOut data' 0 bytes.length = bytes) :
    handleMessage host env srv c data bytes.length = handleMessage host env srv c data'
      bytes.length := by
  by_cases hlen : bytes.length < sigHdrSize
  · rw [handleMessage, handleMessage, if_pos hlen, if_pos hlen]
  have hlen' : sigHdrSize ≤ bytes.length := by omega
  by_cases hmagic : (hdrOf host bytes).magic = sigMagic
  · obtain ⟨hauth, hjoin⟩ := (h.resolve_left hlen).resolve_left (not_not_intro hmagic)
    rw [handleMessage_eq hlen' hmagic hd, handleMessage_eq hlen' hmagic hd']
    refine dispatch_congr (fun htype => ?_) (fun htype => ?_) (hd.trans hd'.symm)
    · rw [receivedToken_eq, receivedToken_eq]
      exact (hauth htype).cstr_eq hlen' hd hd'
    · rw [receivedRoom_eq, receivedRoom_eq]
      exact (hjoin htype).cstr_eq hlen' hd hd'
  · rw [handleMessage_bad_magic (receivedHdr_eq hlen' hd ▸ hmagic),
      handleMessage_bad_magic (receivedHdr_eq hlen' hd' ▸ hmagic)]

/-! Whom a token authenticates, and which room is joined. -/

/-- A valid token. -/
lemma handleAuth_valid {token : List UInt8} (h : redisVerifyToken env srv token = true) :
    (handleAuth host env srv c token).map (fun srv => (srv.clientPool c).authenticated) =
      some true := by
  rw [handleAuth, if_pos h, Option.map_some, Server.emit, clientPool_modify_self]

/-- An invalid token. -/
lemma handleAuth_invalid {token : List UInt8} (h : redisVerifyToken env srv token = false)
    (hroom : (srv.clientPool c).roomId = []) :
    (handleAuth host env srv c token).map (fun srv => (srv.clientPool c).authenticated) =
      some (srv.clientPool c).authenticated := by
  rw [handleAuth, if_neg (by rw [h]; exact Bool.false_ne_true), clientFree, Server.emit,
    if_neg (not_not_intro hroom)]
  simp

/-- The first client joins. -/
lemma roomJoin_first (halloc : env.alloc = true) (hrooms : srv.rooms = fun _ => none)
    (hroom : (srv.clientPool c).roomId = []) (name : List UInt8) :
    (roomJoin env srv c name).map (fun srv => (srv.clientPool c).roomId) = some name := by
  have hleave : leaveNamed srv c = some srv := if_neg (not_not_intro hroom)
  have hfind : roomFind srv name = some none := by
    rw [roomFind, hrooms]
    cases srv.roomCount <;> rfl
  have hcreate : roomCreate env srv name = (some srv.roomCount,
      insertRoom srv { Room.zero with roomId := name, createdAt := env.created }) := by
    rw [roomCreate, halloc]
    rfl
  rw [roomJoin, hleave]
  simp only [Option.bind_eq_bind, Option.bind_some, hfind, hcreate, Option.pure_def,
    Option.map_some]
  rw [redisRegisterConnection_eq]
  exact congrArg (fun client : Client => some client.roomId) (linkClient_self _ _ _ _)

/-- Received bytes, if the buffer decides on the token, authenticate a client or not. -/
lemma auth_beyond (hlen : sigHdrSize ≤ bytes.length) (hmagic : (hdrOf host bytes).magic = sigMagic)
    (htype : (hdrOf host bytes).msgType = MsgType.auth.code)
    (hd : copyOut data 0 bytes.length = bytes) (hd' : copyOut data' 0 bytes.length = bytes)
    (hne : receivedToken (hdrOf host bytes) data ≠ receivedToken (hdrOf host bytes) data') :
    ∃ env srv c,
      (handleMessage host env srv c data bytes.length).map
        (fun srv => (srv.clientPool c).authenticated) = some true ∧
      (handleMessage host env srv c data' bytes.length).map
        (fun srv => (srv.clientPool c).authenticated) = some false := by
  have hcode : MsgType.ofCode (hdrOf host bytes).msgType = some .auth := by
    rw [htype]
    rfl
  refine ⟨⟨0, 0, (· = receivedToken (hdrOf host bytes) data), true⟩, serverInit true, 0, ?_, ?_⟩
  · rw [handleMessage_eq hlen hmagic hd, dispatch, hcode]
    exact handleAuth_valid (decide_eq_true rfl)
  · rw [handleMessage_eq hlen hmagic hd', dispatch, hcode]
    refine (handleAuth_invalid ?_ ?_).trans ?_
    · exact decide_eq_false hne.symm
    · rw [clientPool_modify_self]
      rfl
    · rw [clientPool_modify_self]
      rfl

/-- Received bytes, if the buffer decides on the room, let a client join this room or that. -/
lemma join_beyond (hlen : sigHdrSize ≤ bytes.length) (hmagic : (hdrOf host bytes).magic = sigMagic)
    (htype : (hdrOf host bytes).msgType = MsgType.joinRoom.code) :
    ∃ env srv c, ∀ data, copyOut data 0 bytes.length = bytes →
      (handleMessage host env srv c data bytes.length).map (fun srv => (srv.clientPool c).roomId) =
        some (receivedRoom (hdrOf host bytes) data) := by
  have hcode : MsgType.ofCode (hdrOf host bytes).msgType = some .joinRoom := by
    rw [htype]
    rfl
  refine ⟨.plain, (serverInit false).modify 0 ({ · with authenticated := true }), 0,
    fun data hd => ?_⟩
  rw [handleMessage_eq hlen hmagic hd, dispatch, hcode]
  simp only [clientPool_modify_self, Bool.true_eq_false, if_false]
  refine roomJoin_first ?_ ?_ ?_ _
  · rfl
  · rfl
  · rw [clientPool_modify_self, clientPool_modify_self]
    rfl

end Messages

/-- A message has the same effect on every server and whatever the buffer has behind it, exactly if
what it is read from was received with it. -/
theorem received_only_iff (host : Endian) (bytes : List UInt8) :
    (∀ (env : Env) (srv : Server) (c : Ptr) (data data' : Nat → UInt8),
      copyOut data 0 bytes.length = bytes → copyOut data' 0 bytes.length = bytes →
      handleMessage host env srv c data bytes.length = handleMessage host env srv c data'
        bytes.length) ↔
    Contained host bytes := by
  refine ⟨fun h => ?_, fun h env srv c data data' hd hd' => h.handleMessage_congr hd hd'⟩
  by_contra hnot
  obtain ⟨hlen, hrest⟩ := not_or.mp hnot
  obtain ⟨hmagic, hstrings⟩ := not_or.mp hrest
  have hlen' : sigHdrSize ≤ bytes.length := Nat.not_lt.mp hlen
  have hmagic' := not_not.mp hmagic
  have hd₀ := copyOut_filled 0 bytes
  have hd₁ := copyOut_filled 1 bytes
  refine hstrings ⟨fun htype => ?_, fun htype => ?_⟩
  · by_contra hbeyond
    have hne := cstr_filled hbeyond hlen'
    rw [← receivedToken_eq, ← receivedToken_eq] at hne
    obtain ⟨env, srv, c, hyes, hno⟩ := auth_beyond hlen' hmagic' htype hd₀ hd₁ hne
    rw [h env srv c _ _ hd₀ hd₁, hno] at hyes
    cases hyes
  · by_contra hbeyond
    have hne := cstr_filled hbeyond hlen'
    rw [← receivedRoom_eq, ← receivedRoom_eq] at hne
    obtain ⟨env, srv, c, hjoin⟩ := join_beyond hlen' hmagic' htype
    have e := hjoin _ hd₀
    rw [h env srv c _ _ hd₀ hd₁, hjoin _ hd₁] at e
    exact hne (Option.some.inj e).symm

/-- A header alone authenticates a client with the token that another one has sent before. -/
theorem token_left_behind :
    (mainRun .little true (fun _ => 0)
      [.accept 0 5, .accept 0 6,
        .received ⟨0, 0, (· = [84, 79, 75]), true⟩ 5 (message .little .auth [84, 79, 75]),
        .received ⟨0, 0, (· = [84, 79, 75]), true⟩ 6
          ((message .little .auth [84, 79, 75]).take sigHdrSize)]).map
      (fun m => (m.srv.clientPool 1).authenticated) = some true ∧
    (mainRun .little true (fun _ => 0)
      [.accept 0 5, .accept 0 6,
        .received ⟨0, 0, (· = [84, 79, 75]), true⟩ 6
          ((message .little .auth [84, 79, 75]).take sigHdrSize)]).map
      (fun m => (m.srv.clientPool 1).authenticated) = some false := by
  decide +kernel

end RoboControl.Signaling
