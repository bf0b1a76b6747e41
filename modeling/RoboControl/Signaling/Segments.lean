import Mathlib.Data.List.Flatten
import Mathlib.Data.List.SplitLengths
import RoboControl.Signaling.Received

/-!
# Segments

A connection is a stream of bytes, and `recv` returns the next few of them. The loop hands whatever
it got to `handle_message`, which takes it for one message. So messages have the same effect for
every content and in every state exactly if the stream is cut between the messages and nowhere else
(`segments_independent_iff`).

For any other cut, offers in a room of two tell the difference: what the other client gets are the
parts that begin with a header, and they are the messages only if every part is one.
-/

namespace RoboControl.Signaling
open Base Proto Connection

/-- A header with the right magic and as much payload as it says. -/
def WellFormed (host : Endian) (bytes : List UInt8) : Prop :=
  (hdrOf host bytes).magic = sigMagic ∧
    bytes.length = sigHdrSize + (hdrOf host bytes).payloadLen.toNat ∧ bytes.length ≤ maxMsgSize

/-- The loop receives a part of the stream of a client after the other. -/
def receiveAll (host : Endian) (env : Env) (fd : Int) (m : Main) (chunks : List (List UInt8)) :
    Option Main :=
  chunks.foldlM (fun m bytes => m.step host (.received env fd bytes)) m

/-- A run comes to this state. -/
def Main.Reached (host : Endian) (m : Main) : Prop :=
  ∃ redis buf events,
    Along (Main.step host) (fun m e => e.Possible m ∧ e.Allocates) ⟨serverInit redis, buf⟩ events ∧
    mainRun host redis buf events = some m

/-- Messages of lengths `ls` have the same effect if they are received in parts of lengths `ks`. -/
def SegmentsIndependent (host : Endian) (ls ks : List Nat) : Prop :=
  ∀ msgs chunks : List (List UInt8), msgs.map List.length = ls → chunks.map List.length = ks →
    (∀ msg ∈ msgs, WellFormed host msg) → chunks.flatten = msgs.flatten →
    ∀ m : Main, m.Reached host → ∀ (env : Env) (fd : Int),
      (receiveAll host env fd m chunks).map (·.srv) = (receiveAll host env fd m msgs).map (·.srv)

/-! ## Parts of a list -/

section Parts
variable {α : Type}

/-- Lists that together are as long as all are all. -/
lemma filter_eq_self_of_flatten {p : List α → Bool} {cs : List (List α)} (hne : ∀ c ∈ cs, c ≠ [])
    (h : (cs.filter p).flatten.length = cs.flatten.length) : cs.filter p = cs := by
  induction cs with
  | nil => rfl
  | cons c cs ih =>
    have hle := (List.filter_sublist (p := p) (l := cs)).flatten.length_le
    by_cases hc : p c = true
    · rw [List.filter_cons_of_pos hc, List.flatten_cons, List.flatten_cons, List.length_append,
        List.length_append] at h
      rw [List.filter_cons_of_pos hc, ih (fun d hd => hne d (List.mem_cons_of_mem c hd)) (by omega)]
    · have hpos := List.length_pos_iff.mpr (hne c List.mem_cons_self)
      rw [List.filter_cons_of_neg hc, List.flatten_cons, List.length_append] at h
      omega

/-- A part of a list is taken from some place on. -/
lemma exists_drop_of_mem_splitLengths {ks : List Nat} {l c : List α} (h : c ∈ ks.splitLengths l) :
    ∃ o k, c = (l.drop o).take k := by
  induction ks generalizing l with
  | nil => cases h
  | cons k ks ih =>
    rw [List.splitLengths_cons] at h
    obtain rfl | h := List.mem_cons.mp h
    · exact ⟨0, k, by rw [List.drop_zero]⟩
    · obtain ⟨o, k', e⟩ := ih h
      exact ⟨k + o, k', by rw [e, List.drop_drop]⟩

end Parts

/-! ## A room of two -/

/-- The clients of two descriptors are in a room. -/
structure RoomOfTwo (srv : Server) : Prop where
  sender : srv.clientOf 5 = some 0
  sender_fd : (srv.clientPool 0).fd = 5
  sender_auth : (srv.clientPool 0).authenticated = true
  sender_room : (srv.clientPool 0).roomId = [97]
  sender_activity : (srv.clientPool 0).lastActivity = 0
  receiver_fd : (srv.clientPool 1).fd = 6
  receiver_auth : (srv.clientPool 1).authenticated = true
  room : roomFind srv [97] = some (some 0)
  members : walk srv maxConnections (srv.roomHeap 0).clients = some [1, 0]

section RoomOfTwo
variable {host : Endian} {srv : Server} {buf : Nat → UInt8} {bytes : List UInt8}

/-- The outputs do not matter to the search. -/
lemma roomFindFrom_setOut (srv : Server) (out : List Output) (name : List UInt8) (fuel : Nat)
    (h : Option RoomPtr) :
    roomFindFrom { srv with out } name fuel h = roomFindFrom srv name fuel h := by
  induction fuel generalizing h with
  | zero => cases h <;> rfl
  | succ fuel ih =>
    cases h with
    | none => rfl
    | some r => rw [roomFindFrom, roomFindFrom, ih]

/-- The outputs do not matter to the walk. -/
lemma walk_setOut (srv : Server) (out : List Output) (fuel : Nat) (h : Option Ptr) :
    walk { srv with out } fuel h = walk srv fuel h := by
  induction fuel generalizing h with
  | zero => cases h <;> rfl
  | succ fuel ih =>
    cases h with
    | none => rfl
    | some c => rw [walk, walk, ih]

/-- The outputs do not matter. -/
lemma RoomOfTwo.setOut (two : RoomOfTwo srv) (out : List Output) : RoomOfTwo { srv with out } where
  sender := two.sender
  sender_fd := two.sender_fd
  sender_auth := two.sender_auth
  sender_room := two.sender_room
  sender_activity := two.sender_activity
  receiver_fd := two.receiver_fd
  receiver_auth := two.receiver_auth
  room := (roomFindFrom_setOut srv out _ _ _).trans two.room
  members := (walk_setOut srv out _ _).trans two.members

/-- A message at the time of the last one leaves no trace in its client. -/
lemma modify_lastActivity {c : Ptr} {now : UInt64} (h : (srv.clientPool c).lastActivity = now) :
    srv.modify c ({ · with lastActivity := now }) = srv := by
  subst h
  rw [Server.modify, Function.update_eq_self]

/-- The other client gets what one sends to the room. -/
lemma RoomOfTwo.relays (two : RoomOfTwo srv) (hmsg : Relayed host bytes) :
    Main.step host ⟨srv, buf⟩ (.received .plain 5 bytes) =
      some ⟨{ srv with out := srv.out ++ [.send 6 bytes] }, copyIn buf 0 bytes⟩ := by
  obtain ⟨hlen, hmagic, htype⟩ := hmsg
  have hcopy := copyOut_copyIn buf bytes
  have hroom : (srv.clientPool 0).roomId ≠ [] := by
    rw [two.sender_room]
    exact List.cons_ne_nil _ _
  have hactivity : (srv.clientPool 0).lastActivity = Env.plain.now := two.sender_activity
  have hsend : handleMessage host .plain srv 0 (copyIn buf 0 bytes) bytes.length =
      some { srv with out := srv.out ++ [.send 6 bytes] } := by
    rw [handleMessage_eq hlen hmagic hcopy, modify_lastActivity hactivity,
      dispatch_relay htype two.sender_auth hroom, hcopy, two.sender_room, two.sender_fd,
        roomBroadcast,
      two.room]
    simp [two.members, two.sender_fd, two.receiver_fd, two.receiver_auth]
  rw [step_received two.sender, hsend]
  rfl

/-- What is no message is dropped. -/
lemma RoomOfTwo.drops (two : RoomOfTwo srv)
    (h : bytes.length < sigHdrSize ∨ (hdrOf host bytes).magic ≠ sigMagic) :
    Main.step host ⟨srv, buf⟩ (.received .plain 5 bytes) = some ⟨srv, copyIn buf 0 bytes⟩ := by
  have hsame : handleMessage host .plain srv 0 (copyIn buf 0 bytes) bytes.length = some srv := by
    by_cases hlen : bytes.length < sigHdrSize
    · rw [handleMessage, if_pos hlen]
    · refine handleMessage_bad_magic ?_
      rw [receivedHdr_eq (Nat.not_lt.mp hlen) (copyOut_copyIn buf bytes)]
      exact h.resolve_left hlen
  rw [step_received two.sender, hsame]
  rfl

/-- The other client gets the parts that are messages to the room, if all others are dropped. -/
lemma RoomOfTwo.receives (two : RoomOfTwo srv) (buf : Nat → UInt8) {chunks : List (List UInt8)}
    (h : ∀ c ∈ chunks, Relayed host c ∨ c.length < sigHdrSize ∨ (hdrOf host c).magic ≠ sigMagic) :
    (receiveAll host .plain 5 ⟨srv, buf⟩ chunks).map (·.srv.out) =
      some (srv.out ++ (chunks.filter (Relayed host ·)).map (.send 6)) := by
  induction chunks generalizing srv buf with
  | nil => simp [receiveAll]
  | cons c chunks ih =>
    have hrest := fun d hd => h d (List.mem_cons_of_mem c hd)
    rw [receiveAll, List.foldlM_cons]
    by_cases hc : Relayed host c
    · rw [two.relays hc, List.filter_cons, if_pos (decide_eq_true hc)]
      refine (ih (two.setOut _) _ hrest).trans ?_
      rw [List.map_cons, List.append_assoc, List.singleton_append]
    · rw [two.drops ((h c List.mem_cons_self).resolve_left hc), List.filter_cons,
        if_neg (by simpa using hc)]
      exact ih two _ hrest

/-- Two clients join a room. -/
lemma exists_roomOfTwo (host : Endian) : ∃ m : Main, m.Reached host ∧ RoomOfTwo m.srv := by
  let events : List Event := [.accept 0 5, .accept 0 6,
    .received .plain 5 (message host .auth [84]), .received .plain 6 (message host .auth [84]),
      .received .plain 5 (message host .joinRoom [97]),
    .received .plain 6 (message host .joinRoom [97])]
  have hclients : (mainRun host false (fun _ => 0) events).map (fun m =>
      (m.srv.clientOf 5, (m.srv.clientPool 0).fd, (m.srv.clientPool 0).authenticated,
        (m.srv.clientPool 0).roomId, (m.srv.clientPool 0).lastActivity)) =
      some (some 0, 5, true, [97], 0) := by
    cases host <;> decide +kernel
  have hroom : (mainRun host false (fun _ => 0) events).map (fun m =>
      ((m.srv.clientPool 1).fd, (m.srv.clientPool 1).authenticated, roomFind m.srv [97],
        walk m.srv maxConnections (m.srv.roomHeap 0).clients)) =
      some (6, true, some (some 0), some [1, 0]) := by
    cases host <;> decide +kernel
  obtain ⟨m, hrun, hsender⟩ := Option.map_eq_some_iff.mp hclients
  rw [hrun, Option.map_some, Option.some.injEq] at hroom
  simp only [Prod.mk.injEq] at hsender hroom
  obtain ⟨hclient, hfd, hauth, hname, hactivity⟩ := hsender
  obtain ⟨hfd', hauth', hfind, hwalk⟩ := hroom
  refine ⟨m, ⟨false, fun _ => 0, events, ?_, hrun⟩,
    ⟨hclient, hfd, hauth, hname, hactivity, hfd', hauth', hfind, hwalk⟩⟩
  cases host <;> decide +kernel

end RoomOfTwo

/-! ## A stream of offers -/

section Offers
variable {host : Endian}

/-- An offer of some length without anything to offer. -/
def blankOffer (host : Endian) (l : Nat) : List UInt8 :=
  message host .offer (List.replicate (l - sigHdrSize) 0)

lemma length_blankOffer {l : Nat} (h : sigHdrSize ≤ l) : (blankOffer host l).length = l := by
  rw [blankOffer, message, List.length_append, SigHdr.length_bytes, List.length_replicate]
  omega

/-- The header of a message. -/
lemma hdrOf_message (host : Endian) (type : MsgType) (payload : List UInt8) :
    hdrOf host (message host type payload) = ⟨sigMagic, type.code, UInt16.ofNat payload.length, 0,
      0⟩ := by
  have hzero : htonl host 0 = 0 := by cases host <;> decide
  rw [message, hdrOf_append, SigHdr.convert, htons_htons, htons_htons, hzero]

/-- An offer is relayed. -/
lemma blankOffer_relayed {l : Nat} (h : sigHdrSize ≤ l) : Relayed host (blankOffer host l) := by
  refine ⟨by rwa [length_blankOffer h], ?_, ?_⟩
  · rw [blankOffer, hdrOf_message]
  · rw [blankOffer, hdrOf_message]
    exact List.mem_cons_self

/-- An offer is well formed. -/
lemma blankOffer_wellFormed {l : Nat} (h : sigHdrSize ≤ l ∧ l ≤ maxMsgSize) :
    WellFormed host (blankOffer host l) := by
  have hsizes : sigHdrSize = 16 ∧ maxMsgSize = 65536 ∧ UInt16.size = 65536 := ⟨rfl, rfl, rfl⟩
  rw [WellFormed, length_blankOffer h.1, blankOffer, hdrOf_message, List.length_replicate]
  refine ⟨rfl, ?_, h.2⟩
  rw [UInt16.toNat_ofNat_of_lt' (by omega)]
  omega

/-- The bytes of the magic. -/
def magicBytes (host : Endian) : List UInt8 := store host 4 sigMagic.toNat

/-- The magic in the memory of the host. -/
lemma magicBytes_eq (host : Endian) :
    magicBytes host = match host with
      | .little => [0x47, 0x53, 0x43, 0x52]
      | .big => [0x52, 0x43, 0x53, 0x47] := by
  cases host <;> decide

/-- An offer is its magic, its type, two bytes for its length, and zeros. -/
lemma blankOffer_eq (host : Endian) (l : Nat) :
    ∃ p q, blankOffer host l =
      magicBytes host ++ 0 :: 1 :: p :: q :: List.replicate (8 + (l - sigHdrSize)) 0 := by
  have htype : store host 2 (htons host MsgType.offer.code).toNat = [0, 1] := by
    cases host <;> decide
  have hzero : store host 4 (0 : UInt32).toNat = [0, 0, 0, 0] := by cases host <;> decide
  obtain ⟨p, q, hlen⟩ := List.length_eq_two.mp (length_store host 2
    (htons host (UInt16.ofNat (List.replicate (l - sigHdrSize) (0 : UInt8)).length)).toNat)
  refine ⟨p, q, ?_⟩
  rw [blankOffer, message, SigHdr.bytes, hlen, htype, hzero, magicBytes, List.replicate_add]
  simp only [List.append_assoc, List.cons_append, List.nil_append]
  rfl

/-- Within an offer, the bytes of the magic are at its front only. -/
lemma eq_zero_of_magic {p q : UInt8} {n o : Nat} {rest : List UInt8} (ho : o < 16 + n)
    (h : readAt o 4 (magicBytes host ++ 0 :: 1 :: p :: q :: (List.replicate (8 + n) 0 ++ rest)) =
      magicBytes host) : o = 0 := by
  by_contra hne
  have hget : ∀ i < 4,
    (magicBytes host ++ 0 :: 1 :: p :: q :: (List.replicate (8 + n) 0 ++ rest))[o + i]? =
      (magicBytes host)[i]? := fun i hi => by
    have hi' := congrArg (fun l : List UInt8 => l[i]?) h
    simpa only [getElem?_readAt, if_pos hi] using hi'
  -- The first three bytes of the magic rule out every other place.
  have h0 := hget 0 (by decide)
  have h1 := hget 1 (by decide)
  have h2 := hget 2 (by decide)
  clear h hget
  rw [magicBytes_eq] at h0 h1 h2
  by_cases h8 : 8 ≤ o
  · obtain ⟨j, rfl⟩ := Nat.exists_eq_add_of_le' h8
    have hj : j < 8 + n := by omega
    cases host <;> simp [List.getElem?_append, hj] at h0
  · rw [List.replicate_add] at h0 h1 h2
    cases host <;> interval_cases o <;> simp [List.replicate] at *

/-- Wherever the bytes of the magic are in the stream, the type of an offer is behind. -/
lemma offer_of_magic {ls : List Nat} {o : Nat} (hls : ∀ l ∈ ls, sigHdrSize ≤ l)
    (h : readAt o 4 (ls.map (blankOffer host)).flatten = magicBytes host) :
    readAt (o + 4) 2 (ls.map (blankOffer host)).flatten = [0, 1] := by
  induction ls generalizing o with
  | nil =>
    have hlen := congrArg List.length h
    simp [readAt, magicBytes] at hlen
  | cons l ls ih =>
    have hl := hls l List.mem_cons_self
    have hlen : (blankOffer host l).length = l := length_blankOffer hl
    rw [List.map_cons, List.flatten_cons] at h ⊢
    by_cases ho : o < l
    · obtain ⟨p, q, e⟩ := blankOffer_eq host l
      rw [e, List.append_assoc, List.cons_append, List.cons_append, List.cons_append,
        List.cons_append] at h ⊢
      have ho' : o < 16 + (l - sigHdrSize) := by
        rw [sigHdrSize] at hl ⊢
        omega
      obtain rfl := eq_zero_of_magic ho' h
      have hmagic : (magicBytes host).length = 4 := length_store host 4 _
      rw [readAt_append_right (by omega), hmagic]
      rfl
    · have ho' : (blankOffer host l).length ≤ o := by omega
      rw [readAt_append_right ho'] at h
      rw [readAt_append_right (by omega), Nat.sub_add_comm ho']
      exact ih (fun l' hl' => hls l' (List.mem_cons_of_mem l hl')) h

/-- Bytes that are read as the magic. -/
lemma eq_magicBytes {bs : List UInt8} (hlen : bs.length = 4)
    (h : UInt32.ofNat (load host bs) = sigMagic) : bs = magicBytes host := by
  have hlt := load_lt host bs
  rw [hlen] at hlt
  rw [magicBytes, ← h, UInt32.toNat_ofNat_of_lt' hlt, ← hlen, store_load]

/-- A part of the stream is an offer, or is dropped. -/
lemma relayed_or_dropped {ls : List Nat} (hls : ∀ l ∈ ls, sigHdrSize ≤ l) {o k : Nat}
    {c : List UInt8} (hc : c = ((ls.map (blankOffer host)).flatten.drop o).take k) :
    Relayed host c ∨ c.length < sigHdrSize ∨ (hdrOf host c).magic ≠ sigMagic := by
  by_cases hlen : c.length < sigHdrSize
  · exact .inr (.inl hlen)
  by_cases hmagic : (hdrOf host c).magic = sigMagic
  · refine .inl ⟨Nat.not_lt.mp hlen, hmagic, ?_⟩
    have hsize : c.length = min k ((ls.map (blankOffer host)).flatten.length - o) := by
      rw [hc, List.length_take, List.length_drop]
    have hhdr : sigHdrSize = 16 := rfl
    have hfield : ∀ off w, off + w ≤ sigHdrSize → readField host off w (c.take sigHdrSize) =
        load host (readAt (o + off) w (ls.map (blankOffer host)).flatten) := fun off w h => by
      rw [readField, readAt_take h, hc, readAt_take (by omega), readAt_drop]
    have hmark : UInt32.ofNat (readField host 0 4 (c.take sigHdrSize)) = sigMagic := hmagic
    rw [hfield 0 4 (by decide)] at hmark
    have hread : (readAt (o + 0) 4 (ls.map (blankOffer host)).flatten).length = 4 := by
      rw [readAt, List.length_take, List.length_drop]
      omega
    have hoffer := offer_of_magic hls (eq_magicBytes hread hmark)
    have htype : (hdrOf host c).msgType = htons host (UInt16.ofNat (load host [0, 1])) := by
      rw [← hoffer, ← hfield 4 2 (by decide)]
      rfl
    rw [htype]
    cases host <;> decide
  · exact .inr (.inr hmagic)

/-- If the other client gets the same from parts of the stream as from the offers, they
are the offers. -/
lemma RoomOfTwo.chunks_eq {srv : Server} (two : RoomOfTwo srv) {buf : Nat → UInt8} {ls : List Nat}
    {chunks : List (List UInt8)} (hls : ∀ l ∈ ls, sigHdrSize ≤ l) (hne : ∀ c ∈ chunks, c ≠ [])
    (hparts : ∀ c ∈ chunks, ∃ o k, c = ((ls.map (blankOffer host)).flatten.drop o).take k)
    (hflat : chunks.flatten = (ls.map (blankOffer host)).flatten)
    (h : (receiveAll host .plain 5 ⟨srv, buf⟩ chunks).map (·.srv) =
      (receiveAll host .plain 5 ⟨srv, buf⟩ (ls.map (blankOffer host))).map (·.srv)) :
    chunks = ls.map (blankOffer host) := by
  have hoffers : ∀ c ∈ ls.map (blankOffer host), Relayed host c :=
    List.forall_mem_map.mpr fun l hl => blankOffer_relayed (hls l hl)
  have hall : (ls.map (blankOffer host)).filter (Relayed host ·) = ls.map (blankOffer host) :=
    List.filter_eq_self.mpr fun c hc => decide_eq_true (hoffers c hc)
  have hcases : ∀ c ∈ chunks, Relayed host c ∨ c.length < sigHdrSize ∨
      (hdrOf host c).magic ≠ sigMagic := by
    intro c hc
    obtain ⟨o, k, e⟩ := hparts c hc
    exact relayed_or_dropped hls e
  have hchunks := two.receives buf hcases
  have hmsgs := two.receives buf fun c hc => .inl (hoffers c hc)
  have hout := congrArg (Option.map Server.out) h
  rw [Option.map_map, Option.map_map] at hout
  have hsent := List.append_cancel_left (Option.some.inj (hchunks.symm.trans (hout.trans hmsgs)))
  rw [hall] at hsent
  have hfilter := List.map_injective_iff.mpr (fun _ _ e => (Output.send.inj e).2) hsent
  rw [← hfilter]
  refine (filter_eq_self_of_flatten hne ?_).symm
  rw [hfilter, hflat]

end Offers

/-- Messages of given lengths have the same effect in parts of given lengths, whatever they are and
in every state that a run comes to, exactly if the parts are the messages. -/
theorem segments_independent_iff (host : Endian) (ls ks : List Nat)
    (hls : ∀ l ∈ ls, sigHdrSize ≤ l ∧ l ≤ maxMsgSize) (hks : ∀ k ∈ ks, 0 < k ∧ k ≤ maxMsgSize)
    (hsum : ks.sum = ls.sum) : SegmentsIndependent host ls ks ↔ ks = ls := by
  have hlen : (ls.map (blankOffer host)).map List.length = ls := by
    rw [List.map_map]
    exact (List.map_congr_left fun l hl => length_blankOffer (hls l hl).1).trans (List.map_id' ls)
  have htotal : (ls.map (blankOffer host)).flatten.length = ks.sum := by
    rw [List.length_flatten, hlen, hsum]
  constructor
  · intro h
    obtain ⟨m, hreached, two⟩ := exists_roomOfTwo host
    have hlens := List.map_splitLengths_length _ _ htotal.ge
    have hflat := List.flatten_splitLengths _ _ htotal.le
    have hwell : ∀ msg ∈ ls.map (blankOffer host), WellFormed host msg :=
      List.forall_mem_map.mpr fun l hl => blankOffer_wellFormed (hls l hl)
    have heq := two.chunks_eq (fun l hl => (hls l hl).1) (fun c hc => ?_)
      (fun c hc => exists_drop_of_mem_splitLengths hc) hflat
      (h _ _ hlen hlens hwell hflat m hreached .plain 5)
    · rw [← hlens, heq, hlen]
    · have hpos := (hks c.length (hlens ▸ List.mem_map_of_mem hc)).1
      exact List.length_pos_iff.mp hpos
  · rintro rfl msgs chunks hmsgs hchunks - hflat m - env fd
    rw [List.eq_iff_flatten_eq.mpr ⟨hflat, hchunks.trans hmsgs.symm⟩]

/-- A cut within the first of two messages. -/
theorem segments_independent_sample : ¬ SegmentsIndependent .little [20, 16] [18, 18] := by
  rw [segments_independent_iff .little [20, 16] [18, 18] (by decide) (by decide) rfl]
  decide

/-- Two PINGs are answered once if they are received together, and one is not answered if it is cut
within its header. -/
theorem pings_lost :
    (((mainRun .little false (fun _ => 0) [.accept 0 5]).bind fun m => receiveAll .little .plain 5 m
      [message .little .ping [], message .little .ping []]).map (·.srv.out.length)) = some 2 ∧
    (((mainRun .little false (fun _ => 0) [.accept 0 5]).bind fun m => receiveAll .little .plain 5 m
      [message .little .ping [] ++ message .little .ping []]).map (·.srv.out.length)) = some 1 ∧
    (((mainRun .little false (fun _ => 0) [.accept 0 5]).bind fun m => receiveAll .little .plain 5 m
      [(message .little .ping []).take 8, (message .little .ping []).drop 8]).map
        (·.srv.out.length)) =
      some 0 := by
  decide +kernel

end RoboControl.Signaling
