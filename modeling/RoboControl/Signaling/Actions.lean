import RoboControl.Signaling.Clients

/-!
# What a message does

A message leaves the rooms alone, frees its client, or lets it join or leave a room. `action` reads
off which, and `Settled.handle_cases` says what `handle_message` makes of a settled server in each
case. Only leaving may fail to return: a client without a room walks the list of the room without a
name.
-/

namespace RoboControl.Signaling
open Base Proto Connection Function

/-- What a message does to the rooms. -/
inductive Action where
  | keep
  | free
  | join (name : List UInt8)
  | leave
  deriving DecidableEq

/-- The action of a message that passed the checks of its header. -/
def dispatchAction (env : Env) (srv : Server) (c : Ptr) (hdr : SigHdr) (data : Nat → UInt8) :
    Action :=
  match MsgType.ofCode hdr.msgType with
  | some .auth => if redisVerifyToken env srv (receivedToken hdr data) then .keep else .free
  | some .joinRoom =>
    if (srv.clientPool c).authenticated = false then .keep else .join (receivedRoom hdr data)
  | some .leaveRoom => if (srv.clientPool c).authenticated = false then .keep else .leave
  | some .offer | some .answer | some .iceCandidate | some .ping | some .roomList | some .pong
  | some .error | none => .keep

/-- The action of a message. -/
def action (host : Endian) (env : Env) (srv : Server) (c : Ptr) (data : Nat → UInt8) (len : Nat) :
    Action :=
  if len < sigHdrSize ∨ (receivedHdr host data).magic ≠ sigMagic then .keep
  else dispatchAction env srv c (receivedHdr host data) data

section Actions
variable {srv srv' : Server} {free : List Ptr} {home : Ptr → List UInt8} {c : Ptr}

/-- A change of a client that touches neither its room nor its place in the pool. -/
lemma Settled.modify (st : Settled srv free home) {f : Client → Client}
    (hnext : (f (srv.clientPool c)).hashNext = (srv.clientPool c).hashNext)
    (hfd : (f (srv.clientPool c)).fd = (srv.clientPool c).fd)
    (hlink : (f (srv.clientPool c)).roomNext = (srv.clientPool c).roomNext)
    (hroom : (f (srv.clientPool c)).roomId = (srv.clientPool c).roomId)
    (hauth : (srv.clientPool c).authenticated = true →
      (f (srv.clientPool c)).authenticated = true) :
    Settled (srv.modify c f) free home := by
  refine ⟨st.toOk.modify hnext hfd hlink hauth, fun d hd hnot => ?_⟩
  rw [client_frame Client.roomId hroom]
  exact st.agree d hd hnot

/-! ## Broadcast -/

/-- The walk along a list. -/
lemma walk_eq {h : Option Ptr} {l : List Ptr} {fuel : Nat} (ch : Chain srv.link h l)
    (hf : l.length ≤ fuel) : walk srv fuel h = some l := by
  induction ch generalizing fuel with
  | nil => cases fuel <;> rfl
  | @cons p q l e ch ih =>
    cases fuel with
    | zero => cases hf
    | succ fuel =>
      rw [walk, show (srv.clientPool p).roomNext = q from Option.some.inj e,
        ih (Nat.le_of_succ_le_succ hf)]
      rfl

/-- A broadcast reaches the other clients with the same home, each once. -/
lemma Settled.broadcast (st : Settled srv free home) (hlive : c < maxConnections ∧ c ∉ free)
    (hhome : home c ≠ []) (bytes : List UInt8) :
    ∃ peers : List Ptr, peers.Nodup ∧ (∀ d, d ∈ peers ↔ d ≠ c ∧ home d = home c) ∧
      roomBroadcast srv (srv.clientPool c).roomId (srv.clientPool c).fd bytes =
        some { srv with
          out := srv.out ++ peers.map fun d => .send (srv.clientPool d).fd bytes } := by
  obtain ⟨buckets, table⟩ := st.table
  obtain ⟨members, lists⟩ := st.lists
  have agree := st.agree c hlive.1 hlive.2
  obtain ⟨r, hr, hname, hfind⟩ | ⟨hnone, -⟩ := table.roomFind (srv.clientPool c).roomId
  · have hr' : (srv.roomHeap r).roomId ≠ [] := by rwa [hname, agree]
    have hchain := lists.chain r
    rw [head_eq hr'] at hchain
    refine ⟨(members r).filter fun d =>
      (srv.clientPool d).fd ≠ (srv.clientPool c).fd && (srv.clientPool d).authenticated,
      hchain.nodup.filter _, fun d => ?_, ?_⟩
    · rw [List.mem_filter, lists.mem, hname, agree, Bool.and_eq_true, decide_eq_true_eq]
      constructor
      · rintro ⟨⟨-, hd⟩, hfd, -⟩
        refine ⟨?_, hd⟩
        rintro rfl
        exact hfd rfl
      · rintro ⟨hne, hd⟩
        have hd' : home d ≠ [] := hd ▸ hhome
        refine ⟨⟨hhome, hd⟩, fun hfd => hne ?_, st.homes.authenticated d hd'⟩
        exact st.pool.eq_of_fd (st.homes.live d hd') hlive hfd
    · rw [roomBroadcast, hfind]
      simp only [Option.bind_eq_bind, Option.bind_some, walk_eq hchain (lists.length_le st.homes r)]
      rfl
  · obtain ⟨r, hr, hname⟩ := st.homes.room c hhome
    exact absurd (hname.trans agree.symm) (hnone r hr)

/-! ## Leaving -/

/-- A leave that returns has left the room. -/
lemma Settled.leaves (st : Settled srv free home) (hlive : c < maxConnections ∧ c ∉ free)
    (h : handleLeave srv c = some srv') : Settled srv' free (update home c []) := by
  rw [handleLeave] at h
  obtain ⟨srv₁, hleave, h⟩ := Option.bind_eq_some_iff.mp h
  cases h
  obtain ⟨off, ok₁⟩ := st.toOk.leave (st.agree c hlive.1 hlive.2) hleave
  rw [redisUnregisterConnection_eq]
  refine ⟨(ok₁.setOut _).modify rfl rfl rfl id, fun d hd hnot => ?_⟩
  by_cases hdc : d = c
  · rw [hdc, clientPool_modify_self, update_self]
  · rw [clientPool_modify_of_ne hdc, update_of_ne hdc, ← st.agree d hd hnot]
    exact (congrArg Client.roomId (offLists_client off d) :)

/-- No client is on the list of the room without a name. -/
def Server.Quiet (srv : Server) : Prop :=
  ∀ r, (srv.roomHeap r).roomId = [] →
    (srv.roomHeap r).clients = none ∧ (srv.roomHeap r).clientCount = 0

/-- While that list is empty, every leave returns. -/
lemma Settled.leaves_quiet (st : Settled srv free home) (hlive : c < maxConnections ∧ c ∉ free)
    (hq : srv.Quiet) :
    ∃ srv', handleLeave srv c = some srv' ∧
      SameUnnamed srv srv' := by
  have agree := st.agree c hlive.1 hlive.2
  obtain ⟨srv₁, hleave, hrooms⟩ : ∃ srv₁, leaveList srv c = some srv₁ ∧
      SameUnnamed srv srv₁ := by
    by_cases hc : home c = []
    · refine ⟨srv, ?_, fun _ _ => rfl⟩
      obtain ⟨buckets, table⟩ := st.table
      rw [leaveList]
      obtain ⟨r, -, hname, hfind⟩ | ⟨-, hfind⟩ := table.roomFind (srv.clientPool c).roomId
      · have hread : srv.read (.room r) = none := (hq r (by rw [hname, agree, hc])).1
        rw [hfind]
        show removeFrom c r maxConnections srv (.room r) = some srv
        rw [removeFrom.eq_def]
        simp only [hread]
      · rw [hfind]
        rfl
    · obtain ⟨srv₁, hleave, -, -, hrooms⟩ := st.toOk.leave_named hc agree
      exact ⟨srv₁, hleave, hrooms⟩
  refine ⟨_, by rw [handleLeave, hleave]; rfl, ?_⟩
  rw [redisUnregisterConnection_eq]
  exact hrooms

/-! ## Messages -/

/-- A message for the other clients of the room leaves the rooms alone. -/
lemma Settled.relay (st : Settled srv free home) (hlive : c < maxConnections ∧ c ∉ free)
    (bytes : List UInt8) :
    ∃ srv', (if (srv.clientPool c).authenticated = false ∨ (srv.clientPool c).roomId = []
      then some srv
      else roomBroadcast srv (srv.clientPool c).roomId (srv.clientPool c).fd bytes) = some srv' ∧
      Settled srv' free home ∧ srv'.roomHeap = srv.roomHeap := by
  split
  · exact ⟨srv, rfl, st, rfl⟩
  · next h =>
    have hhome : home c ≠ [] := by
      rw [← st.agree c hlive.1 hlive.2]
      exact fun hnil => h (.inr hnil)
    obtain ⟨peers, -, -, hsend⟩ := st.broadcast hlive hhome bytes
    exact ⟨_, hsend, st.setOut _, rfl⟩

/-- What the switch does to a settled server. -/
lemma Settled.dispatch_cases (st : Settled srv free home) (hlive : c < maxConnections ∧ c ∉ free)
    {env : Env} (halloc : env.alloc = true) (host : Endian) (hdr : SigHdr) (data : Nat → UInt8)
    (len : Nat) :
    (dispatchAction env srv c hdr data = .keep ∧
      ∃ srv', dispatch host env srv c hdr data len = some srv' ∧ Settled srv' free home ∧
        srv'.roomHeap = srv.roomHeap) ∨
    (dispatchAction env srv c hdr data = .free ∧
      ∃ srv', dispatch host env srv c hdr data len = some srv' ∧
        Settled srv' (c :: free) (update home c []) ∧
        SameUnnamed srv srv') ∨
    (∃ name, dispatchAction env srv c hdr data = .join name ∧
      ∃ srv', dispatch host env srv c hdr data len = some srv' ∧
        Settled srv' free (update home c name) ∧ Joined srv srv' c name) ∨
    (dispatchAction env srv c hdr data = .leave ∧
      dispatch host env srv c hdr data len = handleLeave srv c) := by
  rw [dispatchAction, dispatch]
  cases MsgType.ofCode hdr.msgType with
  | none => exact .inl ⟨rfl, srv, rfl, st, rfl⟩
  | some type =>
    cases type with
    | auth =>
      simp only [handleAuth]
      split
      · refine .inl ⟨rfl, _, rfl, Settled.setOut ?_ _, rfl⟩
        exact st.modify rfl rfl rfl rfl fun _ => rfl
      · obtain ⟨srv', hfree, st', hrooms⟩ := (st.setOut _).frees hlive
        exact .inr (.inl ⟨rfl, srv', hfree, st', hrooms⟩)
    | joinRoom =>
      simp only
      split
      · exact .inl ⟨rfl, srv, rfl, st, rfl⟩
      · next hauth =>
        obtain ⟨srv', hjoin, st', joined⟩ :=
          st.join halloc hlive (Bool.not_eq_false _ ▸ hauth) (receivedRoom hdr data)
        exact .inr (.inr (.inl ⟨_, rfl, srv', hjoin, st', joined⟩))
    | leaveRoom =>
      simp only
      split
      · exact .inl ⟨rfl, srv, rfl, st, rfl⟩
      · exact .inr (.inr (.inr ⟨rfl, rfl⟩))
    | offer => exact .inl ⟨rfl, st.relay hlive _⟩
    | answer => exact .inl ⟨rfl, st.relay hlive _⟩
    | iceCandidate => exact .inl ⟨rfl, st.relay hlive _⟩
    | ping => exact .inl ⟨rfl, _, rfl, st.setOut _, rfl⟩
    | roomList => exact .inl ⟨rfl, srv, rfl, st, rfl⟩
    | pong => exact .inl ⟨rfl, srv, rfl, st, rfl⟩
    | error => exact .inl ⟨rfl, srv, rfl, st, rfl⟩

/-- The time of the last message has no say. -/
lemma dispatchAction_touch (env : Env) (srv : Server) (c : Ptr) (hdr : SigHdr) (data : Nat → UInt8)
    (now : UInt64) :
    dispatchAction env (srv.modify c ({ · with lastActivity := now })) c hdr data =
      dispatchAction env srv c hdr data := by
  simp only [dispatchAction, clientPool_modify_self]
  rfl

/-- What the handler does to a settled server. -/
lemma Settled.handle_cases (st : Settled srv free home) (hlive : c < maxConnections ∧ c ∉ free)
    {env : Env} (halloc : env.alloc = true) (host : Endian) (data : Nat → UInt8) (len : Nat) :
    (action host env srv c data len = .keep ∧
      ∃ srv', handleMessage host env srv c data len = some srv' ∧ Settled srv' free home ∧
        srv'.roomHeap = srv.roomHeap) ∨
    (action host env srv c data len = .free ∧
      ∃ srv', handleMessage host env srv c data len = some srv' ∧
        Settled srv' (c :: free) (update home c []) ∧
        SameUnnamed srv srv') ∨
    (∃ name, action host env srv c data len = .join name ∧
      ∃ srv', handleMessage host env srv c data len = some srv' ∧
        Settled srv' free (update home c name) ∧ Joined srv srv' c name) ∨
    (action host env srv c data len = .leave ∧
      handleMessage host env srv c data len =
        handleLeave (srv.modify c ({ · with lastActivity := env.now })) c) := by
  rw [action, handleMessage]
  by_cases hlen : len < sigHdrSize
  · rw [if_pos hlen, if_pos (.inl hlen)]
    exact .inl ⟨rfl, srv, rfl, st, rfl⟩
  by_cases hmagic : (receivedHdr host data).magic ≠ sigMagic
  · rw [if_neg hlen, if_pos (.inr hmagic)]
    exact .inl ⟨rfl, srv, if_pos hmagic, st, rfl⟩
  rw [if_neg hlen, if_neg (not_or.mpr ⟨hlen, hmagic⟩)]
  simp only [if_neg hmagic]
  have st₁ : Settled (srv.modify c ({ · with lastActivity := env.now })) free home :=
    st.modify rfl rfl rfl rfl id
  rw [← dispatchAction_touch env srv c (receivedHdr host data) data env.now]
  obtain h | h | ⟨name, haction, srv', hjoin, st', joined⟩ | h :=
    st₁.dispatch_cases hlive halloc host (receivedHdr host data) data len
  · exact .inl h
  · exact .inr (.inl h)
  · exact .inr (.inr (.inl ⟨name, haction, srv', hjoin, st', joined.first, joined.unnamed⟩))
  · exact .inr (.inr (.inr h))

end Actions

/-! ## Events -/

/-- Allocations succeed. -/
def Event.Allocates : Event → Prop
  | .received env _ _ => env.alloc = true
  | .accept _ _ | .hangup _ => True

/-- A message lets a client join the room with the empty name. -/
def Event.JoinsUnnamed (host : Endian) (m : Main) : Event → Prop
  | .received env fd bytes => ∃ c ∈ m.srv.clientOf fd,
      action host env m.srv c (copyIn m.buf 0 bytes) bytes.length = .join []
  | .accept _ _ | .hangup _ => False

instance (e : Event) : Decidable e.Allocates :=
  match e with
  | .received env _ _ => inferInstanceAs (Decidable (env.alloc = true))
  | .accept _ _ | .hangup _ => inferInstanceAs (Decidable True)

instance (host : Endian) (m : Main) (e : Event) : Decidable (e.JoinsUnnamed host m) :=
  match e with
  | .received env fd bytes => inferInstanceAs (Decidable (∃ c ∈ m.srv.clientOf fd,
      action host env m.srv c (copyIn m.buf 0 bytes) bytes.length = .join []))
  | .accept _ _ | .hangup _ => inferInstanceAs (Decidable False)

section Events
variable {host : Endian} {m : Main} {e : Event} {free : List Ptr} {home : Ptr → List UInt8}
  {c : Ptr}
  {fd : Int}

/-- A message of a client. -/
lemma step_received (hc : m.srv.clientOf fd = some c) (env : Env) (bytes : List UInt8) :
    m.step host (.received env fd bytes) =
      (handleMessage host env m.srv c (copyIn m.buf 0 bytes) bytes.length).map
        (⟨·, copyIn m.buf 0 bytes⟩) := by
  rw [Main.step, hc]

/-- A client hangs up. -/
lemma step_hangup (hc : m.srv.clientOf fd = some c) :
    m.step host (.hangup fd) = (clientFree m.srv c).map ({ m with srv := · }) := by
  rw [Main.step, hc]

/-! Events on a descriptor without a client are ignored. -/

lemma step_received_none (hc : m.srv.clientOf fd = none) (env : Env) (bytes : List UInt8) :
    m.step host (.received env fd bytes) = some m := by
  rw [Main.step, hc]

lemma step_hangup_none (hc : m.srv.clientOf fd = none) : m.step host (.hangup fd) = some m := by
  rw [Main.step, hc]

/-- What an event does to a settled server: it leaves the room without a name alone, lets a client
join it, or lets a client leave. -/
lemma Settled.step_cases (st : Settled m.srv free home) (hposs : e.Possible m)
    (halloc : e.Allocates) :
    (¬ e.JoinsUnnamed host m ∧ ∃ m' free' home', m.step host e = some m' ∧
      Settled m'.srv free' home' ∧ SameUnnamed m.srv m'.srv) ∨
    (e.JoinsUnnamed host m ∧ ∃ m' c, m.step host e = some m' ∧
      Settled m'.srv free (update home c []) ∧ (c < maxConnections ∧ c ∉ free) ∧
      Joined m.srv m'.srv c []) ∨
    (¬ e.JoinsUnnamed host m ∧ ∃ srv c buf, m.step host e = (handleLeave srv c).map (⟨·, buf⟩) ∧
      Settled srv free home ∧ (c < maxConnections ∧ c ∉ free) ∧ srv.roomHeap = m.srv.roomHeap) := by
  cases e with
  | accept now fd =>
    obtain ⟨⟨free', st'⟩, hheap⟩ := st.accept hposs.1 hposs.2 now
    exact .inl ⟨id, _, free', home, rfl, st', fun r _ => congrFun hheap r⟩
  | hangup fd =>
    cases hc : m.srv.clientOf fd with
    | none => exact .inl ⟨id, m, free, home, step_hangup_none hc, st, fun _ _ => rfl⟩
    | some c =>
      obtain ⟨srv', hfree, st', same⟩ := st.frees (st.pool.live_of_clientOf hc)
      refine .inl ⟨id, { m with srv := srv' }, _, _, ?_, st', same⟩
      rw [step_hangup hc, hfree]
      rfl
  | received env fd bytes =>
    cases hc : m.srv.clientOf fd with
    | none =>
      refine .inl ⟨?_, m, free, home, step_received_none hc env bytes, st, fun _ _ => rfl⟩
      rintro ⟨c, hc', -⟩
      cases hc.symm.trans hc'
    | some c =>
      have hlive := st.pool.live_of_clientOf hc
      have hjoins : (Event.received env fd bytes).JoinsUnnamed host m ↔
          action host env m.srv c (copyIn m.buf 0 bytes) bytes.length = .join [] := by
        refine ⟨?_, fun h => ⟨c, hc, h⟩⟩
        rintro ⟨c', hc', h⟩
        cases hc.symm.trans hc'
        exact h
      rw [hjoins, step_received hc]
      obtain ⟨ha, srv', hs, st', hheap⟩ | ⟨ha, srv', hs, st', same⟩ |
          ⟨name, ha, srv', hs, st', joined⟩ | ⟨ha, hs⟩ :=
        st.handle_cases hlive halloc host (copyIn m.buf 0 bytes) bytes.length
      · rw [ha, hs]
        exact .inl ⟨Action.noConfusion, _, free, home, rfl, st', fun r _ => congrFun hheap r⟩
      · rw [ha, hs]
        exact .inl ⟨Action.noConfusion, _, _, _, rfl, st', same⟩
      · rw [ha, hs]
        by_cases hname : name = []
        · subst hname
          exact .inr (.inl ⟨rfl, _, c, rfl, st', hlive, joined⟩)
        · exact .inl ⟨fun h => hname (Action.join.inj h), _, _, _, rfl, st', joined.unnamed hname⟩
      · rw [ha, hs]
        exact .inr (.inr ⟨Action.noConfusion, _, c, _, rfl, st.modify rfl rfl rfl rfl id, hlive,
          rfl⟩)

/-- Every event that returns leaves the server settled. -/
lemma Settled.step {m' : Main} (st : Settled m.srv free home) (hposs : e.Possible m)
    (halloc : e.Allocates) (hstep : m.step host e = some m') :
    ∃ free' home', Settled m'.srv free' home' := by
  obtain ⟨-, m₁, free', home', hstep', st', -⟩ | ⟨-, m₁, c, hstep', st', -⟩ |
      ⟨-, srv, c, buf, hstep', st₁, hlive, -⟩ := st.step_cases hposs halloc
  · cases hstep'.symm.trans hstep
    exact ⟨free', home', st'⟩
  · cases hstep'.symm.trans hstep
    exact ⟨_, _, st'⟩
  · obtain ⟨srv', hleave, rfl⟩ := Option.map_eq_some_iff.mp (hstep'.symm.trans hstep)
    exact ⟨_, _, st₁.leaves hlive hleave⟩

end Events

end RoboControl.Signaling
