import RoboControl.P2p.Framing
import RoboControl.Proto.Codec

/-!
# Hole punching

Model of the hole punching of `src/core/rc_p2p.c`: `send_punch_probe`, `rc_p2p_tick` and
`rc_p2p_create`. A tick sends a probe if the last one is long enough ago, and then looks at one
datagram that has arrived; the first PING or PONG is taken for the peer. After ten probes a tick
does nothing any more.

`punch_run_sound` is about two peers on a network that loses, doubles and delays datagrams, with
others sending what they like.
-/

namespace RoboControl.P2p
open Base Proto Function

/-- Milliseconds between probes (C `RC_PUNCH_INTERVAL_MS`). -/
def punchIntervalMs : UInt64 := 500

/-- Probes before the attempt is given up (C `RC_PUNCH_MAX_ATTEMPTS`). -/
def punchMaxAttempts : UInt32 := 10

/-- State of an attempt, with its socket and its probes (C `rc_p2p_state_t`). -/
structure Punch (Addr : Type) extends P2pState where
  punchFd : Int
  punchAttempts : UInt32
  lastPunchMs : UInt64
  punchSuccess : Bool
  peerAddr : Option Addr

section Model
variable {Addr : Type}

/-- A new state (C `rc_p2p_create`); `fd` is the descriptor of `socket`, `bound` the
success of `bind`. -/
def p2pCreate (fd : Int) (bound : Bool) : Punch Addr where
  useRelay := false
  punchFd := if fd < 0 ∨ bound = false then -1 else fd
  punchAttempts := 0
  lastPunchMs := 0
  punchSuccess := false
  peerAddr := none

/-- The header of a probe. -/
def probeHdr : PktHdr := { hdrInit .ping 0 0 with payloadLen := 0 }

/-- Send a probe (C `send_punch_probe`): the result, the datagram and the new state. `sentOk` says
whether `sendto` succeeds, `sentAt` is the time behind it. -/
def sendPunchProbe (host : Endian) (sentOk : Bool) (sentAt : UInt64) (p2p : Punch Addr) :
    Int × Option (List UInt8) × Punch Addr :=
  if p2p.punchFd < 0 then (-1, none, p2p)
  else if sentOk = false then (-1, none, p2p)
  else
    (0, some (packet host probeHdr []),
      { p2p with punchAttempts := p2p.punchAttempts + 1, lastPunchMs := sentAt })

/-- Whether a tick takes a datagram for one of the peer. -/
def isPunch (host : Endian) (data : List UInt8) : Bool :=
  let buf := data.take (headerSize + 64)
  decide (headerSize ≤ buf.length) && ((hdrUnpack host buf).1 == 0 &&
    ((hdrUnpack host buf).2.type == PktType.ping.code ||
      (hdrUnpack host buf).2.type == PktType.pong.code))

/-- What a tick returns, sends, leaves in the queue of its socket, and makes of its state. -/
structure Ticked (Addr : Type) where
  ret : Bool
  sent : Option (List UInt8)
  inbox : List (Addr × List UInt8)
  p2p : Punch Addr

/-- Run the attempt (C `rc_p2p_tick`) at the time `now`, with the datagrams `inbox`
at its socket. -/
def p2pTick (host : Endian) (now sentAt : UInt64) (sentOk : Bool) (inbox : List (Addr × List UInt8))
    (p2p : Punch Addr) :
    Ticked Addr :=
  if p2p.punchSuccess = true ∨ p2p.useRelay = true then ⟨true, none, inbox, p2p⟩
  else if p2p.punchAttempts ≥ punchMaxAttempts then ⟨false, none, inbox, p2p⟩
  else if now - p2p.lastPunchMs < punchIntervalMs then ⟨false, none, inbox, p2p⟩
  else
    let (_, sent, p2p) := sendPunchProbe host sentOk sentAt p2p
    if p2p.punchFd < 0 then ⟨false, sent, inbox, p2p⟩
    else match inbox with
      | [] => ⟨false, sent, [], p2p⟩
      | (src, data) :: inbox =>
        if isPunch host data = true then
          ⟨true, sent, inbox, { p2p with punchSuccess := true, peerAddr := some src }⟩
        else ⟨false, sent, inbox, p2p⟩

end Model

/-! ## A tick -/

section Tick
variable {Addr : Type} {host : Endian} {now sentAt : UInt64} {sentOk : Bool}
  {inbox : List (Addr × List UInt8)}
  {p2p : Punch Addr}

/-- What a tick does about a probe: it sends none, or it sends one and counts it. -/
def Probed (host : Endian) (sentAt : UInt64) (p2p : Punch Addr) (sent : Option (List UInt8))
    (p2p' : Punch Addr) : Prop :=
  (sent = none ∧ p2p'.punchAttempts = p2p.punchAttempts ∧ p2p'.lastPunchMs = p2p.lastPunchMs) ∨
  (sent = some (packet host probeHdr []) ∧ p2p'.punchAttempts = p2p.punchAttempts + 1 ∧
    p2p'.lastPunchMs = sentAt)

/-- What a probe does. -/
lemma probed_of_sendPunchProbe {ret : Int} {sent : Option (List UInt8)} {p2p' : Punch Addr}
    (h : sendPunchProbe host sentOk sentAt p2p = (ret, sent, p2p')) :
    Probed host sentAt p2p sent p2p' ∧ p2p'.punchSuccess = p2p.punchSuccess ∧
      p2p'.peerAddr = p2p.peerAddr := by
  rw [sendPunchProbe] at h
  split_ifs at h
  · cases h
    exact ⟨.inl ⟨rfl, rfl, rfl⟩, rfl, rfl⟩
  · cases h
    exact ⟨.inl ⟨rfl, rfl, rfl⟩, rfl, rfl⟩
  · cases h
    exact ⟨.inr ⟨rfl, rfl, rfl⟩, rfl, rfl⟩

/-- What a tick that is due does: it may send a probe, and may take a datagram for
one of the peer. -/
structure Due (host : Endian) (now sentAt : UInt64) (inbox : List (Addr × List UInt8))
    (p2p : Punch Addr) (r : Ticked Addr) :
    Prop where
  attempts : p2p.punchAttempts < punchMaxAttempts
  interval : punchIntervalMs ≤ now - p2p.lastPunchMs
  sent : Probed host sentAt p2p r.sent r.p2p
  queue : ∀ e ∈ r.inbox, e ∈ inbox
  success : (r.p2p.punchSuccess = p2p.punchSuccess ∧ r.p2p.peerAddr = p2p.peerAddr) ∨
    ∃ src data, (src, data) ∈ inbox ∧ r.p2p.peerAddr = some src

/-- A tick does nothing, or it is due. -/
lemma p2pTick_cases (host : Endian) (now sentAt : UInt64) (sentOk : Bool)
    (inbox : List (Addr × List UInt8)) (p2p : Punch Addr) :
    (∃ ret, p2pTick host now sentAt sentOk inbox p2p = ⟨ret, none, inbox, p2p⟩) ∨
    Due host now sentAt inbox p2p (p2pTick host now sentAt sentOk inbox p2p) := by
  rw [p2pTick]
  split
  · exact .inl ⟨true, rfl⟩
  · split
    · exact .inl ⟨false, rfl⟩
    · next hattempts =>
      split
      · exact .inl ⟨false, rfl⟩
      · next hinterval =>
        refine .inr ?_
        rcases hprobe : sendPunchProbe host sentOk sentAt p2p with ⟨ret, sent, p2p'⟩
        obtain ⟨hsent, hsame⟩ := probed_of_sendPunchProbe hprobe
        have hlt := UInt32.not_le.mp hattempts
        have hle := UInt64.not_lt.mp hinterval
        dsimp only
        split
        · exact ⟨hlt, hle, hsent, fun e he => he, .inl hsame⟩
        · cases inbox with
          | nil => exact ⟨hlt, hle, hsent, fun e he => he, .inl hsame⟩
          | cons e inbox =>
            obtain ⟨src, data⟩ := e
            dsimp only
            split
            · exact ⟨hlt, hle, hsent, fun e he => List.mem_cons_of_mem _ he,
                .inr ⟨src, data, List.mem_cons_self, rfl⟩⟩
            · exact ⟨hlt, hle, hsent, fun e he => List.mem_cons_of_mem _ he, .inl hsame⟩

end Tick

/-! ## Two peers -/

section Net
variable {Addr : Type}

/-- Two peers, the datagrams at their sockets, those that were ever sent and may still arrive,
the times of the probes of each, the latest first, and the clock of each, which has nothing to
do with the other's. -/
structure Net (Addr : Type) where
  peer : Bool → Punch Addr
  inbox : Bool → List (Addr × List UInt8)
  wire : List (Bool × List UInt8)
  probes : Bool → List UInt64
  clock : Bool → UInt64

/-- What can happen: a tick of a peer, the arrival of a datagram of the wire, that of a datagram of
somebody else, and that a peer turns to a relay. A datagram that is never delivered is lost, and one
that is delivered twice is doubled. -/
inductive NetAct (Addr : Type) where
  | tick (i : Bool) (now sentAt : UInt64) (sentOk : Bool)
  | deliver (k : Nat)
  | stray (i : Bool) (src : Addr) (data : List UInt8)
  | relay (i : Bool)

/-- The state after a tick of peer `i` with a result. -/
def Net.ticked (s : Net Addr) (i : Bool) (sentAt : UInt64) (r : Ticked Addr) : Net Addr where
  peer := update s.peer i r.p2p
  inbox := update s.inbox i r.inbox
  wire := s.wire ++ (r.sent.map (i, ·)).toList
  probes := if r.sent.isSome then update s.probes i (sentAt :: s.probes i) else s.probes
  clock := update s.clock i sentAt

/-- One step of the network; `addr i` is the address that the other peer sees of peer `i`. -/
def Net.step (host : Bool → Endian) (addr : Bool → Addr) (s : Net Addr) :
    NetAct Addr → Option (Net Addr)
  | .tick i now sentAt sentOk =>
    some (s.ticked i sentAt (p2pTick (host i) now sentAt sentOk (s.inbox i) (s.peer i)))
  | .deliver k => s.wire[k]?.map fun d =>
    { s with inbox := update s.inbox (!d.1) (s.inbox (!d.1) ++ [(addr d.1, d.2)]) }
  | .stray i src data => some { s with inbox := update s.inbox i (s.inbox i ++ [(src, data)]) }
  | .relay i => some { s with peer := update s.peer i { s.peer i with useRelay := true } }

/-- The clock of a peer does not go back, there is a datagram to deliver, and others are not at the
peers' addresses. -/
def Net.Allows (strangers : List Addr) (s : Net Addr) : NetAct Addr → Prop
  | .tick i now sentAt _ => s.clock i ≤ now ∧ now ≤ sentAt
  | .deliver k => k < s.wire.length
  | .stray _ src _ => src ∈ strangers
  | .relay _ => True

instance [DecidableEq Addr] (strangers : List Addr) (s : Net Addr) :
    DecidablePred (s.Allows strangers)
  | .tick i now sentAt _ => inferInstanceAs (Decidable (s.clock i ≤ now ∧ now ≤ sentAt))
  | .deliver k => inferInstanceAs (Decidable (k < s.wire.length))
  | .stray _ src _ => inferInstanceAs (Decidable (src ∈ strangers))
  | .relay _ => inferInstanceAs (Decidable True)

/-- Two new peers. -/
def Net.start (fd : Bool → Int) : Net Addr :=
  ⟨fun i => p2pCreate (fd i) true, fun _ => [], [], fun _ => [], fun _ => 0⟩

/-- An address that a peer may take for the other's: it is the other's, which has sent a probe, or
it is a stranger's. -/
def Net.Plausible (addr : Bool → Addr) (strangers : List Addr) (s : Net Addr) (i : Bool)
    (a : Addr) : Prop :=
  (a = addr (!i) ∧ s.probes (!i) ≠ []) ∨ a ∈ strangers

/-- What holds of a peer in every run. -/
structure Net.Sound (addr : Bool → Addr) (strangers : List Addr) (s : Net Addr) (i : Bool) :
    Prop where
  attempts : (s.peer i).punchAttempts.toNat = (s.probes i).length
  bound : (s.probes i).length ≤ 10
  spaced : (s.probes i).IsChain fun late early => early.toNat + 500 ≤ late.toNat
  success : (s.peer i).punchSuccess = true →
    ∃ a, (s.peer i).peerAddr = some a ∧ s.Plausible addr strangers i a

/-- What the steps keep. -/
structure Net.Inv (addr : Bool → Addr) (strangers : List Addr) (s : Net Addr) : Prop where
  sound : ∀ i, s.Sound addr strangers i
  last : ∀ i, (s.peer i).lastPunchMs = (s.probes i).head?.getD 0
  clock : ∀ i, (s.peer i).lastPunchMs ≤ s.clock i
  wire : ∀ d ∈ s.wire, s.probes d.1 ≠ []
  inbox : ∀ i, ∀ e ∈ s.inbox i, s.Plausible addr strangers i e.1

variable {host : Bool → Endian} {addr : Bool → Addr} {strangers : List Addr} {s s' : Net Addr}

/-- More probes make more addresses plausible. -/
lemma Net.Plausible.mono {i : Bool} {a : Addr} (h : s.Plausible addr strangers i a)
    (hp : ∀ j, s.probes j ≠ [] → s'.probes j ≠ []) : s'.Plausible addr strangers i a := by
  obtain ⟨ha, hs⟩ | ha := h
  · exact .inl ⟨ha, hp _ hs⟩
  · exact .inr ha

/-- A peer that at most turned to a relay. -/
lemma Net.Sound.congr {i b : Bool} (h : s.Sound addr strangers i)
    (hpeer : s'.peer i = { s.peer i with useRelay := b }) (hprobes : s'.probes i = s.probes i)
      (hmono : ∀ j, s.probes j ≠ [] → s'.probes j ≠ []) :
    s'.Sound addr strangers i := by
  constructor
  case attempts => rw [hpeer, hprobes, ← h.attempts]
  case bound => exact hprobes ▸ h.bound
  case spaced => exact hprobes ▸ h.spaced
  case success =>
    rw [hpeer]
    intro hs
    obtain ⟨a, ha, hp⟩ := h.success hs
    exact ⟨a, ha, hp.mono hmono⟩

/-- At first nothing was sent. -/
lemma Net.inv_start (fd : Bool → Int) : (Net.start fd).Inv addr strangers := by
  refine ⟨fun i => ⟨rfl, Nat.zero_le _, List.IsChain.nil, ?_⟩, fun i => rfl,
    fun i => UInt64.le_refl _, ?_, ?_⟩
  · exact fun h => absurd h Bool.false_ne_true
  · exact fun d hd => absurd hd List.not_mem_nil
  · exact fun i e he => absurd he List.not_mem_nil

lemma Net.peer_ticked_self (s : Net Addr) (i : Bool) (sentAt : UInt64) (r : Ticked Addr) :
    (s.ticked i sentAt r).peer i = r.p2p := update_self ..

/-- The probes after a tick that sent one. -/
lemma Net.probes_ticked_of_sent (s : Net Addr) (i : Bool) (sentAt : UInt64) {r : Ticked Addr}
    {data : List UInt8} (h : r.sent = some data) :
    (s.ticked i sentAt r).probes i = sentAt :: s.probes i := by
  rw [ticked]
  dsimp only
  rw [h, Option.isSome_some, if_pos rfl, update_self]

/-- A tick without a probe. -/
lemma Net.probes_ticked_of_none (s : Net Addr) (i : Bool) (sentAt : UInt64) {r : Ticked Addr}
    (h : r.sent = none) :
    (s.ticked i sentAt r).probes i = s.probes i := by
  rw [ticked]
  dsimp only
  rw [h, Option.isSome_none, if_neg Bool.false_ne_true]

/-- Probes are not forgotten. -/
lemma Net.probes_ticked_ne_nil (s : Net Addr) (i : Bool) (sentAt : UInt64) (r : Ticked Addr)
    (j : Bool) (hj : s.probes j ≠ []) : (s.ticked i sentAt r).probes j ≠ [] := by
  rw [ticked]
  dsimp only
  split
  · by_cases h : j = i
    · subst h
      rw [update_self]
      exact List.cons_ne_nil _ _
    · rwa [update_of_ne h]
  · exact hj

/-- The peer that made a tick. -/
lemma Net.Inv.sound_ticked (inv : s.Inv addr strangers) {i : Bool} {now sentAt : UInt64}
    {r : Ticked Addr} {host : Endian} (hnow : s.clock i ≤ now) (hsent : now ≤ sentAt)
    (d : Due host now sentAt (s.inbox i) (s.peer i) r) :
    (s.ticked i sentAt r).Sound addr strangers i ∧
      r.p2p.lastPunchMs = ((s.ticked i sentAt r).probes i).head?.getD 0 ∧
        r.p2p.lastPunchMs ≤ sentAt := by
  have h := inv.sound i
  have hclock := UInt64.le_trans (inv.clock i) hnow
  have hmono := s.probes_ticked_ne_nil i sentAt r
  have hsuccess : r.p2p.punchSuccess = true →
      ∃ a, r.p2p.peerAddr = some a ∧ (s.ticked i sentAt r).Plausible addr strangers i a := by
    intro hs
    obtain ⟨hsame, haddr⟩ | ⟨src, data, hmem, haddr⟩ := d.success
    · rw [hsame] at hs
      obtain ⟨a, ha, hp⟩ := h.success hs
      exact ⟨a, haddr.trans ha, hp.mono hmono⟩
    · exact ⟨src, haddr, (inv.inbox i _ hmem).mono hmono⟩
  -- Without a probe the log stays; with one the counter, below ten, moves along with it.
  obtain ⟨hnone, hattempts, hlast⟩ | ⟨hsome, hattempts, hlast⟩ := d.sent
  · have hprobes := s.probes_ticked_of_none i sentAt hnone
    refine ⟨⟨?_, hprobes ▸ h.bound, hprobes ▸ h.spaced, ?_⟩, ?_, ?_⟩
    · rw [Net.peer_ticked_self, hprobes, hattempts, h.attempts]
    · rw [Net.peer_ticked_self]
      exact hsuccess
    · rw [hprobes, hlast, inv.last]
    · rw [hlast]
      exact UInt64.le_trans hclock hsent
  · have hlt : (s.peer i).punchAttempts.toNat < 10 := UInt32.lt_iff_toNat_lt.mp d.attempts
    have hattempts' : r.p2p.punchAttempts.toNat = (s.probes i).length + 1 := by
      rw [hattempts, UInt32.toNat_add, h.attempts, UInt32.toNat_one, Nat.mod_eq_of_lt]
      rw [← h.attempts]
      omega
    have hprobes := s.probes_ticked_of_sent i sentAt hsome
    refine ⟨⟨?_, ?_, ?_, ?_⟩, ?_, ?_⟩
    · rw [Net.peer_ticked_self, hprobes, List.length_cons, hattempts']
    · rw [hprobes, List.length_cons, ← h.attempts]
      omega
    · rw [hprobes, List.isChain_cons]
      refine ⟨fun early hearly => ?_, h.spaced⟩
      have hearly' : (s.peer i).lastPunchMs = early := by
        rw [inv.last, hearly, Option.getD_some]
      have hinterval := UInt64.le_iff_toNat_le.mp d.interval
      have hle := UInt64.le_iff_toNat_le.mp hclock
      have hms : punchIntervalMs.toNat = 500 := rfl
      rw [UInt64.toNat_sub_of_le _ _ hclock, hearly', hms] at hinterval
      rw [hearly'] at hle
      have hsentAt := UInt64.le_iff_toNat_le.mp hsent
      omega
    · rw [Net.peer_ticked_self]
      exact hsuccess
    · rw [hprobes, hlast, List.head?_cons, Option.getD_some]
    · rw [hlast]
      exact UInt64.le_refl _

/-- A tick keeps the invariant. -/
lemma Net.Inv.ticked (inv : s.Inv addr strangers) {i : Bool} {now sentAt : UInt64} {r : Ticked Addr}
    {host : Endian} (hnow : s.clock i ≤ now) (hsent : now ≤ sentAt)
    (d : Due host now sentAt (s.inbox i) (s.peer i) r) :
    (s.ticked i sentAt r).Inv addr strangers := by
  obtain ⟨hsound, hlast, hclock⟩ := inv.sound_ticked hnow hsent d
  have hmono := s.probes_ticked_ne_nil i sentAt r
  have hother : ∀ j, j ≠ i → (s.ticked i sentAt r).peer j = s.peer j ∧
    (s.ticked i sentAt r).probes j = s.probes j := by
    intro j hj
    refine ⟨update_of_ne hj _ _, ?_⟩
    rw [Net.ticked]
    dsimp only
    split
    · exact update_of_ne hj _ _
    · rfl
  constructor
  case sound =>
    intro j
    by_cases hj : j = i
    · exact hj ▸ hsound
    · obtain ⟨hpeer, hprobes⟩ := hother j hj
      exact (inv.sound j).congr hpeer hprobes hmono
  case last =>
    intro j
    by_cases hj : j = i
    · subst hj
      rw [Net.peer_ticked_self]
      exact hlast
    · obtain ⟨hpeer, hprobes⟩ := hother j hj
      rw [hpeer, hprobes, inv.last]
  case clock =>
    intro j
    by_cases hj : j = i
    · subst hj
      rw [Net.peer_ticked_self, Net.ticked]
      dsimp only
      rw [update_self]
      exact hclock
    · rw [(hother j hj).1, Net.ticked]
      dsimp only
      rw [update_of_ne hj]
      exact inv.clock j
  case wire =>
    intro e he
    obtain he | he := List.mem_append.mp he
    · exact hmono _ (inv.wire e he)
    · obtain ⟨data, hdata, rfl⟩ := Option.map_eq_some_iff.mp (Option.mem_toList.mp he)
      rw [s.probes_ticked_of_sent i sentAt hdata]
      exact List.cons_ne_nil _ _
  case inbox =>
    intro j e he
    by_cases hj : j = i
    · subst hj
      rw [Net.ticked] at he
      dsimp only at he
      rw [update_self] at he
      exact (inv.inbox j e (d.queue e he)).mono hmono
    · rw [Net.ticked] at he
      dsimp only at he
      rw [update_of_ne hj] at he
      exact (inv.inbox j e he).mono hmono

/-- A datagram arrives. -/
lemma Net.Inv.arrive (inv : s.Inv addr strangers) {i : Bool} {e : Addr × List UInt8}
    (he : s.Plausible addr strangers i e.1) :
    Net.Inv addr strangers { s with inbox := update s.inbox i (s.inbox i ++ [e]) } := by
  refine ⟨fun j => (inv.sound j).congr rfl rfl fun _ => id, inv.last, inv.clock, inv.wire,
    fun j e' he' => ?_⟩
  dsimp only at he'
  by_cases hj : j = i
  · subst hj
    rw [update_self] at he'
    obtain he' | he' := List.mem_append.mp he'
    · exact inv.inbox j e' he'
    · obtain rfl := List.mem_singleton.mp he'
      exact he
  · rw [update_of_ne hj] at he'
    exact inv.inbox j e' he'

/-- One step of the network. -/
lemma Net.Inv.step (inv : s.Inv addr strangers) {a : NetAct Addr} (ha : s.Allows strangers a) :
    ∃ s', s.step host addr a = some s' ∧ s'.Inv addr strangers := by
  cases a with
  | tick i now sentAt sentOk =>
    obtain ⟨hnow, hsent⟩ := ha
    refine ⟨s.ticked i sentAt (p2pTick (host i) now sentAt sentOk (s.inbox i) (s.peer i)), rfl, ?_⟩
    obtain ⟨ret, e⟩ | d := p2pTick_cases (host i) now sentAt sentOk (s.inbox i) (s.peer i)
    · rw [e]
      have hidle : s.ticked i sentAt ⟨ret, none, s.inbox i, s.peer i⟩ =
          { s with clock := update s.clock i sentAt } := by
        simp [Net.ticked]
      rw [hidle]
      refine ⟨fun j => (inv.sound j).congr rfl rfl fun _ => id, inv.last, fun j => ?_, inv.wire,
        inv.inbox⟩
      dsimp only
      by_cases hj : j = i
      · subst hj
        rw [update_self]
        exact UInt64.le_trans (inv.clock j) (UInt64.le_trans hnow hsent)
      · rw [update_of_ne hj]
        exact inv.clock j
    · exact inv.ticked hnow hsent d
  | deliver k =>
    have hd : s.wire[k]? = some s.wire[k] := List.getElem?_eq_getElem ha
    refine ⟨_, ?_, inv.arrive (i := !s.wire[k].1) (e := (addr s.wire[k].1, s.wire[k].2))
      (.inl ⟨?_, ?_⟩)⟩
    · rw [Net.step, hd, Option.map_some]
    · rw [Bool.not_not]
    · rw [Bool.not_not]
      exact inv.wire _ (List.getElem_mem ha)
  | stray i src data => exact ⟨_, rfl, inv.arrive (.inr ha)⟩
  | relay i =>
    have hpeer : ∀ j, ∃ b, update s.peer i { s.peer i with useRelay := true } j =
        { s.peer j with useRelay := b } := fun j => by
      by_cases hj : j = i
      · subst hj
        exact ⟨true, update_self ..⟩
      · exact ⟨(s.peer j).useRelay, update_of_ne hj _ _⟩
    refine ⟨_, rfl, fun j => ?_, fun j => ?_, fun j => ?_, inv.wire, inv.inbox⟩
    all_goals obtain ⟨b, hb⟩ := hpeer j
    · exact (inv.sound j).congr hb rfl fun _ => id
    · dsimp only
      rw [hb]
      exact inv.last j
    · dsimp only
      rw [hb]
      exact inv.clock j

/-- Two peers on a network that loses, doubles and delays datagrams, with strangers that send what
they like: each sends at most ten probes, half a second or more apart by its own clock, and one that
succeeds has the address of the other, which has sent a probe, or that of a stranger. -/
theorem punch_run_sound (host : Bool → Endian) (addr : Bool → Addr) (strangers : List Addr)
    (fd : Bool → Int) (acts : List (NetAct Addr))
    (h : Along (Net.step host addr) (Net.Allows strangers) (.start fd) acts) :
    ∃ s, acts.foldlM (Net.step host addr) (.start fd) = some s ∧ ∀ i, s.Sound addr strangers i := by
  obtain ⟨s, hrun, inv⟩ := h.exists_run (fun hs ha => hs.step ha) (Net.inv_start fd)
  exact ⟨s, hrun, inv.sound⟩

/-- A probe of one peer reaches the other, whose clock is days ahead, and a datagram of a
stranger the first. -/
theorem punch_run_sound_sample :
    ∃ s, [NetAct.tick false 1000 1001 true, .deliver 0, .stray false 9 [1, 2],
      .tick true 432000000 432000001 true,
      .relay false, .tick false 1600 1600 true].foldlM
        (Net.step (fun _ => .little) fun i => if i then 7 else 8) (.start fun _ => 3) =
        some s ∧ ∀ i, s.Sound (fun i => if i then 7 else 8) [9] i :=
  punch_run_sound _ _ [9] _ _ (by decide)

end Net

end RoboControl.P2p
