import Mathlib.Data.List.DropRight
import RoboControl.Auth.Loop
import RoboControl.Signaling.Received

/-!
# Requests in segments

The loop of the authentication service appends what it receives to the request of a connection, and
handles the request as soon as the text has an empty line, whatever `Content-Length` says. For a
well-formed request (`HttpRequest`) that arrives in chunks, between events of other connections,
`handle_request` is called once; with the whole text exactly if the chunks before the last do not
reach the end of the headers (`request_complete_iff`).
-/

namespace RoboControl.Auth
open Base Crypto

/-! ## Well-formed requests -/

/-- A header; the white space around the value belongs to `value`. -/
structure Header where
  name : List UInt8
  value : List UInt8
  deriving DecidableEq

/-- The line of a header. -/
def Header.line (h : Header) : List UInt8 := h.name ++ cstr ":" ++ h.value

/-- A letter in lower case. -/
def toLower (b : UInt8) : UInt8 := if 65 ≤ b ∧ b ≤ 90 then b + 32 else b

/-- The number that decimal digits denote, if there are only such and at least one. -/
def digitsValue (digits : List UInt8) : Option Nat :=
  if digits ≠ [] ∧ digits.all (fun b => 48 ≤ b && b ≤ 57) then
    some (digits.foldl (fun n b => 10 * n + (b.toNat - 48)) 0)
  else none

/-- The length that a `Content-Length` header states. -/
def Header.contentLength (h : Header) : Option Nat :=
  let blank (b : UInt8) : Bool := b == 32 || b == 9
  if h.name.map toLower = cstr "content-length" then
    digitsValue ((h.value.dropWhile blank).rdropWhile blank)
  else none

/-- The lines before the empty line. -/
def headLines (requestLine : List UInt8) (headers : List Header) : List UInt8 :=
  requestLine ++ headers.flatMap fun h => [13, 10] ++ h.line

/-- A well-formed request that fits into the buffer. -/
structure HttpRequest where
  requestLine : List UInt8
  headers : List Header
  body : List UInt8
  requestLine_ok : 13 ∉ requestLine
  headers_ok : ∀ h ∈ headers, 13 ∉ h.line
  contentLength_ok : ∃ h ∈ headers, h.contentLength = some body.length
  noNul : 0 ∉ headLines requestLine headers ++ crlf2 ++ body
  size : (headLines requestLine headers ++ crlf2 ++ body).length < maxReqSize

namespace HttpRequest

/-- The request up to the empty line. -/
def head (r : HttpRequest) : List UInt8 := headLines r.requestLine r.headers ++ crlf2

/-- The text of a request. -/
def text (r : HttpRequest) : List UInt8 := r.head ++ r.body

end HttpRequest

/-- The first line. -/
lemma headLines_cons (line : List UInt8) (h : Header) (headers : List Header) :
    headLines line (h :: headers) = line ++ 13 :: 10 :: headLines h.line headers := by
  simp [headLines]

/-- Lines without line ends have no empty line between them. -/
lemma not_crlf2_infix_headLines {headers : List Header} (hok : ∀ h ∈ headers, 13 ∉ h.line)
    {line : List UInt8} (hline : 13 ∉ line) :
    ¬ crlf2 <:+: headLines line headers ++ [13, 10, 13] := by
  induction headers generalizing line with
  | nil =>
    intro h
    rw [headLines, List.flatMap_nil, List.append_nil] at h
    exact absurd (infix_of_append_left hline h) (by decide)
  | cons header headers ih =>
    intro h
    have hheader := hok header List.mem_cons_self
    rw [headLines_cons, List.append_assoc] at h
    rcases List.infix_cons_iff.mp (infix_of_append_left hline h) with h | h
    · -- The line would have to start with a line end.
      have hhead := (List.cons_prefix_cons.mp (List.cons_prefix_cons.mp h).2).2
      cases hcases : header.line with
      | nil => simp [Header.line, cstr] at hcases
      | cons b rest =>
        rw [headLines, hcases] at hhead
        exact hheader (hcases ▸ (List.cons_prefix_cons.mp hhead).1 ▸ List.mem_cons_self)
    · rcases List.infix_cons_iff.mp h with h | h
      · exact absurd (List.cons_prefix_cons.mp h).1 (by decide)
      · exact ih (fun g hg => hok g (List.mem_cons_of_mem header hg)) hheader h

/-- The empty line is complete at the end of the head, and not before. -/
lemma HttpRequest.crlf2_infix_take_iff (r : HttpRequest) (n : Nat) :
    crlf2 <:+: r.text.take n ↔ r.head.length ≤ n := by
  constructor
  · intro h
    by_contra hn
    refine not_crlf2_infix_headLines r.headers_ok r.requestLine_ok (h.trans ?_)
    have hhead : r.head = (headLines r.requestLine r.headers ++ [13, 10, 13]) ++ [10] := by
      rw [head, crlf2, List.append_assoc]
      rfl
    have hlen := congrArg List.length hhead
    rw [List.length_append, List.length_singleton] at hlen
    rw [text, List.take_append_of_le_length (by omega), hhead,
      List.take_append_of_le_length (by omega)]
    exact (List.take_prefix _ _).isInfix
  · intro hn
    have hprefix : r.head <+: r.text.take n :=
      List.prefix_take_iff.mpr ⟨List.prefix_append _ _, hn⟩
    exact (List.suffix_append _ _).isInfix.trans hprefix.isInfix

/-- A request has an empty line. -/
lemma HttpRequest.crlf2_infix_text (r : HttpRequest) : crlf2 <:+: r.text :=
  ⟨headLines r.requestLine r.headers, r.body, rfl⟩

/-! ## Chunks -/

/-- Events in which the bytes of a descriptor arrive chunk by chunk. -/
inductive Reads (fd : Int) : List (List UInt8) → List (Nat × LoopEvent) → Prop where
  | nil : Reads fd [] []
  | other {chunks : List (List UInt8)} {e : Nat × LoopEvent} {events : List (Nat × LoopEvent)} :
    e.2.fd ≠ fd → Reads fd chunks events → Reads fd chunks (e :: events)
  | chunk {chunks : List (List UInt8)} (clock : Nat) (bytes : List UInt8) (draws : Draws)
      {events : List (Nat × LoopEvent)} :
    Reads fd chunks events →
      Reads fd (bytes :: chunks) ((clock, .readable fd bytes draws) :: events)

/-- Events in which a connection is accepted and its bytes arrive chunk by chunk. -/
inductive Delivers (fd : Int) (chunks : List (List UInt8)) : List (Nat × LoopEvent) → Prop where
  | other {e : Nat × LoopEvent} {events : List (Nat × LoopEvent)} :
    e.2.fd ≠ fd → Delivers fd chunks events → Delivers fd chunks (e :: events)
  | accept (clock : Nat) (peer : List UInt8) (now : UInt64) {events : List (Nat × LoopEvent)} :
    Reads fd chunks events → Delivers fd chunks ((clock, .accept fd peer now true) :: events)

section Chunks
variable {ossl : Openssl} {s : Loop} {clock : Nat} {draws : Draws} {fd : Int} {c : AuthConn}
  {bytes : List UInt8} {chunks : List (List UInt8)} {events : List (Nat × LoopEvent)}

/-- With the empty line the request is handled. -/
lemma receive_complete (hc : s.srv.connOf fd = some c) (hnul : 0 ∉ c.reqBuf ++ bytes)
    (hend : crlf2 <:+: c.reqBuf ++ bytes) :
    (s.receive ossl clock draws fd c bytes).srv.conns fd = none ∧
      (s.receive ossl clock draws fd c bytes).calls fd = s.calls fd ++ [c.reqBuf ++ bytes] := by
  rw [Loop.receive, Signaling.cstr_of_not_mem hnul, if_pos (strstr_isSome_iff.mpr hend)]
  refine ⟨?_, ?_⟩
  · rw [dispatch_conns (AuthServer.connOf_setConn hc _), Function.update_self]
  · rw [Loop.calls, Loop.dispatch, List.filter_append, List.map_append]
    simp [Loop.calls]

/-- Without the empty line the connection waits for more. -/
lemma receive_partial (hc : s.srv.connOf fd = some c) (hnul : 0 ∉ c.reqBuf ++ bytes)
    (hend : ¬ crlf2 <:+: c.reqBuf ++ bytes) :
    (s.receive ossl clock draws fd c bytes).srv.connOf fd =
        some { c with reqBuf := c.reqBuf ++ bytes } ∧
      (s.receive ossl clock draws fd c bytes).calls fd = s.calls fd := by
  rw [Loop.receive, Signaling.cstr_of_not_mem hnul, if_neg fun h => hend (strstr_isSome_iff.mp h)]
  exact ⟨AuthServer.connOf_setConn hc _, rfl⟩

/-- What arrives for a connection that was torn down is not read. -/
lemma Reads.closed (reads : Reads fd chunks events) (hs : s.srv.conns fd = none) :
    (loopRun ossl s events).calls fd = s.calls fd := by
  induction reads generalizing s with
  | nil => rfl
  | @other chunks e events hne _ ih =>
    obtain ⟨hconns, hcalls⟩ := (s.step_moves ossl e.1 e.2).frame hne
    exact (ih (hconns.trans hs)).trans hcalls
  | @chunk chunks clock bytes draws events _ ih =>
    have hstep : s.step ossl (clock, .readable fd bytes draws) = s := by
      have hnone : s.srv.connOf fd = none := by rw [AuthServer.connOf, hs, ite_self]
      rw [Loop.step, hnone]
    rw [loopRun, List.foldl_cons, hstep]
    exact ih hs

/-- A request that arrives in chunks is handled once, with the chunks up to the one that completes
the empty line. -/
lemma Reads.handled (ossl : Openssl) (reads : Reads fd chunks events)
    (hc : s.srv.connOf fd = some c) (hne : ∀ bytes ∈ chunks, bytes ≠ [])
    (hsize : (c.reqBuf ++ chunks.flatten).length < maxReqSize)
    (hnul : 0 ∉ c.reqBuf ++ chunks.flatten) (hend : crlf2 <:+: c.reqBuf ++ chunks.flatten)
    (hbuf : ¬ crlf2 <:+: c.reqBuf) :
    ∃ text, (loopRun ossl s events).calls fd = s.calls fd ++ [text] ∧
      (text = c.reqBuf ++ chunks.flatten ↔ ¬ crlf2 <:+: c.reqBuf ++ chunks.dropLast.flatten) := by
  induction reads generalizing s c with
  | nil => exact (hbuf (by simpa using hend)).elim
  | @other chunks e events hother _ ih =>
    obtain ⟨hconns, hcalls⟩ := (s.step_moves ossl e.1 e.2).frame hother
    obtain ⟨text, hrun, htext⟩ := ih ((connOf_congr hconns).trans hc) hne hsize hnul hend hbuf
    exact ⟨text, hrun.trans (by rw [hcalls]), htext⟩
  | @chunk chunks clock bytes draws events reads ih =>
    rw [List.flatten_cons, ← List.append_assoc] at hsize hnul hend ⊢
    have hbytes : bytes ≠ [] := hne bytes List.mem_cons_self
    have hnul' : 0 ∉ c.reqBuf ++ bytes := fun h => hnul (List.mem_append_left _ h)
    have hstep : s.step ossl (clock, .readable fd bytes draws) = s.receive ossl clock draws fd c
      bytes :=
      step_readable hc hbytes (by rw [List.length_append, List.length_append] at hsize; omega)
    rw [loopRun, List.foldl_cons, hstep]
    by_cases hhere : crlf2 <:+: c.reqBuf ++ bytes
    · obtain ⟨hconns, hcalls⟩ := receive_complete hc hnul' hhere
      refine ⟨c.reqBuf ++ bytes, (reads.closed hconns).trans hcalls, ?_⟩
      cases chunks with
      | nil => simpa using hbuf
      | cons next chunks =>
        have hnext : next ≠ [] := hne next (List.mem_cons_of_mem _ List.mem_cons_self)
        refine iff_of_false (fun h => hnext ?_) (not_not_intro ?_)
        · have hflat := List.self_eq_append_right.mp h
          exact (List.append_eq_nil_iff.mp hflat).1
        · rw [List.dropLast_cons_of_ne_nil (List.cons_ne_nil _ _), List.flatten_cons,
            ← List.append_assoc]
          exact hhere.trans (List.prefix_append _ _).isInfix
    · obtain ⟨hconn, hcalls⟩ := receive_partial hc hnul' hhere
      obtain ⟨text, hrun, htext⟩ := ih hconn (fun b hb => hne b (List.mem_cons_of_mem _ hb)) hsize
        hnul hend hhere
      refine ⟨text, hrun.trans (by rw [hcalls]), htext.trans ?_⟩
      cases chunks with
      | nil => exact (hhere (by simpa using hend)).elim
      | cons next chunks =>
        rw [List.dropLast_cons_of_ne_nil (List.cons_ne_nil _ _), List.flatten_cons,
          List.append_assoc]

end Chunks

/-- However a well-formed request is cut into chunks, and whatever happens to other connections
between them, `handle_request` is called once for the connection. It gets the complete request
exactly if the chunks before the last end before the head does. -/
theorem request_complete_iff (ossl : Openssl) (r : HttpRequest) (fd : Int)
    (hfd : 0 ≤ fd ∧ fd < maxConnections) (chunks : List (List UInt8))
    (hne : ∀ bytes ∈ chunks, bytes ≠ []) (hflat : chunks.flatten = r.text) (s : Loop)
    (events : List (Nat × LoopEvent)) (hevents : Delivers fd chunks events) :
    ∃ text, (loopRun ossl s events).calls fd = s.calls fd ++ [text] ∧
      (text = r.text ↔ chunks.dropLast.flatten.length < r.head.length) := by
  induction hevents generalizing s with
  | @other e events hother _ ih =>
    obtain ⟨text, hrun, htext⟩ := ih (s.step ossl e)
    obtain ⟨-, hcalls⟩ := (s.step_moves ossl e.1 e.2).frame hother
    exact ⟨text, hrun.trans (by rw [hcalls]), htext⟩
  | @accept clock peer now events reads =>
    rw [loopRun, List.foldl_cons, step_accept ossl s clock hfd]
    have hconn := connOf_accept hfd.2 s.srv now
    have hhead : chunks.dropLast.flatten = r.text.take chunks.dropLast.flatten.length := by
      rw [← hflat]
      exact List.prefix_iff_eq_take.mp (List.dropLast_prefix chunks).flatten
    have hempty : ¬ crlf2 <:+: [] := by decide
    obtain ⟨text, hrun, htext⟩ := reads.handled ossl
      (s := { s with srv := s.srv.accept fd now, peers := _ }) hconn hne
        (by rw [hflat]; exact r.size) (by rw [hflat]; exact r.noNul)
      (by rw [hflat]; exact r.crlf2_infix_text) hempty
    refine ⟨text, hrun, ?_⟩
    rw [List.nil_append, List.nil_append, hflat] at htext
    rw [htext, hhead, r.crlf2_infix_take_iff, not_le, ← hhead]

/-- The head of a request for a token. -/
def sampleHead : List UInt8 := cstr "POST /auth/token HTTP/1.1\r\nContent-Length: 18\r\n\r\n"

/-- Its body. -/
def sampleBody : List UInt8 := cstr "\x7b\"device_id\":\"r1\"\x7d"

lemma exists_sampleRequest : ∃ r : HttpRequest, r.head = sampleHead ∧ r.body = sampleBody := by
  refine ⟨⟨cstr "POST /auth/token HTTP/1.1", [⟨cstr "Content-Length", cstr " 18"⟩], sampleBody, ?_,
    ?_, ?_, ?_, ?_⟩, ?_, ?_⟩
  all_goals decide +kernel

/-- A connection is accepted, and its bytes arrive in two chunks. -/
def twoChunks (first second : List UInt8) : List (Nat × LoopEvent) :=
  [(0, .accept 5 [10, 0, 0, 1] 1000 true), (1, .readable 5 first sampleDraws),
    (2, .readable 5 second sampleDraws)]

/-- A request in two parts. -/
lemma delivers_twoChunks (first second : List UInt8) :
    Delivers 5 [first, second] (twoChunks first second) :=
  .accept _ _ _ (.chunk _ _ _ (.chunk _ _ _ .nil))

/-- A request that is cut in its head is handled whole. -/
theorem request_complete_sample :
    (loopRun vectors (.start .empty) (twoChunks (sampleHead.take 30)
      (sampleHead.drop 30 ++ sampleBody))).calls
      5 = [sampleHead ++ sampleBody] := by
  obtain ⟨r, hhead, hbody⟩ := exists_sampleRequest
  have htext : r.text = sampleHead ++ sampleBody := by rw [HttpRequest.text, hhead, hbody]
  obtain ⟨text, hcalls, hiff⟩ := request_complete_iff vectors r 5 (by decide)
    [sampleHead.take 30, sampleHead.drop 30 ++ sampleBody] (by decide +kernel)
    (by rw [htext]; decide +kernel) (.start .empty) _ (delivers_twoChunks _ _)
  rw [hcalls, hiff.mpr (by rw [hhead]; decide +kernel), htext]
  rfl

/-- A request whose body arrives after its head is handled without its body, and is refused. -/
theorem body_not_awaited :
    ∃ r : HttpRequest, r.text = sampleHead ++ sampleBody ∧
      (loopRun vectors (.start .empty) (twoChunks sampleHead sampleBody)).handled.map
        (fun h => (h.text, h.reply)) = [(sampleHead, httpErr 400 (cstr "device_id required"))] ∧
      sampleHead ≠ r.text := by
  obtain ⟨r, hhead, hbody⟩ := exists_sampleRequest
  have htext : r.text = sampleHead ++ sampleBody := by rw [HttpRequest.text, hhead, hbody]
  refine ⟨r, htext, by decide +kernel, ?_⟩
  rw [htext]
  decide +kernel

end RoboControl.Auth
