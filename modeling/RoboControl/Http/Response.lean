import RoboControl.Base.Decimal
import RoboControl.Base.Printf
import RoboControl.Crypto.Session

/-!
# Building HTTP responses

Model of `rc_http_build_response` and `rc_http_status_text` of `include/http.h`. The status line and
the headers are printed with `snprintf`, whose results are added to a cursor. If they do not fit,
the cursor is behind the buffer, and what is left of the buffer, computed without a sign, is more
than there is (`build_response_within_iff`).
-/

namespace RoboControl.Http
open Base
open Crypto (cstr)

/-- A response (C `rc_http_response_t`), with the headers up to `header_count`. -/
structure Response where
  statusCode : Int
  body : Option (List UInt8)
  bodyLen : Nat
  headers : List (List UInt8 × List UInt8)
  length_body : ∀ b ∈ body, b.length = bodyLen

/-- The text of a status (C `rc_http_status_text`). -/
def httpStatusText : Int → List UInt8
  | 200 => cstr "OK"
  | 201 => cstr "Created"
  | 204 => cstr "No Content"
  | 400 => cstr "Bad Request"
  | 401 => cstr "Unauthorized"
  | 403 => cstr "Forbidden"
  | 404 => cstr "Not Found"
  | 405 => cstr "Method Not Allowed"
  | 409 => cstr "Conflict"
  | 429 => cstr "Too Many Requests"
  | 500 => cstr "Internal Server Error"
  | 502 => cstr "Bad Gateway"
  | 503 => cstr "Service Unavailable"
  | _ => cstr "Unknown"

/-- The first text that `rc_http_build_response` prints: the status line and the headers that all
responses have. -/
def headText (res : Response) : List UInt8 :=
  cstr "HTTP/1.1 " ++ signedDigits res.statusCode ++ cstr " " ++ httpStatusText res.statusCode ++
    cstr "\r\nContent-Length: " ++ digits res.bodyLen ++
    cstr "\r\nConnection: keep-alive\r\nContent-Type: application/json\r\n"

/-- The text that `rc_http_build_response` prints for a header. -/
def headerText (header : List UInt8 × List UInt8) : List UInt8 :=
  header.1 ++ cstr ": " ++ header.2 ++ cstr "\r\n"

/-- The part of `rc_http_build_response` that ends the headers with an empty line. -/
def writeEmptyLine (n : Int) (out : List UInt8) : Except Undefined (Int × List UInt8) :=
  if toSize n < toSize (out.length - 2) then do
    let out ← copyTo n [13] out
    let n ← toInt (n + 1)
    let out ← copyTo n [10] out
    let n ← toInt (n + 1)
    return (n, out)
  else .ok (n, out)

/-- The part of `rc_http_build_response` that copies the body. -/
def writeBody (res : Response) (n : Int) (out : List UInt8) : Except Undefined (Int × List UInt8) :=
  match res.body with
  | none => .ok (n, out)
  | some body =>
    if res.bodyLen > 0 then do
      let copy := min res.bodyLen (toSize (out.length - n - 1))
      let out ← copyTo n (body.take copy) out
      -- the cast to `int` keeps the low 32 bits
      let n ← toInt (n + (copy : Int).bmod (2 ^ 32))
      return (n, out)
    else .ok (n, out)

/-- Build a response (C `rc_http_build_response`) in the buffer `out`, which has
`out_size` bytes. -/
def httpBuildResponse (res : Response) (out : List UInt8) : Except Undefined (Int × List UInt8) :=
  do
  let (n, out) ← printAt 0 (headText res) out
  let (n, out) ← printAll (res.headers.map headerText) n out
  let (n, out) ← writeEmptyLine n out
  writeBody res n out

/-! ## The text of a response -/

namespace Response

/-- The status line and the first `k` headers. -/
def lines (res : Response) (k : Nat) : List UInt8 :=
  headText res ++ ((res.headers.map headerText).take k).flatten

/-- The status line and all headers. -/
def header (res : Response) : List UInt8 := headText res ++ (res.headers.map headerText).flatten

/-- The bytes of the body. -/
def bodyBytes (res : Response) : List UInt8 := res.body.getD []

/-- A response as a whole: the header, an empty line and the body. -/
def text (res : Response) : List UInt8 := res.header ++ [13, 10] ++ res.bodyBytes

end Response

section Lines
variable (res : Response)

lemma nine_le_length_headText : 9 ≤ (headText res).length := by
  simp only [headText, List.length_append]
  have h : (cstr "HTTP/1.1 ").length = 9 := by decide
  omega

/-- The status line is not empty. -/
lemma nine_le_length_lines (k : Nat) : 9 ≤ (res.lines k).length := by
  rw [Response.lines, List.length_append]
  exact Nat.le_add_right_of_le (nine_le_length_headText res)

/-- All lines are the header. -/
lemma lines_length_headers : res.lines res.headers.length = res.header := by
  rw [Response.lines, Response.header, List.take_of_length_le (List.length_map headerText).le]

/-- Lines are added. -/
lemma length_lines_mono {j k : Nat} (h : j ≤ k) : (res.lines j).length ≤ (res.lines k).length := by
  have htake : (res.headers.map headerText).take j = ((res.headers.map headerText).take k).take
    j := by
    rw [List.take_take, Nat.min_eq_left h]
  rw [Response.lines, Response.lines, List.length_append, List.length_append, htake]
  exact Nat.add_le_add_left (List.take_sublist j _).flatten.length_le _

/-- Some lines are part of the header. -/
lemma length_lines_le (k : Nat) : (res.lines k).length ≤ res.header.length := by
  rw [Response.lines, Response.header, List.length_append, List.length_append]
  exact Nat.add_le_add_left (List.take_sublist k _).flatten.length_le _

/-- The parts of a response. -/
lemma length_text : res.text.length = res.header.length + 2 + res.bodyBytes.length := by
  rw [Response.text, List.length_append, List.length_append]
  rfl

end Lines

/-! ## The header -/

section Building
variable {res : Response} {out : List UInt8}

/-- The header and the rest of the response. -/
lemma httpBuildResponse_eq (hpos : 0 < out.length) (hsize : out.length < 2 ^ 64)
    (hint : res.header.length < 2 ^ 31) :
    ∃ k out', out'.length = out.length ∧ Shows out' (res.lines k) ∧
      (k = res.headers.length ∨ out.length ≤ (res.lines k).length) ∧
      (∀ j < k, (res.lines j).length < out.length) ∧
      httpBuildResponse res out =
        writeEmptyLine ((res.lines k).length : Nat) out' >>= fun state =>
          writeBody res state.1 state.2 := by
  have hhead : (headText res).length < 2 ^ 31 := by
    rw [Response.header, List.length_append] at hint
    omega
  have hshows := shows_printedAt_zero hpos (headText res)
  have hlen := length_printedAt hpos (headText res)
  obtain ⟨k, out', hrun, hlen', hshows', hend, hbefore⟩ := printAll_eq hshows (by omega) hint
  rw [List.length_map] at hend
  rw [hlen] at hlen' hend hbefore
  refine ⟨k, out', hlen', hshows', hend, hbefore, ?_⟩
  rw [httpBuildResponse, printAt_zero hpos hsize hhead]
  show printAll _ _ _ >>= _ = _
  rw [hrun]
  rfl

/-- A header that fits is printed as it is. -/
lemma httpBuildResponse_of_lt (hlt : res.header.length < out.length) (hsize : out.length < 2 ^ 64)
    (hint : res.header.length < 2 ^ 31) :
    ∃ out', out'.length = out.length ∧ res.header <+: out' ∧
      httpBuildResponse res out =
        writeEmptyLine (res.header.length : Nat) out' >>= fun state =>
          writeBody res state.1 state.2 := by
  obtain ⟨k, out', hlen, hshows, hend, -, hbuild⟩ :=
    httpBuildResponse_eq (Nat.zero_lt_of_lt hlt) hsize hint
  have hle := length_lines_le res k
  obtain rfl : k = res.headers.length := by
    rcases hend with hk | hge
    · exact hk
    · omega
  rw [lines_length_headers] at hshows hbuild
  exact ⟨out', hlen, hshows.begins (by omega), hbuild⟩

/-! ## The empty line -/

/-- An empty line that fits. -/
lemma writeEmptyLine_of_lt {pre : List UInt8} (hpre : pre <+: out)
    (hlt : pre.length + 2 < out.length) (hsize : out.length < 2 ^ 64)
    (hint : pre.length + 2 < 2 ^ 31) :
    ∃ out', writeEmptyLine (pre.length : Nat) out = .ok (((pre ++ [13, 10]).length : Nat), out') ∧
      out'.length = out.length ∧ pre ++ [13, 10] <+: out' := by
  have hroom : toSize (out.length - 2) = out.length - 2 := by
    rw [toSize]
    omega
  have hcr : (pre ++ [13]).length = pre.length + 1 := List.length_append
  have hlf : (pre ++ [13] ++ [10]).length = pre.length + 2 := by rw [List.length_append, hcr]; rfl
  obtain ⟨out₁, hcopy₁, hlen₁, hpre₁⟩ :=
    copyTo_behind [13] hpre (by rw [List.length_singleton]; omega)
  obtain ⟨out₂, hcopy₂, hlen₂, hpre₂⟩ :=
    copyTo_behind [10] hpre₁ (by rw [List.length_singleton]; omega)
  refine ⟨out₂, ?_, hlen₂.trans hlen₁, by simpa using hpre₂⟩
  rw [writeEmptyLine, hroom, toSize_natCast (by omega), if_pos (by omega), hcopy₁]
  rw [hcr, Nat.cast_add, Nat.cast_one] at hcopy₂
  have hn₁ : toInt (pre.length + 1) = .ok ((pre.length : Int) + 1) :=
    toInt_of_mem (by omega) (by omega)
  have hn₂ : toInt (pre.length + 1 + 1) = .ok ((pre ++ [13, 10]).length : Nat) := by
    rw [toInt_of_mem (by omega) (by omega), List.length_append, Nat.cast_add, Int.add_assoc]
    rfl
  rw [ok_bind, hn₁, ok_bind, hcopy₂, ok_bind, hn₂]
  rfl

/-- An empty line that does not fit. -/
lemma writeEmptyLine_of_ge {n : Nat} (htwo : 2 ≤ out.length) (hge : out.length ≤ n + 2)
    (hsize : out.length < 2 ^ 64) (hn : n < 2 ^ 31) :
    writeEmptyLine n out = .ok ((n : Int), out) := by
  rw [writeEmptyLine, if_neg]
  have hroom : toSize (out.length - 2) = out.length - 2 := by
    rw [toSize]
    omega
  rw [hroom, toSize_natCast (by omega)]
  omega

/-- In a buffer of one byte the room before the empty line is computed as almost `2 ^ 64`. -/
lemma writeEmptyLine_of_one {n : Nat} (hone : out.length = 1) (hn : 1 ≤ n) (hint : n < 2 ^ 31) :
    writeEmptyLine n out = .error .outOfBounds := by
  have hroom : toSize (out.length - 2) = 2 ^ 64 - 1 := by
    rw [toSize, hone]
    rfl
  rw [writeEmptyLine, hroom, toSize_natCast (by omega), if_pos (by omega),
    copyTo_of_gt (show out.length < n + [13].length by simp; omega)]
  rfl

/-! ## The body -/

/-- No body is written. -/
lemma writeBody_of_nil (h : res.bodyBytes = []) (n : Int) (out : List UInt8) :
    writeBody res n out = .ok (n, out) := by
  rw [writeBody]
  split
  · rfl
  · next body hbody =>
    have hlen := res.length_body body hbody
    rw [Response.bodyBytes, hbody, Option.getD_some] at h
    rw [if_neg (by rw [← hlen, h]; exact Nat.lt_irrefl 0)]

/-- A body that is not empty. -/
lemma body_of_ne_nil (h : res.bodyBytes ≠ []) :
    res.body = some res.bodyBytes ∧ res.bodyLen = res.bodyBytes.length ∧
      0 < res.bodyBytes.length := by
  cases hbody : res.body with
  | none =>
    rw [Response.bodyBytes, hbody] at h
    exact absurd rfl h
  | some body =>
    have hbytes : res.bodyBytes = body := by rw [Response.bodyBytes, hbody, Option.getD_some]
    rw [hbytes] at h ⊢
    exact ⟨rfl, (res.length_body body hbody).symm, List.length_pos_iff.mpr h⟩

/-- As much of the body is copied as leaves one byte of the buffer. -/
lemma writeBody_of_lt (res : Response) {pre : List UInt8} (hpre : pre <+: out)
    (hlt : pre.length < out.length) (hsize : out.length < 2 ^ 64)
    (hint : pre.length + min res.bodyBytes.length (out.length - pre.length - 1) < 2 ^ 31) :
    ∃ out', writeBody res (pre.length : Nat) out =
        .ok (((pre ++ res.bodyBytes.take (out.length - pre.length - 1)).length : Nat), out') ∧
      out'.length = out.length ∧ pre ++ res.bodyBytes.take (out.length - pre.length - 1) <+:
        out' := by
  by_cases hnil : res.bodyBytes = []
  · rw [writeBody_of_nil hnil, hnil, List.take_nil, List.append_nil]
    exact ⟨out, rfl, rfl, hpre⟩
  · obtain ⟨hbody, hlen, hpos⟩ := body_of_ne_nil hnil
    have hroom : toSize (out.length - (pre.length : Nat) - 1) = out.length - pre.length - 1 := by
      rw [toSize]
      omega
    have htake : res.bodyBytes.take (min res.bodyBytes.length (out.length - pre.length - 1)) =
        res.bodyBytes.take (out.length - pre.length - 1) := by
      rw [Nat.min_comm, ← List.take_eq_take_min]
    have hcopied : (res.bodyBytes.take (out.length - pre.length - 1)).length =
        min res.bodyBytes.length (out.length - pre.length - 1) := by
      rw [List.length_take, Nat.min_comm]
    obtain ⟨out', hcopy, hlen', hpre'⟩ :=
      copyTo_behind (res.bodyBytes.take (out.length - pre.length - 1)) hpre (by rw [hcopied]; omega)
    refine ⟨out', ?_, hlen', hpre'⟩
    rw [writeBody, hbody]
    dsimp only
    rw [if_pos (by omega), hroom, hlen, htake, hcopy, ok_bind, List.length_append, hcopied,
      Nat.cast_add, Int.bmod_eq_of_le (by omega) (by omega), toInt_of_mem (by omega) (by omega)]
    rfl

/-- Behind the end of the buffer, the room for the body is computed as almost `2 ^ 64`. -/
lemma writeBody_of_ge (hne : res.bodyBytes ≠ []) {n : Nat} (hge : out.length ≤ n)
    (hn : n < 2 ^ 31) :
    writeBody res n out = .error .outOfBounds := by
  obtain ⟨hbody, hlen, hpos⟩ := body_of_ne_nil hne
  have hroom : 0 < toSize (out.length - (n : Nat) - 1) := by
    rw [toSize]
    omega
  rw [writeBody, hbody]
  dsimp only
  rw [if_pos (by omega), copyTo_of_gt (by rw [List.length_take]; omega)]
  rfl

end Building

/-- A response is built inside of the buffer, and it is all there if it fits. -/
def BuiltWithin (res : Response) (out : List UInt8) : Prop :=
  ∃ n out', httpBuildResponse res out = .ok (n, out') ∧ out'.length = out.length ∧ n ≤ out.length ∧
    (res.text.length ≤ out.length → n = res.text.length ∧ res.text <+: out')

section Within
variable {res : Response} {out : List UInt8}

/-- A response whose header fits is built inside of the buffer, of which it leaves at
least one byte. -/
lemma httpBuildResponse_inside (hlt : res.header.length < out.length) (hsize : out.length < 2 ^ 64)
    (hint : min res.text.length out.length < 2 ^ 31) :
    ∃ (n : Nat) (out' : List UInt8), httpBuildResponse res out = .ok ((n : Int), out') ∧
      out'.length = out.length ∧
      n < out.length ∧ (res.text.length < out.length → n = res.text.length ∧
        res.text <+: out') := by
  have htext := length_text res
  have hnine := nine_le_length_lines res res.headers.length
  rw [lines_length_headers] at hnine
  obtain ⟨out₁, hlen₁, hpre₁, hbuild⟩ := httpBuildResponse_of_lt hlt hsize (by omega)
  by_cases hroom : res.header.length + 2 < out.length
  · obtain ⟨out₂, hempty, hlen₂, hpre₂⟩ := writeEmptyLine_of_lt hpre₁ (by omega) (by omega)
      (by omega)
    have hline : (res.header ++ [13, 10]).length = res.header.length + 2 := List.length_append
    have hwhole : res.header ++ [13, 10] ++ res.bodyBytes = res.text := rfl
    generalize res.header ++ [13, 10] = pre at hempty hpre₂ hline hwhole
    obtain ⟨out₃, hbody, hlen₃, hpre₃⟩ := writeBody_of_lt res hpre₂ (by omega) (by omega) (by omega)
    have hn : (pre ++ res.bodyBytes.take (out₂.length - pre.length - 1)).length < out.length := by
      rw [List.length_append, List.length_take]
      omega
    refine ⟨_, out₃, ?_, by omega, hn, fun hfits => ?_⟩
    · rw [hbuild, hempty, ok_bind, hbody]
    · have htake : res.bodyBytes.take (out₂.length - pre.length - 1) = res.bodyBytes :=
        List.take_of_length_le (by omega)
      rw [htake, hwhole] at hpre₃ ⊢
      exact ⟨rfl, hpre₃⟩
  · -- no room for the empty line
    obtain ⟨out₃, hbody, hlen₃, -⟩ := writeBody_of_lt res hpre₁ (by omega) (by omega) (by omega)
    have hn : (res.header ++ res.bodyBytes.take (out₁.length - res.header.length - 1)).length <
      out.length := by
      rw [List.length_append, List.length_take]
      omega
    refine ⟨_, out₃, ?_, by omega, hn, fun hfits => by omega⟩
    rw [hbuild, writeEmptyLine_of_ge (by omega) (by omega) (by omega) (by omega), ok_bind, hbody]

/-- The header fits. -/
lemma builtWithin_iff_of_lt (hlt : res.header.length < out.length) (hsize : out.length < 2 ^ 64)
    (hint : min res.text.length out.length < 2 ^ 31) : BuiltWithin res out ↔
      res.text.length ≠ out.length := by
  obtain ⟨n, out', hbuild, hlen, hn, hfits⟩ := httpBuildResponse_inside hlt hsize hint
  constructor
  · rintro ⟨m, out'', hbuild', -, -, hwhole⟩ hfull
    rw [hbuild] at hbuild'
    cases hbuild'
    have hm := (hwhole hfull.le).1
    omega
  · intro hne
    exact ⟨n, out', hbuild, hlen, by omega, fun hle =>
      ⟨congrArg Nat.cast (hfits (by omega)).1, (hfits (by omega)).2⟩⟩

/-- A response whose header does not fit is only built in more than one byte and without a body, and
the cursor is then behind the first line of the header that does not end inside of the buffer. -/
lemma httpBuildResponse_behind (hpos : 1 ≤ out.length) (hge : out.length ≤ res.header.length)
    (hsize : out.length < 2 ^ 64) (hheader : res.header.length < 2 ^ 31) :
    (httpBuildResponse res out = .error .outOfBounds ∧ (out.length = 1 ∨ res.bodyBytes ≠ [])) ∨
    (res.bodyBytes = [] ∧ ∃ k out', httpBuildResponse res out = .ok (((res.lines k).length : Nat),
      out') ∧
      out'.length = out.length ∧ out.length ≤ (res.lines k).length ∧ ∀ j < k,
        (res.lines j).length < out.length) := by
  obtain ⟨k, out', hlen, -, hend, hbefore, hbuild⟩ := httpBuildResponse_eq hpos hsize hheader
  have hle := length_lines_le res k
  have hnine := nine_le_length_lines res k
  have hcursor : out.length ≤ (res.lines k).length := by
    rcases hend with rfl | hcursor
    · rwa [lines_length_headers]
    · exact hcursor
  by_cases hone : out.length = 1
  · refine .inl ⟨?_, .inl hone⟩
    rw [hbuild, writeEmptyLine_of_one (by omega) (by omega) (by omega)]
    rfl
  · rw [writeEmptyLine_of_ge (by omega) (by omega) (by omega) (by omega), ok_bind] at hbuild
    dsimp only at hbuild
    by_cases hnil : res.bodyBytes = []
    · rw [writeBody_of_nil hnil] at hbuild
      exact .inr ⟨hnil, k, out', hbuild, hlen, hcursor, hbefore⟩
    · rw [writeBody_of_ge hnil (by omega) (by omega)] at hbuild
      exact .inl ⟨hbuild, .inr hnil⟩

/-- The header does not fit. -/
lemma builtWithin_iff_of_ge (hpos : 1 ≤ out.length) (hge : out.length ≤ res.header.length)
    (hsize : out.length < 2 ^ 64) (hheader : res.header.length < 2 ^ 31) :
    BuiltWithin res out ↔ res.bodyBytes = [] ∧ ∃ k, (res.lines k).length = out.length := by
  obtain ⟨herror, hcase⟩ | ⟨hnil, k, out', hbuild, hlen, hcursor, hbefore⟩ :=
    httpBuildResponse_behind hpos hge hsize hheader
  · constructor
    · rintro ⟨n, out', h, -⟩
      rw [herror] at h
      cases h
    · rintro ⟨hnil, j, hj⟩
      -- no line of the header ends in one byte
      have hnine := nine_le_length_lines res j
      rcases hcase with hone | hne
      · omega
      · exact absurd hnil hne
  · constructor
    · rintro ⟨n, out'', h, -, hn, -⟩
      rw [hbuild] at h
      cases h
      exact ⟨hnil, k, by omega⟩
    · rintro ⟨-, j, hj⟩
      have hkj : k ≤ j := by
        by_contra hlt
        have h := hbefore j (by omega)
        omega
      have hmono := length_lines_mono res hkj
      have htext := length_text res
      exact ⟨_, out', hbuild, hlen, by omega, fun hfits => by omega⟩

end Within

/-- A response is built inside of a buffer, and all there if it fits, exactly if its header leaves a
byte of the buffer and it would not just fill it, or it has no body and the buffer ends with a line
of the header. What is printed has less than `2 ^ 31` bytes; the body may be longer. -/
theorem build_response_within_iff (res : Response) (out : List UInt8) (hpos : 1 ≤ out.length)
    (hsize : out.length < 2 ^ 64) (hheader : res.header.length < 2 ^ 31)
    (hint : min res.text.length out.length < 2 ^ 31) :
    BuiltWithin res out ↔
      res.header.length < out.length ∧ res.text.length ≠ out.length ∨
      res.bodyBytes = [] ∧ ∃ k, (res.lines k).length = out.length := by
  by_cases hlt : res.header.length < out.length
  · rw [builtWithin_iff_of_lt hlt hsize hint]
    refine ⟨fun hne => .inl ⟨hlt, hne⟩, ?_⟩
    rintro (⟨-, hne⟩ | ⟨-, k, hk⟩)
    · exact hne
    · have hle := length_lines_le res k
      omega
  · rw [builtWithin_iff_of_ge hpos (by omega) hsize hheader]
    exact ⟨.inr, fun h => h.resolve_left fun h' => hlt h'.1⟩

/-- A response with the body `\x7b\x7d` and no headers of its own. -/
def smallResponse : Response where
  statusCode := 200
  body := some (cstr "\x7b\x7d")
  bodyLen := 2
  headers := []
  length_body := by decide

/-- A response without a body. -/
def bodylessResponse : Response where
  statusCode := 204
  body := none
  bodyLen := 0
  headers := []
  length_body := by decide

/-- The response has 96 bytes, and is built in 97. -/
theorem build_response_within_iff_sample :
    BuiltWithin smallResponse (List.replicate 97 0) ∧ smallResponse.text.length = 96 := by
  refine ⟨?_, by decide⟩
  exact (build_response_within_iff smallResponse (List.replicate 97 0) (by decide) (by decide)
    (by decide) (by decide)).mpr (.inl ⟨by decide, by decide⟩)

/-- In a buffer of 64 bytes the body is written behind the buffer, and without a body
100 is returned. -/
theorem build_response_overruns :
    httpBuildResponse smallResponse (List.replicate 64 0) = .error .outOfBounds ∧
      ∃ out, httpBuildResponse bodylessResponse (List.replicate 64 0) = .ok (100, out) := by
  refine ⟨by rfl, _, by rfl⟩

end RoboControl.Http
