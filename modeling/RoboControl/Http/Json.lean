import RoboControl.Base.Decimal
import RoboControl.Base.Hex
import RoboControl.Base.Printf
import RoboControl.Crypto.Session

/-!
# Building and reading JSON

Model of the JSON builder `rc_json_builder_t` of `include/http.h` and of `rc_json_extract_str`,
which reads a string back. A builder holds a zero-terminated beginning of what its calls have
appended, and all of it unless its error flag is set (`Holds.run`). The builder escapes what JSON
wants escaped, but the reader searches for the next quote and does not undo any escape, so that only
values without escapes come back (`json_round_trip_iff`).
-/

namespace RoboControl.Http
open Base
open Crypto (cstr)

/-! ## The builder -/

/-- State of a builder (C `rc_json_builder_t`); `cap` is the length of the buffer. -/
structure JsonBuilder where
  buf : List UInt8
  len : Nat
  first : Bool
  error : Bool

/-- A new builder (C `rc_json_init`). -/
def jsonInit (buf : List UInt8) : JsonBuilder where
  buf := if buf.length > 0 then writeAt 0 [0] buf else buf
  len := 0
  first := true
  error := false

/-- Append a text (C `rc_json_append`). -/
def jsonAppend (jb : JsonBuilder) (s : List UInt8) : JsonBuilder :=
  if jb.error then jb
  else if jb.len + s.length ≥ jb.buf.length then { jb with error := true }
  else
    { jb with
      buf := writeAt (jb.len + s.length) [0] (writeAt jb.len s jb.buf), len := jb.len + s.length }

/-- What `rc_json_str` appends for a byte of a string. -/
def jsonEscape (b : UInt8) : List UInt8 :=
  if b = 34 then cstr "\\\""
  else if b = 92 then cstr "\\\\"
  else if b = 10 then cstr "\\n"
  else if b = 13 then cstr "\\r"
  else if b = 9 then cstr "\\t"
  else if b < 0x20 then cstr "\\u00" ++ hexByte b
  else [b]

/-- Append a string, or `null` for a null pointer (C `rc_json_str`). -/
def jsonStr (jb : JsonBuilder) : Option (List UInt8) → JsonBuilder
  | none => jsonAppend jb (cstr "null")
  | some s =>
    let jb := jsonAppend jb [34]
    let jb := s.foldl (fun jb b => jsonAppend jb (jsonEscape b)) jb
    jsonAppend jb [34]

/-- Append a key, behind a comma unless it is the first (C `rc_json_key`). -/
def jsonKey (jb : JsonBuilder) (key : Option (List UInt8)) : JsonBuilder :=
  let jb := if jb.first then jb else jsonAppend jb [44]
  let jb := { jb with first := false }
  jsonAppend (jsonStr jb key) [58]

/-- C `rc_json_kv_str`. -/
def jsonKvStr (jb : JsonBuilder) (key val : Option (List UInt8)) : JsonBuilder :=
  jsonStr (jsonKey jb key) val

/-- C `rc_json_kv_int`. -/
def jsonKvInt (jb : JsonBuilder) (key : Option (List UInt8)) (val : Int) : JsonBuilder :=
  jsonAppend (jsonKey jb key) (signedDigits val)

/-- C `rc_json_kv_uint`. -/
def jsonKvUint (jb : JsonBuilder) (key : Option (List UInt8)) (val : UInt64) : JsonBuilder :=
  jsonAppend (jsonKey jb key) (digits val.toNat)

/-- C `rc_json_kv_bool`. -/
def jsonKvBool (jb : JsonBuilder) (key : Option (List UInt8)) (val : Bool) : JsonBuilder :=
  jsonAppend (jsonKey jb key) (if val then cstr "true" else cstr "false")

/-- C `rc_json_object_start`. -/
def jsonObjectStart (jb : JsonBuilder) (key : Option (List UInt8)) : JsonBuilder :=
  jsonAppend (jsonKey jb key) [123]

/-- C `rc_json_object_end`. -/
def jsonObjectEnd (jb : JsonBuilder) : JsonBuilder := jsonAppend jb [125]

/-- C `rc_json_begin_object`. -/
def jsonBeginObject (jb : JsonBuilder) : JsonBuilder := jsonAppend { jb with first := true } [123]

/-- C `rc_json_end_object`. -/
def jsonEndObject (jb : JsonBuilder) : JsonBuilder := jsonAppend jb [125]

/-! ## The reader -/

/-- The results of reading (C `RC_OK`, `RC_ERR_NOTFOUND`, `RC_ERR_PROTO`). -/
inductive JsonStatus
  | ok
  | errNotfound
  | errProto
  deriving DecidableEq, Repr

/-- The text that `rc_json_extract_str` searches for, which `snprintf` cuts off at 255 bytes. -/
def keyPattern (key : List UInt8) : List UInt8 := (34 :: (key ++ [34])).take 255

/-- The part of `rc_json_extract_str` that reads a string behind its opening quote. -/
def extractQuoted (p out : List UInt8) : Except Undefined (JsonStatus × List UInt8) :=
  match strchr p 34 with
  | none => .ok (.errProto, out)
  | some close =>
    let len := p.length - close.length
    -- in an output of no bytes the zero has no place, whatever `out_size - 1` is
    let len := if len ≥ out.length then out.length - 1 else len
    (copyTo 0 (p.take len ++ [0]) out).map fun out => (.ok, out)

/-- The part of `rc_json_extract_str` behind the key. -/
def extractValue (p out : List UInt8) : Except Undefined (JsonStatus × List UInt8) :=
  match strchr p 58 with
  | none => .ok (.errProto, out)
  | some colon =>
    match (colon.drop 1).dropWhile fun b => b == 32 || b == 9 with
    | 34 :: p => extractQuoted p out
    | _ => .ok (.errProto, out)

/-- Read the string that belongs to a key (C `rc_json_extract_str`) into `out`, which has
`out_size` bytes. -/
def jsonExtractStr (json key out : List UInt8) : Except Undefined (JsonStatus × List UInt8) :=
  match strstr json (keyPattern key) with
  | none => .ok (.errNotfound, out)
  | some kp => extractValue (kp.drop (keyPattern key).length) out

/-! ## Runs of the builder -/

/-- A call of a builder. -/
inductive BuilderCall where
  | beginObject
  | endObject
  | objectStart (key : Option (List UInt8))
  | objectEnd
  | kvStr (key val : Option (List UInt8))
  | kvInt (key : Option (List UInt8)) (val : Int)
  | kvUint (key : Option (List UInt8)) (val : UInt64)
  | kvBool (key : Option (List UInt8)) (val : Bool)

/-- Make a call. -/
def BuilderCall.apply (jb : JsonBuilder) : BuilderCall → JsonBuilder
  | beginObject => jsonBeginObject jb
  | endObject => jsonEndObject jb
  | objectStart key => jsonObjectStart jb key
  | objectEnd => jsonObjectEnd jb
  | kvStr key val => jsonKvStr jb key val
  | kvInt key val => jsonKvInt jb key val
  | kvUint key val => jsonKvUint jb key val
  | kvBool key val => jsonKvBool jb key val

/-- A string with its escapes. -/
def escaped (s : List UInt8) : List UInt8 := s.flatMap jsonEscape

/-- A string as it is written. -/
def strText : Option (List UInt8) → List UInt8
  | none => cstr "null"
  | some s => 34 :: (escaped s ++ [34])

/-- A key as it is written. -/
def keyText (first : Bool) (key : Option (List UInt8)) : List UInt8 :=
  (if first then [] else [44]) ++ (strText key ++ [58])

namespace BuilderCall

/-- What a call appends, which depends on whether it is the first of its object. -/
def text (first : Bool) : BuilderCall → List UInt8
  | beginObject => [123]
  | endObject => [125]
  | objectStart key => keyText first key ++ [123]
  | objectEnd => [125]
  | kvStr key val => keyText first key ++ strText val
  | kvInt key val => keyText first key ++ signedDigits val
  | kvUint key val => keyText first key ++ digits val.toNat
  | kvBool key val => keyText first key ++ if val then cstr "true" else cstr "false"

/-- Whether the next call is the first of its object. -/
def first (first : Bool) : BuilderCall → Bool
  | beginObject => true
  | endObject => first
  | objectEnd => first
  | _ => false

/-- What calls append. -/
def runText (first : Bool) : List BuilderCall → List UInt8
  | [] => []
  | call :: calls => call.text first ++ runText (call.first first) calls

end BuilderCall

/-- A builder holds a zero-terminated beginning of a text, and the whole text unless its
error flag is set. -/
def Holds (jb : JsonBuilder) (text : List UInt8) : Prop :=
  ∃ shown, shown <+: text ∧ jb.len = shown.length ∧ (jb.buf ≠ [] → shown ++ [0] <+: jb.buf) ∧
    (jb.error = false → shown = text)

section Builder
variable {jb : JsonBuilder} {text s : List UInt8}

/-- A new builder. -/
lemma Holds.init (buf : List UInt8) : Holds (jsonInit buf) [] := by
  refine ⟨[], List.nil_prefix, rfl, fun hne => ?_, fun _ => rfl⟩
  rw [jsonInit] at hne ⊢
  split at hne
  · next hpos =>
    rw [if_pos hpos, writeAt_zero]
    exact List.prefix_append _ _
  · next hpos => exact absurd (List.length_eq_zero_iff.mp (Nat.eq_zero_of_not_pos hpos)) hne

/-- Appending after what is there, or not at all. -/
lemma Holds.append (h : Holds jb text) (s : List UInt8) : Holds (jsonAppend jb s) (text ++ s) := by
  obtain ⟨shown, hbegin, hlen, hbuf, hwhole⟩ := h
  have hlonger : shown <+: text ++ s := hbegin.trans (List.prefix_append text s)
  rw [jsonAppend]
  split
  · next herror => exact ⟨shown, hlonger, hlen, hbuf,
      fun h => absurd (herror.symm.trans h) Bool.true_eq_false.mp⟩
  · next hok =>
    split
    · exact ⟨shown, hlonger, hlen, hbuf, fun h => absurd h Bool.true_eq_false.mp⟩
    · next hroom =>
      obtain rfl := hwhole (Bool.eq_false_iff.mpr hok)
      refine ⟨shown ++ s, List.prefix_refl _, by rw [List.length_append, ← hlen], fun _ => ?_,
        fun _ => rfl⟩
      have hne : jb.buf ≠ [] := by
        intro hnil
        rw [hnil] at hroom
        exact hroom (Nat.zero_le _)
      obtain ⟨rest, hrest⟩ := hbuf hne
      rw [List.append_assoc] at hrest
      dsimp only
      rw [← hrest, hlen, writeAt_append rfl, writeAt_append List.length_append]
      exact List.prefix_append _ _

/-- Appending keeps the flag. -/
@[simp] lemma first_jsonAppend (jb : JsonBuilder) (s : List UInt8) :
    (jsonAppend jb s).first = jb.first := by
  rw [jsonAppend]
  split
  · rfl
  · split <;> rfl

/-- A string is escaped byte by byte. -/
lemma Holds.foldl (h : Holds jb text) (s : List UInt8) :
    Holds (s.foldl (fun jb b => jsonAppend jb (jsonEscape b)) jb) (text ++ escaped s) := by
  induction s generalizing jb text with
  | nil => rwa [escaped, List.flatMap_nil, List.append_nil]
  | cons b s ih =>
    have htext : text ++ escaped (b :: s) = (text ++ jsonEscape b) ++ escaped s := by
      rw [escaped, List.flatMap_cons, List.append_assoc, escaped]
    rw [htext, List.foldl_cons]
    exact ih (h.append (jsonEscape b))

@[simp] lemma first_foldl (jb : JsonBuilder) (s : List UInt8) :
    (s.foldl (fun jb b => jsonAppend jb (jsonEscape b)) jb).first = jb.first := by
  induction s generalizing jb with
  | nil => rfl
  | cons b s ih => rw [List.foldl_cons, ih, first_jsonAppend]

/-- A string is appended. -/
lemma Holds.str (h : Holds jb text) (s : Option (List UInt8)) :
    Holds (jsonStr jb s) (text ++ strText s) := by
  cases s with
  | none => exact h.append _
  | some s =>
    have htext : text ++ strText (some s) = text ++ [34] ++ escaped s ++ [34] := by simp [strText]
    rw [htext]
    exact ((h.append [34]).foldl s).append [34]

/-- A string keeps the flag. -/
@[simp] lemma first_jsonStr (jb : JsonBuilder) (s : Option (List UInt8)) :
    (jsonStr jb s).first = jb.first := by
  cases s with
  | none => exact first_jsonAppend jb _
  | some s => simp [jsonStr]

/-- A key is appended. -/
lemma Holds.key (h : Holds jb text) (key : Option (List UInt8)) :
    Holds (jsonKey jb key) (text ++ keyText jb.first key) := by
  have hcomma : Holds (if jb.first then jb else jsonAppend jb [44])
      (text ++ if jb.first then [] else [44]) := by
    split
    · rwa [List.append_nil]
    · exact h.append [44]
  have hfirst : Holds { (if jb.first then jb else jsonAppend jb [44]) with first := false }
      (text ++ if jb.first then [] else [44]) := hcomma
  rw [keyText, ← List.append_assoc, ← List.append_assoc]
  exact (hfirst.str key).append [58]

/-- A key clears the flag. -/
@[simp] lemma first_jsonKey (jb : JsonBuilder) (key : Option (List UInt8)) :
    (jsonKey jb key).first = false := by
  simp [jsonKey]

/-- A key and what follows it. -/
lemma Holds.member (h : Holds jb text) (key : Option (List UInt8)) (s : List UInt8) :
    Holds (jsonAppend (jsonKey jb key) s) (text ++ (keyText jb.first key ++ s)) ∧
      (jsonAppend (jsonKey jb key) s).first = false := by
  refine ⟨?_, (first_jsonAppend _ _).trans (first_jsonKey jb key)⟩
  rw [← List.append_assoc]
  exact (h.key key).append s

/-- A call appends its text. -/
lemma Holds.apply (h : Holds jb text) (call : BuilderCall) :
    Holds (call.apply jb) (text ++ call.text jb.first) ∧
      (call.apply jb).first = call.first jb.first := by
  cases call with
  | beginObject =>
    have hfirst : Holds { jb with first := true } text := h
    exact ⟨hfirst.append [123], first_jsonAppend _ _⟩
  | endObject => exact ⟨h.append [125], first_jsonAppend _ _⟩
  | objectEnd => exact ⟨h.append [125], first_jsonAppend _ _⟩
  | objectStart key => exact h.member key [123]
  | kvStr key val =>
    refine ⟨?_, (first_jsonStr _ _).trans (first_jsonKey jb key)⟩
    rw [BuilderCall.text, ← List.append_assoc]
    exact (h.key key).str val
  | kvInt key val => exact h.member key _
  | kvUint key val => exact h.member key _
  | kvBool key val => exact h.member key _

/-- Calls append their texts. -/
lemma Holds.run (h : Holds jb text) (calls : List BuilderCall) :
    Holds (calls.foldl BuilderCall.apply jb) (text ++ BuilderCall.runText jb.first calls) := by
  induction calls generalizing jb text with
  | nil => rwa [BuilderCall.runText, List.append_nil]
  | cons call calls ih =>
    obtain ⟨happly, hfirst⟩ := h.apply call
    rw [List.foldl_cons, BuilderCall.runText, ← List.append_assoc, ← hfirst]
    exact ih happly

end Builder

/-! ## Escapes -/

/-- A text without quotes, backslashes and control characters. -/
def Unescaped (text : List UInt8) : Prop := ∀ b ∈ text, b ≠ 34 ∧ b ≠ 92 ∧ 32 ≤ b

instance (text : List UInt8) : Decidable (Unescaped text) :=
  List.decidableBAll (fun b => b ≠ 34 ∧ b ≠ 92 ∧ 32 ≤ b) text

section Escapes
variable {l : List UInt8}

/-- The escape of a byte has no control characters, and at least one byte, one only if nothing had
to be escaped. -/
lemma jsonEscape_spec (b : UInt8) :
    (jsonEscape b).all (fun c => decide (32 ≤ c)) = true ∧ 1 ≤ (jsonEscape b).length ∧
      ((jsonEscape b).length = 1 ↔ b ≠ 34 ∧ b ≠ 92 ∧ 32 ≤ b) := by
  revert b
  refine forall_byte ?_
  decide +kernel

/-- An escape has the quotes and colons of the byte itself. -/
lemma not_mem_jsonEscape (b : UInt8) : (b ≠ 34 → 34 ∉ jsonEscape b) ∧
    (b ≠ 58 → 58 ∉ jsonEscape b) := by
  revert b
  refine forall_byte ?_
  decide +kernel

/-- An escape does not begin with a blank or a quote, unless the byte is a blank or a quote. -/
lemma jsonEscape_cons {b : UInt8} (hblank : b ≠ 32) (hquote : b ≠ 34) :
    ∃ c s, jsonEscape b = c :: s ∧ c ≠ 32 ∧ c ≠ 9 ∧ c ≠ 34 := by
  have hhead : ∀ b : UInt8, b ≠ 32 → (jsonEscape b).head? ≠ some 32 := by
    refine forall_byte ?_
    decide +kernel
  obtain ⟨hall, hpos, -⟩ := jsonEscape_spec b
  obtain ⟨c, s, hcons⟩ := List.exists_cons_of_ne_nil (List.length_pos_iff.mp hpos)
  have hc : c ∈ jsonEscape b := hcons ▸ List.mem_cons_self
  have hle : 32 ≤ c := of_decide_eq_true (List.all_eq_true.mp hall c hc)
  refine ⟨c, s, hcons, ?_, ?_, ?_⟩
  · rintro rfl
    exact hhead b hblank (by rw [hcons]; rfl)
  · rintro rfl
    exact absurd hle (by decide)
  · rintro rfl
    exact (not_mem_jsonEscape b).1 hquote hc

/-- A byte that is not escaped. -/
lemma jsonEscape_of_plain {b : UInt8} (h : b ≠ 34 ∧ b ≠ 92 ∧ 32 ≤ b) : jsonEscape b = [b] := by
  have hne : ∀ c : UInt8, c < 32 → b ≠ c := by
    rintro c hc rfl
    exact absurd hc (UInt8.not_lt.mpr h.2.2)
  rw [jsonEscape, if_neg h.1, if_neg h.2.1, if_neg (hne 10 (by decide)),
    if_neg (hne 13 (by decide)), if_neg (hne 9 (by decide)), if_neg (UInt8.not_lt.mpr h.2.2)]

/-- No control bytes are left. -/
lemma le_of_mem_escaped {c : UInt8} (h : c ∈ escaped l) : 32 ≤ c := by
  obtain ⟨b, -, hc⟩ := List.mem_flatMap.mp h
  exact of_decide_eq_true (List.all_eq_true.mp (jsonEscape_spec b).1 c hc)

/-- No quote comes in. -/
lemma quote_not_mem_escaped (h : 34 ∉ l) : 34 ∉ escaped l := by
  intro hmem
  obtain ⟨b, hb, hc⟩ := List.mem_flatMap.mp hmem
  exact (not_mem_jsonEscape b).1 (fun e => h (e ▸ hb)) hc

/-- No colon comes in. -/
lemma colon_not_mem_escaped (h : 58 ∉ l) : 58 ∉ escaped l := by
  intro hmem
  obtain ⟨b, hb, hc⟩ := List.mem_flatMap.mp hmem
  exact (not_mem_jsonEscape b).2 (fun e => h (e ▸ hb)) hc

/-- Byte by byte. -/
lemma escaped_append (l m : List UInt8) : escaped (l ++ m) = escaped l ++ escaped m :=
  List.flatMap_append

/-- It is not shorter. -/
lemma length_le_escaped (l : List UInt8) : l.length ≤ (escaped l).length := by
  induction l with
  | nil => exact le_refl _
  | cons b l ih =>
    have h := (jsonEscape_spec b).2.1
    rw [escaped] at ih ⊢
    rw [List.flatMap_cons, List.length_append, List.length_cons]
    omega

/-- Nothing to escape. -/
lemma escaped_of_unescaped (h : Unescaped l) : escaped l = l := by
  induction l with
  | nil => rfl
  | cons b l ih =>
    rw [Unescaped, List.forall_mem_cons] at h
    rw [escaped] at ih ⊢
    rw [List.flatMap_cons, jsonEscape_of_plain h.1, ih h.2, List.singleton_append]

/-- Blanks are not escaped. -/
lemma unescaped_of_blanks (h : ∀ b ∈ l, b = 32) : Unescaped l := by
  intro b hb
  rw [h b hb]
  decide

/-- What follows the blanks of a text without quotes is not a blank or a quote with its
escapes, either. -/
lemma escaped_of_not_blanks (hquote : 34 ∉ l) (h : ¬ ∀ b ∈ l, b = 32) :
    ∃ blanks c s, escaped l = blanks ++ c :: s ∧ (∀ b ∈ blanks, b = 32) ∧ c ≠ 32 ∧ c ≠ 9 ∧
      c ≠ 34 := by
  obtain ⟨blanks, b, m, rfl, hblanks, hb⟩ := exists_append_cons_of_ne h
  have hne : b ≠ 34 := by
    rintro rfl
    exact hquote (List.mem_append_right _ List.mem_cons_self)
  obtain ⟨c, s, hescape, hc⟩ := jsonEscape_cons hb hne
  refine ⟨blanks, c, s ++ escaped m, ?_, hblanks, hc⟩
  rw [escaped_append, escaped_of_unescaped (unescaped_of_blanks hblanks), escaped,
    List.flatMap_cons, hescape, List.cons_append, escaped]

/-- Only texts without anything to escape have the length they have with escapes. -/
lemma unescaped_of_length (h : (escaped l).length = l.length) : Unescaped l := by
  induction l with
  | nil => exact List.forall_mem_nil _
  | cons b l ih =>
    have hb := jsonEscape_spec b
    have hle := length_le_escaped l
    have hcons : (escaped (b :: l)).length = (jsonEscape b).length + (escaped l).length := by
      rw [escaped, List.flatMap_cons, List.length_append, escaped]
    rw [hcons, List.length_cons] at h
    exact List.forall_mem_cons.mpr ⟨hb.2.2.mp (by omega), ih (by omega)⟩

end Escapes

/-! ## An object with one string -/

/-- An object with one member, built from a key and a value. -/
def jsonObject (key value buf : List UInt8) : JsonBuilder :=
  jsonEndObject (jsonKvStr (jsonBeginObject (jsonInit buf)) (some key) (some value))

/-- What follows the key of the object. -/
def afterKey (value : List UInt8) : List UInt8 := 58 :: 34 :: (escaped value ++ [34, 125])

/-- The text of the object. -/
def objectText (key value : List UInt8) : List UInt8 :=
  123 :: 34 :: (escaped key ++ 34 :: afterKey value)

section Object
variable {key value : List UInt8}

/-- No control bytes in an object. -/
lemma le_of_mem_objectText {c : UInt8} (h : c ∈ objectText key value) : 32 ≤ c := by
  simp only [objectText, afterKey, List.mem_cons, List.mem_append, List.not_mem_nil, or_false] at h
  rcases h with rfl | rfl | h | rfl | rfl | rfl | h | rfl | rfl
  all_goals first | decide | exact le_of_mem_escaped h

/-- A builder without an error has a buffer. -/
lemma buf_ne_nil_of_append {jb : JsonBuilder} {s : List UInt8}
    (h : (jsonAppend jb s).error = false) :
    (jsonAppend jb s).buf ≠ [] := by
  rw [jsonAppend] at h ⊢
  split at h
  · next herror => exact absurd (herror.symm.trans h) Bool.true_eq_false.mp
  · next hok =>
    split at h
    · exact absurd h Bool.true_eq_false.mp
    · next hroom =>
      rw [if_neg hok, if_neg hroom, ← List.length_pos_iff]
      rw [ge_iff_le, Nat.not_le] at hroom
      have hlen : (writeAt jb.len s jb.buf).length = jb.buf.length := length_writeAt hroom.le
      dsimp only
      rw [length_writeAt (by rw [hlen, List.length_singleton]; omega), hlen]
      omega

/-- The object is in the buffer if no call has failed. -/
lemma stringIn_jsonObject {buf : List UInt8} (hfit : (jsonObject key value buf).error = false) :
    stringIn (jsonObject key value buf).buf = objectText key value := by
  have hrun := (Holds.init buf).run [.beginObject, .kvStr (some key) (some value), .endObject]
  have hobject : [.beginObject, .kvStr (some key) (some value), .endObject].foldl BuilderCall.apply
    (jsonInit buf) =
      jsonObject key value buf := rfl
  have htext : [] ++ BuilderCall.runText (jsonInit buf).first
      [.beginObject, .kvStr (some key) (some value), .endObject] = objectText key value := by
    simp [BuilderCall.runText, BuilderCall.text, BuilderCall.first, keyText, strText, objectText,
      afterKey]
  rw [htext, hobject] at hrun
  obtain ⟨shown, -, -, hbuf, hwhole⟩ := hrun
  obtain rfl := hwhole hfit
  obtain ⟨rest, hrest⟩ := hbuf (buf_ne_nil_of_append hfit)
  have hzero : 0 ∉ objectText key value := fun h => absurd (le_of_mem_objectText h) (by decide)
  rw [← hrest, List.append_assoc, List.singleton_append, stringIn_append hzero]

end Object

/-! ## Reading -/

/-- The string of a key is read into every output that has room for it. -/
def ReadsBack (json key value : List UInt8) : Prop :=
  ∀ out : List UInt8, value.length < out.length →
    ∃ out', jsonExtractStr json key out = .ok (.ok, out') ∧ stringIn out' = value

section Reading
variable {json key value out : List UInt8}

/-- A string is read up to the next quote. -/
lemma extractQuoted_eq {w : List UInt8} (rest : List UInt8) (hquote : 34 ∉ w) (hzero : 0 ∉ w)
    (hpos : 0 < out.length) :
    ∃ out', extractQuoted (w ++ 34 :: rest) out = .ok (.ok, out') ∧
      stringIn out' = w.take (out.length - 1) := by
  have hlen : (w ++ 34 :: rest).length - (34 :: rest).length = w.length := by
    rw [List.length_append, Nat.add_sub_cancel]
  have htake : (w ++ 34 :: rest).take (if w.length ≥ out.length then out.length - 1 else w.length) =
      w.take (out.length - 1) := by
    split
    · exact List.take_append_of_le_length (by omega)
    · rw [List.take_left, List.take_of_length_le (by omega)]
  have hbound : 0 + (w.take (out.length - 1) ++ [0]).length ≤ out.length := by
    rw [List.length_append, List.length_take, List.length_singleton]
    omega
  have hcopy := copyTo_natCast hbound
  rw [Nat.cast_zero] at hcopy
  refine ⟨writeAt 0 (w.take (out.length - 1) ++ [0]) out, ?_, ?_⟩
  · rw [extractQuoted, strchr_append hquote, strchr_cons_self]
    dsimp only
    rw [hlen, htake, hcopy]
    rfl
  · rw [writeAt_zero, List.append_assoc, List.singleton_append]
    exact stringIn_append fun h => hzero (List.mem_of_mem_take h)

/-- Blanks are skipped. -/
lemma dropWhile_blanks {blanks : List UInt8} (hblanks : ∀ b ∈ blanks, b = 32) {c : UInt8}
    (hc : c ≠ 32 ∧ c ≠ 9) (p : List UInt8) :
    (blanks ++ c :: p).dropWhile (fun b => b == 32 || b == 9) = c :: p := by
  rw [List.dropWhile_append_of_pos fun b hb => by rw [hblanks b hb]; rfl]
  exact List.dropWhile_cons_of_neg (by simp [hc.1, hc.2])

/-- Behind the key, blanks may follow the next colon, and then a string. -/
lemma extractValue_quote {a blanks : List UInt8} (ha : 58 ∉ a) (hblanks : ∀ b ∈ blanks, b = 32)
    (p out : List UInt8) :
    extractValue (a ++ 58 :: (blanks ++ 34 :: p)) out = extractQuoted p out := by
  rw [extractValue, strchr_append ha, strchr_cons_self]
  dsimp only
  rw [List.drop_succ_cons, List.drop_zero, dropWhile_blanks hblanks (by decide)]
  rfl

/-- A value that is no string. -/
lemma extractValue_other {a blanks : List UInt8} (ha : 58 ∉ a) (hblanks : ∀ b ∈ blanks, b = 32)
    {c : UInt8} (hc : c ≠ 32 ∧ c ≠ 9 ∧ c ≠ 34) (p out : List UInt8) :
    extractValue (a ++ 58 :: (blanks ++ c :: p)) out = .ok (.errProto, out) := by
  rw [extractValue, strchr_append ha, strchr_cons_self]
  dsimp only
  rw [List.drop_succ_cons, List.drop_zero, dropWhile_blanks hblanks ⟨hc.1, hc.2.1⟩]
  split
  · next h => exact absurd (List.cons.inj h).1 hc.2.2
  · rfl

/-- A string that is read comes back exactly if it is the text up to the next quote. -/
lemma readsBack_iff_of_quoted {w rest : List UInt8} (hquote : 34 ∉ w) (hzero : 0 ∉ w)
    (h : ∀ out, jsonExtractStr json key out = extractQuoted (w ++ 34 :: rest) out) :
    ReadsBack json key value ↔ value = w := by
  constructor
  · intro hreads
    have hlen : (List.replicate (w.length + value.length + 1) (0 : UInt8)).length = w.length +
      value.length + 1 :=
      List.length_replicate
    obtain ⟨out', hread, hvalue⟩ := hreads (List.replicate (w.length + value.length + 1) 0)
      (by omega)
    obtain ⟨out'', hread', hw⟩ := extractQuoted_eq rest hquote hzero
      (show 0 < (List.replicate (w.length + value.length + 1) (0 : UInt8)).length by omega)
    rw [h, hread'] at hread
    cases hread
    rw [← hvalue, hw, List.take_of_length_le (by omega)]
  · rintro rfl out hout
    obtain ⟨out', hread, hw⟩ := extractQuoted_eq rest hquote hzero (show 0 < out.length by omega)
    exact ⟨out', (h out).trans hread, by rw [hw, List.take_of_length_le (by omega)]⟩

/-- An error is not what was written. -/
lemma not_readsBack {st : JsonStatus} (hst : st ≠ .ok)
    (h : ∀ out, jsonExtractStr json key out = .ok (st, out)) :
    ¬ ReadsBack json key value := by
  intro hreads
  have hlen : (List.replicate (value.length + 1) (0 : UInt8)).length = value.length + 1 :=
    List.length_replicate
  obtain ⟨out', hread, -⟩ := hreads (List.replicate (value.length + 1) 0) (by omega)
  rw [h] at hread
  cases hread
  exact hst rfl

/-- The key is found at its place, of which the first 254 bytes are compared. -/
lemma jsonExtractStr_found (hkey : Unescaped (key.take 254)) (tail : List UInt8) :
    ∃ mid, (mid = [] ∨ mid = [34]) ∧ (key.drop 254 ≠ [] → mid = [34]) ∧
      ∀ out, jsonExtractStr (123 :: 34 :: (escaped key ++ 34 :: tail)) key out =
        extractValue (escaped (key.drop 254) ++ (mid ++ tail)) out := by
  have hpattern : keyPattern key = 34 :: (key ++ [34]).take 254 := List.take_succ_cons
  have hescaped : escaped key = key.take 254 ++ escaped (key.drop 254) := by
    rw [← escaped_of_unescaped hkey, ← escaped_append, List.take_append_drop]
  -- the part of the text that the search compares ends in the key, or with its closing quote
  obtain ⟨mid, hmid, hlong, hsplit⟩ : ∃ mid, (mid = [] ∨ mid = [34]) ∧
    (key.drop 254 ≠ [] → mid = [34]) ∧
      escaped key ++ 34 :: tail = (key ++ [34]).take 254 ++
        (escaped (key.drop 254) ++ (mid ++ tail)) := by
    by_cases hlen : key.length < 254
    · refine ⟨[], .inl rfl, fun h => absurd (List.drop_of_length_le hlen.le) h, ?_⟩
      rw [hescaped, List.drop_of_length_le hlen.le, List.take_of_length_le hlen.le,
        List.take_of_length_le (by rw [List.length_append, List.length_singleton]; omega)]
      simp [escaped]
    · refine ⟨[34], .inr rfl, fun _ => rfl, ?_⟩
      rw [hescaped, List.take_append_of_le_length (by omega), List.append_assoc]
      rfl
  refine ⟨mid, hmid, hlong, fun out => ?_⟩
  have hfind : strstr (123 :: 34 :: (escaped key ++ 34 :: tail)) (keyPattern key) =
      some (34 :: (escaped key ++ 34 :: tail)) := by
    have hbegins : ((key ++ [34]).take 254).isPrefixOf (escaped key ++ 34 :: tail) = true := by
      rw [ List.isPrefixOf_iff_prefix, hsplit]
      exact List.prefix_append _ _
    rw [hpattern, strstr_cons, behind_cons_of_ne (by decide), behind_cons_self,
      List.find?_cons_of_pos hbegins]
    rfl
  rw [jsonExtractStr, hfind]
  dsimp only
  rw [hpattern, List.length_cons, List.drop_succ_cons, hsplit, List.drop_left]

/-- A key with a control character in its first 254 bytes is not found. -/
lemma jsonExtractStr_notFound {b : UInt8} (hb : b ∈ key.take 254) (hlt : ¬ 32 ≤ b)
    (value out : List UInt8) :
    jsonExtractStr (objectText key value) key out = .ok (.errNotfound, out) := by
  have hmem : b ∈ keyPattern key := by
    have hbegin : key.take 254 <+: (key ++ [34]).take 254 := (List.prefix_append key [34]).take 254
    rw [keyPattern, List.take_succ_cons]
    exact List.mem_cons_of_mem 34 (hbegin.subset hb)
  have hnone : strstr (objectText key value) (keyPattern key) = none := by
    rw [← Option.not_isSome_iff_eq_none, strstr_isSome_iff]
    intro hsub
    exact hlt (le_of_mem_objectText (hsub.subset hmem))
  rw [jsonExtractStr, hnone]

/-- A value behind a key of which the search leaves no colon. -/
lemma readsBack_iff_of_not_mem (hkey : Unescaped (key.take 254)) (hcolon : 58 ∉ key.drop 254) :
    ReadsBack (objectText key value) key value ↔ Unescaped value := by
  obtain ⟨mid, hmid, -, hread⟩ := jsonExtractStr_found hkey (afterKey value)
  have hbefore : 58 ∉ escaped (key.drop 254) ++ mid := by
    rw [List.mem_append, not_or]
    refine ⟨colon_not_mem_escaped hcolon, ?_⟩
    rcases hmid with rfl | rfl
    · exact List.not_mem_nil
    · decide
  have hquoted : ∀ out, jsonExtractStr (objectText key value) key out =
      extractQuoted (escaped value ++ [34, 125]) out := by
    intro out
    rw [objectText, hread, ← List.append_assoc]
    exact extractValue_quote hbefore (show ∀ b ∈ ([] : List UInt8),
      b = 32 from List.forall_mem_nil _) _ out
  obtain ⟨w, rest, hw, hquote⟩ := List.eq_append_cons_of_mem
    (show 34 ∈ escaped value ++ [34, 125] by simp)
  have hzero : 0 ∉ w := by
    intro h
    have hmem : 0 ∈ escaped value ++ [34, 125] := hw ▸ List.mem_append_left _ h
    rcases List.mem_append.mp hmem with h | h
    · exact absurd (le_of_mem_escaped h) (by decide)
    · exact absurd h (by decide)
  rw [hw] at hquoted
  rw [readsBack_iff_of_quoted hquote hzero hquoted]
  constructor
  · rintro rfl
    -- the value has no quote, so that it was read to its end
    have hend := takeWhile_append_cons hquote (s := rest)
    rw [← hw, takeWhile_append_cons (quote_not_mem_escaped hquote)] at hend
    exact unescaped_of_length (congrArg List.length hend)
  · intro hplain
    have hvalue' : 34 ∉ value := fun h => (hplain 34 h).1 rfl
    rw [escaped_of_unescaped hplain] at hw
    rw [← takeWhile_append_cons hquote (s := rest), ← hw, takeWhile_append_cons hvalue']

/-- A colon that the search leaves of the key is taken for the one behind the key. -/
lemma readsBack_iff_of_mem (hkey : Unescaped (key.take 254)) (hquotes : 34 ∉ key) {a c : List UInt8}
    (hsplit : key.drop 254 = a ++ 58 :: c) (ha : 58 ∉ a) :
    ReadsBack (objectText key value) key value ↔ value = [58] ∧ ∀ b ∈ c, b = 32 := by
  obtain ⟨mid, -, hlong, hread⟩ := jsonExtractStr_found hkey (afterKey value)
  obtain rfl :=
    hlong (by rw [hsplit]; exact List.append_ne_nil_of_right_ne_nil _ (List.cons_ne_nil _ _))
  have hcolon : 58 ∉ escaped a := colon_not_mem_escaped ha
  have hrest : escaped (key.drop 254) ++ ([34] ++ afterKey value) =
      escaped a ++ 58 :: (escaped c ++ 34 :: afterKey value) := by
    rw [hsplit, escaped_append, List.append_assoc]
    rfl
  rw [hrest] at hread
  by_cases hblanks : ∀ b ∈ c, b = 32
  · -- the closing quote of the key is taken for the opening quote of the value
    have hquoted : ∀ out, jsonExtractStr (objectText key value) key out =
        extractQuoted ([58] ++ 34 :: (escaped value ++ [34, 125])) out := by
      intro out
      rw [objectText, hread, escaped_of_unescaped (unescaped_of_blanks hblanks)]
      exact extractValue_quote hcolon hblanks _ out
    rw [readsBack_iff_of_quoted (by decide) (by decide) hquoted]
    exact ⟨fun h => ⟨h, hblanks⟩, fun h => h.1⟩
  · refine ⟨fun h => ?_, fun h => absurd h.2 hblanks⟩
    have hquote : 34 ∉ c := by
      intro hc
      refine hquotes (List.mem_of_mem_drop (i := 254) ?_)
      rw [hsplit]
      exact List.mem_append_right a (List.mem_cons_of_mem 58 hc)
    obtain ⟨blanks, d, s, hescaped, hbefore, hd⟩ := escaped_of_not_blanks hquote hblanks
    have hproto : ∀ out, jsonExtractStr (objectText key value) key out = .ok (.errProto, out) := by
      intro out
      rw [objectText, hread, hescaped, List.append_assoc, List.cons_append]
      exact extractValue_other hcolon hbefore hd _ out
    exact absurd h (not_readsBack (by decide) hproto)

end Reading

/-- The string of an object that was built from a key without quotes and backslashes and a value is
read back exactly if the first 254 bytes of the key have no control characters and there is nothing
to escape in the value; if the key is longer, its other bytes must have no colon, except one before
blanks at its end if the value is a colon. -/
theorem json_round_trip_iff (key value buf : List UInt8) (hkey : ∀ b ∈ key, b ≠ 34 ∧ b ≠ 92)
    (hfit : (jsonObject key value buf).error = false) :
    ReadsBack (stringIn (jsonObject key value buf).buf) key value ↔
      (∀ b ∈ key.take 254, 32 ≤ b) ∧
      (58 ∉ key.drop 254 ∧ Unescaped value ∨
        value = [58] ∧ ∃ a n, key.drop 254 = a ++ 58 :: List.replicate n 32 ∧ 58 ∉ a) := by
  rw [stringIn_jsonObject hfit]
  by_cases hcontrol : ∀ b ∈ key.take 254, 32 ≤ b
  · have hplain : Unescaped (key.take 254) := by
      intro b hb
      have hb' := hkey b (List.mem_of_mem_take hb)
      exact ⟨hb'.1, hb'.2, hcontrol b hb⟩
    rw [and_iff_right hcontrol]
    by_cases hcolon : 58 ∈ key.drop 254
    · obtain ⟨a, c, hsplit, ha⟩ := List.eq_append_cons_of_mem hcolon
      rw [readsBack_iff_of_mem hplain (fun h => (hkey 34 h).1 rfl) hsplit ha]
      constructor
      · rintro ⟨hvalue, hblanks⟩
        exact .inr ⟨hvalue, a, c.length, by rw [hsplit, ← List.eq_replicate_iff.mpr ⟨rfl, hblanks⟩],
          ha⟩
      · rintro (⟨hnot, -⟩ | ⟨hvalue, a', n, hsplit', ha'⟩)
        · exact absurd hcolon hnot
        · obtain ⟨-, rfl⟩ := append_cons_inj ha ha' (hsplit.symm.trans hsplit')
          exact ⟨hvalue, fun b hb => List.eq_of_mem_replicate hb⟩
    · rw [readsBack_iff_of_not_mem hplain hcolon]
      constructor
      · exact fun h => .inl ⟨hcolon, h⟩
      · rintro (⟨-, h⟩ | ⟨-, a, n, hsplit, -⟩)
        · exact h
        · exact absurd (by rw [hsplit]; exact List.mem_append_right a List.mem_cons_self) hcolon
  · simp only [not_forall] at hcontrol
    obtain ⟨b, hb, hlt⟩ := hcontrol
    refine ⟨fun h => ?_, fun h => ?_⟩
    · exact absurd h (not_readsBack (by decide) (jsonExtractStr_notFound hb hlt value))
    · exact absurd (h.1 b hb) hlt

/-- The value `on: 50%` of the key `mode`. -/
theorem json_round_trip_iff_sample :
    (jsonObject (cstr "mode") (cstr "on: 50%") (List.replicate 32 7)).error = false ∧
      ReadsBack (stringIn (jsonObject (cstr "mode") (cstr "on: 50%") (List.replicate 32 7)).buf)
        (cstr "mode")
        (cstr "on: 50%") := by
  have hfit : (jsonObject (cstr "mode") (cstr "on: 50%") (List.replicate 32 7)).error = false := by
    rfl
  have hkey : Unescaped (cstr "mode") := by decide
  have hvalue : Unescaped (cstr "on: 50%") := by decide
  have hround := json_round_trip_iff (cstr "mode") (cstr "on: 50%") (List.replicate 32 7)
    (fun b hb => ⟨(hkey b hb).1, (hkey b hb).2.1⟩) hfit
  exact ⟨hfit, hround.mpr ⟨fun b hb => (hkey b (List.mem_of_mem_take hb)).2.2,
    .inl ⟨by decide, hvalue⟩⟩⟩

/-- Of the value `a"b` only `a` and the backslash of an escape are read back. -/
theorem json_quote_lost :
    (jsonObject (cstr "k") (cstr "a\"b") (List.replicate 32 0)).error = false ∧
      ∃ out, jsonExtractStr
        (stringIn (jsonObject (cstr "k") (cstr "a\"b") (List.replicate 32 0)).buf) (cstr "k")
          (List.replicate 16 0) = .ok (.ok, out) ∧ stringIn out = cstr "a\\" := by
  refine ⟨by rfl, _, by rfl, by decide⟩

end RoboControl.Http
