import Mathlib.Data.List.Nodup
import RoboControl.Billing.Server

/-!
# Fields of flat JSON objects

What `json_field` of the two services finds in a flat object (`Object`): the members are a key and a
value, which is a string or a number, `true`, `false` or `null`, and blanks may follow a colon. The
source does not parse the object. It searches the text for the key in quotes, cut to 127 bytes, and
takes the value behind the next colon, so what it finds depends on the texts behind all quotes
(`openings`).
-/

namespace RoboControl.Json
open Base Crypto

/-! ## Flat objects -/

/-- A text without quotes, backslashes and control characters. -/
def Plain (text : List UInt8) : Prop := ∀ b ∈ text, b ≠ 34 ∧ b ≠ 92 ∧ 32 ≤ b

instance (text : List UInt8) : Decidable (Plain text) :=
  List.decidableBAll (fun b => b ≠ 34 ∧ b ≠ 92 ∧ 32 ≤ b) text

/-- A byte of a number, `true`, `false` or `null`: a digit, a letter, `+`, `-` or `.`. -/
def isLiteral (b : UInt8) : Bool :=
  (48 ≤ b && b ≤ 57) || (65 ≤ b && b ≤ 90) || (97 ≤ b && b ≤ 122) || b == 43 || b == 45 || b == 46

/-- A value of a flat object. -/
inductive Value where
  | str (text : List UInt8) (plain : Plain text)
  | bare (text : List UInt8) (ne : text ≠ []) (literal : ∀ b ∈ text, isLiteral b = true)

namespace Value

/-- What a value says. -/
def content : Value → List UInt8
  | str text _ => text
  | bare text _ _ => text

/-- How a value is written. -/
def text : Value → List UInt8
  | str text _ => 34 :: (text ++ [34])
  | bare text _ _ => text

/-- A value is the string of a text. -/
def IsStr (key : List UInt8) : Value → Prop
  | str text _ => text = key
  | bare _ _ _ => False

instance (key : List UInt8) (v : Value) : Decidable (v.IsStr key) :=
  match v with
  | str text _ => inferInstanceAs (Decidable (text = key))
  | bare _ _ _ => inferInstanceAs (Decidable False)

/-- A value in a buffer of some size. -/
def cut (outLen : Nat) (v : Value) : List UInt8 := v.content.take (outLen - 1)

/-- The texts behind the quotes of a value, with what follows the value. -/
def openings (rest : List UInt8) : Value → List (List UInt8)
  | str text _ => [text ++ 34 :: rest, rest]
  | bare _ _ _ => []

end Value

/-- A member of a flat object. -/
structure Member where
  key : List UInt8
  blanks : List UInt8
  value : Value
  plain : Plain key
  blank : ∀ b ∈ blanks, b = 32 ∨ b = 9

/-- A member with a string, written without blanks. -/
def Member.string (key text : List UInt8) (plain : Plain key) (plain' : Plain text) : Member where
  key := key
  blanks := []
  value := .str text plain'
  plain := plain
  blank := fun _ h => absurd h List.not_mem_nil

/-- How a member is written behind its key. -/
def Member.afterKey (m : Member) : List UInt8 := 58 :: (m.blanks ++ m.value.text)

/-- How a member is written. -/
def Member.text (m : Member) : List UInt8 := 34 :: (m.key ++ 34 :: m.afterKey)

/-- What follows a member: the other members, and the end of the object. -/
def afterMember : List Member → List UInt8
  | [] => [125]
  | m :: ms => 44 :: (m.text ++ afterMember ms)

/-- A flat object. -/
structure Object where
  members : List Member
  nodup : (members.map Member.key).Nodup

namespace Object

/-- How an object is written. -/
def text (o : Object) : List UInt8 :=
  match o.members with
  | [] => [123, 125]
  | m :: ms => 123 :: (m.text ++ afterMember ms)

/-- The value of a key. -/
def lookup (o : Object) (key : List UInt8) : Option Value :=
  (o.members.find? fun m => m.key = key).map Member.value

end Object

/-! ## What the search meets -/

/-- The text behind the first quote of the text that is searched for. -/
def needle (key : List UInt8) : List UInt8 := (key ++ [34]).take 126

/-- The value behind the next colon. -/
def readField (outLen : Nat) (p : List UInt8) : Option (List UInt8) := do
  let p ← strchr p 58
  match (p.drop 1).dropWhile fun b => b == 32 || b == 9 with
  | 34 :: p => if 34 ∈ p then some ((p.takeWhile (· ≠ 34)).take (outLen - 1)) else none
  | p => some ((p.takeWhile fun b => b ≠ 44 && b ≠ 125 && b ≠ 10).take (outLen - 1))

/-- The texts behind the quotes of members. -/
def openings : List Member → List (List UInt8)
  | [] => []
  | m :: ms =>
    (m.key ++ 34 :: (m.afterKey ++ afterMember ms)) :: (m.afterKey ++ afterMember ms) ::
      (m.value.openings (afterMember ms) ++ openings ms)

namespace Object

/-- The place the search for a key stops at. -/
def found (o : Object) (key : List UInt8) : Option (List UInt8) :=
  (openings o.members).find? fun r => (needle key).isPrefixOf r

/-- A place is the key of the key's own member, and no colon of a long key is left behind it. -/
def Own (o : Object) (key r : List UInt8) : Prop :=
  58 ∉ key.drop 126 ∧ ∃ pre m post, o.members = pre ++ m :: post ∧ m.key = key ∧
    r = key ++ 34 :: (m.afterKey ++ afterMember post)

end Object

/-- What the search finds for the name of a field: the value of the first member with this
key, unless a member before it has this text as its value. Then it is the value of the member
that follows. -/
def scan (key : List UInt8) : List Member → Option Value
  | [] => none
  | m :: ms =>
    if m.key = key then some m.value
    else if m.value.IsStr key then ms.head?.map Member.value
    else scan key ms

/-- The members behind a string that is taken for the key: one with the text of the key, before any
member with this key. -/
def shadowed (key : List UInt8) : List Member → Option (List Member)
  | [] => none
  | m :: ms =>
    if m.key = key then none else if m.value.IsStr key then some ms else shadowed key ms

variable {key rest : List UInt8} {outLen : Nat} {ms : List Member}

/-- No quotes in plain text. -/
lemma Plain.quote_not_mem {text : List UInt8} (h : Plain text) : 34 ∉ text :=
  fun hm => (h 34 hm).1 rfl

lemma Member.quote_not_mem_blanks (m : Member) : 34 ∉ m.blanks := by
  intro hm
  rcases m.blank 34 hm with h | h <;> exact absurd h (by decide)

/-- The quotes of a value. -/
lemma behind_value (v : Value) (rest : List UInt8) :
    behind 34 (v.text ++ rest) = v.openings rest ++ behind 34 rest := by
  cases v with
  | str text plain =>
    rw [Value.text, List.cons_append, List.append_assoc, List.singleton_append, behind_cons_self,
      behind_append plain.quote_not_mem, behind_cons_self]
    rfl
  | bare text ne literal =>
    have hq : 34 ∉ text := fun hm => absurd (literal 34 hm) (by decide)
    rw [Value.text, behind_append hq]
    rfl

/-- The quotes of a member. -/
lemma behind_member (m : Member) (rest : List UInt8) :
    behind 34 (m.text ++ rest) =
      (m.key ++ 34 :: (m.afterKey ++ rest)) :: (m.afterKey ++ rest) ::
        (m.value.openings rest ++ behind 34 rest) := by
  rw [Member.text, List.cons_append, List.append_assoc, List.cons_append, behind_cons_self,
    behind_append m.plain.quote_not_mem, behind_cons_self, Member.afterKey, List.cons_append,
    behind_cons_of_ne (by decide), List.append_assoc, behind_append m.quote_not_mem_blanks,
      behind_value]

/-- The quotes of the members that follow. -/
lemma behind_afterMember (ms : List Member) : behind 34 (afterMember ms) = openings ms := by
  induction ms with
  | nil => rfl
  | cons m ms ih => rw [afterMember, behind_cons_of_ne (by decide), behind_member, ih, openings]

/-- The quotes of an object. -/
lemma Object.behind_text (o : Object) : behind 34 o.text = openings o.members := by
  rw [Object.text]
  cases o.members with
  | nil => rfl
  | cons m ms =>
    show behind 34 (123 :: (m.text ++ afterMember ms)) = _
    rw [behind_cons_of_ne (by decide), behind_member, behind_afterMember, openings]

/-- The search among what follows a quote. -/
lemma jsonField_eq (json key : List UInt8) (outLen : Nat) :
    Auth.jsonField json key outLen =
      ((behind 34 json).find? fun r => (needle key).isPrefixOf r).bind fun r =>
        readField outLen (r.drop (needle key).length) := by
  have hsearch : (cstr "\"" ++ key ++ cstr "\"").take 127 = 34 :: needle key := rfl
  rw [Auth.jsonField, hsearch, strstr_cons]
  cases (behind 34 json).find? fun r => (needle key).isPrefixOf r with
  | none => rfl
  | some r => rfl

/-- The search in an object. -/
lemma Object.jsonField_text (o : Object) (key : List UInt8) (outLen : Nat) :
    Auth.jsonField o.text key outLen =
      (o.found key).bind fun r => readField outLen (r.drop (needle key).length) := by
  rw [jsonField_eq, o.behind_text, Object.found]

/-! ## Reading a value -/

/-- Text without a colon is skipped. -/
lemma readField_append {l : List UInt8} (h : 58 ∉ l) (rest : List UInt8) :
    readField outLen (l ++ rest) = readField outLen rest := by
  rw [readField, readField, strchr_append h]

/-- A value begins with no blank. -/
lemma Value.text_head (v : Value) : ∃ b t, v.text = b :: t ∧ b ≠ 32 ∧ b ≠ 9 := by
  cases v with
  | str text plain => exact ⟨34, _, rfl, by decide, by decide⟩
  | bare text ne literal =>
    cases text with
    | nil => exact absurd rfl ne
    | cons b t =>
      refine ⟨b, t, rfl, ?_, ?_⟩
      · rintro rfl
        exact absurd (literal 32 List.mem_cons_self) (by decide)
      · rintro rfl
        exact absurd (literal 9 List.mem_cons_self) (by decide)

/-- A comma or the closing brace follows. -/
lemma afterMember_head (ms : List Member) : ∃ b t, afterMember ms = b :: t ∧
    (b = 44 ∨ b = 125) := by
  cases ms with
  | nil => exact ⟨125, [], rfl, .inr rfl⟩
  | cons m ms => exact ⟨44, _, rfl, .inl rfl⟩

/-- A byte of a literal value does not end it. -/
lemma not_end_of_isLiteral {b : UInt8} (h : isLiteral b = true) :
    (b ≠ 34) ∧ (decide (b ≠ 44) && decide (b ≠ 125) && decide (b ≠ 10)) = true := by
  refine ⟨?_, ?_⟩
  · rintro rfl
    exact absurd h (by decide)
  · simp only [Bool.and_eq_true, decide_eq_true_eq]
    refine ⟨⟨?_, ?_⟩, ?_⟩ <;> · rintro rfl; exact absurd h (by decide)

/-- Behind its colon a member's own value is read. -/
lemma readField_afterKey (m : Member) (ms : List Member) :
    readField outLen (m.afterKey ++ afterMember ms) = some (m.value.cut outLen) := by
  have hblanks : ∀ b ∈ m.blanks, (b == 32 || b == 9) = true := by
    intro b hb
    simpa using m.blank b hb
  obtain ⟨b, t, hv, h32, h9⟩ := m.value.text_head
  have hskip : (m.blanks ++ (m.value.text ++ afterMember ms)).dropWhile (fun b => b == 32 ||
    b == 9) =
      m.value.text ++ afterMember ms := by
    rw [List.dropWhile_append_of_pos hblanks, hv, List.cons_append, List.dropWhile_cons_of_neg]
    simpa using ⟨h32, h9⟩
  rw [readField, Member.afterKey, List.cons_append, List.append_assoc, strchr_cons_self,
    Option.bind_eq_bind, Option.bind_some, List.drop_one, List.tail_cons, hskip]
  cases hm : m.value with
  | str text plain =>
    rw [Value.text, List.cons_append, List.append_assoc, List.singleton_append]
    show (if 34 ∈ text ++ 34 :: afterMember ms then _ else none) = _
    rw [if_pos (by simp), takeWhile_append_cons plain.quote_not_mem]
    rfl
  | bare text ne literal =>
    obtain ⟨e, t', he, hend⟩ := afterMember_head ms
    have hread : (text ++ afterMember ms).takeWhile
        (fun b => decide (b ≠ 44) && decide (b ≠ 125) && decide (b ≠ 10)) = text := by
      rw [List.takeWhile_append_of_pos fun b hb => (not_end_of_isLiteral (literal b hb)).2, he,
        List.takeWhile_cons_of_neg, List.append_nil]
      rcases hend with rfl | rfl <;> decide
    rw [Value.text]
    split
    · next p hp =>
      cases text with
      | nil => exact absurd rfl ne
      | cons b' t'' =>
        exact absurd (List.cons.inj hp).1 (not_end_of_isLiteral (literal b' List.mem_cons_self)).1
    · rw [hread]
      rfl

/-- Behind a member the value of the next one is read. -/
lemma readField_afterMember (h : ∀ m ∈ ms, 58 ∉ m.key) :
    readField outLen (afterMember ms) = (ms.head?.map Member.value).map (Value.cut outLen) := by
  cases ms with
  | nil => rfl
  | cons m ms =>
    have hskip : (58 : UInt8) ∉ 44 :: 34 :: (m.key ++ [34]) := by
      simp [h m List.mem_cons_self]
    have htext : afterMember (m :: ms) =
        (44 :: 34 :: (m.key ++ [34])) ++ (m.afterKey ++ afterMember ms) := by
      simp [afterMember, Member.text]
    rw [htext, readField_append hskip, readField_afterKey]
    rfl

/-! ## The key's own place -/

/-- The key of a member is one of the places. -/
lemma mem_openings (pre : List Member) (m : Member) (post : List Member) :
    m.key ++ 34 :: (m.afterKey ++ afterMember post) ∈ openings (pre ++ m :: post) := by
  induction pre with
  | nil => exact List.mem_cons_self
  | cons m' pre ih =>
    exact List.mem_cons_of_mem _ (List.mem_cons_of_mem _ (List.mem_append_right _ ih))

/-- The key and its quote. -/
lemma needle_prefix (key rest : List UInt8) : needle key <+: key ++ 34 :: rest := by
  have htext : key ++ 34 :: rest = (key ++ [34]) ++ rest := by simp
  rw [htext]
  exact (List.take_prefix 126 _).trans (List.prefix_append _ _)

/-- What is left behind the text that was found at a key. -/
lemma drop_needle (key rest : List UInt8) :
    (key ++ 34 :: rest).drop (needle key).length = (key ++ [34]).drop 126 ++ rest := by
  have htext : key ++ 34 :: rest = needle key ++ ((key ++ [34]).drop 126 ++ rest) := by
    rw [needle, ← List.append_assoc, List.take_append_drop]
    simp
  rw [htext, List.drop_left]

/-- A key that the search does not meet is no key of the object. -/
lemma Object.lookup_of_found_eq_none {o : Object} (h : o.found key = none) :
    o.lookup key = none := by
  rw [Object.lookup, Option.map_eq_none_iff, List.find?_eq_none]
  intro m hm hkey
  obtain ⟨pre, post, hms⟩ := List.append_of_mem hm
  have hm := mem_openings pre m post
  rw [← hms] at hm
  apply List.find?_eq_none.mp h _ hm
  rw [List.isPrefixOf_iff_prefix, of_decide_eq_true hkey]
  exact needle_prefix key _

/-- The value of a member. -/
lemma Object.lookup_of_mem {o : Object} {m : Member} (hm : m ∈ o.members) :
    o.lookup m.key = some m.value := by
  have hsome : (o.members.find? fun m' => m'.key = m.key).isSome = true :=
    List.find?_isSome.mpr ⟨m, hm, decide_eq_true rfl⟩
  obtain ⟨m', hm'⟩ := Option.isSome_iff_exists.mp hsome
  have hkey : m'.key = m.key := by simpa using List.find?_some hm'
  have heq := List.inj_on_of_nodup_map o.nodup (List.mem_of_find?_eq_some hm') hm hkey
  rw [Object.lookup, hm', heq]
  rfl

/-- At the key's own place the right value is read. -/
lemma Object.Own.readField {o : Object} {r : List UInt8} (h : o.Own key r) :
    Json.readField outLen (r.drop (needle key).length) = (o.lookup key).map (Value.cut outLen) := by
  obtain ⟨hcolon, pre, m, post, hms, rfl, rfl⟩ := h
  have hm : m ∈ o.members := by
    rw [hms]
    exact List.mem_append_right pre List.mem_cons_self
  have hskip : (58 : UInt8) ∉ (m.key ++ [34]).drop 126 := by
    rw [List.drop_append]
    intro h
    rcases List.mem_append.mp h with h | h
    · exact hcolon h
    · exact absurd (List.mem_of_mem_drop h) (by decide)
  rw [drop_needle, readField_append hskip, readField_afterKey, o.lookup_of_mem hm]
  rfl

/-! ## Names of fields -/

/-- A name of a field: a key that fits into the buffer of the search, without quotes and colons, and
that is not the text between two strings. -/
structure IsName (key : List UInt8) : Prop where
  length_le : key.length ≤ 125
  quote : 34 ∉ key
  colon : 58 ∉ key
  comma : key ≠ [44]

/-- A name is not cut. -/
lemma IsName.needle_eq (h : IsName key) : needle key = key ++ [34] :=
  List.take_of_length_le (by simpa using Nat.succ_le_succ h.length_le)

/-- A name is found where a text is the name. -/
lemma IsName.isPrefixOf_iff (h : IsName key) {text : List UInt8} (ht : 34 ∉ text)
    (rest : List UInt8) :
    (key ++ [34]).isPrefixOf (text ++ 34 :: rest) = true ↔ text = key := by
  rw [List.isPrefixOf_iff_prefix, append_singleton_prefix_iff h.quote ht, eq_comm]

/-- No name starts behind a key. -/
lemma IsName.not_afterKey (h : IsName key) (m : Member) :
    ¬ (key ++ [34]).isPrefixOf (m.afterKey ++ rest) = true := by
  rw [List.isPrefixOf_iff_prefix, Member.afterKey, List.cons_append]
  intro hp
  cases key with
  | nil => exact absurd (List.cons_prefix_cons.mp hp).1 (by decide)
  | cons b key =>
    have hb : b = 58 := (List.cons_prefix_cons.mp hp).1
    exact h.colon (hb ▸ List.mem_cons_self)

/-- No name starts behind a string. -/
lemma IsName.not_afterMember (h : IsName key) (ms : List Member) :
    ¬ (key ++ [34]).isPrefixOf (afterMember ms) = true := by
  cases ms with
  | nil =>
    intro hp
    have hmem : (34 : UInt8) ∈ [125] := (List.isPrefixOf_iff_prefix.mp hp).subset (by simp)
    exact absurd hmem (by decide)
  | cons m ms =>
    intro hp
    have hp :
      (key ++ [34]).isPrefixOf ([44] ++ 34 :: (m.key ++ 34 :: m.afterKey ++ afterMember ms)) =
      true :=
      hp
    exact h.comma ((h.isPrefixOf_iff (by decide) _).mp hp).symm

/-- What is left where a name was found. -/
lemma drop_name (key rest : List UInt8) : (key ++ 34 :: rest).drop (key ++ [34]).length = rest := by
  have htext : key ++ 34 :: rest = (key ++ [34]) ++ rest := by simp
  rw [htext, List.drop_left]

/-- The search for a name of a field. -/
lemma IsName.find_openings (h : IsName key) (hms : ∀ m ∈ ms, 58 ∉ m.key) :
    (((openings ms).find? fun r => (key ++ [34]).isPrefixOf r).bind fun r =>
      readField outLen (r.drop (key ++ [34]).length)) = (scan key ms).map (Value.cut outLen) := by
  induction ms with
  | nil => rfl
  | cons m ms ih =>
    have hms' : ∀ m' ∈ ms, 58 ∉ m'.key := fun m' hm' => hms m' (List.mem_cons_of_mem m hm')
    have hfound := h.isPrefixOf_iff m.plain.quote_not_mem (m.afterKey ++ afterMember ms)
    rw [openings, scan]
    by_cases hkey : m.key = key
    · -- The member's own key.
      rw [if_pos hkey, List.find?_cons_of_pos (hfound.mpr hkey), hkey, Option.bind_some, drop_name,
        readField_afterKey]
      rfl
    · rw [if_neg hkey, List.find?_cons_of_neg fun hp => hkey (hfound.mp hp),
        List.find?_cons_of_neg (h.not_afterKey m)]
      cases m.value with
      | bare text ne literal =>
        rw [if_neg (show ¬ (Value.bare text ne literal).IsStr key from id)]
        exact ih hms'
      | str text plain =>
        have hfound := h.isPrefixOf_iff plain.quote_not_mem (afterMember ms)
        rw [Value.openings, List.cons_append, List.cons_append, List.nil_append]
        by_cases htext : text = key
        · -- A string with the text of the name.
          rw [if_pos (show (Value.str text plain).IsStr key from htext),
            List.find?_cons_of_pos (hfound.mpr htext), htext, Option.bind_some, drop_name,
            readField_afterMember hms']
        · rw [if_neg (show ¬ (Value.str text plain).IsStr key from htext),
            List.find?_cons_of_neg fun hp => htext (hfound.mp hp),
            List.find?_cons_of_neg (h.not_afterMember ms)]
          exact ih hms'

/-- What is found for a name is the value of its key, if no string is taken for it. -/
lemma scan_eq (key : List UInt8) (ms : List Member) :
    scan key ms = ((shadowed key ms).map fun post => post.head?.map Member.value).getD
      ((ms.find? fun m => m.key = key).map Member.value) := by
  induction ms with
  | nil => rfl
  | cons m ms ih =>
    rw [scan, shadowed]
    by_cases hkey : m.key = key
    · rw [if_pos hkey, if_pos hkey, List.find?_cons_of_pos (by simpa using hkey)]
      rfl
    · rw [if_neg hkey, if_neg hkey, List.find?_cons_of_neg (by simpa using hkey)]
      split
      · rfl
      · exact ih

/-- The field of a key is right exactly when the search stops at the key's own place or nowhere, or
when it stops elsewhere and happens to read the same. Where the name of a field is searched and no
key has a colon, it finds what `scan` says: it is right exactly when no string is taken for the key,
or the value that follows this string is the one of the key, as far as the buffer has room for them.
The two services find the same. -/
theorem json_field_flat_iff (o : Object) (key : List UInt8) (outLen : Nat) :
    (Auth.jsonField o.text key outLen = (o.lookup key).map (Value.cut outLen) ↔
      ∀ r, o.found key = some r → o.Own key r ∨
        readField outLen (r.drop (needle key).length) = (o.lookup key).map (Value.cut outLen)) ∧
    (IsName key → (∀ m ∈ o.members, 58 ∉ m.key) →
      Auth.jsonField o.text key outLen = (scan key o.members).map (Value.cut outLen) ∧
      (Auth.jsonField o.text key outLen = (o.lookup key).map (Value.cut outLen) ↔
        ∀ post, shadowed key o.members = some post →
          (post.head?.map Member.value).map (Value.cut outLen) =
            (o.lookup key).map (Value.cut outLen))) ∧
    ∀ json key outLen, Billing.jsonField json key outLen = Auth.jsonField json key outLen := by
  refine ⟨⟨?_, ?_⟩, ?_, fun _ _ _ => rfl⟩
  · intro h r hr
    rw [o.jsonField_text, hr, Option.bind_some] at h
    exact .inr h
  · intro h
    rw [o.jsonField_text]
    cases hr : o.found key with
    | none =>
      rw [Object.lookup_of_found_eq_none hr]
      rfl
    | some r =>
      rw [Option.bind_some]
      rcases h r hr with hown | heq
      · exact hown.readField
      · exact heq
  · intro hname hms
    have hscan : Auth.jsonField o.text key outLen = (scan key o.members).map
      (Value.cut outLen) := by
      rw [o.jsonField_text, Object.found, hname.needle_eq, hname.find_openings hms]
    refine ⟨hscan, ?_⟩
    rw [hscan, scan_eq]
    cases shadowed key o.members with
    | none => exact iff_of_true rfl (by simp)
    | some post => simp

/-- A field behind a number. -/
theorem json_field_flat_iff_sample :
    ∃ o : Object, o.text = cstr "\x7b\"bytes\": 10,\"user_id\":\"u\"\x7d" ∧
      IsName (cstr "user_id") ∧
      Auth.jsonField o.text (cstr "user_id") 64 = (o.lookup (cstr "user_id")).map (Value.cut 64) ∧
      Auth.jsonField o.text (cstr "user_id") 64 = some (cstr "u") := by
  have hname : IsName (cstr "user_id") := ⟨by decide, by decide, by decide, by decide⟩
  refine ⟨⟨[⟨cstr "bytes", [32], .bare (cstr "10") (by decide) (List.all_eq_true.mp (by decide)), by
    decide, by simp⟩, .string (cstr "user_id") (cstr "u") (by decide) (by decide)], by decide⟩, by
      decide, hname,
    (json_field_flat_iff _ _ _).1.mpr ?_, ((json_field_flat_iff _ _ _).2.1 hname (by decide)).1⟩
  intro r hr
  refine .inl ⟨by decide, [_], _, [], rfl, rfl, ?_⟩
  exact Option.some.inj (hr.symm.trans (by decide))

/-- A string with the text of a key is taken for the key, before the key and where there
is no such key. -/
theorem value_taken_for_key :
    (∃ o : Object, o.text = cstr "\x7b\"a\":\"device_id\",\"b\":\"y\",\"device_id\":\"x\"\x7d" ∧
      (o.lookup (cstr "device_id")).map (Value.cut 64) = some (cstr "x") ∧
      Auth.jsonField o.text (cstr "device_id") 64 = some (cstr "y")) ∧
    ∃ o : Object, o.text = cstr "\x7b\"a\":\"tier\",\"b\":\"enterprise\"\x7d" ∧
      o.lookup (cstr "tier") = none ∧ Auth.jsonField o.text (cstr "tier") 16 =
        some (cstr "enterprise") := by
  refine ⟨⟨⟨[.string (cstr "a") (cstr "device_id") (by decide) (by decide),
    .string (cstr "b") (cstr "y") (by decide) (by decide),
    .string (cstr "device_id") (cstr "x") (by decide) (by decide)], by decide⟩, ?_, ?_, ?_⟩,
    ⟨⟨[.string (cstr "a") (cstr "tier") (by decide) (by decide),
    .string (cstr "b") (cstr "enterprise") (by decide) (by decide)], by decide⟩, ?_, rfl, ?_⟩⟩
  all_goals decide

end RoboControl.Json
