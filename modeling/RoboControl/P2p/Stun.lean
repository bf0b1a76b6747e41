import RoboControl.Base.Bytes
import RoboControl.Base.Decimal
import RoboControl.Base.Words

/-!
# STUN responses

Model of `stun_parse_response` of `src/core/rc_p2p.c` (`stunParseResponse`). It walks the attributes
of a binding response at offsets of the buffer; a read outside of the buffer is `none`, and so is a
walk that does not come to its end. What it is for is said on the bytes of the message itself:
`attributes` are the attributes one after the other, and the answer is the address of the first one
that carries one (`stunParseResponse_eq`).
-/

namespace RoboControl.P2p
open Base

/-- The cookie of every message (C `STUN_MAGIC`). -/
def stunMagic : UInt32 := 0x2112A442

/-- Type of a binding response (C `STUN_BINDING_RESP`). -/
def stunBindingResp : UInt16 := 0x0101

/-- Attribute MAPPED-ADDRESS (C `STUN_ATTR_MAPPED_ADDR`). -/
def stunAttrMappedAddr : UInt16 := 0x0001

/-- Attribute XOR-MAPPED-ADDRESS (C `STUN_ATTR_XOR_MAPPED`). -/
def stunAttrXorMapped : UInt16 := 0x0020

/-- An IPv4 address as the parser fills it in (C `rc_addr_t` with a `struct sockaddr_in`). The port
and the address are the integers in the host's memory, so in network order. -/
structure Addr where
  sinFamily : UInt16
  sinPort : UInt16
  sAddr : UInt32
  ssLen : Nat
  str : List UInt8
  deriving DecidableEq

/-- Port in network order (C `htons`). -/
def htons (host : Endian) (port : UInt16) : UInt16 := UInt16.ofNat (hton host 2 port.toNat)

/-- Address in network order (C `htonl`). -/
def htonl (host : Endian) (ip : UInt32) : UInt32 := UInt32.ofNat (hton host 4 ip.toNat)

/-- Text of an IPv4 address from its bytes in memory (C `inet_ntop` for `AF_INET`). -/
def inetNtop (bytes : List UInt8) : List UInt8 :=
  List.intercalate [0x2E] (bytes.map fun b => digits b.toNat)

/-- Fill in an IPv4 address. -/
def sockaddrIn (host : Endian) (port : UInt16) (ip : UInt32) : Addr where
  sinFamily := 2
  sinPort := htons host port
  sAddr := htonl host ip
  ssLen := 16
  str := inetNtop (store host 4 (htonl host ip).toNat)

/-- Read of two bytes, the most significant first. -/
def read16 (buf : List UInt8) (i : Nat) : Option UInt16 := do
  let a ← buf[i]?
  let b ← buf[i + 1]?
  return be16 a b

/-- Read of four bytes, the most significant first. -/
def read32 (buf : List UInt8) (i : Nat) : Option UInt32 := do
  let a ← buf[i]?
  let b ← buf[i + 1]?
  let c ← buf[i + 2]?
  let d ← buf[i + 3]?
  return be32 a b c d

/-- Length of a value with its padding (C `(attr_len + 3) & ~3`, an `int`). -/
def paddedLen (attrLen : UInt16) : Nat := ((attrLen.toUInt32 + 3) &&& ~~~3).toNat

/-- The address in the attribute at offset `attr`, if it is an IPv4 address. -/
def stunAttr (host : Endian) (buf : List UInt8) (attr : Nat) (attrType attrLen : UInt16) :
    Option (Option Addr) :=
  if (attrType = stunAttrXorMapped ∨ attrType = stunAttrMappedAddr) ∧ attrLen ≥ 8 then do
    let family ← buf[attr + 5]?
    if family = 0x01 ∧ attrLen ≥ 8 then
      let port ← read16 buf (attr + 6)
      let ip ← read32 buf (attr + 8)
      if attrType = stunAttrXorMapped then
        return some (sockaddrIn host (port ^^^ (stunMagic >>> 16).toUInt16) (ip ^^^ stunMagic))
      else return some (sockaddrIn host port ip)
    else return none
  else some none

/-- The loop over the attributes from offset `attr` to `stop` (C `end`). -/
def stunScan (host : Endian) (buf : List UInt8) (stop : Nat) : Nat → Nat → Option (Option Addr)
  | 0, _ => none
  | fuel + 1, attr =>
    if attr + 4 ≤ stop then do
      let attrType ← read16 buf attr
      let attrLen ← read16 buf (attr + 2)
      if attr + 4 + attrLen.toNat > stop then some none
      else
        match ← stunAttr host buf attr attrType attrLen with
        | some addr => some (some addr)
        | none => stunScan host buf stop fuel (attr + (4 + paddedLen attrLen))
    else some none

/-- Parse a binding response (C `stun_parse_response`); the inner `none` is the result -1. -/
def stunParseResponse (host : Endian) (fuel : Nat) (buf : List UInt8) : Option (Option Addr) :=
  if buf.length < 20 then some none
  else do
    let msgType ← read16 buf 0
    let msgLen ← read16 buf 2
    let magic ← read32 buf 4
    if msgType ≠ stunBindingResp then some none
    else if magic ≠ stunMagic then some none
    else if buf.length < 20 + msgLen.toNat then some none
    else stunScan host buf (20 + msgLen.toNat) fuel 20

/-! ## The attributes of a message -/

/-- Type and value of the first attribute, and what comes after its padding. -/
def splitAttr : List UInt8 → Option (UInt16 × List UInt8 × List UInt8)
  | t₁ :: t₂ :: n₁ :: n₂ :: rest =>
    let len := (be16 n₁ n₂).toNat
    if len ≤ rest.length then some (be16 t₁ t₂, rest.take len, rest.drop ((len + 3) / 4 * 4))
    else none
  | _ => none

/-- What follows an attribute is shorter. -/
lemma splitAttr_lt {body v rest : List UInt8} {t : UInt16}
    (h : splitAttr body = some (t, v, rest)) :
    rest.length < body.length := by
  unfold splitAttr at h
  split at h
  · simp only [Option.ite_none_right_eq_some, Option.some.injEq, Prod.mk.injEq] at h
    obtain ⟨_, _, _, rfl⟩ := h
    simp only [List.length_drop, List.length_cons]
    omega
  · cases h

/-- The attributes that a walk over the message reaches, in order. -/
def attributes (body : List UInt8) : List (UInt16 × List UInt8) :=
  match _h : splitAttr body with
  | none => []
  | some (t, v, rest) => (t, v) :: attributes rest
termination_by body.length
decreasing_by exact splitAttr_lt _h

/-- No attribute is left. -/
lemma attributes_none {body : List UInt8} (h : splitAttr body = none) : attributes body = [] := by
  rw [attributes]
  split <;> simp_all

/-- The first attribute. -/
lemma attributes_some {body v rest : List UInt8} {t : UInt16}
    (h : splitAttr body = some (t, v, rest)) :
    attributes body = (t, v) :: attributes rest := by
  rw [attributes]
  split <;> simp_all

/-- An IPv4 MAPPED-ADDRESS or XOR-MAPPED-ADDRESS of length at least 8. -/
def IsMapped (a : UInt16 × List UInt8) : Prop :=
  (a.1 = stunAttrXorMapped ∨ a.1 = stunAttrMappedAddr) ∧ 8 ≤ a.2.length ∧ a.2[1]? = some 0x01

instance (a : UInt16 × List UInt8) : Decidable (IsMapped a) :=
  inferInstanceAs (Decidable (_ ∧ _ ∧ _))

/-- The address in an attribute. -/
def mappedAddr (host : Endian) (a : UInt16 × List UInt8) : Option Addr :=
  if IsMapped a then do
    let port ← read16 a.2 2
    let ip ← read32 a.2 4
    if a.1 = stunAttrXorMapped then
      return sockaddrIn host (port ^^^ (stunMagic >>> 16).toUInt16) (ip ^^^ stunMagic)
    else return sockaddrIn host port ip
  else none

/-- Two bytes that are there. -/
lemma read16_of_lt (buf : List UInt8) (i : Nat) (h : i + 1 < buf.length) :
    ∃ w, read16 buf i = some w := by
  rw [read16, List.getElem?_eq_getElem (by omega), List.getElem?_eq_getElem h]
  exact ⟨_, rfl⟩

/-- Four bytes that are there. -/
lemma read32_of_lt (buf : List UInt8) (i : Nat) (h : i + 3 < buf.length) :
    ∃ w, read32 buf i = some w := by
  rw [read32, List.getElem?_eq_getElem (by omega), List.getElem?_eq_getElem (by omega),
    List.getElem?_eq_getElem (by omega), List.getElem?_eq_getElem h]
  exact ⟨_, rfl⟩

/-- The attributes that have an address. -/
lemma mappedAddr_isSome (host : Endian) (a : UInt16 × List UInt8) :
    (mappedAddr host a).isSome ↔ IsMapped a := by
  rw [mappedAddr]
  split
  case isTrue h =>
    obtain ⟨port, hport⟩ := read16_of_lt a.2 2 (by have := h.2.1; omega)
    obtain ⟨ip, hip⟩ := read32_of_lt a.2 4 (by have := h.2.1; omega)
    rw [hport, hip]
    by_cases hx : a.1 = stunAttrXorMapped
    · simp [hx, h]
    · simp [hx, h]
  case isFalse h => simp [h]

/-! ## The walk over the buffer -/

/-- The length with its padding. -/
lemma toNat_paddedLen (n : UInt16) : paddedLen n = (n.toNat + 3) / 4 * 4 := by
  have hn := n.toNat_lt
  have hsum : (n.toUInt32 + 3).toNat = n.toNat + 3 := by
    rw [UInt32.toNat_add, UInt16.toNat_toUInt32]
    show (n.toNat + 3) % 2 ^ 32 = n.toNat + 3
    omega
  -- clearing the two low bits is a division by four
  have hand : ∀ x : Nat, x < 2 ^ 32 → x &&& 4294967292 = x / 4 * 4 := by
    intro x hx
    have hmask : 4294967292 = (2 ^ 30 - 1) <<< 2 := by decide
    have hx4 : x / 4 * 4 = (x >>> 2 &&& (2 ^ 30 - 1)) <<< 2 := by
      rw [Nat.and_two_pow_sub_one_eq_mod, Nat.shiftRight_eq_div_pow, Nat.shiftLeft_eq]
      omega
    rw [hx4, hmask]
    refine Nat.eq_of_testBit_eq fun i => ?_
    simp only [Nat.testBit_and, Nat.testBit_shiftLeft, Nat.testBit_shiftRight]
    by_cases hi : 2 ≤ i
    · simp [hi]
    · simp [hi]
  rw [paddedLen, UInt32.toNat_and, hsum]
  exact hand _ (by omega)

section Walk
variable {host : Endian} {buf : List UInt8} {stop attr : Nat}

/-- The part of the message that is still to be walked over. -/
def remaining (buf : List UInt8) (stop attr : Nat) : List UInt8 := (buf.take stop).drop attr

/-- What is left further on. -/
lemma remaining_add (k : Nat) : remaining buf stop (attr + k) = (remaining buf stop attr).drop
    k := by
  rw [remaining, remaining, List.drop_drop]

/-- A byte that is still to be walked over is a byte of the buffer. -/
lemma getElem?_remaining {i : Nat} (h : attr + i < stop) :
    buf[attr + i]? = (remaining buf stop attr)[i]? := by
  rw [remaining, List.getElem?_drop, List.getElem?_take_of_lt h]

/-- Reads of bytes that two buffers share. -/
lemma read16_congr {buf' : List UInt8} {i j : Nat} (h : ∀ k < 2, buf[i + k]? = buf'[j + k]?) :
    read16 buf i = read16 buf' j := by
  have h0 := h 0 (by decide)
  have h1 := h 1 (by decide)
  rw [Nat.add_zero, Nat.add_zero] at h0
  rw [read16, read16, h0, h1]

/-- The bytes decide. -/
lemma read32_congr {buf' : List UInt8} {i j : Nat} (h : ∀ k < 4, buf[i + k]? = buf'[j + k]?) :
    read32 buf i = read32 buf' j := by
  have h0 := h 0 (by decide)
  have h1 := h 1 (by decide)
  have h2 := h 2 (by decide)
  have h3 := h 3 (by decide)
  rw [Nat.add_zero, Nat.add_zero] at h0
  rw [read32, read32, h0, h1, h2, h3]

/-- Reads of the value of an attribute, which starts behind its header. -/
lemma read16_value {v : List UInt8} (hv : ∀ i < v.length, buf[attr + (4 + i)]? = v[i]?) {i : Nat}
    (hi : i + 2 ≤ v.length) : read16 buf (attr + (4 + i)) = read16 v i := by
  refine read16_congr fun k hk => ?_
  rw [← hv (i + k) (by omega), Nat.add_assoc, Nat.add_assoc]

/-- Reading in the value of an attribute. -/
lemma read32_value {v : List UInt8} (hv : ∀ i < v.length, buf[attr + (4 + i)]? = v[i]?) {i : Nat}
    (hi : i + 4 ≤ v.length) : read32 buf (attr + (4 + i)) = read32 v i := by
  refine read32_congr fun k hk => ?_
  rw [← hv (i + k) (by omega), Nat.add_assoc, Nat.add_assoc]

/-- The address is read from the value of the attribute. -/
lemma stunAttr_eq {t n : UInt16} {v : List UInt8} (hlen : v.length = n.toNat)
    (hv : ∀ i < v.length, buf[attr + (4 + i)]? = v[i]?) :
    stunAttr host buf attr t n = some (mappedAddr host (t, v)) := by
  have h8 : n ≥ 8 ↔ 8 ≤ v.length := by
    rw [hlen]
    exact UInt16.le_iff_toNat_le
  by_cases h : (t = stunAttrXorMapped ∨ t = stunAttrMappedAddr) ∧ n ≥ 8
  · have hlong := h8.mp h.2
    obtain ⟨port, hport⟩ := read16_of_lt v 2 (by omega)
    obtain ⟨ip, hip⟩ := read32_of_lt v 4 (by omega)
    have hfam : buf[attr + 5]? = some v[1] := (hv 1 (by omega)).trans (List.getElem?_eq_getElem _)
    have hport' : read16 buf (attr + 6) = some port := (read16_value hv (by omega)).trans hport
    have hip' : read32 buf (attr + 8) = some ip := (read32_value hv (by omega)).trans hip
    rw [stunAttr, if_pos h, hfam, mappedAddr, hport, hip, hport', hip']
    by_cases hf : v[1] = 0x01
    · have hmap : IsMapped (t, v) :=
        ⟨h.1, hlong, (List.getElem?_eq_getElem _).trans (congrArg some hf)⟩
      rw [if_pos hmap]
      by_cases hx : t = stunAttrXorMapped
      · simp [hf, hx, h.2]
      · simp [hf, hx, h.2]
    · have hmap : ¬ IsMapped (t, v) := by
        rintro ⟨_, _, h1⟩
        rw [← hv 1 (by omega)] at h1
        exact hf (Option.some.inj (hfam.symm.trans h1))
      simp [hf, hmap]
  · have hmap : ¬ IsMapped (t, v) := fun hm => h ⟨hm.1, h8.mpr hm.2.1⟩
    rw [stunAttr, if_neg h, mappedAddr, if_neg hmap]

lemma length_remaining (hstop : stop ≤ buf.length) (attr : Nat) :
    (remaining buf stop attr).length = stop - attr := by
  rw [remaining, List.length_drop, List.length_take, Nat.min_eq_left hstop]

/-- The header of an attribute that lies in front of `stop`. -/
lemma remaining_header (hstop : stop ≤ buf.length) (hroom : attr + 4 ≤ stop) :
    ∃ t₁ t₂ n₁ n₂ rest, remaining buf stop attr = t₁ :: t₂ :: n₁ :: n₂ :: rest ∧
      read16 buf attr = some (be16 t₁ t₂) ∧ read16 buf (attr + 2) = some (be16 n₁ n₂) := by
  have hlen := length_remaining hstop attr
  have htype : read16 buf attr = read16 (remaining buf stop attr) 0 := by
    refine read16_congr fun k hk => ?_
    rw [Nat.zero_add]
    exact getElem?_remaining (by omega)
  have hsize : read16 buf (attr + 2) = read16 (remaining buf stop attr) 2 := by
    refine read16_congr fun k hk => ?_
    rw [Nat.add_assoc]
    exact getElem?_remaining (by omega)
  rcases hrem : remaining buf stop attr with _ | ⟨t₁, _ | ⟨t₂, _ | ⟨n₁, _ | ⟨n₂, rest⟩⟩⟩⟩
  case cons.cons.cons.cons =>
    rw [hrem] at htype hsize
    exact ⟨t₁, t₂, n₁, n₂, rest, rfl, htype, hsize⟩
  all_goals
    rw [hrem] at hlen
    simp only [List.length_nil, List.length_cons] at hlen
    omega

/-- One turn of the loop handles the first attribute of what remains. -/
lemma stunScan_succ (hstop : stop ≤ buf.length) (fuel : Nat) :
    stunScan host buf stop (fuel + 1) attr =
      (splitAttr (remaining buf stop attr)).elim (some none) fun a =>
        (mappedAddr host (a.1, a.2.1)).elim
          (stunScan host buf stop fuel (attr + (4 + (a.2.1.length + 3) / 4 * 4)))
          fun addr => some (some addr) := by
  have hlen := length_remaining hstop attr
  rw [stunScan]
  by_cases hroom : attr + 4 ≤ stop
  · obtain ⟨t₁, t₂, n₁, n₂, rest, hrem, htype, hsize⟩ := remaining_header hstop hroom
    rw [hrem, List.length_cons, List.length_cons, List.length_cons, List.length_cons] at hlen
    rw [if_pos hroom, htype, hsize, hrem, splitAttr]
    by_cases hfit : (be16 n₁ n₂).toNat ≤ rest.length
    · have hval : (rest.take (be16 n₁ n₂).toNat).length = (be16 n₁ n₂).toNat := by
        rw [List.length_take, Nat.min_eq_left hfit]
      have hattr : stunAttr host buf attr (be16 t₁ t₂) (be16 n₁ n₂) = _ := stunAttr_eq hval (by
        intro i hi
        rw [hval] at hi
        have hin : attr + (4 + i) < stop := by omega
        rw [getElem?_remaining hin, hrem, List.getElem?_take_of_lt hi, Nat.add_comm]
        rfl)
      rw [if_pos hfit]
      simp only [Option.bind_eq_bind, Option.bind_some, Option.elim_some, hattr, hval,
        toNat_paddedLen]
      rw [if_neg (by omega)]
      cases mappedAddr host (be16 t₁ t₂, rest.take (be16 n₁ n₂).toNat) with
      | none => rfl
      | some addr => rfl
    · rw [if_neg hfit]
      simp only [Option.bind_eq_bind, Option.bind_some, Option.elim_none]
      rw [if_pos (by omega)]
  · rw [if_neg hroom]
    rcases hrem : remaining buf stop attr with _ | ⟨t₁, _ | ⟨t₂, _ | ⟨n₁, _ | ⟨n₂, rest⟩⟩⟩⟩
    case cons.cons.cons.cons =>
      rw [hrem] at hlen
      simp only [List.length_cons] at hlen
      omega
    all_goals rfl

/-- What follows an attribute and its padding. -/
lemma splitAttr_rest {body v rest : List UInt8} {t : UInt16}
    (h : splitAttr body = some (t, v, rest)) :
    rest = body.drop (4 + (v.length + 3) / 4 * 4) := by
  unfold splitAttr at h
  split at h
  · simp only [Option.ite_none_right_eq_some, Option.some.injEq, Prod.mk.injEq] at h
    obtain ⟨hfit, _, rfl, rfl⟩ := h
    rw [List.length_take, Nat.min_eq_left hfit, Nat.add_comm 4]
    rfl
  · cases h

/-- The loop comes to its end, and finds the first address of the attributes that remain. -/
lemma stunScan_eq (hstop : stop ≤ buf.length) {fuel : Nat} (hfuel : stop - attr < fuel) :
    stunScan host buf stop fuel attr =
      some ((attributes (remaining buf stop attr)).findSome? (mappedAddr host)) := by
  induction fuel generalizing attr with
  | zero => omega
  | succ fuel ih =>
    rw [stunScan_succ hstop]
    cases h : splitAttr (remaining buf stop attr) with
    | none => rw [attributes_none h, Option.elim_none, List.findSome?_nil]
    | some a =>
      obtain ⟨t, v, rest⟩ := a
      have hrest := splitAttr_rest h
      have hlt := splitAttr_lt h
      rw [length_remaining hstop attr] at hlt
      rw [attributes_some h, Option.elim_some, List.findSome?_cons]
      cases mappedAddr host (t, v) with
      | some addr => rfl
      | none =>
        rw [hrest, ← remaining_add]
        exact ih (by omega)

end Walk

/-! ## Binding responses -/

/-- A binding response whose attributes are the bytes `body`, with what the buffer
holds behind it. -/
def IsResponse (buf body : List UInt8) : Prop :=
  ∃ (len : UInt16) (txn extra : List UInt8), txn.length = 12 ∧ body.length = len.toNat ∧
    buf = bytes16 stunBindingResp ++
      (bytes16 len ++ (bytes32 stunMagic ++ (txn ++ (body ++ extra))))

/-- The bytes that are read. -/
lemma read16_eq_some_iff {buf : List UInt8} {i : Nat} {w : UInt16} :
    read16 buf i = some w ↔ ∃ l, buf.drop i = bytes16 w ++ l := by
  constructor
  · intro h
    simp only [read16, Option.bind_eq_bind, Option.bind_eq_some_iff, Option.pure_def,
      Option.some.injEq] at h
    obtain ⟨a, ha, b, hb, rfl⟩ := h
    obtain ⟨hi, rfl⟩ := List.getElem?_eq_some_iff.mp ha
    obtain ⟨hi', rfl⟩ := List.getElem?_eq_some_iff.mp hb
    refine ⟨buf.drop (i + 2), ?_⟩
    rw [bytes16_be16, List.drop_eq_getElem_cons hi, List.drop_eq_getElem_cons hi']
    rfl
  · rintro ⟨l, h⟩
    have h0 : buf[i]? = some (w >>> 8).toUInt8 := by
      rw [← Nat.add_zero i, ← List.getElem?_drop, h]
      rfl
    have h1 : buf[i + 1]? = some w.toUInt8 := by
      rw [← List.getElem?_drop, h]
      rfl
    rw [read16, h0, h1]
    exact congrArg some (be16_bytes16 w)

/-- The bytes that are read. -/
lemma read32_eq_some_iff {buf : List UInt8} {i : Nat} {w : UInt32} :
    read32 buf i = some w ↔ ∃ l, buf.drop i = bytes32 w ++ l := by
  constructor
  · intro h
    simp only [read32, Option.bind_eq_bind, Option.bind_eq_some_iff, Option.pure_def,
      Option.some.injEq] at h
    obtain ⟨a, ha, b, hb, c, hc, d, hd, rfl⟩ := h
    obtain ⟨hi, rfl⟩ := List.getElem?_eq_some_iff.mp ha
    obtain ⟨hi1, rfl⟩ := List.getElem?_eq_some_iff.mp hb
    obtain ⟨hi2, rfl⟩ := List.getElem?_eq_some_iff.mp hc
    obtain ⟨hi3, rfl⟩ := List.getElem?_eq_some_iff.mp hd
    refine ⟨buf.drop (i + 4), ?_⟩
    rw [bytes32_be32, List.drop_eq_getElem_cons hi, List.drop_eq_getElem_cons hi1,
      List.drop_eq_getElem_cons hi2, List.drop_eq_getElem_cons hi3]
    rfl
  · rintro ⟨l, h⟩
    have hbyte : ∀ k b, (bytes32 w ++ l)[k]? = some b → buf[i + k]? = some b := by
      intro k b hk
      rw [← List.getElem?_drop, h, hk]
    have h0 := hbyte 0 _ rfl
    rw [Nat.add_zero] at h0
    rw [read32, h0, hbyte 1 _ rfl, hbyte 2 _ rfl, hbyte 3 _ rfl]
    exact congrArg some (be32_bytes32 w)

section Response
variable {host : Endian} {buf body : List UInt8} {fuel : Nat}

/-- The parser finds the first address in the attributes of a response. -/
lemma stunParseResponse_of_response (h : IsResponse buf body) (hfuel : buf.length ≤ fuel) :
    stunParseResponse host fuel buf = some ((attributes body).findSome? (mappedAddr host)) := by
  obtain ⟨len, txn, extra, htxn, hbody, hbuf⟩ := h
  have hlong : buf.length = 20 + len.toNat + extra.length := by
    rw [hbuf]
    simp only [List.length_append, length_bytes16, length_bytes32, htxn, hbody]
    omega
  have htype : read16 buf 0 = some stunBindingResp := read16_eq_some_iff.mpr ⟨_, hbuf⟩
  have hlen : read16 buf 2 = some len := read16_eq_some_iff.mpr ⟨_, by rw [hbuf]; rfl⟩
  have hmagic : read32 buf 4 = some stunMagic := read32_eq_some_iff.mpr ⟨_, by rw [hbuf]; rfl⟩
  have hrem : remaining buf (20 + len.toNat) 20 = body := by
    have hdrop : buf.drop 20 = body ++ extra := by
      rw [hbuf]
      show (txn ++ (body ++ extra)).drop 12 = _
      exact List.drop_left' htxn
    rw [remaining, ← List.take_drop, hdrop]
    exact List.take_left' hbody
  rw [stunParseResponse, if_neg (by omega), htype, hlen, hmagic]
  simp only [Option.bind_eq_bind, Option.bind_some]
  rw [if_neg (not_not.mpr rfl), if_neg (not_not.mpr rfl), if_neg (by omega),
    stunScan_eq (by omega) (by omega), hrem]

/-- A buffer whose header passes the checks is a response. -/
lemma isResponse_of_header {len : UInt16} (htype : read16 buf 0 = some stunBindingResp)
    (hlen : read16 buf 2 = some len) (hmagic : read32 buf 4 = some stunMagic)
    (hfit : 20 + len.toNat ≤ buf.length) :
    IsResponse buf ((buf.drop 20).take len.toNat) := by
  obtain ⟨l₀, h₀⟩ := read16_eq_some_iff.mp htype
  obtain ⟨l₂, h₂⟩ := read16_eq_some_iff.mp hlen
  obtain ⟨l₄, h₄⟩ := read32_eq_some_iff.mp hmagic
  have e₀ : l₀ = buf.drop 2 := by
    rw [← List.drop_zero (l := buf), h₀]
    rfl
  have e₂ : l₂ = buf.drop 4 := by
    rw [show 4 = 2 + 2 from rfl, ← List.drop_drop, h₂]
    rfl
  have e₄ : l₄ = buf.drop 8 := by
    rw [show 8 = 4 + 4 from rfl, ← List.drop_drop, h₄]
    rfl
  have htxn : buf.drop 20 = (buf.drop 8).drop 12 := by rw [List.drop_drop]
  refine ⟨len, (buf.drop 8).take 12, (buf.drop 20).drop len.toNat, ?_, ?_, ?_⟩
  · rw [List.length_take, List.length_drop]
    omega
  · rw [List.length_take, List.length_drop]
    omega
  · rw [List.take_append_drop, htxn, List.take_append_drop, ← e₄, ← h₄, ← e₂, ← h₂, ← e₀, ← h₀,
      List.drop_zero]

/-- The parser refuses everything else. -/
lemma stunParseResponse_of_not (h : ¬ ∃ body, IsResponse buf body) :
    stunParseResponse host fuel buf = some none := by
  rw [stunParseResponse]
  by_cases hlong : buf.length < 20
  · exact if_pos hlong
  obtain ⟨msgType, htype⟩ := read16_of_lt buf 0 (by omega)
  obtain ⟨len, hlen⟩ := read16_of_lt buf 2 (by omega)
  obtain ⟨magic, hmagic⟩ := read32_of_lt buf 4 (by omega)
  rw [if_neg hlong, htype, hlen, hmagic]
  simp only [Option.bind_eq_bind, Option.bind_some]
  split
  · rfl
  next ht =>
  split
  · rfl
  next hm =>
  split
  · rfl
  next hfit =>
  rw [not_not] at ht hm
  exact absurd ⟨_, isResponse_of_header (ht ▸ htype) hlen (hm ▸ hmagic) (Nat.not_lt.mp hfit)⟩ h

end Response

/-- The parser never reads outside of the buffer, comes to an end, and finds an address exactly if
the buffer is a response with an attribute that holds one. -/
lemma stunParseResponse_spec (host : Endian) {buf : List UInt8} {fuel : Nat}
    (hfuel : buf.length ≤ fuel) :
    ∃ r, stunParseResponse host fuel buf = some r ∧
      (r.isSome ↔ ∃ body, IsResponse buf body ∧ ∃ a ∈ attributes body, IsMapped a) := by
  have hfound : ∀ body, ((attributes body).findSome? (mappedAddr host)).isSome ↔
      ∃ a ∈ attributes body, IsMapped a := by
    intro body
    simp only [List.findSome?_isSome_iff, mappedAddr_isSome]
  by_cases h : ∃ body, IsResponse buf body
  · obtain ⟨body, hbody⟩ := h
    have hparse : stunParseResponse host fuel buf = _ := stunParseResponse_of_response hbody hfuel
    refine ⟨_, hparse, ?_⟩
    constructor
    · intro hr
      exact ⟨body, hbody, (hfound body).mp hr⟩
    · rintro ⟨body', hbody', ha⟩
      have hparse' : stunParseResponse host fuel buf = _ :=
        stunParseResponse_of_response hbody' hfuel
      rw [Option.some.inj (hparse.symm.trans hparse')]
      exact (hfound body').mpr ha
  · refine ⟨none, stunParseResponse_of_not h, ?_⟩
    constructor
    · intro hr
      cases hr
    · rintro ⟨body, hbody, _⟩
      exact absurd ⟨body, hbody⟩ h

/-! ## Encoded attributes -/

/-- A well-formed attribute with the bytes of its padding. -/
structure Attr where
  type : UInt16
  value : List UInt8
  pad : List UInt8
  length_value : value.length < 2 ^ 16
  length_pad : value.length + pad.length = (value.length + 3) / 4 * 4

/-- The bytes of an attribute. -/
def Attr.bytes (a : Attr) : List UInt8 :=
  bytes16 a.type ++ (bytes16 (UInt16.ofNat a.value.length) ++ (a.value ++ a.pad))

/-- An attribute is read as it was written. -/
lemma splitAttr_bytes (a : Attr) (rest : List UInt8) :
    splitAttr (a.bytes ++ rest) = some (a.type, a.value, rest) := by
  have hlen :
    (be16 (UInt16.ofNat a.value.length >>> 8).toUInt8 (UInt16.ofNat a.value.length).toUInt8).toNat =
      a.value.length := by
    rw [be16_bytes16, UInt16.toNat_ofNat', Nat.mod_eq_of_lt a.length_value]
  have hbytes : a.bytes ++ rest = (a.type >>> 8).toUInt8 :: a.type.toUInt8 ::
      (UInt16.ofNat a.value.length >>> 8).toUInt8 :: (UInt16.ofNat a.value.length).toUInt8 ::
        (a.value ++ a.pad ++ rest) := rfl
  rw [hbytes, splitAttr, hlen, be16_bytes16]
  simp only [← a.length_pad, ← List.length_append, List.append_assoc, List.take_left]
  rw [if_pos (by simp)]
  simp

/-- The walk reaches the attributes that were written. -/
lemma attributes_bytes (as : List Attr) (rest : List UInt8) :
    attributes (as.flatMap Attr.bytes ++ rest) = as.map (fun a => (a.type, a.value)) ++ attributes
      rest := by
  induction as with
  | nil => rfl
  | cons a as ih =>
    rw [List.flatMap_cons, List.append_assoc, attributes_some (splitAttr_bytes a _), ih]
    rfl

/-- Value of an XOR-MAPPED-ADDRESS for an IPv4 address (RFC 5389, section 15.2). -/
def xorValue (port : UInt16) (ip : UInt32) : List UInt8 :=
  0x00 :: 0x01 :: (bytes16 (port ^^^ (stunMagic >>> 16).toUInt16) ++ bytes32 (ip ^^^ stunMagic))

lemma length_xorValue_lt (port : UInt16) (ip : UInt32) : (xorValue port ip).length < 2 ^ 16 := by
  simp [xorValue]

lemma length_xorValue_pad (port : UInt16) (ip : UInt32) :
    (xorValue port ip).length + ([] : List UInt8).length = ((xorValue port ip).length + 3) / 4 *
      4 := by
  simp [xorValue]

/-- The attribute XOR-MAPPED-ADDRESS for an IPv4 address. -/
def xorMapped (port : UInt16) (ip : UInt32) : Attr where
  type := stunAttrXorMapped
  value := xorValue port ip
  pad := []
  length_value := length_xorValue_lt port ip
  length_pad := length_xorValue_pad port ip

/-- The encoded address is decoded. -/
lemma mappedAddr_xorMapped (host : Endian) (port : UInt16) (ip : UInt32) :
    mappedAddr host ((xorMapped port ip).type, (xorMapped port ip).value) =
      some (sockaddrIn host port ip) := by
  have hmap : IsMapped ((xorMapped port ip).type, (xorMapped port ip).value) :=
    ⟨Or.inl rfl, by simp [xorMapped, xorValue], rfl⟩
  have hport : read16 (xorValue port ip) 2 = some (port ^^^ (stunMagic >>> 16).toUInt16) :=
    read16_eq_some_iff.mpr ⟨_, rfl⟩
  have hip : read32 (xorValue port ip) 4 = some (ip ^^^ stunMagic) :=
    read32_eq_some_iff.mpr ⟨[], rfl⟩
  rw [mappedAddr, if_pos hmap]
  simp only [xorMapped, hport, hip, Option.bind_eq_bind, Option.bind_some, if_true]
  rw [UInt16.xor_assoc, UInt16.xor_self, UInt16.xor_zero, UInt32.xor_assoc, UInt32.xor_self,
    UInt32.xor_zero]
  rfl

/-- For every buffer the parser reads inside of it and comes to an end, and it returns 0
exactly if the buffer is a binding response and the walk over its attributes reaches an IPv4
address. An address that is encoded as XOR-MAPPED-ADDRESS behind attributes of other types is
returned as it was. -/
theorem stun_parse_response_correct (host : Endian) :
    (∀ (buf : List UInt8) (fuel : Nat), buf.length ≤ fuel →
      ∃ r, stunParseResponse host fuel buf = some r ∧
        (r.isSome ↔ ∃ body, IsResponse buf body ∧ ∃ a ∈ attributes body, IsMapped a)) ∧
    ∀ (port : UInt16) (ip : UInt32) (others : List Attr) (rest buf : List UInt8) (fuel : Nat),
      (∀ a ∈ others, a.type ≠ stunAttrXorMapped ∧ a.type ≠ stunAttrMappedAddr) →
      IsResponse buf (others.flatMap Attr.bytes ++ ((xorMapped port ip).bytes ++ rest)) →
      buf.length ≤ fuel →
      stunParseResponse host fuel buf = some (some (sockaddrIn host port ip)) := by
  constructor
  · intro buf fuel hfuel
    exact stunParseResponse_spec host hfuel
  · intro port ip others rest buf fuel hothers hresp hfuel
    have hskip : (others.map fun a => (a.type, a.value)).findSome? (mappedAddr host) = none := by
      rw [List.findSome?_eq_none_iff]
      intro x hx
      obtain ⟨a, ha, rfl⟩ := List.mem_map.mp hx
      rw [← Option.not_isSome_iff_eq_none, mappedAddr_isSome]
      rintro ⟨ht | ht, _⟩
      · exact (hothers a ha).1 ht
      · exact (hothers a ha).2 ht
    rw [stunParseResponse_of_response hresp hfuel, attributes_bytes,
      attributes_some (splitAttr_bytes _ rest), List.findSome?_append, hskip, List.findSome?_cons,
        mappedAddr_xorMapped]
    rfl

lemma software_length_value : ([0x72, 0x63, 0x31] : List UInt8).length < 2 ^ 16 := by decide

lemma software_length_pad : ([0x72, 0x63, 0x31] : List UInt8).length +
    ([0xFF] : List UInt8).length =
    (([0x72, 0x63, 0x31] : List UInt8).length + 3) / 4 * 4 := by decide

/-- An attribute SOFTWARE with one byte of padding. -/
def software : Attr :=
  ⟨0x8022, [0x72, 0x63, 0x31], [0xFF], software_length_value, software_length_pad⟩

/-- A response with an attribute in front of the address. -/
theorem stun_parse_response_correct_sample :
    IsResponse (bytes16 stunBindingResp ++ (bytes16 20 ++ (bytes32 stunMagic ++
        (List.replicate 12 7 ++ ([software].flatMap Attr.bytes ++
          ((xorMapped 0x1F90 0xC0000201).bytes ++ []) ++
          [9])))))
      ([software].flatMap Attr.bytes ++ ((xorMapped 0x1F90 0xC0000201).bytes ++ [])) ∧
    stunParseResponse .little 41 (bytes16 stunBindingResp ++ (bytes16 20 ++ (bytes32 stunMagic ++
        (List.replicate 12 7 ++ ([software].flatMap Attr.bytes ++
          ((xorMapped 0x1F90 0xC0000201).bytes ++ []) ++
          [9]))))) = some (some (sockaddrIn .little 0x1F90 0xC0000201)) :=
  ⟨⟨20, _, _, rfl, by decide, rfl⟩,
    (stun_parse_response_correct .little).2 _ _ [software] [] _ _ (by decide) ⟨20, _, _, rfl, by
      decide, rfl⟩ (by decide)⟩

end RoboControl.P2p
