import RoboControl.Base.Decimal
import RoboControl.Base.Printf
import RoboControl.Crypto.Session

/-!
# Sending a command to Redis

Model of `rc_redis_sendv` of `include/redis.h`, with the arguments that `rc_redis_set` gives it. The
command is printed into an array of 4096 bytes; the length that is sent is the sum of what the calls
of `snprintf` return, which exceeds the array if the command does not fit. Then `send` is called
until everything has gone.

A socket is the list of what its calls of `send` take before one fails. A command of less than 4096
bytes is sent as it is; what is sent of a longer one is never its encoding (`sendv_exact_iff`).
-/

namespace RoboControl.Redis
open Base
open Crypto (cstr)

/-- Size of the array (C `RC_REDIS_MAX_CMD_LEN`). -/
def redisMaxCmdLen : Nat := 4096

/-- The results of sending (C `RC_OK`, `RC_ERR_IO`). -/
inductive SendStatus
  | ok
  | errIo
  deriving DecidableEq, Repr

/-- What a call of `rc_redis_sendv` returns, and the bytes that `send` took; those from behind the
array are `none`. -/
structure Sent where
  status : SendStatus
  bytes : List (Option UInt8)
  deriving DecidableEq

/-- The loop of `rc_redis_sendv` around `send`. A call that does not fail takes at least one byte:
one more than the socket says, or all there are. -/
def sendLoop : List Nat → List (Option UInt8) → Sent
  | _, [] => ⟨.ok, []⟩
  | [], _ :: _ => ⟨.errIo, []⟩
  | w :: taken, b :: rest =>
    let sent := sendLoop taken ((b :: rest).drop (w + 1))
    ⟨sent.status, (b :: rest).take (w + 1) ++ sent.bytes⟩

/-- The first `n` bytes of an array and of what is behind it. -/
def bytesAt (cmd : List UInt8) (n : Nat) : List (Option UInt8) :=
  (List.range n).map fun i => cmd[i]?

/-- The first text that `rc_redis_sendv` prints. -/
def argcText (argc : Int) : List UInt8 := cstr "*" ++ signedDigits argc ++ cstr "\r\n"

/-- The text that `rc_redis_sendv` prints for an argument. -/
def argText (arg : List UInt8) : List UInt8 :=
  cstr "$" ++ digits arg.length ++ cstr "\r\n" ++ arg ++ cstr "\r\n"

/-- The part of `rc_redis_sendv` that prints the command, into the array `cmd`. -/
def formatv (args : List (List UInt8)) (cmd : List UInt8) :
    Except Undefined (Int × List UInt8) := do
  let (n, cmd) ← printAt 0 (argcText args.length) cmd
  printAll (args.map argText) n cmd

/-- Send a command (C `rc_redis_sendv`); `cmd` is the array before anything is printed into it. -/
def redisSendv (taken : List Nat) (args : List (List UInt8)) (cmd : Bytes redisMaxCmdLen) :
    Except Undefined Sent := do
  let (n, cmd) ← formatv args cmd.toList
  return sendLoop taken (bytesAt cmd (toSize n))

/-- The arguments that `rc_redis_set` sends. -/
def redisSetArgs (key value : List UInt8) (ttlSec : Int) : List (List UInt8) :=
  if ttlSec > 0 then [cstr "SET", key, value, cstr "EX", signedDigits ttlSec]
  else [cstr "SET", key, value]

/-! ## The encoding -/

/-- A length in RESP, behind the byte that says what it is the length of. -/
def respLength (kind : UInt8) (n : Nat) : List UInt8 := kind :: (digits n ++ [13, 10])

/-- A bulk string of RESP. -/
def respBulk (arg : List UInt8) : List UInt8 := respLength 36 arg.length ++ arg ++ [13, 10]

/-- A command in RESP: an array of bulk strings. -/
def respCommand (args : List (List UInt8)) : List UInt8 :=
  respLength 42 args.length ++ (args.map respBulk).flatten

/-- The number of arguments. -/
lemma argcText_eq (n : Nat) : argcText n = respLength 42 n := by
  rw [argcText, signedDigits_natCast]
  rfl

lemma zero_not_mem_respLength {kind : UInt8} (h : kind ≠ 0) (n : Nat) : 0 ∉ respLength kind n := by
  have hdigits : 0 ∉ digits n := fun hmem => Bool.false_ne_true (all_digits n 0 hmem)
  rw [respLength, List.mem_cons, List.mem_append, not_or, not_or]
  exact ⟨h.symm, hdigits, by decide⟩

/-- An encoding has no zero. -/
lemma zero_not_mem_respCommand {args : List (List UInt8)} (h : ∀ a ∈ args, 0 ∉ a) :
    0 ∉ respCommand args := by
  rw [respCommand, List.mem_append, List.mem_flatten, not_or]
  refine ⟨zero_not_mem_respLength (by decide) _, ?_⟩
  rintro ⟨text, htext, hzero⟩
  obtain ⟨a, ha, rfl⟩ := List.mem_map.mp htext
  rw [respBulk, List.mem_append, List.mem_append] at hzero
  rcases hzero with (hlen | harg) | hend
  · exact zero_not_mem_respLength (by decide) _ hlen
  · exact h a ha harg
  · exact absurd hend (by decide)

/-- A length is short. -/
lemma length_respLength_le (kind : UInt8) {n : Nat} (h : n < 2 ^ 31) :
    (respLength kind n).length ≤ 13 := by
  have hdigits : (digits n).length ≤ 10 := by
    rw [digits, List.length_map]
    exact Nat.toDigits_length 10 n 10 (by decide) (by omega)
  rw [respLength, List.length_cons, List.length_append]
  exact Nat.succ_le_succ (Nat.add_le_add_right hdigits 2)

/-- The length of an argument's encoding. -/
lemma length_respBulk (arg : List UInt8) :
    (respBulk arg).length = (digits arg.length).length + arg.length + 5 := by
  rw [respBulk, respLength, List.length_append, List.length_append, List.length_cons,
    List.length_append]
  simp only [List.length_cons, List.length_nil]
  omega

/-! ## Formatting -/

section Formatting
variable {args : List (List UInt8)} {cmd : List UInt8}

/-- The number of arguments is always printed. -/
lemma formatv_eq (hargc : args.length < 2 ^ 31) (hcmd : cmd.length = redisMaxCmdLen) :
    ∃ out, out.length = redisMaxCmdLen ∧ Shows out (respLength 42 args.length) ∧
      formatv args cmd = printAll (args.map respBulk) (respLength 42 args.length).length out := by
  have hlen := length_respLength_le 42 hargc
  have hsize : cmd.length = 4096 := hcmd
  have hpos : 0 < cmd.length := by omega
  refine ⟨_, (length_printedAt hpos _).trans hcmd, shows_printedAt_zero hpos _, ?_⟩
  rw [formatv, argcText_eq, printAt_zero hpos (by omega) (by omega)]
  rfl

/-- The length is that of the command if all arguments but the last fit. -/
lemma formatv_all (hargc : args.length < 2 ^ 31) (hcmd : cmd.length = redisMaxCmdLen)
    (hint : (respCommand args).length < 2 ^ 31)
    (hfit : (respLength 42 args.length ++ (args.map respBulk).dropLast.flatten).length <
      redisMaxCmdLen) :
    ∃ out, formatv args cmd = .ok (((respCommand args).length : Nat), out) ∧
      out.length = redisMaxCmdLen ∧
      Shows out (respCommand args) := by
  obtain ⟨start, hlen, hshows, hformat⟩ := formatv_eq hargc hcmd
  have hmax : redisMaxCmdLen = 4096 := rfl
  obtain ⟨out, hrun, hout, hshows'⟩ := printAll_all hshows (by omega) hint (hfit.trans_eq hlen.symm)
  exact ⟨out, hformat.trans hrun, hout.trans hlen, hshows'⟩

/-- A command that fits is printed as it is. -/
lemma formatv_of_lt (hargc : args.length < 2 ^ 31) (hcmd : cmd.length = redisMaxCmdLen)
    (hlt : (respCommand args).length < redisMaxCmdLen) :
    ∃ out, formatv args cmd = .ok (((respCommand args).length : Nat), out) ∧
      respCommand args <+: out := by
  have hmax : redisMaxCmdLen = 4096 := rfl
  have hfit : (respLength 42 args.length ++ (args.map respBulk).dropLast.flatten).length ≤
      (respCommand args).length := by
    rw [respCommand, List.length_append, List.length_append]
    exact Nat.add_le_add_left (List.dropLast_sublist _).flatten.length_le _
  obtain ⟨out, hformat, hlen, hshows⟩ := formatv_all hargc hcmd (by omega) (by omega)
  exact ⟨out, hformat, hshows.begins (by omega)⟩

/-- A command of less than `2 ^ 31` bytes has a length that is not zero, whether it fits or not. -/
lemma exists_formatv (hargc : args.length < 2 ^ 31) (hcmd : cmd.length = redisMaxCmdLen)
    (hint : (respCommand args).length < 2 ^ 31) :
    ∃ n out, formatv args cmd = .ok (n, out) ∧ toSize n ≠ 0 := by
  obtain ⟨start, hlen, hshows, hformat⟩ := formatv_eq hargc hcmd
  have hmax : redisMaxCmdLen = 4096 := rfl
  obtain ⟨k, out, hrun, -⟩ := printAll_eq hshows (by omega) hint
  refine ⟨_, out, hformat.trans hrun, ?_⟩
  have hle : ((args.map respBulk).take k).flatten.length ≤ (args.map respBulk).flatten.length :=
    (List.take_sublist k _).flatten.length_le
  rw [respCommand, List.length_append] at hint
  rw [toSize_natCast (by rw [List.length_append]; omega), List.length_append, respLength,
    List.length_cons]
  omega

/-- A command that does not fit leaves a zero in the last byte of the array. -/
lemma formatv_of_ge (hargc : args.length < 2 ^ 31) (hcmd : cmd.length = redisMaxCmdLen)
    (hge : redisMaxCmdLen ≤ (respCommand args).length) {n : Int} {out : List UInt8}
    (h : formatv args cmd = .ok (n, out)) : out[4095]? = some 0 := by
  obtain ⟨start, hlen, hshows, hformat⟩ := formatv_eq hargc hcmd
  have hmax : redisMaxCmdLen = 4096 := rfl
  have hfirst := length_respLength_le 42 hargc
  rw [hformat] at h
  obtain ⟨hout, hlast⟩ := getLast?_printAll (by omega) hshows (by omega) (hlen.trans_le hge)
    (by omega) h
  rwa [List.getLast?_eq_getElem?, hout, hlen] at hlast

end Formatting

/-! ## Sending -/

/-- How many bytes a socket takes before a call of `send` fails. -/
def capacity (taken : List Nat) : Nat := (taken.map (· + 1)).sum

/-- The first call fails. -/
lemma capacity_eq_zero_iff {taken : List Nat} : capacity taken = 0 ↔ taken = [] := by
  cases taken with
  | nil => simp [capacity]
  | cons w taken => simp [capacity]

/-- The loop sends what the socket takes, and fails if that is not all. -/
lemma sendLoop_eq (taken : List Nat) (bytes : List (Option UInt8)) :
    sendLoop taken bytes =
      ⟨if bytes.length ≤ capacity taken then .ok else .errIo, bytes.take (capacity taken)⟩ := by
  induction taken generalizing bytes with
  | nil =>
    cases bytes with
    | nil => rfl
    | cons b rest => rfl
  | cons w taken ih =>
    cases bytes with
    | nil => simp [sendLoop]
    | cons b rest =>
      have hcap : capacity (w :: taken) = w + 1 + capacity taken := by simp [capacity]
      have hle : ((b :: rest).drop (w + 1)).length ≤ capacity taken ↔
          (b :: rest).length ≤ w + 1 + capacity taken := by
        rw [List.length_drop]
        omega
      have htake : (b :: rest).take (w + 1 + capacity taken) =
          (b :: rest).take (w + 1) ++ ((b :: rest).drop (w + 1)).take (capacity taken) :=
            List.take_add
      rw [sendLoop, ih, hcap, htake]
      simp only [hle]

lemma length_bytesAt (cmd : List UInt8) (n : Nat) : (bytesAt cmd n).length = n := by
  rw [bytesAt, List.length_map, List.length_range]

/-- The bytes that are sent. -/
lemma getElem?_bytesAt {cmd : List UInt8} {i n : Nat} (h : i < n) :
    (bytesAt cmd n)[i]? = some cmd[i]? := by
  rw [bytesAt, List.getElem?_map, List.getElem?_range h]
  rfl

/-- The bytes of a text at the beginning of the array. -/
lemma bytesAt_of_begins {text cmd : List UInt8} (h : text <+: cmd) :
    bytesAt cmd text.length = text.map some := by
  refine List.ext_getElem? fun i => ?_
  by_cases hi : i < text.length
  · rw [getElem?_bytesAt hi, List.getElem?_map, List.getElem?_eq_getElem hi]
    obtain ⟨rest, rfl⟩ := h
    rw [List.getElem?_append_left hi, List.getElem?_eq_getElem hi]
    rfl
  · rw [List.getElem?_eq_none (by rw [length_bytesAt]; omega),
      List.getElem?_eq_none (by rw [List.length_map]; omega)]

/-- A command is refused before anything is sent, or it is sent as RESP encodes it. -/
def Exact (args : List (List UInt8)) (result : Except Undefined Sent) : Prop :=
  result = .ok ⟨.errIo, []⟩ ∨ result = .ok ⟨.ok, (respCommand args).map some⟩

section Sending
variable {args : List (List UInt8)} {cmd : Bytes redisMaxCmdLen}

/-- What is sent of a command that fits. -/
lemma redisSendv_of_lt (hargc : args.length < 2 ^ 31)
    (hlt : (respCommand args).length < redisMaxCmdLen) (taken : List Nat) :
    redisSendv taken args cmd =
      .ok ⟨if (respCommand args).length ≤ capacity taken then .ok else .errIo,
        ((respCommand args).map some).take (capacity taken)⟩ := by
  obtain ⟨out, hformat, hbegins⟩ := formatv_of_lt hargc cmd.length_toList hlt
  have hmax : redisMaxCmdLen = 4096 := rfl
  rw [redisSendv, hformat]
  show Except.ok (sendLoop taken (bytesAt out (toSize ((respCommand args).length : Nat)))) = _
  rw [toSize_natCast (by omega), bytesAt_of_begins hbegins, sendLoop_eq, List.length_map]

/-- The encoding of a command that does not fit is never sent. -/
lemma redisSendv_ne_of_ge (hargc : args.length < 2 ^ 31) (hargs : ∀ a ∈ args, 0 ∉ a)
    (hge : redisMaxCmdLen ≤ (respCommand args).length) (taken : List Nat) :
    redisSendv taken args cmd ≠ .ok ⟨.ok, (respCommand args).map some⟩ := by
  intro h
  rw [redisSendv] at h
  cases hformat : formatv args cmd.toList with
  | error e =>
    rw [hformat] at h
    cases h
  | ok state =>
    obtain ⟨n, out⟩ := state
    have hzero := formatv_of_ge hargc cmd.length_toList hge hformat
    have hmax : redisMaxCmdLen = 4096 := rfl
    rw [hformat] at h
    have hsent : sendLoop taken (bytesAt out (toSize n)) = ⟨.ok, (respCommand args).map some⟩ :=
      Except.ok.inj h
    rw [sendLoop_eq] at hsent
    have hbytes := congrArg Sent.bytes hsent
    have hlen := congrArg List.length hbytes
    rw [List.length_take, List.length_map, length_bytesAt] at hlen
    -- the last byte of the array is among those that are sent
    have hbyte := congrArg (·[4095]?) hbytes
    dsimp only at hbyte
    rw [List.getElem?_take_of_lt (by omega), getElem?_bytesAt (by omega), hzero,
      List.getElem?_map] at hbyte
    cases hresp : (respCommand args)[4095]? with
    | none =>
      rw [hresp] at hbyte
      cases hbyte
    | some b =>
      rw [hresp] at hbyte
      cases hbyte
      exact zero_not_mem_respCommand hargs (List.mem_of_getElem? hresp)

/-- The socket takes nothing. -/
lemma redisSendv_refused_iff (taken : List Nat) :
    redisSendv taken args cmd = .ok ⟨.errIo, []⟩ ↔
      taken = [] ∧ ∃ n out, formatv args cmd.toList = .ok (n, out) ∧ toSize n ≠ 0 := by
  rw [redisSendv]
  cases formatv args cmd.toList with
  | error e =>
    constructor
    · intro h
      cases h
    · rintro ⟨-, n, out, h, -⟩
      cases h
  | ok state =>
    obtain ⟨n, out⟩ := state
    show Except.ok (sendLoop taken (bytesAt out (toSize n))) = _ ↔ _
    rw [sendLoop_eq, length_bytesAt, Except.ok.injEq, Sent.mk.injEq]
    constructor
    · rintro ⟨hstatus, hbytes⟩
      have hmore : ¬ toSize n ≤ capacity taken := by
        intro hle
        rw [if_pos hle] at hstatus
        cases hstatus
      have hlen := congrArg List.length hbytes
      rw [List.length_take, length_bytesAt, List.length_nil] at hlen
      exact ⟨capacity_eq_zero_iff.mp (by omega), n, out, rfl, by omega⟩
    · rintro ⟨rfl, m, out', h, hne⟩
      cases h
      exact ⟨if_neg fun hle => hne (Nat.le_zero.mp hle), rfl⟩

/-- Of a command whose last argument does not fit, what is in the array is sent, with a zero at its
end, and as many bytes from behind it as the command is too long. -/
lemma redisSendv_overrun (cmd : Bytes redisMaxCmdLen) (hargc : args.length < 2 ^ 31)
    (hint : (respCommand args).length < 2 ^ 31)
    (hfit : (respLength 42 args.length ++ (args.map respBulk).dropLast.flatten).length <
      redisMaxCmdLen)
    (hge : redisMaxCmdLen ≤ (respCommand args).length) {taken : List Nat}
    (htaken : (respCommand args).length ≤ capacity taken) :
    ∃ out, redisSendv taken args cmd = .ok ⟨.ok, bytesAt out (respCommand args).length⟩ ∧
      out[4095]? = some 0 ∧ ∀ i, redisMaxCmdLen ≤ i → out[i]? = none := by
  obtain ⟨out, hformat, hout, -⟩ := formatv_all hargc cmd.length_toList hint hfit
  refine ⟨out, ?_, formatv_of_ge hargc cmd.length_toList hge hformat, fun i hi => ?_⟩
  · have htake : (bytesAt out (respCommand args).length).take (capacity taken) =
        bytesAt out (respCommand args).length := List.take_of_length_le (by rwa [length_bytesAt])
    rw [redisSendv, hformat]
    show Except.ok (sendLoop taken (bytesAt out (toSize ((respCommand args).length : Nat)))) = _
    rw [toSize_natCast (by omega), sendLoop_eq, length_bytesAt, if_pos htaken, htake]
  · exact List.getElem?_eq_none (hout.trans_le hi)

end Sending

/-- A command is sent as RESP encodes it, or refused before anything is sent, exactly if the
encoding has less than 4096 bytes and the socket takes all of them, or the first call of
`send` fails. It is made unless the sum of the lengths is undefined or zero, which it never is
below `2 ^ 31` bytes. Of a command of less than 4096 bytes nothing but a beginning of its
encoding is ever sent. -/
theorem sendv_exact_iff (args : List (List UInt8)) (hargs : ∀ a ∈ args, 0 ∉ a)
    (hargc : args.length < 2 ^ 31) (taken : List Nat) (cmd : Bytes redisMaxCmdLen) :
    (Exact args (redisSendv taken args cmd) ↔
      (respCommand args).length < redisMaxCmdLen ∧ (respCommand args).length ≤ capacity taken ∨
      taken = [] ∧ ∃ n out, formatv args cmd.toList = .ok (n, out) ∧ toSize n ≠ 0) ∧
    ((respCommand args).length < 2 ^ 31 → (Exact args (redisSendv taken args cmd) ↔
      (respCommand args).length < redisMaxCmdLen ∧ (respCommand args).length ≤ capacity taken ∨
      taken = [])) ∧
    ((respCommand args).length < redisMaxCmdLen →
      ∃ sent, redisSendv taken args cmd = .ok sent ∧ sent.bytes <+: (respCommand args).map
        some) := by
  have hwhole : ((respCommand args).map some).take (capacity taken) <+: (respCommand args).map
    some :=
    List.take_prefix _ _
  suffices hexact : Exact args (redisSendv taken args cmd) ↔ _ from
    ⟨hexact, fun hint => hexact.trans (or_congr_right
      (and_iff_left (exists_formatv hargc cmd.length_toList hint))),
      fun hlt => ⟨_, redisSendv_of_lt hargc hlt taken, hwhole⟩⟩
  rw [Exact, redisSendv_refused_iff, or_comm]
  refine or_congr_left ?_
  by_cases hlt : (respCommand args).length < redisMaxCmdLen
  · rw [redisSendv_of_lt hargc hlt, Except.ok.injEq, Sent.mk.injEq]
    constructor
    · rintro ⟨hstatus, -⟩
      refine ⟨hlt, ?_⟩
      by_contra hle
      rw [if_neg hle] at hstatus
      cases hstatus
    · rintro ⟨-, hle⟩
      exact ⟨if_pos hle, List.take_of_length_le (by rwa [List.length_map])⟩
  · refine ⟨fun h => ?_, fun h => absurd h.1 hlt⟩
    exact absurd h (redisSendv_ne_of_ge hargc hargs (Nat.not_lt.mp hlt) taken)

/-- `PING` is sent by two calls of `send`. -/
theorem sendv_exact_iff_sample :
    Exact [cstr "PING"] (redisSendv [3, 20] [cstr "PING"] (.zeros redisMaxCmdLen)) ∧
      respCommand [cstr "PING"] = cstr "*1\r\n$4\r\nPING\r\n" := by
  refine ⟨?_, by decide⟩
  exact (sendv_exact_iff [cstr "PING"] (by decide) (by decide) [3, 20]
    (.zeros redisMaxCmdLen)).1.mpr (.inl ⟨by decide, by decide⟩)

/-- `SET` of a value of 4096 bytes: a zero is sent in the place of a byte of the value, and 29 bytes
from behind the array follow. -/
theorem long_value_overread :
    ∃ sent, redisSendv [4124] (redisSetArgs (cstr "k") (List.replicate 4096 97) 0)
      (.zeros redisMaxCmdLen) = .ok sent ∧
      sent.status = .ok ∧ sent.bytes.length = 4125 ∧ sent.bytes[4095]? = some (some 0) ∧
      ∀ i, 4096 ≤ i → i < 4125 → sent.bytes[i]? = some none := by
  have hvalue : (List.replicate 4096 (97 : UInt8)).length = 4096 := List.length_replicate
  generalize List.replicate 4096 (97 : UInt8) = value at hvalue ⊢
  have hargs : redisSetArgs (cstr "k") value 0 = [cstr "SET", cstr "k", value] := rfl
  have hset : (respBulk (cstr "SET")).length = 9 := by decide
  have hkey : (respBulk (cstr "k")).length = 7 := by decide
  have hbulk : (respBulk value).length = 4105 := by
    have hdigits : (digits 4096).length = 4 := by decide
    rw [length_respBulk, hvalue, hdigits]
  have hcount : (respLength 42 3).length = 4 := by decide
  have hlen : (respCommand [cstr "SET", cstr "k", value]).length = 4125 := by
    simp only [respCommand, List.map_cons, List.map_nil, List.flatten_cons, List.flatten_nil,
      List.length_append, List.length_cons, List.length_nil, hcount, hset, hkey, hbulk]
  have hfit :
    (respLength 42 3 ++ ([cstr "SET", cstr "k", value].map respBulk).dropLast.flatten).length =
    20 := by
    simp only [List.map_cons, List.map_nil, List.dropLast_cons_cons, List.dropLast_singleton,
      List.flatten_cons, List.flatten_nil, List.length_append, List.length_nil, hcount, hset, hkey]
  have hcap : capacity [4124] = 4125 := by simp [capacity]
  obtain ⟨out, hsent, hlast, hbehind⟩ := redisSendv_overrun (.zeros redisMaxCmdLen)
    (show [cstr "SET", cstr "k", value].length < 2 ^ 31 by simp) (by omega)
      (hfit.trans_lt (by decide))
    (hlen.ge.trans' (by decide)) (hlen.trans hcap.symm).le
  rw [hlen] at hsent
  rw [hargs]
  refine ⟨_, hsent, rfl, ?_⟩
  dsimp only
  refine ⟨length_bytesAt out 4125, ?_, fun i hge hlt => ?_⟩
  · rw [getElem?_bytesAt (by omega), hlast]
  · rw [getElem?_bytesAt hlt, hbehind i hge]

end RoboControl.Redis
