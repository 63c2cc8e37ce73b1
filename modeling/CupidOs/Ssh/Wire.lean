import CupidOs.Bytes.Writer
import CupidOs.Tls.Kdf
import CupidOs.Transition.Routine
import Mathlib.Data.List.TakeWhile

/-!
# Values on the wire

The helpers of `sshd.c` that build messages and take them apart.  Each `wb_` helper
writes the encoding of one value, so building a message is writing the encodings one
after another.
-/

namespace CupidOs.Ssh

open Bytes List
open Tls (ascii)

/-! ## Message numbers and limits -/

/-- `SSH_MSG_DISCONNECT` -/
def sshMsgDisconnect : UInt8 := 1

/-- `SSH_MSG_IGNORE` -/
def sshMsgIgnore : UInt8 := 2

/-- `SSH_MSG_SERVICE_REQUEST` -/
def sshMsgServiceRequest : UInt8 := 5

/-- `SSH_MSG_SERVICE_ACCEPT` -/
def sshMsgServiceAccept : UInt8 := 6

/-- `SSH_MSG_KEXINIT` -/
def sshMsgKexinit : UInt8 := 20

/-- `SSH_MSG_NEWKEYS` -/
def sshMsgNewkeys : UInt8 := 21

/-- `SSH_MSG_KEX_ECDH_INIT` -/
def sshMsgKexEcdhInit : UInt8 := 30

/-- `SSH_MSG_KEX_ECDH_REPLY` -/
def sshMsgKexEcdhReply : UInt8 := 31

/-- `SSH_MSG_USERAUTH_REQUEST` -/
def sshMsgUserauthRequest : UInt8 := 50

/-- `SSH_MSG_USERAUTH_FAILURE` -/
def sshMsgUserauthFailure : UInt8 := 51

/-- `SSH_MSG_USERAUTH_SUCCESS` -/
def sshMsgUserauthSuccess : UInt8 := 52

/-- `SSH_MSG_GLOBAL_REQUEST` -/
def sshMsgGlobalRequest : UInt8 := 80

/-- `SSH_MSG_REQUEST_FAILURE` -/
def sshMsgRequestFailure : UInt8 := 82

/-- `SSH_MSG_CHANNEL_OPEN` -/
def sshMsgChannelOpen : UInt8 := 90

/-- `SSH_MSG_CHANNEL_OPEN_CONFIRMATION` -/
def sshMsgChannelOpenConfirmation : UInt8 := 91

/-- `SSH_MSG_CHANNEL_WINDOW_ADJUST` -/
def sshMsgChannelWindowAdjust : UInt8 := 93

/-- `SSH_MSG_CHANNEL_DATA` -/
def sshMsgChannelData : UInt8 := 94

/-- `SSH_MSG_CHANNEL_EOF` -/
def sshMsgChannelEof : UInt8 := 96

/-- `SSH_MSG_CHANNEL_CLOSE` -/
def sshMsgChannelClose : UInt8 := 97

/-- `SSH_MSG_CHANNEL_REQUEST` -/
def sshMsgChannelRequest : UInt8 := 98

/-- `SSH_MSG_CHANNEL_SUCCESS` -/
def sshMsgChannelSuccess : UInt8 := 99

/-- `SSH_MSG_CHANNEL_FAILURE` -/
def sshMsgChannelFailure : UInt8 := 100

/-- `SSH_BUF_CAP` -/
def sshBufCap : Nat := 65536

/-- `SSH_PAYLOAD_MAX` -/
def sshPayloadMax : Nat := 32768

/-- `SSH_WINDOW` -/
def sshWindow : Nat := 1048576

/-- `SSH_MAX_PACKET` -/
def sshMaxPacket : Nat := 32768

/-- `SSH_LINE_MAX` -/
def sshLineMax : Nat := 512

/-! ## Encodings -/

/-- A string with its length in front. -/
def encodeString (src : List UInt8) : List UInt8 := encodeBE 4 src.length ++ src

/-- A number without leading zeros, and with one in front of a set top bit. -/
def encodeMpint (be : List UInt8) : List UInt8 :=
  match be.dropWhile (· == 0) with
  | [] => encodeBE 4 0
  | first :: rest =>
    if first &&& 0x80 ≠ 0 then encodeBE 4 (rest.length + 2) ++ 0 :: first :: rest
    else encodeBE 4 (rest.length + 1) ++ first :: rest

@[simp]
lemma length_encodeString (src : List UInt8) : (encodeString src).length = 4 + src.length := by
  rw [encodeString, length_append, length_encodeBE]

lemma length_encodeMpint_le (be : List UInt8) : (encodeMpint be).length ≤ be.length + 5 := by
  have shorter := (dropWhile_suffix (· == 0) (l := be)).length_le
  unfold encodeMpint
  split
  · rw [length_encodeBE]
    omega
  rename_i first rest digits
  rw [digits, length_cons] at shorter
  split
  · simp only [length_append, length_encodeBE, length_cons]
    omega
  · simp only [length_append, length_encodeBE, length_cons]
    omega

/-! ## Writing -/

variable {cap : Nat}

variable (out : Writer cap)

/-- `wb_byte`, and the stores of one byte -/
def wbByte (v : UInt8) : Option (Writer cap) := out.put [v]

/-- `wb_bool` -/
def wbBool (v : Bool) : Option (Writer cap) := out.put [if v then 1 else 0]

/-- `wb_be32`, and the calls of `put_be32` -/
def wbBe32 (v : Nat) : Option (Writer cap) := out.put (encodeBE 4 v)

/-- `wb_bytes`, and the calls of `memcpy` -/
def wbBytes (src : List UInt8) : Option (Writer cap) := out.put src

/-- `wb_string` -/
def wbString (src : List UInt8) : Option (Writer cap) := do
  let out ← wbBe32 out src.length
  wbBytes out src

/-- `wb_cstr` -/
def wbCstr (s : String) : Option (Writer cap) := wbString out (ascii s)

/-- `wb_mpint32`, where `digits` starts at the first byte that is not zero -/
def wbMpint32 (be : List UInt8) : Option (Writer cap) :=
  match be.dropWhile (· == 0) with
  | [] => wbBe32 out 0
  | first :: rest => do
      if first &&& 0x80 ≠ 0 then
        let out ← wbBe32 out (rest.length + 2)
        let out ← wbByte out 0
        wbBytes out (first :: rest)
      else
        let out ← wbBe32 out (rest.length + 1)
        wbBytes out (first :: rest)

variable (out : Writer cap)

lemma put_then (first : List UInt8) {next : Writer cap → Option (Writer cap)}
    {second : List UInt8} (writes : ∀ later, next later = later.put second) :
    (out.put first >>= next) = out.put (first ++ second) := by
  rw [← Writer.put_bind_put, funext writes]
  rfl

lemma put_bind (first second : List UInt8) :
    (out.put first >>= fun later => later.put second) = out.put (first ++ second) :=
  put_then out first fun _ => rfl

lemma wbString_eq (src : List UInt8) : wbString out src = out.put (encodeString src) :=
  put_then out _ fun _ => rfl

lemma wbCstr_eq (s : String) : wbCstr out s = out.put (encodeString (ascii s)) :=
  wbString_eq out _

lemma wbMpint32_eq (be : List UInt8) : wbMpint32 out be = out.put (encodeMpint be) := by
  unfold wbMpint32 encodeMpint
  split
  · rfl
  split
  · exact put_then out _ fun later => put_then later _ fun _ => rfl
  · exact put_then out _ fun _ => rfl

/-! ## Reading -/

/-- The bytes of an object, if they lie in it. -/
def slice (bytes : List UInt8) (start count : Nat) : Option (List UInt8) :=
  if start + count ≤ bytes.length then some ((bytes.drop start).take count) else none

lemma slice_of_le {bytes : List UInt8} {start count : Nat} (inside : start + count ≤ bytes.length) :
    slice bytes start count = some ((bytes.drop start).take count) :=
  if_pos inside

/-- The part of a string in front of its terminator, as `strlen` counts it. -/
def cstr (bytes : List UInt8) : List UInt8 := bytes.takeWhile (· != 0)

/-- `cstreqn` -/
def cstreqn (p : List UInt8) (s : String) : Bool := p == ascii s

lemma cstr_of_noNul {bytes : List UInt8} (noNul : (0 : UInt8) ∉ bytes) : cstr bytes = bytes := by
  rw [cstr, takeWhile_eq_self_iff]
  intro byte mem
  simp only [bne_iff_ne]
  rintro rfl
  exact noNul mem

end CupidOs.Ssh
