import TurnClient.RecvBuffer
import TurnClient.StreamFraming

/-!
# Reading messages from a TCP stream

`recv_buffer` of `p2p_client.c` over plain TCP without a request and without a
data connection. The bytes are peeked at first, `stun_get_message_len_str` says
how long the message in them is, and at most 128 calls of `recv` take it from
the socket into the same buffer. Behind the loop a count below the length of the
message is accepted when it divides that length.
-/

namespace TurnClient

open ByteMemory
set_option autoImplicit false

/-- What one `recv` on a stream gives; the number is the most it would hand out. -/
inductive TcpRecv where
  | data (n : Nat)
  | failed (errno : Errno)
deriving DecidableEq

/-- The message, and what the socket has not handed out of the stream. -/
structure TcpState where
  buf : Mem
  len : Nat
  stream : List Byte

inductive TcpPc where
  | peek
  | reading (mlen appMsgLen rsf cycle : Nat)
deriving DecidableEq

/-- EINTR, and with `sync` EAGAIN too. -/
def retried (sync : Bool) : TcpRecv → Bool
  | .failed .eintr => true
  | .failed .eagain => sync
  | _ => false

/-- The size of the message in the buffer, whose first `rc` bytes were peeked at. -/
def messageSizes (ulongMax : Nat) (buf : Mem) (rc : Nat) : Int × Nat :=
  stunGetMessageLenStr ulongMax (slice buf 0 maxStunMessageSize) rc true rc

/-- Behind the loop: how many bytes were read decides about the message. -/
def finishMessage (appMsgLen rsf : Nat) (s : TcpState) : Int × TcpState :=
  if rsf < 1 then (-1, s)
  else if rsf < appMsgLen ∧ appMsgLen / rsf * rsf ≠ appMsgLen then (-1, s)
  else (appMsgLen, { s with len := appMsgLen })

def recvTcpStep (ulongMax : Nat) (sync : Bool) (c : TcpRecv) :
    TcpPc → TcpState → Drive.Turn TcpPc TcpState Int
  | .peek, s =>
    if retried sync c then .again .peek s
    else
      match c with
      | .failed _ => .stop (-1) s
      | .data n =>
        let peeked := s.stream.take (min n recvCap)
        if peeked.length = 0 then .stop 0 s
        else
          let s := { s with buf := write s.buf 0 peeked }
          let (mlen, appMsgLen) := messageSizes ulongMax s.buf peeked.length
          if 0 < mlen then .again (.reading mlen.toNat appMsgLen 0 0) s else .stop 0 s
  | .reading mlen appMsgLen rsf cycle, s =>
    if retried sync c then .again (.reading mlen appMsgLen rsf cycle) s
    else
      let bytes := match c with
        | .data n => s.stream.take (min n (mlen - rsf))
        | .failed _ => []
      let s := { s with buf := write s.buf rsf bytes, stream := s.stream.drop bytes.length }
      let rsf := rsf + bytes.length
      if rsf < mlen ∧ cycle + 1 < 128 then .again (.reading mlen appMsgLen rsf (cycle + 1)) s
      else
        let (rc, s) := finishMessage appMsgLen rsf s
        .stop rc s

def recvTcp (ulongMax : Nat) (sync : Bool) (cs : List TcpRecv) (s : TcpState) :
    Drive.Turn TcpPc TcpState Int :=
  Drive.run (recvTcpStep ulongMax sync) cs .peek s

/-! ## What was read -/

/-- The message at the front of the stream: its size on the stream and without padding. -/
def frontMessage (ulongMax : Nat) (sync : Bool) (cs : List TcpRecv) (s : TcpState) : Int × Nat :=
  match cs.dropWhile (retried sync) with
  | .data n :: _ =>
    let peeked := s.stream.take (min n recvCap)
    messageSizes ulongMax (write s.buf 0 peeked) peeked.length
  | _ => (-1, 0)

def TcpRecv.size : TcpRecv → Nat
  | .data n => n
  | .failed _ => 0

/-- How much so many calls of `recv` that are not repeated would hand out. -/
def handedOut (sync : Bool) (room : Nat) (cs : List TcpRecv) : Nat :=
  (((cs.filter fun c => !retried sync c).take room).map TcpRecv.size).sum

/-- What the 128 calls behind the peek would hand out. -/
def handedOutBehind (sync : Bool) (cs : List TcpRecv) : Nat :=
  handedOut sync 128 (cs.dropWhile (retried sync)).tail

/-- The result is the next message of the stream, which was taken from the socket with its padding. -/
structure Delivers (mlen : Nat) (stream : List Byte) (n : Nat) (s : TcpState) : Prop where
  size : mlen = n ∨ mlen = Tlv.pad4 n
  bytes : slice s.buf 0 n = stream.take n
  consumed : n ≤ mlen ∧ mlen ≤ stream.length
  next : s.stream = stream.drop mlen

def DeliversStream (ulongMax : Nat) (sync : Bool) (cs : List TcpRecv) (s : TcpState) (n : Int)
    (s' : TcpState) : Prop :=
  0 < n → Delivers (frontMessage ulongMax sync cs s).1.toNat s.stream n.toNat s'

/-- The whole message arrives, or nothing, or a part that the test behind the loop refuses. -/
def ArrivesWhole (ulongMax : Nat) (sync : Bool) (cs : List TcpRecv) (s : TcpState) : Prop :=
  let sizes := frontMessage ulongMax sync cs s
  let got := handedOutBehind sync cs
  0 < sizes.1 → sizes.1 ≤ got ∨ got = 0 ∨ (got < sizes.2 ∧ ¬ got ∣ sizes.2)

instance (ulongMax : Nat) (sync : Bool) (cs : List TcpRecv) (s : TcpState) :
    Decidable (ArrivesWhole ulongMax sync cs s) :=
  inferInstanceAs (Decidable (_ → _))

/-! ## The sizes -/

theorem roundUp_of_pos {len : BitVec 16} (h : 0 < (roundUp true len).toNat) :
    (roundUp true len).toNat = Tlv.pad4 len.toNat := by
  have hlt := len.isLt
  rw [roundUp_true_toNat] at h ⊢
  unfold Tlv.pad4 at *
  omega

theorem messageSizes_spec {ulongMax rc app : Nat} {buf : Mem} {mlen : Int}
    (h : messageSizes ulongMax buf rc = (mlen, app)) (hpos : 0 < mlen) :
    (mlen.toNat = app ∨ mlen.toNat = Tlv.pad4 app) ∧ mlen.toNat ≤ rc := by
  unfold messageSizes stunGetMessageLenStr at h
  simp only at h
  split at h
  · cases h
    omega
  split at h
  · rename_i hcommand
    simp only [startsWithCommand, Bool.and_eq_true, decide_eq_true_eq] at hcommand
    cases h
    exact ⟨Or.inl (Int.toNat_natCast _), hcommand.2⟩
  split at h
  · rename_i hhttp
    cases h
    exact ⟨Or.inl rfl, by omega⟩
  split at h
  · split at h
    · rename_i hfits
      cases h
      exact ⟨Or.inr (roundUp_of_pos (by omega)), hfits⟩
    · cases h
      omega
  · cases h
    omega

theorem app_le_mlen {mlen app : Nat} (h : mlen = app ∨ mlen = Tlv.pad4 app) (hpos : 0 < mlen) :
    0 < app ∧ app ≤ mlen := by
  unfold Tlv.pad4 at h
  omega

/-! ## The loop -/

/-- So much of the message was taken; the buffer has held all of it since the peek. -/
structure Reading (stream : List Byte) (mlen rsf : Nat) (s : TcpState) : Prop where
  taken : rsf ≤ mlen
  arrived : mlen ≤ stream.length
  bytes : slice s.buf 0 mlen = stream.take mlen
  left : s.stream = stream.drop rsf

theorem write_slice_self (m : Mem) (off k : Nat) : write m off (slice m off k) = m := by
  funext i
  rw [write_apply, slice_length]
  split
  · rename_i hi
    rw [List.getD_eq_getElem?_getD, slice_getElem?, if_pos (by omega), Nat.add_sub_cancel' hi.1]
    rfl
  · rfl

/-- A part of the message is found in the buffer, where it would be read to. -/
theorem Reading.slice_eq {stream : List Byte} {mlen rsf k : Nat} {s : TcpState}
    (h : Reading stream mlen rsf s) (hk : k ≤ mlen - rsf) : s.stream.take k = slice s.buf rsf k := by
  have htaken := h.taken
  obtain ⟨r, hr⟩ := Nat.exists_eq_add_of_le (show rsf + k ≤ mlen by omega)
  have hbytes := congrArg (fun l => (l.drop rsf).take k) h.bytes
  simp only [hr, slice_append, List.append_assoc, Nat.zero_add] at hbytes
  rw [List.drop_left' (slice_length _ _ _), List.take_left' (slice_length _ _ _), List.drop_take,
    List.take_take, Nat.min_eq_left (by omega)] at hbytes
  rw [h.left, hbytes]

theorem Reading.read {stream : List Byte} {mlen rsf k : Nat} {s : TcpState}
    (h : Reading stream mlen rsf s) (hk : k ≤ mlen - rsf) :
    (s.stream.take k).length = k ∧
      Reading stream mlen (rsf + k) { s with buf := write s.buf rsf (s.stream.take k),
                                             stream := s.stream.drop k } := by
  have htaken := h.taken
  rw [h.slice_eq hk, write_slice_self]
  refine ⟨slice_length _ _ _, by omega, h.arrived, h.bytes, ?_⟩
  rw [h.left, List.drop_drop]

theorem handedOut_retried {sync : Bool} {c : TcpRecv} (hc : retried sync c = true) (room : Nat)
    (cs : List TcpRecv) : handedOut sync room (c :: cs) = handedOut sync room cs := by
  simp [handedOut, hc]

theorem handedOut_counted {sync : Bool} {c : TcpRecv} (hc : retried sync c = false) (room : Nat)
    (cs : List TcpRecv) :
    handedOut sync (room + 1) (c :: cs) = c.size + handedOut sync room cs := by
  simp [handedOut, hc]

/-- One counted call of `recv`, and where the loop goes from there. -/
theorem recvTcpStep_counted (ulongMax : Nat) {sync : Bool} {c : TcpRecv}
    (hc : retried sync c = false) {stream : List Byte} {mlen rsf : Nat} {s : TcpState}
    (h : Reading stream mlen rsf s) (app cycle : Nat) :
    ∃ t, Reading stream mlen (rsf + min c.size (mlen - rsf)) t ∧
      recvTcpStep ulongMax sync c (.reading mlen app rsf cycle) s =
        if rsf + min c.size (mlen - rsf) < mlen ∧ cycle + 1 < 128
        then .again (.reading mlen app (rsf + min c.size (mlen - rsf)) (cycle + 1)) t
        else .stop (finishMessage app (rsf + min c.size (mlen - rsf)) t).1
          (finishMessage app (rsf + min c.size (mlen - rsf)) t).2 := by
  obtain ⟨hlen, hread⟩ := h.read (Nat.min_le_right c.size (mlen - rsf))
  refine ⟨_, hread, ?_⟩
  cases c with
  | data n =>
    simp only [recvTcpStep, hc, Bool.false_eq_true, if_false, TcpRecv.size] at hlen ⊢
    rw [hlen]
    rfl
  | failed errno =>
    simp [recvTcpStep, hc, TcpRecv.size]

/-- The loop ends with what was handed out, up to the whole message. -/
theorem reading_run {ulongMax : Nat} {sync : Bool} {stream : List Byte} {mlen app : Nat} {n : Int}
    {s' : TcpState} (cs : List TcpRecv) {rsf room : Nat} {s : TcpState} (hroom : room < 128)
    (h : Reading stream mlen rsf s) (hlt : rsf < mlen)
    (hstop : Drive.run (recvTcpStep ulongMax sync) cs (.reading mlen app rsf (127 - room)) s =
      .stop n s') :
    ∃ t, Reading stream mlen (min mlen (rsf + handedOut sync (room + 1) cs)) t ∧
      finishMessage app (min mlen (rsf + handedOut sync (room + 1) cs)) t = (n, s') := by
  induction cs generalizing rsf room s with
  | nil => cases hstop
  | cons c cs ih =>
    rw [Drive.run] at hstop
    cases hc : retried sync c with
    | true =>
      rw [handedOut_retried hc]
      simp only [recvTcpStep, hc, if_true] at hstop
      exact ih hroom h hlt hstop
    | false =>
      rw [handedOut_counted hc]
      obtain ⟨t, ht, hstep⟩ := recvTcpStep_counted ulongMax hc h app (127 - room)
      rw [hstep] at hstop
      by_cases hmore : rsf + min c.size (mlen - rsf) < mlen ∧ 127 - room + 1 < 128
      · rw [if_pos hmore] at hstop
        obtain ⟨room, rfl⟩ : ∃ r, room = r + 1 := ⟨room - 1, by omega⟩
        have hcycle : 127 - (room + 1) + 1 = 127 - room := by omega
        have hsize : min c.size (mlen - rsf) = c.size := by omega
        rw [hcycle, hsize] at hstop
        rw [hsize] at ht hmore
        rw [← Nat.add_assoc]
        exact ih (by omega) ht hmore.1 hstop
      · rw [if_neg hmore] at hstop
        have hall : min mlen (rsf + (c.size + handedOut sync room cs)) =
            rsf + min c.size (mlen - rsf) := by
          by_cases hroom0 : room = 0
          · subst hroom0
            have hnone : handedOut sync 0 cs = 0 := by simp [handedOut]
            omega
          · omega
        rw [hall]
        refine ⟨t, ht, ?_⟩
        cases hstop
        rfl

/-! ## The message that is returned -/

theorem finishMessage_kept (app rsf : Nat) (t : TcpState) :
    (finishMessage app rsf t).2.buf = t.buf ∧ (finishMessage app rsf t).2.stream = t.stream := by
  unfold finishMessage
  split
  · exact ⟨rfl, rfl⟩
  split <;> exact ⟨rfl, rfl⟩

/-- The test behind the loop refuses nothing that divides the length. -/
theorem finishMessage_pos {app rsf : Nat} {t : TcpState} (hpos : 0 < (finishMessage app rsf t).1) :
    (finishMessage app rsf t).1 = app ∧ 0 < rsf ∧ (rsf < app → rsf ∣ app) := by
  unfold finishMessage at *
  split at hpos
  · simp at hpos
  · rename_i hread
    split at hpos
    · simp at hpos
    · rename_i hdivides
      rw [if_neg hread, if_neg hdivides]
      refine ⟨rfl, by omega, ?_⟩
      intro hshort
      by_contra hnot
      exact hdivides ⟨hshort, fun heq => hnot ⟨app / rsf, by rw [Nat.mul_comm, heq]⟩⟩

theorem finishMessage_accepts {app rsf : Nat} (t : TcpState) (hread : 0 < rsf)
    (hdivides : rsf < app → rsf ∣ app) : (finishMessage app rsf t).1 = app := by
  unfold finishMessage
  rw [if_neg (by omega), if_neg]
  intro hshort
  exact hshort.2 (Nat.div_mul_cancel (hdivides hshort.1))

theorem drop_eq_drop_iff {stream : List Byte} {a b : Nat} (ha : a ≤ stream.length)
    (hb : b ≤ stream.length) : stream.drop a = stream.drop b ↔ a = b := by
  constructor
  · intro h
    have hlen := congrArg List.length h
    simp only [List.length_drop] at hlen
    omega
  · intro h
    rw [h]

theorem finish_delivers_iff {stream : List Byte} {mlen app rsf : Nat} {t : TcpState}
    (ht : Reading stream mlen rsf t) (hsizes : mlen = app ∨ mlen = Tlv.pad4 app)
    (hpos : 0 < mlen) :
    (0 < (finishMessage app rsf t).1 →
        Delivers mlen stream (finishMessage app rsf t).1.toNat (finishMessage app rsf t).2) ↔
      rsf = mlen ∨ rsf = 0 ∨ (rsf < app ∧ ¬ rsf ∣ app) := by
  obtain ⟨happ, hle⟩ := app_le_mlen hsizes hpos
  obtain ⟨hbuf, hstream⟩ := finishMessage_kept app rsf t
  have htaken := ht.taken
  have harrived := ht.arrived
  constructor
  · intro h
    by_cases hread : rsf = 0
    · exact Or.inr (Or.inl hread)
    by_cases hrefused : rsf < app ∧ ¬ rsf ∣ app
    · exact Or.inr (Or.inr hrefused)
    have hdivides : rsf < app → rsf ∣ app := by
      intro hshort
      by_contra hnot
      exact hrefused ⟨hshort, hnot⟩
    have hn := finishMessage_accepts t (by omega) hdivides
    have hdelivers := h (by omega)
    have hnext := hdelivers.next
    rw [hstream, ht.left, drop_eq_drop_iff (by omega) harrived] at hnext
    exact Or.inl hnext
  · intro h hreturned
    obtain ⟨hn, hread, hdivides⟩ := finishMessage_pos hreturned
    have hwhole : rsf = mlen := by
      rcases h with hwhole | hnothing | ⟨hshort, hnot⟩
      · exact hwhole
      · omega
      · exact absurd (hdivides hshort) hnot
    rw [hn, Int.toNat_natCast]
    refine ⟨hsizes, ?_, ⟨hle, harrived⟩, ?_⟩
    · rw [hbuf, ← slice_take hle, ht.bytes, List.take_take, Nat.min_eq_left hle]
    · rw [hstream, ht.left, hwhole]

theorem min_condition_iff (mlen app got : Nat) :
    (min mlen got = mlen ∨ min mlen got = 0 ∨ (min mlen got < app ∧ ¬ min mlen got ∣ app)) ↔
      mlen ≤ got ∨ got = 0 ∨ (got < app ∧ ¬ got ∣ app) := by
  by_cases hall : mlen ≤ got
  · rw [Nat.min_eq_left hall]
    simp [hall]
  · have hmin : min mlen got = got := by omega
    have hne : got ≠ mlen := by omega
    rw [hmin]
    simp [hall, hne]

/-- The message was peeked at, and the loop begins. -/
theorem reading_of_peek {stream : List Byte} {k mlen : Nat} {s : TcpState} (hs : s.stream = stream)
    (hle : mlen ≤ (stream.take k).length) :
    Reading stream mlen 0 { s with buf := write s.buf 0 (stream.take k) } := by
  have hlen : (stream.take k).length ≤ stream.length := by
    rw [List.length_take]
    omega
  have hk : mlen ≤ k := by
    rw [List.length_take] at hle
    omega
  refine ⟨Nat.zero_le _, by omega, ?_, hs⟩
  rw [← slice_take hle, slice_write_same, List.take_take, Nat.min_eq_left hk]

/-- The bytes a peek shows. -/
def peekedAt (k : Nat) (s : TcpState) : TcpState :=
  { s with buf := write s.buf 0 (s.stream.take (min k recvCap)) }

theorem messageSizes_zero (ulongMax : Nat) (buf : Mem) : messageSizes ulongMax buf 0 = (-1, 0) := rfl

/-- A peek with a message in it leads to the loop, any other one ends the call. -/
theorem recvTcp_peek (ulongMax : Nat) (sync : Bool) (k : Nat) (cs : List TcpRecv) (s : TcpState)
    {mlen : Int} {app : Nat} (hsizes : messageSizes ulongMax (peekedAt k s).buf
      (s.stream.take (min k recvCap)).length = (mlen, app)) :
    if 0 < mlen then recvTcp ulongMax sync (.data k :: cs) s =
        Drive.run (recvTcpStep ulongMax sync) cs (.reading mlen.toNat app 0 0) (peekedAt k s)
      else ∃ t, recvTcp ulongMax sync (.data k :: cs) s = .stop 0 t := by
  unfold recvTcp
  rw [Drive.run]
  have hc : retried sync (.data k) = false := rfl
  simp only [recvTcpStep, hc, Bool.false_eq_true, if_false]
  by_cases hnone : (s.stream.take (min k recvCap)).length = 0
  · rw [hnone, messageSizes_zero] at hsizes
    cases hsizes
    rw [if_pos hnone]
    exact ⟨s, rfl⟩
  · rw [if_neg hnone]
    unfold peekedAt at hsizes
    simp only [hsizes]
    by_cases hpos : 0 < mlen
    · rw [if_pos hpos, if_pos hpos]
      rfl
    · rw [if_neg hpos, if_neg hpos]
      exact ⟨_, rfl⟩

/-- The call from its peek on. -/
theorem peek_delivers_iff {ulongMax : Nat} {sync : Bool} {k : Nat} {cs : List TcpRecv}
    {s s' : TcpState} {n : Int} (hstop : recvTcp ulongMax sync (.data k :: cs) s = .stop n s') :
    DeliversStream ulongMax sync (.data k :: cs) s n s' ↔
      ArrivesWhole ulongMax sync (.data k :: cs) s := by
  cases hsizes : messageSizes ulongMax (peekedAt k s).buf
      (s.stream.take (min k recvCap)).length with
  | mk mlen app =>
    have hpeek := recvTcp_peek ulongMax sync k cs s hsizes
    have hfront : frontMessage ulongMax sync (.data k :: cs) s = (mlen, app) := hsizes
    have hbehind : handedOutBehind sync (.data k :: cs) = handedOut sync 128 cs := rfl
    unfold DeliversStream ArrivesWhole
    rw [hfront, hbehind]
    by_cases hpos : 0 < mlen
    · rw [if_pos hpos, hstop] at hpeek
      obtain ⟨hpad, hle⟩ := messageSizes_spec hsizes hpos
      have hreading : Reading s.stream mlen.toNat 0 (peekedAt k s) := reading_of_peek rfl hle
      obtain ⟨t, ht, hfinish⟩ := reading_run cs (show 127 < 128 by omega) hreading (by omega)
        hpeek.symm
      have hiff := finish_delivers_iff ht hpad (by omega)
      rw [hfinish, min_condition_iff, Nat.zero_add] at hiff
      rw [hiff]
      simp only [hpos, forall_const, Int.toNat_le]
    · rw [if_neg hpos] at hpeek
      obtain ⟨t, ht⟩ := hpeek
      rw [hstop] at ht
      cases ht
      simp [hpos]

theorem recv_tcp_delivers_iff (ulongMax : Nat) (sync : Bool) (cs : List TcpRecv) (s : TcpState)
    (n : Int) (s' : TcpState) (hstop : recvTcp ulongMax sync cs s = .stop n s') :
    DeliversStream ulongMax sync cs s n s' ↔ ArrivesWhole ulongMax sync cs s := by
  induction cs with
  | nil => cases hstop
  | cons c cs ih =>
    cases hc : retried sync c with
    | true =>
      unfold recvTcp at hstop
      rw [Drive.run] at hstop
      simp only [recvTcpStep, hc, if_true] at hstop
      have hrest := ih hstop
      unfold DeliversStream ArrivesWhole frontMessage handedOutBehind at hrest ⊢
      rw [List.dropWhile_cons_of_pos hc]
      exact hrest
    | false =>
      cases c with
      | data k => exact peek_delivers_iff hstop
      | failed errno =>
        unfold recvTcp at hstop
        rw [Drive.run] at hstop
        simp only [recvTcpStep, hc, Bool.false_eq_true, if_false] at hstop
        cases hstop
        unfold DeliversStream ArrivesWhole frontMessage
        rw [List.dropWhile_cons_of_neg (by rw [hc]; exact Bool.false_ne_true)]
        simp

/-- ChannelData with four bytes on channel 0x4000, and the first byte behind it. -/
def channelStream : List Byte := [0x40, 0x00, 0x00, 0x04, 1, 2, 3, 4, 0x40]

def tcpStart : TcpState := ⟨fun _ => 0, 0, channelStream⟩

theorem agreeBelow_slice (m : Mem) (n : Nat) : AgreeBelow n (ofList (slice m 0 n)) m := by
  intro i hi
  rw [ofList, List.getD_eq_getElem?_getD, slice_getElem?, if_pos hi, Nat.zero_add, Option.getD_some]

theorem channelStream_sizes :
    messageSizes (2 ^ 64 - 1) (peekedAt 9 tcpStart).buf 9 = (8, 8) := by
  have hagree := agreeBelow_slice (peekedAt 9 tcpStart).buf maxStunMessageSize
  have hnumber : get16 (ofList (slice (peekedAt 9 tcpStart).buf 0 maxStunMessageSize)) 0 =
      0x4000 := by
    rw [hagree.get16 (by decide)]
    decide
  have hlength : get16 (ofList (slice (peekedAt 9 tcpStart).buf 0 maxStunMessageSize)) 2 = 4 := by
    rw [hagree.get16 (by decide)]
    decide
  rw [messageSizes, messageLen_of_channel (by decide) (by rw [hnumber]; decide),
    httpFramed_none (by rw [hnumber]; decide), channelAnswer, channelSizes, hlength]
  decide

/-- The message comes in two parts. -/
def twoReads : List TcpRecv := [.data 9, .data 3, .failed .eagain, .data 9]

theorem two_reads_deliver :
    ∃ s', recvTcp (2 ^ 64 - 1) true twoReads tcpStart = .stop 8 s' ∧
      DeliversStream (2 ^ 64 - 1) true twoReads tcpStart 8 s' := by
  have hpeek := recvTcp_peek (2 ^ 64 - 1) true 9 twoReads.tail tcpStart channelStream_sizes
  have hstop := hpeek.trans (Drive.Turn.eq_stop (a := 8) (by decide +kernel))
  refine ⟨_, hstop, ?_⟩
  rw [recv_tcp_delivers_iff (2 ^ 64 - 1) true twoReads tcpStart 8 _ hstop]
  intro _
  left
  rw [show frontMessage (2 ^ 64 - 1) true twoReads tcpStart = (8, 8) from channelStream_sizes]
  decide

/-- Half of the message, and then nothing more. -/
def halfRead : List TcpRecv := .data 9 :: .data 4 :: List.replicate 127 (.failed .eagain)

theorem half_message_returned :
    ∃ s', recvTcp (2 ^ 64 - 1) false halfRead tcpStart = .stop 8 s' ∧
      s'.stream = [1, 2, 3, 4, 0x40] ∧
      ¬ DeliversStream (2 ^ 64 - 1) false halfRead tcpStart 8 s' := by
  have hpeek := recvTcp_peek (2 ^ 64 - 1) false 9 halfRead.tail tcpStart channelStream_sizes
  have hstop := hpeek.trans (Drive.Turn.eq_stop (a := 8) (by decide +kernel))
  refine ⟨_, hstop, by decide +kernel, ?_⟩
  intro h
  have hnext := (h (by decide)).next
  rw [show frontMessage (2 ^ 64 - 1) false halfRead tcpStart = (8, 8) from channelStream_sizes]
    at hnext
  revert hnext
  decide +kernel

end TurnClient
