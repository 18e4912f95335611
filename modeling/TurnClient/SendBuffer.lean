import TurnClient.Datagrams
import TurnClient.Drive

/-!
# Sending a message over a plain socket

`send_buffer` of `p2p_client.c` without TLS. Each call of `send` takes a part of
what is left; a call that took nothing is repeated while errno says so, and errno
may be left from an earlier call.
-/

namespace TurnClient

open ByteMemory
set_option autoImplicit false

/-- What one `send` does: it takes at most so many bytes, or fails. In both cases errno holds a
value afterwards. -/
inductive SendAnswer where
  | takes (n : Nat) (errno : Errno)
  | failed (errno : Errno)
deriving DecidableEq

namespace SendAnswer

def errno : SendAnswer → Errno
  | takes _ errno => errno
  | failed errno => errno

/-- `rc`, when so many bytes are offered. -/
def rc (left : Nat) : SendAnswer → Int
  | takes n _ => (min n left : Nat)
  | failed _ => -1

/-- The inner loop goes round: EINTR, ENOBUFS or EAGAIN, and nothing was taken. -/
def repeated (left : Nat) (c : SendAnswer) : Bool :=
  c.rc left ≤ 0 && (c.errno = .eintr || c.errno = .enobufs || c.errno = .eagain)

end SendAnswer

/-- The pointer `buffer` as an offset into the message. What the socket took is a ghost. -/
structure SendState where
  message : StunBuffer
  buffer : Nat
  left : Nat
  accepted : List Byte

def sendStep (c : SendAnswer) (_ : Unit) (s : SendState) : Drive.Turn Unit SendState Int :=
  if c.repeated s.left then .again () s
  else
    let rc := c.rc s.left
    if 0 < rc then
      let s := { s with
        buffer := s.buffer + rc.toNat
        left := s.left - rc.toNat
        accepted := s.accepted ++ slice s.message.buf s.buffer rc.toNat }
      if 0 < s.left then .again () s else .stop (castInt s.message.len) s
    else .stop (-1) s

/-- The connection: `clnet_info->fd`, and for a data connection the one of `atc`, when there is one. -/
structure SendConn where
  fd : Int
  dataConnection : Bool
  tcpDataFd : Option Int
  tcpRelay : Bool

def SendConn.socket (conn : SendConn) : Option Int :=
  if conn.dataConnection then
    match conn.tcpDataFd with
    | some fd => some fd
    | none => if conn.tcpRelay then none else some conn.fd
  else some conn.fd

/-- With `negative_protocol_test` bytes at random places are replaced. -/
def corrupt (places : List (Nat × Byte)) (m : StunBuffer) : StunBuffer :=
  if 0 < m.len then
    { m with buf := places.foldl (fun buf p => write buf (p.1 % m.len) [p.2]) m.buf }
  else m

def sendBuffer (negativeProtocolTest : Bool) (places : List (Nat × Byte)) (conn : SendConn)
    (cs : List SendAnswer) (message : StunBuffer) : Drive.Turn Unit SendState Int :=
  let message := if negativeProtocolTest then corrupt places message else message
  let s : SendState := ⟨message, 0, message.len, []⟩
  match conn.socket with
  | none => .stop (-1) s
  | some fd =>
    if fd < 0 then .stop (-1) s
    else if message.len = 0 then .stop (castInt message.len) s
    else Drive.run sendStep cs () s

/-! ## What was taken -/

/-- The bytes in front of the pointer were taken, the others are left. -/
structure Sending (m : StunBuffer) (s : SendState) : Prop where
  message : s.message = m
  sum : s.buffer + s.left = m.len
  left : 0 < s.left
  accepted : s.accepted = slice m.buf 0 s.buffer

theorem Sending.advance {m : StunBuffer} {s : SendState} (h : Sending m s) (n : Nat) :
    s.accepted ++ slice s.message.buf s.buffer n = slice m.buf 0 (s.buffer + n) := by
  rw [h.message, h.accepted, slice_append, Nat.zero_add]

theorem repeated_eq {left left' : Nat} (h : 0 < left) (h' : 0 < left') (c : SendAnswer) :
    c.repeated left = c.repeated left' := by
  unfold SendAnswer.repeated SendAnswer.rc
  cases c with
  | takes n errno =>
    have hiff : ((min n left : Nat) : Int) ≤ 0 ↔ ((min n left' : Nat) : Int) ≤ 0 := by omega
    simp only [hiff]
  | failed errno => rfl

/-- An answer that is not repeated ends the procedure or leaves less. -/
theorem sendStep_progress {c : SendAnswer} {s : SendState} (h : c.repeated s.left = false) :
    (∃ ret s', sendStep c () s = .stop ret s') ∨
      ∃ s', sendStep c () s = .again () s' ∧ s'.left < s.left ∧ 0 < s'.left := by
  unfold sendStep
  rw [h]
  simp only [Bool.false_eq_true, if_false]
  split
  · split
    · rename_i hpos hleft
      exact .inr ⟨_, rfl, by simp only at hleft ⊢; omega, hleft⟩
    · exact .inl ⟨_, _, rfl⟩
  · exact .inl ⟨_, _, rfl⟩

theorem run_sendStep_returns (cs : List SendAnswer) {s : SendState} (hleft : 0 < s.left)
    (hmany : s.left ≤ (cs.filter fun c => !c.repeated s.left).length) :
    ∃ ret s', Drive.run sendStep cs () s = .stop ret s' := by
  induction cs generalizing s with
  | nil =>
    rw [List.filter_nil, List.length_nil] at hmany
    omega
  | cons c cs ih =>
    rw [Drive.run]
    cases hrep : c.repeated s.left with
    | true =>
      have hagain : sendStep c () s = .again () s := if_pos hrep
      rw [List.filter_cons_of_neg (by simp [hrep])] at hmany
      rw [hagain]
      exact ih hleft hmany
    | false =>
      rw [List.filter_cons_of_pos (by simp [hrep]), List.length_cons] at hmany
      rcases sendStep_progress hrep with ⟨ret, s', hstop⟩ | ⟨s', hagain, hless, hpos⟩
      · rw [hstop]
        exact ⟨ret, s', rfl⟩
      · have hsame : (fun c : SendAnswer => !c.repeated s'.left) = fun c => !c.repeated s.left :=
          funext fun c => congrArg not (repeated_eq hpos hleft c)
        rw [hagain]
        apply ih hpos
        rw [hsame]
        omega

/-- As many answers that are not repeated as the message has bytes are enough. -/
theorem sendBuffer_returns (places : List (Nat × Byte)) (conn : SendConn) (cs : List SendAnswer)
    {m : StunBuffer} (hmany : m.len ≤ (cs.filter fun c => !c.repeated m.len).length) :
    ∃ ret s, sendBuffer false places conn cs m = .stop ret s := by
  unfold sendBuffer
  simp only [Bool.false_eq_true, if_false]
  split
  · exact ⟨_, _, rfl⟩
  · split
    · exact ⟨_, _, rfl⟩
    · split
      · exact ⟨_, _, rfl⟩
      · rename_i hne
        exact run_sendStep_returns cs (Nat.pos_of_ne_zero hne) hmany

end TurnClient
