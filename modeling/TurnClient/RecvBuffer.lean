import TurnClient.Datagrams
import TurnClient.Drive

/-!
# Waiting for the response to a request

`recv_buffer` of `p2p_client.c` over plain UDP with `sync` set and a request:
the retransmission loop around `select`, the receive loop that turns EAGAIN
into EINTR, and the jump back when the datagram belongs to another request.
One buffer is used for every datagram, and the transaction id is read from it
without regard to how many bytes were received.
-/

namespace TurnClient

open ByteMemory
set_option autoImplicit false

def maxListeningCycleNumber : Nat := 7
def fdSetsize : Nat := 1024

/-- `sizeof(message->buf) - 1`. -/
def recvCap : Nat := maxStunMessageSize - 1

inductive SelectOutcome where
  | ready
  | timeout
  | failed
deriving DecidableEq

/-- What the system answers in one turn, to each of the calls it could be. -/
structure WaitChoice where
  select : SelectOutcome
  sendRet : Int
  recv : RecvOutcome

inductive RecvPc where
  | wait (cycle : Nat)
  | recv
deriving DecidableEq

/-- The message buffer, and logs of the datagrams, the retransmissions and the calls of `recv`. -/
structure RecvState where
  buf : Mem
  len : Nat
  received : List (List Byte)
  retransmissions : Nat
  recvCalls : Nat

def RecvState.init (buf : Mem) (len : Nat) : RecvState := ⟨buf, len, [], 0, 0⟩

/-- `wait_fd` does not look at descriptors that `select` cannot hold. -/
def waitFd (fd : Nat) (c : WaitChoice) : SelectOutcome :=
  if fdSetsize ≤ fd then .ready else c.select

/-- The tests behind the receive: method and transaction id of the request. -/
def showsRequest (request : StunBuffer) (buf : Mem) (len : Nat) : Bool :=
  stunGetMethodStr request.buf request.len == stunGetMethodStr buf len &&
    stunTidFromMessageStr request.buf == stunTidFromMessageStr buf

def RecvState.take (s : RecvState) (bytes : List Byte) : RecvState :=
  { s with buf := recvInto s.buf recvCap bytes, len := (bytes.take recvCap).length,
           received := s.received ++ [bytes], recvCalls := s.recvCalls + 1 }

def recvBufferStep (fd : Nat) (request : StunBuffer) (c : WaitChoice) :
    RecvPc → RecvState → Drive.Turn RecvPc RecvState Int
  | .wait cycle, s =>
    if cycle < maxListeningCycleNumber then
      match waitFd fd c with
      | .ready => .again .recv s
      | .failed => .stop (-1) s
      | .timeout =>
        let s := { s with retransmissions := s.retransmissions + 1 }
        if c.sendRet ≤ 0 then .stop (-1) s else .again (.wait (cycle + 1)) s
    else .again .recv s
  | .recv, s =>
    match c.recv with
    | .failed .eagain => .again .recv { s with recvCalls := s.recvCalls + 1 }
    | .failed .eintr => .again .recv { s with recvCalls := s.recvCalls + 1 }
    | .failed _ => .stop (-1) { s with recvCalls := s.recvCalls + 1 }
    | .datagram bytes =>
      let s := s.take bytes
      if s.len = 0 then .stop 0 s
      else if showsRequest request s.buf s.len then .stop s.len s
      else .again (.wait 0) s

def recvBuffer (fd : Nat) (request : StunBuffer) (cs : List WaitChoice) (buf : Mem) (len : Nat) :
    Drive.Turn RecvPc RecvState Int :=
  Drive.run (recvBufferStep fd request) cs (.wait 0) (RecvState.init buf len)

/-! ## The datagram that is returned -/

/-- A positive result is the length of the last datagram, and that datagram is
a response to the request. -/
def ReturnsMatching (request : StunBuffer) (turn : Drive.Turn RecvPc RecvState Int) : Prop :=
  ∀ n s, turn = .stop n s → 0 < n → 20 ≤ n ∧
    ∃ bytes, s.received.getLast? = some bytes ∧ slice s.buf 0 n.toNat = bytes ∧
      stunTidFromMessageStr (ofList bytes) = stunTidFromMessageStr request.buf ∧
      stunGetMethodStr (ofList bytes) bytes.length = stunGetMethodStr request.buf request.len

/-- A datagram that, laid over what is left in the buffer, shows the request's
method and transaction id has a whole header and fits into the buffer. -/
def MatchFits (request : StunBuffer) (c : WaitChoice) (pc : RecvPc) (s : RecvState) : Prop :=
  ∀ bytes, pc = .recv → c.recv = .datagram bytes → bytes ≠ [] →
    showsRequest request (s.take bytes).buf (s.take bytes).len = true →
    20 ≤ bytes.length ∧ bytes.length ≤ recvCap

theorem take_len_eq_zero_iff (s : RecvState) (bytes : List Byte) :
    (s.take bytes).len = 0 ↔ bytes = [] := by
  cases bytes with
  | nil => simp [RecvState.take]
  | cons b bs => simp [RecvState.take, recvCap, maxStunMessageSize]

theorem step_again_fits {fd : Nat} {request : StunBuffer} {c : WaitChoice} {pc pc' : RecvPc}
    {s s' : RecvState} (h : recvBufferStep fd request c pc s = .again pc' s') :
    MatchFits request c pc s := by
  rintro bytes rfl hrecv hne hshows
  have hlen : (s.take bytes).len ≠ 0 := fun h0 => hne ((take_len_eq_zero_iff s bytes).mp h0)
  simp only [recvBufferStep, hrecv] at h
  rw [if_neg hlen, if_pos hshows] at h
  cases h

/-- The only way a turn ends the call with a positive result. -/
theorem step_stop_pos {fd : Nat} {request : StunBuffer} {c : WaitChoice} {pc : RecvPc}
    {s s' : RecvState} {n : Int} (h : recvBufferStep fd request c pc s = .stop n s') (hn : 0 < n) :
    ∃ bytes, pc = .recv ∧ c.recv = .datagram bytes ∧ bytes ≠ [] ∧
      showsRequest request (s.take bytes).buf (s.take bytes).len = true ∧
      n = (s.take bytes).len ∧ s' = s.take bytes := by
  cases pc with
  | wait cycle =>
    simp only [recvBufferStep] at h
    split at h
    · split at h
      · cases h
      · cases h
        omega
      · split at h
        · cases h
          omega
        · cases h
    · cases h
  | recv =>
    simp only [recvBufferStep] at h
    split at h
    · cases h
    · cases h
    · cases h
      omega
    · rename_i bytes hrecv
      split at h
      · cases h
        omega
      · rename_i hlen
        split at h
        · rename_i hshows
          cases h
          exact ⟨bytes, rfl, hrecv, fun h0 => hlen ((take_len_eq_zero_iff s bytes).mpr h0), hshows,
            rfl, rfl⟩
        · cases h

theorem showsRequest_iff (request : StunBuffer) (buf : Mem) (len : Nat) :
    showsRequest request buf len = true ↔
      stunGetMethodStr buf len = stunGetMethodStr request.buf request.len ∧
      stunTidFromMessageStr buf = stunTidFromMessageStr request.buf := by
  simp only [showsRequest, Bool.and_eq_true, beq_iff_eq]
  constructor
  · rintro ⟨hmethod, htid⟩
    exact ⟨hmethod.symm, htid.symm⟩
  · rintro ⟨hmethod, htid⟩
    exact ⟨hmethod.symm, htid.symm⟩

theorem step_datagram {fd : Nat} {request : StunBuffer} {c : WaitChoice} {s : RecvState}
    {bytes : List Byte} (hrecv : c.recv = .datagram bytes) (hne : bytes ≠ [])
    (hshows : showsRequest request (s.take bytes).buf (s.take bytes).len = true) :
    recvBufferStep fd request c .recv s = .stop (s.take bytes).len (s.take bytes) := by
  have hlen : (s.take bytes).len ≠ 0 := fun h0 => hne ((take_len_eq_zero_iff s bytes).mp h0)
  simp only [recvBufferStep, hrecv]
  rw [if_neg hlen, if_pos hshows]

/-- A turn that ends the call meets the contract exactly if the datagram fits. -/
theorem returnsMatching_stop_iff {fd : Nat} {request : StunBuffer} {c : WaitChoice} {pc : RecvPc}
    {s s' : RecvState} {n : Int} (h : recvBufferStep fd request c pc s = .stop n s') :
    ReturnsMatching request (.stop n s') ↔ MatchFits request c pc s := by
  constructor
  · rintro hret bytes rfl hrecv hne hshows
    rw [step_datagram hrecv hne hshows] at h
    cases h
    have hpos : (s.take bytes).len ≠ 0 := fun h0 => hne ((take_len_eq_zero_iff s bytes).mp h0)
    obtain ⟨h20, last, hlast, hslice, _⟩ := hret _ _ rfl (by omega)
    have heq : last = bytes := by simpa [RecvState.take] using hlast.symm
    subst heq
    have hlen := congrArg List.length hslice
    simp only [slice_length, Int.toNat_natCast] at hlen
    simp only [RecvState.take, List.length_take] at hlen h20
    omega
  · rintro hfits n' t heq hn
    cases heq
    obtain ⟨bytes, rfl, hrecv, hne, hshows, rfl, rfl⟩ := step_stop_pos h hn
    obtain ⟨h20, hcap⟩ := hfits bytes rfl hrecv hne hshows
    have htake : bytes.take recvCap = bytes := List.take_of_length_le hcap
    have hlen : (s.take bytes).len = bytes.length := by simp only [RecvState.take, htake]
    have hbuf : (s.take bytes).buf = write s.buf 0 bytes := by
      simp only [RecvState.take, recvInto, htake]
    have hagree := agreeBelow_write s.buf bytes
    obtain ⟨hmethod, htid⟩ := (showsRequest_iff _ _ _).mp hshows
    rw [hlen, hbuf] at hmethod
    rw [hbuf] at htid
    refine ⟨by omega, bytes, by simp [RecvState.take], ?_, ?_, ?_⟩
    · rw [hlen, hbuf, Int.toNat_natCast]
      exact slice_write_same s.buf 0 bytes
    · rw [← hagree.tid h20]
      exact htid
    · rw [← hagree.method]
      exact hmethod

theorem run_returnsMatching_iff (fd : Nat) (request : StunBuffer) (cs : List WaitChoice)
    (pc : RecvPc) (s : RecvState) :
    ReturnsMatching request (Drive.run (recvBufferStep fd request) cs pc s) ↔
      Drive.Along (MatchFits request) (recvBufferStep fd request) cs pc s := by
  induction cs generalizing pc s with
  | nil =>
    simp only [Drive.run, Drive.Along, iff_true]
    intro n t h
    cases h
  | cons c cs ih =>
    rw [Drive.run, Drive.Along]
    cases hstep : recvBufferStep fd request c pc s with
    | again pc' s' =>
      simp only [ih pc' s']
      exact (and_iff_right (step_again_fits hstep)).symm
    | stop n s' =>
      simp only [returnsMatching_stop_iff hstep, and_true]

/-- A synchronous exchange returns a response to its request exactly when every
datagram that looks like one, over the bytes left in the buffer, fits. -/
theorem recv_buffer_returns_matching_iff (fd : Nat) (request : StunBuffer) (cs : List WaitChoice)
    (buf : Mem) (len : Nat) :
    ReturnsMatching request (recvBuffer fd request cs buf len) ↔
      Drive.Along (MatchFits request) (recvBufferStep fd request) cs (.wait 0)
        (RecvState.init buf len) :=
  run_returnsMatching_iff fd request cs (.wait 0) (RecvState.init buf len)

/-- A turn in which this datagram can be received. -/
def WaitChoice.receives (bytes : List Byte) : WaitChoice := ⟨.ready, 1, .datagram bytes⟩

def plainAllocate : StunBuffer :=
  stunInitRequestStr 0x0003 (fun _ => 0) countingTid

/-- A Refresh response with the transaction id of the request. -/
def otherMethodResponse : List Byte :=
  [0x01, 0x04, 0x00, 0x00, 0x21, 0x12, 0xA4, 0x42, 1, 2, 3, 4, 5, 6, 7, 8, 9, 10, 11, 12]

/-- The Refresh response, then a datagram of two bytes: the type of an Allocate response. -/
def leftoverRun : Drive.Turn RecvPc RecvState Int :=
  recvBuffer 3 plainAllocate
    [.receives [], .receives otherMethodResponse, .receives [], .receives [0x01, 0x03]]
    (fun _ => 0) 0

/-- The two bytes and the transaction id left in the buffer are taken for a response. -/
theorem leftover_bytes_accepted : ¬ ReturnsMatching plainAllocate leftoverRun := by
  intro h
  have hret : (match leftoverRun with
    | .stop n _ => n
    | .again _ _ => 0) = 2 := by decide +kernel
  cases hrun : leftoverRun with
  | again pc s =>
    rw [hrun] at hret
    cases hret
  | stop n s =>
    rw [hrun] at hret
    simp only at hret
    obtain ⟨h20, _⟩ := h n s hrun (by omega)
    omega

/-! ## A silent server -/

/-- Nothing arrives: `select` times out, the request can be sent again, `recv` has nothing. -/
structure WaitChoice.Silent (c : WaitChoice) : Prop where
  select : c.select = .timeout
  send : 0 < c.sendRet
  recv : c.recv = .failed .eagain

/-- The contract of the wait: few retransmissions, then -1. -/
def EndsAfterSilence (fd : Nat) (request : StunBuffer) (buf : Mem) (len : Nat)
    (env : Nat → WaitChoice) : Prop :=
  ∃ n s, recvBuffer fd request ((List.range n).map env) buf len = .stop (-1) s ∧
    s.retransmissions ≤ maxListeningCycleNumber

section Silent
variable (fd : Nat) (request : StunBuffer)

/-- The receive loop rewrites EAGAIN and goes on. -/
theorem silent_recv (cs : List WaitChoice) (hsilent : ∀ c ∈ cs, c.Silent) (s : RecvState) :
    Drive.run (recvBufferStep fd request) cs .recv s =
      .again .recv { s with recvCalls := s.recvCalls + cs.length } := by
  induction cs generalizing s with
  | nil => rfl
  | cons c cs ih =>
    have hc := (hsilent c List.mem_cons_self).recv
    have hrest := ih (fun c hc => hsilent c (List.mem_cons_of_mem _ hc))
      { s with recvCalls := s.recvCalls + 1 }
    simp only [Drive.run, recvBufferStep, hc, hrest, List.length_cons]
    rw [Nat.add_assoc, Nat.add_comm 1]

theorem silent_wait_step {c : WaitChoice} (hc : c.Silent) (cycle : Nat) (s : RecvState) :
    recvBufferStep fd request c (.wait cycle) s =
      if cycle < maxListeningCycleNumber ∧ fd < fdSetsize then
        .again (.wait (cycle + 1)) { s with retransmissions := s.retransmissions + 1 }
      else .again .recv s := by
  have hsend : ¬c.sendRet ≤ 0 := Int.not_le.mpr hc.send
  by_cases hlt : cycle < maxListeningCycleNumber
  · by_cases hfd : fdSetsize ≤ fd
    · have hwait : ¬(cycle < maxListeningCycleNumber ∧ fd < fdSetsize) := by omega
      simp only [recvBufferStep, waitFd, if_pos hlt, if_pos hfd, if_neg hwait]
    · have hwait : cycle < maxListeningCycleNumber ∧ fd < fdSetsize := ⟨hlt, by omega⟩
      simp only [recvBufferStep, waitFd, if_pos hlt, if_neg hfd, hc.select, if_neg hsend,
        if_pos hwait]
  · have hwait : ¬(cycle < maxListeningCycleNumber ∧ fd < fdSetsize) := by omega
    simp only [recvBufferStep, if_neg hlt, if_neg hwait]

/-- From any cycle on the loop retransmits at most until its bound, and then only receives. -/
theorem silent_wait (cs : List WaitChoice) (hsilent : ∀ c ∈ cs, c.Silent) (cycle : Nat)
    (hcycle : cycle ≤ 7) (s : RecvState) :
    ∃ pc s', Drive.run (recvBufferStep fd request) cs (.wait cycle) s = .again pc s' ∧
      s'.retransmissions + cycle ≤ s.retransmissions + 7 ∧
      s.recvCalls + cs.length + cycle ≤ s'.recvCalls + 8 := by
  induction cs generalizing cycle s with
  | nil => exact ⟨.wait cycle, s, rfl, by omega, by simp only [List.length_nil]; omega⟩
  | cons c cs ih =>
    have hcs : ∀ c ∈ cs, c.Silent := fun c hc => hsilent c (List.mem_cons_of_mem _ hc)
    rw [Drive.run, silent_wait_step fd request (hsilent c List.mem_cons_self)]
    by_cases hwait : cycle < maxListeningCycleNumber ∧ fd < fdSetsize
    · rw [if_pos hwait]
      have hlt : cycle < 7 := hwait.1
      obtain ⟨pc, s', hrun, hret, hcalls⟩ := ih hcs (cycle + 1) (by omega)
        { s with retransmissions := s.retransmissions + 1 }
      simp only at hret hcalls
      exact ⟨pc, s', hrun, by omega, by simp only [List.length_cons]; omega⟩
    · rw [if_neg hwait]
      refine ⟨_, _, silent_recv fd request cs hcs s, ?_, ?_⟩ <;> simp only [List.length_cons] <;> omega

theorem silent_prefix {env : Nat → WaitChoice} (hsilent : ∀ i, (env i).Silent) (buf : Mem)
    (len n : Nat) :
    ∃ pc s, recvBuffer fd request ((List.range n).map env) buf len = .again pc s ∧
      s.retransmissions ≤ 7 ∧ n ≤ s.recvCalls + 8 := by
  have hall : ∀ c ∈ (List.range n).map env, c.Silent := by
    intro c hc
    obtain ⟨i, _, rfl⟩ := List.mem_map.mp hc
    exact hsilent i
  obtain ⟨pc, s, hrun, hret, hcalls⟩ := silent_wait fd request _ hall 0 (by decide)
    (RecvState.init buf len)
  refine ⟨pc, s, hrun, ?_, ?_⟩
  · simpa [RecvState.init] using hret
  · simpa [RecvState.init] using hcalls

end Silent

/-- The wait for a silent server never ends: after at most seven
retransmissions `recv` is called again and again. -/
theorem silent_server_never_ends (fd : Nat) (request : StunBuffer) (buf : Mem) (len : Nat)
    (env : Nat → WaitChoice) (hsilent : ∀ i, (env i).Silent) :
    ¬ EndsAfterSilence fd request buf len env ∧
    ∀ n, ∃ pc s, recvBuffer fd request ((List.range n).map env) buf len = .again pc s ∧
      s.retransmissions ≤ maxListeningCycleNumber ∧ n ≤ s.recvCalls + 8 := by
  refine ⟨?_, silent_prefix fd request hsilent buf len⟩
  rintro ⟨n, s, hstop, _⟩
  obtain ⟨pc, t, hagain, _⟩ := silent_prefix fd request hsilent buf len n
  rw [hstop] at hagain
  cases hagain

def silentChoice : WaitChoice := ⟨.timeout, 1, .failed .eagain⟩

theorem silentChoice_silent : silentChoice.Silent := ⟨rfl, by decide, rfl⟩

/-- Seven hundred rounds of silence, and the wait still goes on. -/
theorem silent_allocate_still_waiting :
    ∃ pc s, recvBuffer 3 plainAllocate ((List.range 700).map fun _ => silentChoice)
      (fun _ => 0) 0 = .again pc s ∧ s.retransmissions ≤ maxListeningCycleNumber ∧
      692 ≤ s.recvCalls := by
  obtain ⟨_, hon⟩ := silent_server_never_ends 3 plainAllocate (fun _ => 0) 0
    (fun _ => silentChoice) fun _ => silentChoice_silent
  obtain ⟨pc, s, hagain, hretransmissions, hcalls⟩ := hon 700
  exact ⟨pc, s, hagain, hretransmissions, by omega⟩

theorem silent_allocate_keeps_receiving :
    ¬ EndsAfterSilence 3 plainAllocate (fun _ => 0) 0 fun _ => silentChoice := by
  rintro ⟨n, s, hstop, _⟩
  obtain ⟨pc, t, hagain, _⟩ := silent_prefix 3 plainAllocate (fun _ => silentChoice_silent)
    (fun _ => 0) 0 n
  rw [hstop] at hagain
  cases hagain

end TurnClient
