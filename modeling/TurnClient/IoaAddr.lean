import TurnClient.InetText

/-!
# Socket addresses

`ioa_addr` is a union of the IPv4 and IPv6 socket addresses. Both views share
the family and the port, and the IPv4 address lies over the flow information,
so the union is modelled flat, with a field for each stretch of bytes. Ports
and addresses are kept in network order.
-/

namespace TurnClient

open ByteMemory
set_option autoImplicit false

inductive Family where
  | unspec
  | inet
  | inet6
  | other (af : Nat)
deriving DecidableEq

@[ext]
structure In6Addr where
  bytes : List Byte
  size_eq : bytes.length = 16
deriving DecidableEq

/-- `word` is `s4.sin_addr` in the IPv4 view and the flow information in the IPv6 view. -/
structure IoaAddr where
  family : Family
  port : BitVec 16
  word : BitVec 32
  in6 : In6Addr
  scope : BitVec 32
deriving DecidableEq

def In6Addr.zero : In6Addr := ⟨List.replicate 16 0, rfl⟩

def IoaAddr.any : IoaAddr := ⟨.unspec, 0, 0, In6Addr.zero, 0⟩

def IoaAddr.known (a : IoaAddr) : Bool :=
  a.family = .inet || a.family = .unspec || a.family = .inet6

def addrAny (addr : IoaAddr) : Bool :=
  match addr.family with
  | .inet => addr.word == 0 && addr.port == 0
  | .inet6 => addr.port == 0 && addr.in6.bytes.all (· == 0)
  | _ => true

def addrAnyNoPort (addr : IoaAddr) : Bool :=
  match addr.family with
  | .inet => addr.word == 0
  | .inet6 => addr.in6.bytes.all (· == 0)
  | _ => true

def addrEq (a1 a2 : IoaAddr) : Bool :=
  if a1.family = a2.family then
    if a1.family = .inet ∧ a1.port = a2.port then a1.word == a2.word
    else if a1.family = .inet6 ∧ a1.port = a2.port then a1.in6.bytes == a2.in6.bytes
    else false
  else false

def addrEqNoPort (a1 a2 : IoaAddr) : Bool :=
  if a1.family = a2.family then
    match a1.family with
    | .inet => a1.word == a2.word
    | .inet6 => a1.in6.bytes == a2.in6.bytes
    | _ => false
  else false

def addrSetPort (addr : IoaAddr) (port : Int) : IoaAddr :=
  match addr.family with
  | .inet => { addr with port := BitVec.ofInt 16 port }
  | .inet6 => { addr with port := BitVec.ofInt 16 port }
  | _ => addr

def addrGetPort (addr : IoaAddr) : Nat :=
  match addr.family with
  | .inet => addr.port.toNat
  | .inet6 => addr.port.toNat
  | _ => 0

/-! ## The public and private address table -/

abbrev AddrMappings := List (IoaAddr × IoaAddr)

def mapAddrFromPublicToPrivate (maps : AddrMappings) (publicAddr : IoaAddr) : IoaAddr :=
  match maps.find? fun p => addrEqNoPort publicAddr p.1 with
  | some p => addrSetPort p.2 (addrGetPort publicAddr)
  | none => publicAddr

def mapAddrFromPrivateToPublic (maps : AddrMappings) (privateAddr : IoaAddr) : IoaAddr :=
  match maps.find? fun p => addrEqNoPort privateAddr p.2 with
  | some p => addrSetPort p.1 (addrGetPort privateAddr)
  | none => privateAddr

/-! ## Textual addresses -/

/-- The text of an address in the notation of its own family. -/
def addrText (addr : IoaAddr) : List Char :=
  match addr.family with
  | .inet => InetText.inetNtop4 addr.word
  | .inet6 => InetText.inetNtop6 addr.in6.bytes
  | _ => []

/-- The text `notify_ip` and `notify_address` hand on: always as `AF_INET`. -/
def notifiedText (addr : IoaAddr) : List Char := InetText.inetNtop4 addr.word

theorem notifiedText_eq_addrText_iff {addr : IoaAddr}
    (h : addr.family = .inet ∨ addr.family = .inet6) :
    notifiedText addr = addrText addr ↔ addr.family = .inet := by
  rcases h with h | h
  · simp [notifiedText, addrText, h]
  · simp [notifiedText, addrText, h, InetText.inetNtop4_ne_inetNtop6]

/-- The C library calls behind `make_ioa_addr`; `getaddrinfo` answers `none` on an error. -/
structure Resolver where
  inetPton4 : List Byte → Option (BitVec 32)
  inetPton6 : List Byte → Option In6Addr
  getaddrinfo : List Byte → Option (List IoaAddr)

/-- `STRCPY` into an array of 257 characters, then the spaces at both ends dropped. -/
def trimmedAddr (saddr0 : List Byte) : List Byte :=
  (((saddr0.take 256).dropWhile (· == 0x20)).reverse.dropWhile (· == 0x20)).reverse

def makeIoaAddr (env : Resolver) (saddr0 : List Byte) (port : Int) : Int × IoaAddr :=
  let saddr := trimmedAddr saddr0
  let nport := BitVec.ofInt 16 port
  match if saddr.isEmpty then some 0 else env.inetPton4 saddr with
  | some a => (0, { IoaAddr.any with family := .inet, port := nport, word := a })
  | none =>
    match env.inetPton6 saddr with
    | some a => (0, { IoaAddr.any with family := .inet6, port := nport, in6 := a })
    | none =>
      match env.getaddrinfo saddr with
      | none => (-1, IoaAddr.any)
      | some results =>
        match results.find? (fun r => r.family = .inet) with
        | some r => (0, { r with port := nport })
        | none =>
          match results.find? (fun r => r.family = .inet6) with
          | some r => (0, { r with port := nport })
          | none => (0, IoaAddr.any)

theorem makeIoaAddr_resolved {env : Resolver} {saddr0 : List Byte} {port : Int} {addr : IoaAddr}
    (h : makeIoaAddr env saddr0 port = (0, addr)) (hfam : addr.family ≠ .unspec) :
    (addr.family = .inet ∨ addr.family = .inet6) ∧ addr.port = BitVec.ofInt 16 port := by
  unfold makeIoaAddr at h
  simp only at h
  split at h
  · cases h
    exact ⟨Or.inl rfl, rfl⟩
  split at h
  · cases h
    exact ⟨Or.inr rfl, rfl⟩
  split at h
  · cases h
  split at h
  · rename_i hfind
    cases h
    exact ⟨Or.inl (by simpa using List.find?_some hfind), rfl⟩
  split at h
  · rename_i hfind
    cases h
    exact ⟨Or.inr (by simpa using List.find?_some hfind), rfl⟩
  · cases h
    exact absurd rfl hfam

theorem makeIoaAddr_known (env : Resolver) (saddr0 : List Byte) (port : Int) :
    (makeIoaAddr env saddr0 port).2.known = true := by
  unfold makeIoaAddr
  simp only
  split
  · rfl
  split
  · rfl
  split
  · rfl
  split
  · rename_i hfind
    have hfam := List.find?_some hfind
    simp only [decide_eq_true_eq] at hfam
    simp [IoaAddr.known, hfam]
  split
  · rename_i hfind
    have hfam := List.find?_some hfind
    simp only [decide_eq_true_eq] at hfam
    simp [IoaAddr.known, hfam]
  · rfl

end TurnClient
