import TurnClient.RequestBounds

/-!
# Challenges without end

`turn_channel_bind` and `turn_create_permission` build a request anew for every
challenge, and nothing in them counts the challenges: one call builds one
request more than it is challenged, so a server that goes on challenging keeps
the client building requests.
-/

namespace TurnClient

open ByteMemory
set_option autoImplicit false

/-! ## Requests and challenges of one call -/

def builtBind (g : Globals) (peer : IoaAddr) (c : Choice) : BindPc → Client → List StunBuffer
  | .begBind chn, s =>
    [(finishRequest g c s.info (stunSetChannelBindRequestStr c (some peer) chn).2).2.2]
  | .response _, _ => []

def builtPermission (g : Globals) (peers : List IoaAddr) (c : Choice) :
    PermissionPc → Client → List StunBuffer
  | .begCp, s =>
    if g.noPermissions || peers.isEmpty then []
    else [(finishRequest g c s.info (createPermissionRequest c peers)).2.2]
  | .response, _ => []

/-- The message of this turn, if it is taken for a challenge. -/
def challengeIn (c : Choice) (s : Client) : List StunBuffer :=
  match receive c s with
  | .challenge _ => [⟨c.recvBuf, c.recvRet.toNat⟩]
  | _ => []

def bindChallenge (c : Choice) : BindPc → Client → List StunBuffer
  | .begBind _, _ => []
  | .response _, s => challengeIn c s

def permissionChallenge (c : Choice) : PermissionPc → Client → List StunBuffer
  | .begCp, _ => []
  | .response, s => challengeIn c s

structure BindRun where
  g : Globals
  peer : IoaAddr
  chn : BitVec 16
  cs : List Choice
  s : Client

namespace BindRun

def requests (r : BindRun) : List StunBuffer :=
  Drive.collect (builtBind r.g r.peer) (turnChannelBindStep r.g r.peer) r.cs (.begBind r.chn) r.s

def challenges (r : BindRun) : List StunBuffer :=
  Drive.collect bindChallenge (turnChannelBindStep r.g r.peer) r.cs (.begBind r.chn) r.s

end BindRun

structure PermissionRun where
  g : Globals
  peers : List IoaAddr
  cs : List Choice
  s : Client

namespace PermissionRun

def requests (r : PermissionRun) : List StunBuffer :=
  Drive.collect (builtPermission r.g r.peers) (turnCreatePermissionStep r.g r.peers) r.cs .begCp r.s

def challenges (r : PermissionRun) : List StunBuffer :=
  Drive.collect permissionChallenge (turnCreatePermissionStep r.g r.peers) r.cs .begCp r.s

end PermissionRun

/-! ## One more request than challenges -/

def BindPc.building : BindPc → Bool
  | .begBind _ => true
  | .response _ => false

def PermissionPc.building : PermissionPc → Bool
  | .begCp => true
  | .response => false

theorem turnChannelBind_restarts (g : Globals) (peer : IoaAddr) :
    Drive.Restarts BindPc.building (builtBind g peer) bindChallenge (turnChannelBindStep g peer) := by
  constructor
  · intro c pc s hpc
    cases pc with
    | begBind chn =>
      refine ⟨rfl, Nat.le_refl _, ?_⟩
      simp only [turnChannelBindStep]
      split
      · trivial
      · split
        · trivial
        · exact ⟨rfl, rfl⟩
    | response chn => cases hpc
  · intro c pc s hpc
    cases pc with
    | begBind chn => cases hpc
    | response chn =>
      refine ⟨rfl, ?_⟩
      simp only [turnChannelBindStep, bindChallenge, challengeIn]
      cases receive c s with
      | success m s' =>
        simp only
        split <;> trivial
      | _ => rfl

theorem turnCreatePermission_restarts (g : Globals) (peers : List IoaAddr) :
    Drive.Restarts PermissionPc.building (builtPermission g peers) permissionChallenge
      (turnCreatePermissionStep g peers) := by
  constructor
  · intro c pc s hpc
    cases pc with
    | begCp =>
      simp only [turnCreatePermissionStep, builtPermission, permissionChallenge]
      split
      · exact ⟨trivial, Nat.zero_le _, trivial⟩
      · refine ⟨trivial, Nat.le_refl _, ?_⟩
        split
        · trivial
        · split
          · trivial
          · exact ⟨rfl, rfl⟩
    | response => cases hpc
  · intro c pc s hpc
    cases pc with
    | begCp => cases hpc
    | response =>
      refine ⟨rfl, ?_⟩
      simp only [turnCreatePermissionStep, permissionChallenge, challengeIn]
      cases receive c s with
      | success m s' =>
        simp only
        split <;> trivial
      | _ => rfl

theorem BindRun.requests_challenges (r : BindRun) :
    r.requests.length ≤ r.challenges.length + 1 ∧ r.challenges.length ≤ r.requests.length :=
  (turnChannelBind_restarts r.g r.peer).counts r.cs rfl r.s

theorem PermissionRun.requests_challenges (r : PermissionRun) :
    r.requests.length ≤ r.challenges.length + 1 ∧ r.challenges.length ≤ r.requests.length :=
  (turnCreatePermission_restarts r.g r.peers).counts r.cs rfl r.s

/-- One bound for all these runs. -/
def BoundedOn {R : Type} (runs : R → Prop) (count : R → Nat) : Prop :=
  ∃ bound, ∀ r, runs r → count r ≤ bound

theorem boundedOn_iff {R : Type} {runs : R → Prop} {count count' : R → Nat}
    (h : ∀ r, count r ≤ count' r + 1 ∧ count' r ≤ count r) :
    BoundedOn runs count ↔ BoundedOn runs count' := by
  constructor
  · intro hcount
    obtain ⟨bound, hbound⟩ := hcount
    exact ⟨bound, fun r hr => Nat.le_trans (h r).2 (hbound r hr)⟩
  · intro hcount
    obtain ⟨bound, hbound⟩ := hcount
    refine ⟨bound + 1, fun r hr => ?_⟩
    have hr' := hbound r hr
    have hle := (h r).1
    omega

/-- The requests of the calls are bounded exactly when the challenges they meet are. -/
theorem requests_bounded_iff (binds : BindRun → Prop) (permissions : PermissionRun → Prop) :
    BoundedOn binds (fun r => r.requests.length) ∧
        BoundedOn permissions (fun r => r.requests.length) ↔
      BoundedOn binds (fun r => r.challenges.length) ∧
        BoundedOn permissions (fun r => r.challenges.length) := by
  rw [boundedOn_iff fun r : BindRun => r.requests_challenges,
    boundedOn_iff fun r : PermissionRun => r.requests_challenges]

/-! ## A server that goes on challenging -/

section Signing

variable {m : StunBuffer} {msgType : BitVec 16} {tid : StunTid} {attrs : List Tlv.Record}
  {bound : Nat} {ssl : OpenSsl}
  (hhmac : ∀ message key shatype, (stunCalculateHmac ssl message key shatype).isSome = true)
include hhmac

theorem signedByKey_ok (h : ExtendsBy (fun _ => True) m msgType tid attrs bound)
    (hroom : bound + 1000 ≤ 65507) {uname realm nonce : List Byte} (huname : uname.length ≤ 512)
    (hrealm : realm.length ≤ 128) (hnonce : nonce.length ≤ 128) (key : Mem) (shatype : ShaType)
    (hmac : Mem) (pwd : List Byte) :
    (stunAttrAddIntegrityByKeyStr ssl m uname realm key nonce shatype hmac pwd).1 = .ok := by
  obtain ⟨m₁, h₁, e₁⟩ := h.addString stunAttributeUsername uname trivial huname (by omega)
  obtain ⟨m₂, h₂, e₂⟩ := e₁.addString stunAttributeNonce nonce trivial hnonce (by omega)
  obtain ⟨m₃, h₃, e₃⟩ := e₂.addString stunAttributeRealm realm trivial hrealm (by omega)
  have hsize := (shaSizeBytes_bounds shatype).1
  have hbytes : attrBytes (some hmac) (shaSizeBytes shatype : Int) =
      slice hmac 0 (shaSizeBytes shatype) := rfl
  obtain ⟨m₄, h₄, _⟩ := e₃.addStr stunAttributeMessageIntegrity (some hmac) (shaSizeBytes shatype)
    trivial (n := 64) (by rw [hbytes, slice_length]; exact hsize) (by omega)
  simp only [stunAttrAddIntegrityByKeyStr, stunAttrAddIntegrityStr, h₁, h₂, h₃, h₄, Rc.andThen]
  split
  · rename_i hnone
    have hsome := hhmac (slice m₄.buf 0 (m₄.len - 4 - shaSizeBytes shatype)) (slice key 0
      (getHmackeySize shatype)) shatype
    rw [if_neg (by decide)] at hnone
    rw [hnone] at hsome
    cases hsome
  · rfl

/-- Without third-party authorization a request of ordinary size is always signed. -/
theorem finishRequest_ok {g : Globals} (hssl : g.ssl = ssl) (hoauth : g.oauth = false)
    (h : IsMessage m msgType tid attrs) (hlen : m.len ≤ 1000) (c : Choice) (ci : ConnInfo) :
    (finishRequest g c ci m).1 = 0 := by
  subst hssl
  have hadded : ExtendsBy (fun _ => True) m msgType tid attrs m.len := h.extendsBy
  have horigin := hadded.origin (fun _ _ => trivial) (by omega) g
  have hsigned := signedByKey_ok hhmac horigin (by omega) g.gUname.fits (cstr_length _ _ :
    (realmStr ci).length ≤ 128) (cstr_length _ _ : (nonceStr ci).length ≤ 128)
    (stunProduceIntegrityKeyStr g.ssl g.gUname.bytes (realmStr ci) g.gUpwd.bytes (c.junk 2)
      g.shatype) g.shatype (c.junk 1) c.junkPwd
  change (stunAttrAddIntegrityByUserStr g.ssl (addOrigin g m) g.gUname.bytes (realmStr ci)
    g.gUpwd.bytes (nonceStr ci) g.shatype (c.junk 2) (c.junk 1) c.junkPwd).1 = .ok at hsigned
  have hrc : (addIntegrity g c ci (addOrigin g m)).1 = 0 := by
    unfold addIntegrity
    rw [hoauth]
    split
    · simp only [Bool.false_and, Bool.false_eq_true, if_false]
      split
      · rfl
      · rename_i hne hcall
        rw [hcall] at hsigned
        exact absurd hsigned hne
    · rfl
  unfold finishRequest
  simp only [hrc]
  rfl

end Signing

/-- Realm and nonce of one byte each, nothing about a third party: taken for a challenge in any
state. -/
theorem receive_challenge {c : Choice} (hret : 0 < c.recvRet)
    (hclass : stunIsSuccessResponseStr c.recvBuf c.recvRet.toNat = false)
    (hcode : isChallengeCode c.recvBuf c.recvRet.toNat 0 = true) {r n : Byte}
    (hrealm : firstValueStr c.recvBuf c.recvRet.toNat stunAttributeRealm = some [r])
    (hthird : firstValueStr c.recvBuf c.recvRet.toNat stunAttributeThirdPartyAuthorization = none)
    (hnonce : firstValueStr c.recvBuf c.recvRet.toNat stunAttributeNonce = some [n]) (s : Client) :
    ∃ s', receive c s = .challenge s' := by
  have hchallenge := shortChallenge hcode hrealm hthird hnonce (some (c.junk 3)) 129 s.info.creds
  unfold receive
  simp only [hclass, if_neg (by omega : ¬ c.recvRet ≤ 0), Bool.false_eq_true, if_false]
  rw [if_neg (not_not.mpr hchallenge.2), if_pos hchallenge.1]
  exact ⟨_, rfl⟩

def bindChallenged : Choice := .receives (responseBytes 0x0119 challengeAttrs)

def permissionChallenged : Choice := .receives (responseBytes 0x0118 challengeAttrs)

def endless (challenge : Choice) : Nat → List Choice
  | 0 => []
  | n + 1 => Choice.sends :: challenge :: endless challenge n

theorem constantSsl_hmac (message key : List Byte) (shatype : ShaType) :
    (stunCalculateHmac constantSsl message key shatype).isSome = true := by
  cases shatype <;> rfl

theorem bindChallenged_challenge (s : Client) : ∃ s', receive bindChallenged s = .challenge s' :=
  receive_challenge (r := 0x72) (n := 0x6E) (by decide) (by decide +kernel) (by decide +kernel)
    (by decide +kernel) (by decide +kernel) (by decide +kernel) s

theorem permissionChallenged_challenge (s : Client) :
    ∃ s', receive permissionChallenged s = .challenge s' :=
  receive_challenge (r := 0x72) (n := 0x6E) (by decide) (by decide +kernel) (by decide +kernel)
    (by decide +kernel) (by decide +kernel) (by decide +kernel) s

theorem bind_request_sent (chn : BitVec 16) (s : Client) :
    ∃ chn' s', turnChannelBindStep (Globals.initial constantSsl) IoaAddr.any Choice.sends
      (.begBind chn) s = .again (.response chn') s' := by
  obtain ⟨v, henc⟩ := stunAddrEncode_known (a := IoaAddr.any) rfl true stunMagicCookie
    Choice.sends.tid
  obtain ⟨m, hm, hmsg, hlen⟩ := stunSetChannelBindRequestStr_eq Choice.sends chn henc
  have hok := finishRequest_ok constantSsl_hmac (g := Globals.initial constantSsl) rfl rfl hmsg hlen
    Choice.sends s.info
  simp only [turnChannelBindStep, hm]
  rw [if_neg (by omega), if_neg (by decide)]
  exact ⟨_, _, rfl⟩

theorem permission_request_sent (s : Client) :
    ∃ s', turnCreatePermissionStep (Globals.initial constantSsl) [IoaAddr.any] Choice.sends
      .begCp s = .again .response s' := by
  obtain ⟨v, henc⟩ := stunAddrEncode_known (a := IoaAddr.any) rfl true stunMagicCookie
    Choice.sends.tid
  obtain ⟨hmsg, hlen⟩ := createPermissionRequest_eq Choice.sends henc
  have hok := finishRequest_ok constantSsl_hmac (g := Globals.initial constantSsl) rfl rfl hmsg hlen
    Choice.sends s.info
  simp only [turnCreatePermissionStep]
  rw [if_neg (by decide), if_neg (by omega), if_neg (by decide)]
  exact ⟨_, rfl⟩

theorem endless_bind_requests (n : Nat) (chn : BitVec 16) (s : Client) :
    (BindRun.requests ⟨Globals.initial constantSsl, IoaAddr.any, chn, endless bindChallenged n,
      s⟩).length = n := by
  induction n generalizing chn s with
  | zero => rfl
  | succ n ih =>
    obtain ⟨chn', s₁, hsent⟩ := bind_request_sent chn s
    obtain ⟨s₂, hchallenge⟩ := bindChallenged_challenge s₁
    have hback : turnChannelBindStep (Globals.initial constantSsl) IoaAddr.any bindChallenged
        (.response chn') s₁ = .again (.begBind chn') s₂ := by
      simp only [turnChannelBindStep, hchallenge]
    simp only [BindRun.requests, endless, Drive.collect, hsent, hback, List.length_append]
    have hrest := ih chn' s₂
    simp only [BindRun.requests] at hrest
    rw [hrest]
    simp only [builtBind, List.length_singleton, List.length_nil]
    omega

theorem endless_permission_requests (n : Nat) (s : Client) :
    (PermissionRun.requests ⟨Globals.initial constantSsl, [IoaAddr.any],
      endless permissionChallenged n, s⟩).length = n := by
  induction n generalizing s with
  | zero => rfl
  | succ n ih =>
    obtain ⟨s₁, hsent⟩ := permission_request_sent s
    obtain ⟨s₂, hchallenge⟩ := permissionChallenged_challenge s₁
    have hback : turnCreatePermissionStep (Globals.initial constantSsl) [IoaAddr.any]
        permissionChallenged .response s₁ = .again .begCp s₂ := by
      simp only [turnCreatePermissionStep, hchallenge]
    have hbuilt : (builtPermission (Globals.initial constantSsl) [IoaAddr.any] Choice.sends .begCp
        s).length = 1 := rfl
    simp only [PermissionRun.requests, endless, Drive.collect, hsent, hback, List.length_append,
      hbuilt]
    have hrest := ih s₂
    simp only [PermissionRun.requests] at hrest
    rw [hrest]
    simp only [builtPermission, List.length_nil]
    omega

/-- Error 401 again and again: for every bound there is a call that builds more requests. -/
theorem endless_challenges_unbounded :
    ¬ BoundedOn (fun _ : BindRun => True) (fun r => r.requests.length) ∧
      ¬ BoundedOn (fun _ : PermissionRun => True) (fun r => r.requests.length) := by
  constructor
  · intro h
    obtain ⟨bound, hbound⟩ := h
    have hle := hbound ⟨Globals.initial constantSsl, IoaAddr.any, 0,
      endless bindChallenged (bound + 1), Client.init⟩ trivial
    simp only [endless_bind_requests] at hle
    omega
  · intro h
    obtain ⟨bound, hbound⟩ := h
    have hle := hbound ⟨Globals.initial constantSsl, [IoaAddr.any],
      endless permissionChallenged (bound + 1), Client.init⟩ trivial
    simp only [endless_permission_requests] at hle
    omega

end TurnClient
