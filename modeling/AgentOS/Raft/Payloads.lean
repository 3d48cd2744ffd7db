import AgentOS.Authority.Apply
import AgentOS.Base.Json
import AgentOS.Base.Utf8
import AgentOS.Lib.Framing
import AgentOS.Raft.Reconfiguration

/-!
# Payloads that are signed

The payload that a joining node signs determines everything it was made of
(`membershipJoinPayload_binds`).
-/

namespace AgentOS

open Lib

theorem asBytes_injective : Function.Injective asBytes := by
  intro a b h
  have hd : ∀ v : Text, (asBytes v).toByteArray.utf8Decode? = some v.toArray :=
    fun _ => List.utf8Decode?_utf8Encode
  have hab := hd a
  rw [h, hd b] at hab
  exact (List.toArray_inj (Option.some.inj hab)).symm

theorem framed_toBeBytes32 : Framed (· < 2 ^ 32) toBeBytes32 id := by
  refine framed_of_length (fun _ _ => rfl) fun m n hm hn h => ?_
  have hmod := toBeBytes32_injOn h
  omega

def joinFields (clusterId : Text) (challenge : List UInt8) (reg : ClusterMemberRegistration) :
    List (List UInt8) :=
  [asBytes clusterId, challenge, asBytes reg.nodeId, asBytes reg.fingerprint,
    asBytes reg.publicKey, asBytes reg.endpoint, asBytes reg.serverVersion,
    asBytes (decimal reg.minProtocolVersion), asBytes (decimal reg.protocolVersion)] ++
    reg.tlsServerCertificateFingerprint.toList.map asBytes

theorem mapM_payloadField {fields encoded : List (List UInt8)}
    (h : fields.mapM payloadField = .ok encoded) :
    (∀ field ∈ fields, field.length < 2 ^ 32) ∧
      encoded.flatten = fields.flatMap fun field => toBeBytes32 field.length ++ field := by
  induction fields generalizing encoded with
  | nil =>
    cases h
    exact ⟨by simp, rfl⟩
  | cons field fields ih =>
    simp only [List.mapM_cons, bind_eq_ok, pure_eq_ok, payloadField, rejectIf_eq_ok] at h
    obtain ⟨_, ⟨-, hlt, rfl⟩, rest, hrest, rfl⟩ := h
    obtain ⟨hall, heq⟩ := ih hrest
    refine ⟨List.forall_mem_cons.2 ⟨Nat.not_le.1 hlt, hall⟩, ?_⟩
    rw [List.flatten_cons, heq, List.flatMap_cons]

theorem membershipJoinPayload_ok {K : Crypto} {clusterId challengeHex : Text}
    {reg : ClusterMemberRegistration} {payload : List UInt8}
    (h : membershipJoinPayload K clusterId challengeHex reg = .ok payload) :
    ∃ challenge, hexDecode32 challengeHex = some challenge ∧
      (∀ field ∈ joinFields clusterId challenge reg, field.length < 2 ^ 32) ∧
      payload = asBytes "AIagentOS cluster membership join v1".toList ++
        (joinFields clusterId challenge reg).flatMap fun field =>
          toBeBytes32 field.length ++ field := by
  simp only [membershipJoinPayload, bind_eq_ok, pure_eq_ok, orReject_eq_ok] at h
  obtain ⟨_, -, _, -, challenge, hc, encoded, he, rfl⟩ := h
  obtain ⟨hall, heq⟩ := mapM_payloadField he
  exact ⟨challenge, hc, hall, by rw [heq]; rfl⟩

theorem joinFields_injective {clusterId clusterId' : Text} {challenge challenge' : List UInt8}
    {reg reg' : ClusterMemberRegistration}
    (h : joinFields clusterId challenge reg = joinFields clusterId' challenge' reg') :
    clusterId = clusterId' ∧ challenge = challenge' ∧ reg = reg' := by
  simp only [joinFields, List.cons_append, List.nil_append, List.cons.injEq,
    asBytes_injective.eq_iff, decimal_injective.eq_iff] at h
  obtain ⟨hid, hch, hnode, hfp, hkey, hend, hver, hmin, hmax, htls⟩ := h
  refine ⟨hid, hch, ?_⟩
  have htls := congrArg List.head? (asBytes_injective.list_map htls)
  rw [Option.head?_toList, Option.head?_toList] at htls
  cases reg
  cases reg'
  simp_all

/-- Two accepted join requests have one payload only if they agree on the cluster, the challenge and
the whole registration. -/
theorem membershipJoinPayload_binds (K : Crypto)
    {clusterId clusterId' challengeHex challengeHex' : Text}
    {registration registration' : ClusterMemberRegistration} {payload : List UInt8}
    (h : membershipJoinPayload K clusterId challengeHex registration = .ok payload)
    (h' : membershipJoinPayload K clusterId' challengeHex' registration' = .ok payload) :
    clusterId = clusterId' ∧ hexDecode32 challengeHex = hexDecode32 challengeHex' ∧
      registration = registration' := by
  obtain ⟨challenge, hc, hall, rfl⟩ := membershipJoinPayload_ok h
  obtain ⟨challenge', hc', hall', heq⟩ := membershipJoinPayload_ok h'
  have hfields := (framed_toBeBytes32.sized Function.injective_id).flatMap_inj
    (by simp [toBeBytes32]) hall hall' (List.append_cancel_left heq)
  obtain ⟨hid, rfl, hreg⟩ := joinFields_injective hfields
  exact ⟨hid, hc.trans hc'.symm, hreg⟩

set_option maxRecDepth 100000 in
theorem membershipJoinPayload_binds_challenge :
    ∃ payload, membershipJoinPayload Sample.crypto (Sample.uuid 'c') (Sample.hex 'a')
        (Sample.registration '1' '2') = .ok payload ∧
      membershipJoinPayload Sample.crypto (Sample.uuid 'c') (Sample.hex 'b')
        (Sample.registration '1' '2') ≠ .ok payload := by
  obtain ⟨payload, hp⟩ := isOk_iff.1 (by decide +kernel : isOk (membershipJoinPayload Sample.crypto
    (Sample.uuid 'c') (Sample.hex 'a') (Sample.registration '1' '2')) = true)
  refine ⟨payload, hp, fun hp' => ?_⟩
  exact absurd (membershipJoinPayload_binds Sample.crypto hp hp').2.1 (by decide +kernel)

end AgentOS
