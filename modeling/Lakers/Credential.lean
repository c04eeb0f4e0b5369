import Lakers.MessageBuffer

/-!
# Credential resolution

`credential_check_or_fetch` of `lakers` compares a received credential with the expected one: by key id when the
received one is only a reference, by the derived equality of the value buffers otherwise, and answers `UnknownPeer`
on a mismatch; with no expected credential it returns the received one, asserting that it is not a reference.

The derived equality compares the buffers' whole arrays, not their slices. On values built without a refill that
shrinks the buffer the two agree, so there the decision depends on the credentials' bytes only
(`credentialCheckOrFetch_eq`).
-/

namespace Lakers

/-- Modelled from the spec: `CredentialRPK` of `cred.rs`, which is not in the sources, with the two fields
`credential_check_or_fetch` reads: the credential's bytes and its one-byte key id. -/
structure CredentialRPK where
  value : EdhocMessageBuffer
  kid : UInt8
  deriving DecidableEq

/-- `credential_check_or_fetch`. `reference_only()` of `cred.rs` is not in the sources and is a parameter; the
`assert!` of the branch without an expected credential panics on a reference. -/
def credentialCheckOrFetch (referenceOnly : CredentialRPK → Bool) (credExpected : Option CredentialRPK)
    (idCredReceived : CredentialRPK) : Outcome EDHOCError CredentialRPK :=
  match credExpected with
  | some credExpected =>
    let credentialsMatch :=
      if referenceOnly idCredReceived then idCredReceived.kid == credExpected.kid
      else idCredReceived.value == credExpected.value
    if credentialsMatch then .ok credExpected else .err .unknownPeer
  | none => if referenceOnly idCredReceived then .panic else .ok idCredReceived

open EdhocMessageBuffer in
/-- On credentials whose values were built without a shrinking refill, a full credential matches the expected one
exactly when their bytes do, and a reference when the key ids do; the expected credential is returned on a match,
`UnknownPeer` otherwise. -/
theorem credentialCheckOrFetch_eq (referenceOnly : CredentialRPK → Bool) {expected received : CredentialRPK}
    (he : ReachableWithoutShrinking expected.value) (hr : ReachableWithoutShrinking received.value) :
    credentialCheckOrFetch referenceOnly (some expected) received =
      if (if referenceOnly received then received.kid = expected.kid
        else received.value.asSlice = expected.value.asSlice) then .ok expected else .err .unknownPeer := by
  obtain ⟨a₀, as, ha₀, has, ha⟩ := hr
  obtain ⟨b₀, bs, hb₀, hbs, hb⟩ := he
  have hval : received.value = expected.value ↔ received.value.asSlice = expected.value.asSlice := by
    rw [ha, hb]
    exact ⟨congrArg _, eq_of_asSlice_eq (valid_run as (valid_initial ha₀)) (valid_run bs (valid_initial hb₀))
      (zeroTail_run as (zeroTail_initial ha₀) has) (zeroTail_run bs (zeroTail_initial hb₀) hbs)⟩
  unfold credentialCheckOrFetch
  cases referenceOnly received <;> simp only [if_true, Bool.false_eq_true, if_false, beq_iff_eq, hval]

end Lakers
