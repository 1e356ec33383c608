import MigtdIgvmVerifier.Policy.Pipeline

/-!
# `migtd-policy-verifier`

`migtd-policy-verifier` reads a policy file and an issuer-chain file, deserializes the policy and
verifies it against the chain with the same policy crate as `migtd-igvm-verifier`, and then looks
the FMSPC asked for up with `contains_key`, where the IGVM verifier uses `get_tcb_with_fmspc`. It
shares `Collaborators` with the IGVM verifier, each call returning its value, its error, or a panic
inside the crate. Printing is left out.
-/

namespace MigtdIgvmVerifier.Policy.PolicyVerifier

open Rust
open Pipeline hiding Args

/-- `Args` of `migtd-policy-verifier`. -/
structure Args where
  policy : String
  certChain : String
  fmspc : Option String := none

variable {RawPolicy VerifiedPolicy : Type}

/-- `main` of `migtd-policy-verifier`. -/
def policyVerifierMain (c : Collaborators RawPolicy VerifiedPolicy) (args : Args) :
    Outcome Exit := do
  let policyBytes ← (c.read args.policy).context ("Failed to read policy file: " ++ args.policy)
  let certChainBytes ← (c.read args.certChain).context
    ("Failed to read cert chain file: " ++ args.certChain)
  let policy ← (c.deserializeFromJson policyBytes).mapError ("Failed to parse policy: " ++ ·)
  let verifiedPolicy ← (c.verify policy certChainBytes).mapError
    ("Policy verification failed: " ++ ·)
  fmspcVerdict (c.containsKey verifiedPolicy) args.fmspc

end MigtdIgvmVerifier.Policy.PolicyVerifier
