/-
  SecpKey.Proofs.EcPrivateKey.Refusal

  Input that is no private key is refused as undecodable.  Every reader reports a fault of
  its own, and every check a cause; both come out in the one class (`refuses_decode`).  What
  cannot be written is refused in a class of its own (`failsOnly_encode`).
-/
import SecpKey.EcPrivateKey
import SecpKey.Proofs.Except

namespace SecpKey.EcPrivateKey

variable {P : Type}

/-- The computation fails as input does that cannot be decoded. -/
abbrev Refuses {α : Type} (x : Except Failure α) : Prop :=
  FailsOnly (·.errorClass? = some .decode) x

/-! ## Readers and checks -/

theorem refuses_lift {α : Type} (x : Except Der.Fault α) : Refuses (lift x) :=
  .mapError fun _ => rfl

theorem refuses_ensure (condition : Bool) (cause : DecodeFault) :
    Refuses (ensure condition cause) := .ite (.ok ()) (.error rfl)

/-! ## Curve parameters -/

theorem refuses_readExplicit (parameters : Bytes) : Refuses (Explicit.read parameters) := by
  refine .bind (refuses_lift _) fun ⟨body, rest⟩ => .bind (refuses_ensure _ _) fun _ => ?_
  refine .bind (refuses_lift _) fun ⟨version, body⟩ => .bind (refuses_ensure _ _) fun _ => ?_
  refine .bind (refuses_lift _) fun ⟨field, body⟩ => ?_
  refine .bind (refuses_lift _) fun ⟨fieldType, field⟩ => .bind (refuses_ensure _ _) fun _ => ?_
  refine .bind (refuses_lift _) fun ⟨p, _⟩ => .bind (refuses_lift _) fun ⟨coefficients, body⟩ => ?_
  refine .bind (refuses_lift _) fun ⟨a, coefficients⟩ => .bind (refuses_lift _) fun ⟨b, _⟩ => ?_
  exact .bind (refuses_lift _) fun ⟨generator, body⟩ =>
    .bind (refuses_lift _) fun ⟨n, _⟩ => .ok _

theorem refuses_acceptExplicit (backend : Backend P) (curve : Curve) (parameters : Bytes) :
    Refuses (acceptExplicit backend curve parameters) := by
  refine .bind (refuses_readExplicit parameters) fun e => .bind (refuses_ensure _ _) fun _ => ?_
  split
  · exact .error rfl
  · exact refuses_ensure _ _

theorem refuses_acceptNamed (curve : Curve) (parameters : Bytes) :
    Refuses (acceptNamed curve parameters) :=
  .bind (refuses_lift _) fun ⟨_, _⟩ => .bind (refuses_ensure _ _) fun _ => refuses_ensure _ _

theorem refuses_acceptField (backend : Backend P) (curve : Curve) (parameters : Option Bytes) :
    Refuses (acceptField backend curve parameters) := by
  cases parameters with
  | none => exact .ok ()
  | some contents =>
      exact .ite (refuses_acceptNamed curve contents)
        (refuses_acceptExplicit backend curve contents)

/-! ## The whole file -/

theorem refuses_readPublicKey (wrapped : Option Bytes) : Refuses (readPublicKey wrapped) := by
  cases wrapped with
  | none => exact .ok none
  | some contents =>
      exact .bind (refuses_lift _) fun ⟨payload, extra⟩ =>
        .bind (refuses_ensure _ _) fun _ => .ok _

theorem refuses_readParts (backend : Backend P) (curve : Curve) (data : Bytes) :
    Refuses (readParts backend curve data) := by
  refine .bind (refuses_lift _) fun ⟨body, rest⟩ => .bind (refuses_ensure _ _) fun _ => ?_
  refine .bind (refuses_lift _) fun ⟨version, body⟩ => .bind (refuses_ensure _ _) fun _ => ?_
  refine .bind (refuses_lift _) fun ⟨secret, body⟩ => ?_
  refine .bind (refuses_lift _) fun ⟨parameters, body⟩ => ?_
  refine .bind (refuses_acceptField backend curve parameters) fun _ => ?_
  refine .bind (refuses_lift _) fun ⟨wrapped, body⟩ => ?_
  exact .bind (refuses_readPublicKey wrapped) fun publicKey =>
    .bind (refuses_ensure _ _) fun _ => .ok _

/-- Whatever is wrong with a private key, it is reported as undecodable. -/
theorem refuses_decode (backend : Backend P) (curve : Curve) (data : Bytes) :
    Refuses (decode backend curve data) :=
  .bind (refuses_readParts backend curve data) fun ⟨_, _⟩ => .bind (refuses_ensure _ _) fun _ =>
    .bind (refuses_ensure _ _) fun _ => .ok _

/-! ## Writing -/

theorem failsOnly_encode (curve : Curve) (secret publicKey : Bytes) :
    FailsOnly (·.errorClass? = some .encoding) (encode curve secret publicKey) := by
  refine .ite (.error rfl) (.ite (.error rfl) ?_)
  split
  · exact .error rfl
  · exact .ok _

end SecpKey.EcPrivateKey
