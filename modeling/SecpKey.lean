import SecpKey.Curve.Binding
import SecpKey.Backend.Secp256k1
import SecpKey.SecretScalar.Script
import SecpKey.Verifier.Event
import SecpKey.Workspace
import SecpKey.Proofs.BigEndian
import SecpKey.Proofs.Der.Element
import SecpKey.Proofs.Signature.Codec
import SecpKey.Proofs.Signature.Verdict
import SecpKey.Proofs.Curve.Group
import SecpKey.Proofs.Curve.Equation
import SecpKey.Proofs.Signature.Equation
import SecpKey.Proofs.Key.Containers
import SecpKey.Proofs.Curve.Sec1
import SecpKey.Proofs.Keyring.Ownership
import SecpKey.Proofs.Key.Signing
import SecpKey.Proofs.Keyring.SignThenVerify
import SecpKey.Proofs.Der.Object
import SecpKey.Proofs.EcPrivateKey.Strict
import SecpKey.Proofs.Key.Export
import SecpKey.Proofs.Keyring.ExportImport
import SecpKey.Proofs.Verifier.Access
import SecpKey.Proofs.Verifier.Job
import SecpKey.Proofs.Verifier.Step
import SecpKey.Proofs.Verifier.Effect
import SecpKey.Proofs.Verifier.Soundness
import SecpKey.Proofs.Verifier.Progress
import SecpKey.Proofs.Verifier.Completion
import SecpKey.Proofs.Verifier.Snapshot
import SecpKey.Proofs.EcPrivateKey.Refusal
import SecpKey.Proofs.Failure
import SecpKey.Proofs.Vault
import SecpKey.Proofs.Key.Outcome
import SecpKey.Proofs.Key.Failure
import SecpKey.Proofs.Keyring.Atomicity
import SecpKey.Proofs.Keyring.Containment
import SecpKey.Proofs.Key.Import
import SecpKey.Proofs.Keyring.Import
import SecpKey.Proofs.Keyring.Reexport
import SecpKey.Proofs.EcPrivateKey.Explicit
import SecpKey.Proofs.Verifier.Pending
import SecpKey.Proofs.Verifier.Drain
import SecpKey.Proofs.Verifier.Accounts
import SecpKey.Proofs.Key.Material
import SecpKey.Proofs.Keyring.Material
import SecpKey.Proofs.Keyring.Interchange
import SecpKey.Proofs.EcPrivateKey.Secrecy
import SecpKey.Proofs.Key.Secrecy
import SecpKey.Proofs.Keyring.Secrecy
import SecpKey.Proofs.EcPrivateKey.Complete
import SecpKey.Proofs.EcPrivateKey.NamedCurve
import SecpKey.Proofs.EcPrivateKey.Outcome
import SecpKey.Proofs.Verifier.Pools
import SecpKey.Proofs.Verifier.Fate
import SecpKey.Proofs.Verifier.Closing
import SecpKey.Proofs.Keyring.Generation
import SecpKey.Proofs.Keyring.Observation
import SecpKey.Proofs.Keyring.Repair
import SecpKey.Proofs.Curve.Encoding
import SecpKey.Proofs.Keyring.PublicForm
import SecpKey.Proofs.Verifier.Preparation
import SecpKey.Proofs.Width
import SecpKey.Proofs.SecretScalar.Conversion
import SecpKey.Proofs.SecretScalar.Lifecycle
import SecpKey.Proofs.Curve.Generator
