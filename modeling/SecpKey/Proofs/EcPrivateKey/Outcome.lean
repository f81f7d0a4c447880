/-
  SecpKey.Proofs.EcPrivateKey.Outcome

  Whatever the bytes, reading a private key ends with a scalar in range or with a refusal
  as undecodable (`decode_settles`).  That nothing else can go wrong comes from the readers
  (`refuses_decode`); a file that breaks off is none (`decode_take`), because its outermost
  sequence says how long it is.
-/
import SecpKey.Proofs.EcPrivateKey.Refusal
import SecpKey.Proofs.EcPrivateKey.RoundTrip
import SecpKey.Proofs.EcPrivateKey.Strict
import SecpKey.Proofs.Failure

namespace SecpKey.EcPrivateKey

variable {P : Type} {backend : Backend P} {curve : Curve} {data : Bytes} {decoded : Decoded}

theorem decode_secret_length (h : decode backend curve data = .ok decoded) :
    decoded.secret.length = 32 := by
  obtain ⟨secret, -, ⟨-, hsize⟩, -, hsecret⟩ := decode_eq_ok_iff.mp h
  rw [hsecret, Bytes.length_padLeft hsize]
  rfl

/-- What is read as a private key is one sequence and nothing else. -/
theorem eq_sequence_of_decode (h : decode backend curve data = .ok decoded) :
    ∃ body, body.length < Der.lengthLimit ∧ data = Der.encodeElement .sequence body := by
  obtain ⟨secret, hparts, -⟩ := decode_eq_ok_iff.mp h
  obtain ⟨parameters, wrapped, hdata, hlen, -⟩ := readParts_eq_ok_iff.mp hparts
  exact ⟨_, hlen, hdata⟩

/-- A private key that breaks off is undecodable, wherever it breaks off. -/
theorem decode_take (h : decode backend curve data = .ok decoded) {n : Nat}
    (hn : n < data.length) :
    ∃ cause, decode backend curve (data.take n) = .error (.decode cause) := by
  cases hcut : decode backend curve (data.take n) with
  | error e =>
      obtain ⟨cause, rfl⟩ := Failure.exists_decode (refuses_decode backend curve _ e hcut)
      exact ⟨cause, rfl⟩
  | ok cut =>
      obtain ⟨body, hbody, hdata⟩ := eq_sequence_of_decode h
      obtain ⟨front, hfront, htake⟩ := eq_sequence_of_decode hcut
      -- The front is a sequence of its own, so nothing stands behind it.
      have hsplit : Der.encodeElement .sequence front ++ data.drop n
          = Der.encodeElement .sequence body ++ [] := by
        rw [← htake, List.take_append_drop, List.append_nil, hdata]
      have hnil := (Der.encodeElement_append_inj hfront hbody hsplit).2
      rw [List.drop_eq_nil_iff] at hnil
      omega

/-- What reading a private key comes to. -/
structure Settles (backend : Backend P) (curve : Curve) (data : Bytes) : Prop where
  /-- There is a scalar in range, in 32 bytes, or the input is refused as undecodable. -/
  outcome :
    (∃ decoded, decode backend curve data = .ok decoded ∧ decoded.secret.length = 32
        ∧ 1 ≤ Bytes.toNat decoded.secret ∧ (Bytes.toNat decoded.secret : Int) < curve.n)
      ∨ ∃ cause, decode backend curve data = .error (.decode cause)
  cut : ∀ decoded, decode backend curve data = .ok decoded → ∀ n < data.length,
    ∃ cause, decode backend curve (data.take n) = .error (.decode cause)
  /-- A round of the loop over the numbers of an object identifier takes one number off the
  front, and with it a byte at least, or the loop ends with the fault of the round. -/
  round : ∀ contents ≠ [],
    (∃ n rest, Der.readArc none contents = .ok (n, rest) ∧ rest.length < contents.length
        ∧ Der.arcNumbers none contents = (Der.arcNumbers none rest).map (n :: ·))
      ∨ ∃ fault, Der.readArc none contents = .error fault
        ∧ Der.arcNumbers none contents = .error fault
  rounds : ∀ contents numbers, Der.arcNumbers none contents = .ok numbers →
    numbers.length ≤ contents.length

/-- On every input, for every curve, and whatever the backend makes of a generator. -/
theorem decode_settles (backend : Backend P) (curve : Curve) (data : Bytes) :
    Settles backend curve data where
  outcome := by
    cases h : decode backend curve data with
    | ok decoded =>
        have hrange := decode_secret_range h
        exact .inl ⟨decoded, rfl, decode_secret_length h, hrange⟩
    | error e =>
        obtain ⟨cause, rfl⟩ := Failure.exists_decode (refuses_decode backend curve data e h)
        exact .inr ⟨cause, rfl⟩
  cut _ h _ hn := decode_take h hn
  round _ h := Der.readArc_cases h
  rounds _ _ h := Der.length_le_of_arcNumbers h

end SecpKey.EcPrivateKey
