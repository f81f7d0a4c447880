/-
  SecpKey.Proofs.Keyring.Observation

  What is observed of a keyring is said by the materials of its keys.  Keyrings with the same
  materials answer any operation alike and have the same materials afterwards
  (`seen_perform_eq`), so they answer alike for ever (`transcript_eq`).  Operations come in
  three kinds (`Kind`), and each is looked at once: those on one key are operations on its
  material, comparing two keys compares their materials, and what makes a key adds a material
  that does not depend on the keyring.
-/
import SecpKey.Proofs.Keyring.Interchange

namespace SecpKey

variable {P : Type} {backend : Backend P}

/-! ## New keys and their material -/

namespace Key

variable {v : Vault}

/-- The material of a new key, and the draws that are left. -/
def madeMaterial (o : Outcome (Key P × List Draw)) : Except Failure (Material P × List Draw) :=
  o.1.map fun made => (made.1.material o.2, made.2)

/-- A key that was put in a new container has the material that its bytes say. -/
theorem material_put (v : Vault) (data : Bytes) (point : Option P) (compressed : Bool) :
    material (v.put (.live data)).2 ⟨some v.cells.length, point, compressed⟩
      = ⟨some (Bytes.toNat data), point, compressed⟩ := by
  rw [material, Option.bind_some, Vault.get_put_length]
  rfl

/-- The key that comes of a script does not depend on the vault. -/
theorem madeMaterial_generate (draws : List Draw) (v w : Vault) :
    madeMaterial (generate backend draws v) = madeMaterial (generate backend draws w) := by
  -- On the draws, for all vaults: a candidate that is turned down leaves other ones.
  induction draws generalizing v w with
  | nil => rfl
  | cons draw rest ih =>
      cases draw with
      | failure text => rfl
      | candidate data =>
          cases hvalid : isValidScalar (Bytes.toNat data) with
          | false =>
              rw [generate_of_invalid rest v hvalid, generate_of_invalid rest w hvalid]
              exact ih _ _
          | true =>
              rw [generate_of_valid rest v hvalid, generate_of_valid rest w hvalid]
              cases backend.ofScalar (Bytes.toNat data) with
              | error text => rfl
              | ok Q =>
                  show Except.ok (material _ _, rest) = .ok (material _ _, rest)
                  rw [material_put, material_put]

/-- The key that bytes denote does not depend on the vault. -/
theorem outcomeMaterial_ofDer (data : Argument) (v w : Vault) :
    outcomeMaterial (ofDer backend data v) = outcomeMaterial (ofDer backend data w) := by
  rw [ofDer, ofDer]
  cases data.ensureBytes "der" with
  | error e => rfl
  | ok bytes =>
      dsimp only
      cases EcPrivateKey.decode backend .secp256k1 bytes with
      | error e => rfl
      | ok decoded =>
          dsimp only
          rw [Vault.put_eq v, Vault.put_eq w]
          dsimp only
          rw [Vault.get_put_length, Vault.get_put_length]
          cases (SecretScalar.live decoded.secret).toBytes scalarSize with
          | error e => rfl
          | ok secret =>
              dsimp only
              cases backend.ofScalar (Bytes.toNat secret) with
              | error text => rfl
              | ok expected =>
                  dsimp only
                  cases decodedPoint backend expected decoded.publicKey with
                  | error e => rfl
                  | ok pair =>
                      obtain ⟨point, compressed⟩ := pair
                      show Except.ok (material _ _) = .ok (material _ _)
                      rw [material_put, material_put]

end Key

/-- Whether two keys of these materials are equal. -/
def Material.equals (backend : Backend P) (m m' : Material P) : Bool :=
  m.scalar == m'.scalar && m.publicPoint backend == m'.publicPoint backend

namespace Keyring

variable {ring other : Keyring P} {i : Nat} {m : Material P}

/-! ## Materials -/

/-- The materials of all keys. -/
def materials (ring : Keyring P) : List (Material P) := ring.keys.map (Key.material ring.vault)

theorem getElem?_materials (ring : Keyring P) (j : Nat) : ring.materials[j]? = ring.material? j :=
  List.getElem?_map

theorem length_materials (ring : Keyring P) : ring.materials.length = ring.keys.length :=
  List.length_map _

/-- What is seen of an operation: what it answers, and the materials after it. -/
def seen (result : Except Failure KeyAnswer × Keyring P) :
    Except Failure KeyAnswer × List (Material P) :=
  (result.1, result.2.materials)

/-- Two operations on a key of the same material do the same to the same materials. -/
theorem Uses.seen_eq {result result' : Except Failure KeyAnswer × Keyring P}
    {expected : Except Failure KeyAnswer × Material P} (h : ring.materials = other.materials)
    (huse : Uses ring i result expected) (huse' : Uses other i result' expected) :
    seen result = seen result' := by
  rw [seen, seen, Prod.mk.injEq]
  refine ⟨huse.answer.trans huse'.answer.symm, List.ext_getElem? fun j => ?_⟩
  rw [getElem?_materials, getElem?_materials, huse.material, huse'.material, ← getElem?_materials,
    ← getElem?_materials, h]

/-- What making a key answers, and the materials after it. -/
def addMaterial (ms : List (Material P)) :
    Except Failure (Material P × List Draw) → Except Failure KeyAnswer × List (Material P)
  | .error e => (.error e, ms)
  | .ok (m, left) => (.ok (.made ms.length left), ms ++ [m])

/-- The older keys have the material that they had. -/
theorem Owned.seen_making (ho : Owned ring) {outcome : Outcome (Key P × List Draw)}
    (ha : Accounts ring.vault none (fun made => made.1.secret) outcome) :
    seen (ring.making outcome) = addMaterial ring.materials (Key.madeMaterial outcome) := by
  have hkept : ∀ k ∈ ring.keys, k.material outcome.2 = k.material ring.vault := by
    intro k hk
    obtain ⟨j, hj⟩ := List.mem_iff_getElem?.mp hk
    apply Key.material_congr
    intro h hs
    rcases outcome with ⟨e | made, w⟩
    · exact Vault.Kept.get_eq ha h
    · exact Handover.get_of_ne ha (ho.secret_lt hj h hs) nofun
  have hold : ring.keys.map (Key.material outcome.2) = ring.materials := List.map_congr_left hkept
  rcases outcome with ⟨e | ⟨k, left⟩, w⟩
  · exact Prod.ext rfl hold
  · show (Except.ok (KeyAnswer.made ring.keys.length left), (ring.keys ++ [k]).map (Key.material w))
      = (.ok (.made ring.materials.length left), ring.materials ++ [k.material w])
    rw [List.map_append, hold, length_materials]
    rfl

theorem Owned.seen_ofDer (ho : Owned ring) (data : Argument) :
    seen (ring.perform backend (.ofDer data)) = addMaterial ring.materials
      ((Key.outcomeMaterial (Key.ofDer backend data ring.vault)).map (·, [])) := by
  have ha : Accounts ring.vault none Key.secret (Key.ofDer backend data ring.vault) :=
    (Key.outcome_ofDer data ring.vault).accounts
  rw [Keyring.perform]
  rcases hmade : Key.ofDer backend data ring.vault with ⟨e | k, w⟩
  · rw [hmade] at ha
    exact ho.seen_making ha
  · rw [hmade] at ha
    exact ho.seen_making ha

theorem getElem?_addMaterial {ms : List (Material P)} (x : Except Failure (Material P × List Draw))
    (hi : ms[i]? = some m) : (addMaterial ms x).2[i]? = some m := by
  cases x with
  | error e => exact hi
  | ok made =>
      rw [addMaterial, List.getElem?_append_left (List.getElem?_eq_some_iff.mp hi).1]
      exact hi

/-! ## One operation -/

/-- What comparing keys `i` and `j` answers, if these are their materials. -/
def compareMaterials (backend : Backend P) (i j : Nat) :
    Option (Material P) → Option (Material P) → Except Failure KeyAnswer
  | none, _ => .error (.fault (.unknownName (toString i)))
  | some _, none => .error (.fault (.unknownName (toString j)))
  | some m, some m' => .ok (.truth (m.equals backend m'))

theorem perform_on_of_missing (h : ring.keys[i]? = none) (use : KeyUse) :
    ring.perform backend (use.on i) = (.error (.fault (.unknownName (toString i))), ring) := by
  cases use with
  | _ => rw [KeyUse.on, perform, withKey, h]

/-- Comparing two keys compares their materials. -/
theorem Owned.perform_equals (ho : Owned ring) (i j : Nat) :
    ring.perform backend (.equals i j)
      = (compareMaterials backend i j (ring.material? i) (ring.material? j), ring) := by
  rw [Keyring.perform, withKey, material?, material?]
  cases hk : ring.keys[i]? with
  | none => rfl
  | some k =>
      dsimp only
      rw [withKey]
      cases hl : ring.keys[j]? with
      | none => rfl
      | some l =>
          have hequals : k.equals backend ring.vault l
              = (k.material ring.vault).equals backend (l.material ring.vault) := by
            rw [Bool.eq_iff_iff, Key.equals_iff backend (ho.key_live hk) (ho.key_live hl),
              Material.equals, Bool.and_eq_true, beq_iff_eq, beq_iff_eq]
            rfl
          dsimp only
          rw [hequals]
          rfl

/-! ## Kinds of operations -/

/-- An operation is on one key, or compares two, or makes one of a material that does not depend
on the keyring. -/
inductive Kind (backend : Backend P) : KeyOp → Prop
  | on (i : Nat) (use : KeyUse) : Kind backend (use.on i)
  | equals (i j : Nat) : Kind backend (.equals i j)
  | making {op : KeyOp} (x : Except Failure (Material P × List Draw))
      (h : ∀ {ring : Keyring P}, Owned ring →
        seen (ring.perform backend op) = addMaterial ring.materials x) : Kind backend op

theorem kind (backend : Backend P) (op : KeyOp) : Kind backend op := by
  cases op with
  | new =>
      refine .making (.ok (⟨none, none, false⟩, [])) fun {ring} ho => ?_
      have ha : Accounts ring.vault none (fun made : Key P × List Draw => made.1.secret)
          (.ok (.empty, []), ring.vault) := Handover.kept (Vault.Kept.refl _)
      exact ho.seen_making ha
  | generate draws =>
      refine .making (Key.madeMaterial (Key.generate backend draws .empty)) fun {ring} ho => ?_
      rw [Key.madeMaterial_generate draws .empty ring.vault]
      exact ho.seen_making (Key.outcome_generate draws _).accounts
  | ofDer data =>
      refine .making ((Key.outcomeMaterial (Key.ofDer backend data .empty)).map (·, []))
        fun {ring} ho => ?_
      rw [Key.outcomeMaterial_ofDer data .empty ring.vault]
      exact ho.seen_ofDer data
  | equals i j => exact .equals i j
  | getPrivate i => exact .on i .getPrivate
  | setPrivate i data => exact .on i (.setPrivate data)
  | getPublic i => exact .on i .getPublic
  | setPublic i data => exact .on i (.setPublic data)
  | publicPoint i => exact .on i .publicPoint
  | setCompressed i value => exact .on i (.setCompressed value)
  | regenerate i => exact .on i .regenerate
  | toDer i => exact .on i .toDer
  | sign i digest => exact .on i (.sign digest)
  | verify i digest signature => exact .on i (.verify digest signature)
  | describe i => exact .on i .describe
  | close i => exact .on i .close
  | useOnce i => exact .on i .useOnce

/-- Keyrings with the same materials answer an operation alike, and have the same materials
after it. -/
theorem seen_perform_eq (ho : Owned ring) (ho' : Owned other)
    (h : ring.materials = other.materials) (op : KeyOp) :
    seen (ring.perform backend op) = seen (other.perform backend op) := by
  have hm : ∀ i, ring.material? i = other.material? i := by
    intro i
    rw [← getElem?_materials, h, getElem?_materials]
  cases kind backend op with
  | on i use =>
      cases hi : other.material? i with
      | none =>
          have hi' := (hm i).trans hi
          rw [perform_on_of_missing (Option.map_eq_none_iff.mp hi),
            perform_on_of_missing (Option.map_eq_none_iff.mp hi')]
          exact Prod.ext rfl h
      | some m =>
          exact Uses.seen_eq h (uses_perform backend ho ((hm i).trans hi) use)
            (uses_perform backend ho' hi use)
  | equals i j =>
      rw [ho.perform_equals, ho'.perform_equals, hm, hm]
      exact Prod.ext rfl h
  | making x hmaking => rw [hmaking ho, hmaking ho', h]

/-! ## Any number of operations -/

/-- What a keyring answers to operations one after the other. -/
def transcript (backend : Backend P) (ring : Keyring P) :
    List KeyOp → List (Except Failure KeyAnswer)
  | [] => []
  | op :: rest => (ring.perform backend op).1
      :: (ring.perform backend op).2.transcript backend rest

/-- Keyrings with the same materials cannot be told apart. -/
theorem transcript_eq (ho : Owned ring) (ho' : Owned other) (h : ring.materials = other.materials)
    (ops : List KeyOp) : ring.transcript backend ops = other.transcript backend ops := by
  -- On the operations, for all pairs of keyrings: each one leaves another such pair.
  induction ops generalizing ring other with
  | nil => rfl
  | cons op rest ih =>
      obtain ⟨hanswer, hafter⟩ := Prod.mk.inj (seen_perform_eq ho ho' h op)
      rw [transcript, transcript, hanswer, ih (ho.perform op) (ho'.perform op) hafter]

theorem transcript_eq_of_material? (ho : Owned ring) (ho' : Owned other)
    (h : ∀ j, ring.material? j = other.material? j) (ops : List KeyOp) :
    ring.transcript backend ops = other.transcript backend ops := by
  refine transcript_eq ho ho' (List.ext_getElem? fun j => ?_) ops
  rw [getElem?_materials, getElem?_materials, h]

end Keyring

end SecpKey
