/-
  SecpKey.Proofs.Failure

  The classes in which checks fail.  Every check of an argument keeps to one class, unless the
  argument is a view that was released: no check expects that reading it fails.  So
  `Failure.ArisesFrom` allows for several classes (`Failure.IsOf`) and for that fault, and
  `ArisesFrom.isOf` leaves the classes alone where every argument can be read.  Writing a live
  scalar in 32 bytes keeps to one class too, and what a check lets through are the very bytes
  that were given.
-/
import SecpKey.Curve.Sec1
import SecpKey.Proofs.SecretScalar.FixedWidth

namespace SecpKey

/-- The failure belongs to one of the classes. -/
def Failure.IsOf (classes : List ErrorClass) (e : Failure) : Prop :=
  ∃ c ∈ classes, e.errorClass? = some c

theorem FailsOnly.isOf {α : Type} {c : ErrorClass} {classes : List ErrorClass}
    {x : Except Failure α} (hx : FailsOnly (·.errorClass? = some c) x) (hc : c ∈ classes) :
    FailsOnly (Failure.IsOf classes) x :=
  hx.mono fun _ he => ⟨c, hc, he⟩

/-- The failure belongs to one of the classes, or comes of reading an argument that was
released. -/
def Failure.ArisesFrom (args : List Argument) (classes : List ErrorClass) (e : Failure) : Prop :=
  e.IsOf classes ∨ .released ∈ args ∧ e = .fault .released

theorem FailsOnly.arises {α : Type} {c : ErrorClass} {classes : List ErrorClass}
    {x : Except Failure α} (hx : FailsOnly (·.errorClass? = some c) x) (hc : c ∈ classes)
    (args : List Argument) : FailsOnly (Failure.ArisesFrom args classes) x :=
  (hx.isOf hc).mono fun _ => .inl

/-- More arguments and more classes leave room for more failures. -/
theorem FailsOnly.widen {α : Type} {args args' : List Argument} {classes classes' : List ErrorClass}
    {x : Except Failure α} (hx : FailsOnly (Failure.ArisesFrom args classes) x)
    (hargs : args ⊆ args') (hclasses : classes ⊆ classes') :
    FailsOnly (Failure.ArisesFrom args' classes') x := by
  intro e he
  rcases hx e he with ⟨c, hc, hclass⟩ | ⟨hreleased, hfault⟩
  · exact .inl ⟨c, hclasses hc, hclass⟩
  · exact .inr ⟨hargs hreleased, hfault⟩

/-- Arguments that can be read leave nothing but the classes. -/
theorem Failure.ArisesFrom.isOf {args : List Argument} {classes : List ErrorClass} {e : Failure}
    (h : e.ArisesFrom args classes) (hargs : .released ∉ args) : e.IsOf classes :=
  h.resolve_right fun hreleased => hargs hreleased.1

/-- A failure of one of the library's classes is no fault. -/
theorem Failure.IsOf.ne_fault {classes : List ErrorClass} {e : Failure} (h : e.IsOf classes)
    (cause : Fault) : e ≠ .fault cause := by
  rintro rfl
  obtain ⟨c, -, hc⟩ := h
  cases hc

/-- The fault of a released argument is no other fault. -/
theorem Failure.ArisesFrom.ne_fault {args : List Argument} {classes : List ErrorClass}
    {e : Failure} (h : e.ArisesFrom args classes) (cause : Fault) (hcause : cause ≠ .released) :
    e ≠ .fault cause := by
  rcases h with hof | ⟨-, rfl⟩
  · exact hof.ne_fault cause
  · exact fun heq => hcause (Failure.fault.inj heq).symm

theorem Failure.exists_decode {e : Failure} (h : e.errorClass? = some .decode) :
    ∃ cause, e = .decode cause := by
  cases e with
  | decode cause => exact ⟨cause, rfl⟩
  | _ => cases h

/-! ## Arguments -/

theorem Argument.failsOnly_ensureBytes (name : String) (a : Argument) :
    FailsOnly (Failure.ArisesFrom [a] [.invalidInput]) (a.ensureBytes name) := by
  cases a with
  | bytes data => exact .ok data
  | released => exact .error (.inr ⟨.head _, rfl⟩)
  | absent => exact .error (.inl ⟨_, .head _, rfl⟩)
  | other typeName shape => exact .error (.inl ⟨_, .head _, rfl⟩)

theorem failsOnly_ensureDigest (a : Argument) :
    FailsOnly (Failure.ArisesFrom [a] [.invalidInput]) (ensureDigest a) :=
  .bind (a.failsOnly_ensureBytes "hash") fun data =>
    .ite (.ok data) (.error (.inl ⟨_, .head _, rfl⟩))

theorem failsOnly_ensureSignature (a : Argument) :
    FailsOnly (Failure.ArisesFrom [a] [.invalidInput]) (ensureSignature a) :=
  a.failsOnly_ensureBytes "sig"

theorem ensureBytes_eq_ok_iff {name : String} {a : Argument} {data : Bytes} :
    a.ensureBytes name = .ok data ↔ a = .bytes data := by
  cases a with
  | bytes given => rw [Argument.ensureBytes, Except.ok.injEq, Argument.bytes.injEq]
  | released => exact ⟨nofun, nofun⟩
  | absent => exact ⟨nofun, nofun⟩
  | other typeName shape => exact ⟨nofun, nofun⟩

theorem ensureDigest_eq_ok_iff {a : Argument} {data : Bytes} :
    ensureDigest a = .ok data ↔ a = .bytes data ∧ data.length = 32 := by
  rw [ensureDigest, bind_eq_ok]
  constructor
  · rintro ⟨given, hgiven, h⟩
    split at h
    · next hlen =>
      obtain rfl := Except.ok.inj h
      exact ⟨ensureBytes_eq_ok_iff.mp hgiven, hlen⟩
    · cases h
  · rintro ⟨rfl, hlen⟩
    exact ⟨data, rfl, if_pos hlen⟩

theorem ensureSignature_eq_ok_iff {a : Argument} {data : Bytes} :
    ensureSignature a = .ok data ↔ a = .bytes data := ensureBytes_eq_ok_iff

/-- A check fails on what can be read only because it is no bytes, and then says so. -/
theorem ensureSignature_eq_error {a : Argument} {e : Failure} (h : ensureSignature a = .error e)
    (ha : a ≠ .released) : e = .invalidInput (.notBytes "sig" a.typeName) := by
  cases a with
  | bytes data => cases h
  | released => exact absurd rfl ha
  | absent => exact (Except.error.inj h).symm
  | other typeName shape => exact (Except.error.inj h).symm

theorem failsOnly_ensureFramed (a : Argument) :
    FailsOnly (Failure.ArisesFrom [a] [.invalidPoint]) (ensureFramed a) := by
  have hpoint : ∀ cause : PointFault,
      Failure.ArisesFrom [a] [.invalidPoint] (.invalidPoint cause) :=
    fun _ => .inl ⟨_, .head _, rfl⟩
  cases a with
  | bytes key => exact .ite (.error (hpoint _)) (.ite (.ok key) (.error (hpoint _)))
  | released => exact .error (.inr ⟨.head _, rfl⟩)
  | absent => exact .error (hpoint _)
  | other typeName shape => exact .error (hpoint _)

/-! ## Scalars -/

theorem SecretScalar.failsOnly_toBytes (buffer : Bytes) :
    FailsOnly (·.errorClass? = some .encoding) ((live buffer).toBytes scalarSize) := by
  rw [toBytes_live]
  exact .ite (.ok _) (.error rfl)

end SecpKey
