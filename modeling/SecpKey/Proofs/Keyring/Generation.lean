/-
  SecpKey.Proofs.Keyring.Generation

  Generating a key is rejection sampling, and exact: the key that comes of a script of entropy
  results has the first candidate in range as its scalar, byte for byte.  Candidates out of
  range leave no trace (`generate_append`), and behind them stands a candidate in range, a
  failure or nothing (`exists_behind`).  Which of these it is decides the outcome, and nothing
  else can go wrong, however long a candidate is (`sampled_generate`).
-/
import SecpKey.Proofs.Key.Import
import SecpKey.Proofs.Keyring.Ownership

namespace SecpKey

/-! ## Scripts of entropy results -/

/-- A candidate, of any length and value. -/
def Draw.IsCandidate (draw : Draw) : Prop := ∃ data, draw = .candidate data

/-- A candidate that is no private scalar. -/
def Draw.IsOutOfRange (draw : Draw) : Prop :=
  ∃ data, draw = .candidate data ∧ ¬ (1 ≤ Bytes.toNat data ∧ Bytes.toNat data < groupOrder)

/-- A candidate in range comes before the first failure. -/
def OffersScalar (draws : List Draw) : Prop :=
  ∃ before data left, draws = before ++ .candidate data :: left
    ∧ (∀ draw ∈ before, draw.IsCandidate)
    ∧ 1 ≤ Bytes.toNat data ∧ Bytes.toNat data < groupOrder

/-- The first candidate in range is `data`, and the draws behind it are `left`. -/
def FirstScalar (draws : List Draw) (data : Bytes) (left : List Draw) : Prop :=
  ∃ before, draws = before ++ .candidate data :: left
    ∧ (∀ draw ∈ before, draw.IsOutOfRange)
    ∧ 1 ≤ Bytes.toNat data ∧ Bytes.toNat data < groupOrder

/-- What the first failure says; a script without one fails at its end. -/
inductive FirstFailure : List Draw → String → Prop
  | failure {before rest : List Draw} {text : String} (h : ∀ draw ∈ before, draw.IsCandidate) :
      FirstFailure (before ++ .failure text :: rest) text
  | exhausted {draws : List Draw} (h : ∀ draw ∈ draws, draw.IsCandidate) :
      FirstFailure draws exhausted

section

variable {before rest draws : List Draw}

theorem Draw.IsOutOfRange.isCandidate {draw : Draw} (h : draw.IsOutOfRange) :
    draw.IsCandidate := by
  obtain ⟨data, rfl, -⟩ := h
  exact ⟨data, rfl⟩

theorem offersScalar_cons {draw : Draw} (h : draw.IsOutOfRange) :
    OffersScalar (draw :: rest) ↔ OffersScalar rest := by
  constructor
  · rintro ⟨before, data, left, hsplit, hbefore, hrange⟩
    cases before with
    | nil =>
        -- The first candidate is the one that is out of range.
        obtain ⟨data', rfl, hout⟩ := h
        cases hsplit
        exact absurd hrange hout
    | cons first before =>
        rw [List.cons_append, List.cons.injEq] at hsplit
        exact ⟨before, data, left, hsplit.2, fun draw hd => hbefore draw (.tail _ hd), hrange⟩
  · rintro ⟨before, data, left, rfl, hbefore, hrange⟩
    refine ⟨draw :: before, data, left, rfl, ?_, hrange⟩
    rw [List.forall_mem_cons]
    exact ⟨h.isCandidate, hbefore⟩

theorem offersScalar_append (h : ∀ draw ∈ before, draw.IsOutOfRange) :
    OffersScalar (before ++ rest) ↔ OffersScalar rest := by
  induction before with
  | nil => exact Iff.rfl
  | cons draw before ih =>
      rw [List.forall_mem_cons] at h
      exact (offersScalar_cons h.1).trans (ih h.2)

theorem not_offersScalar_nil : ¬ OffersScalar [] := by
  rintro ⟨before, data, left, hsplit, -⟩
  exact List.append_ne_nil_of_right_ne_nil before (List.cons_ne_nil _ left) hsplit.symm

theorem not_offersScalar_failure (text : String) (rest : List Draw) :
    ¬ OffersScalar (.failure text :: rest) := by
  rintro ⟨before, data, left, hsplit, hbefore, -⟩
  cases before with
  | nil => cases hsplit
  | cons first before =>
      rw [List.cons_append, List.cons.injEq] at hsplit
      obtain ⟨data', hfirst⟩ := hbefore first (.head _)
      rw [← hsplit.1] at hfirst
      cases hfirst

/-- What can stand behind the candidates out of range that a script begins with. -/
inductive Behind : List Draw → Prop
  | nothing : Behind []
  | failure (text : String) (rest : List Draw) : Behind (.failure text :: rest)
  | scalar {data : Bytes} (left : List Draw)
      (range : 1 ≤ Bytes.toNat data ∧ Bytes.toNat data < groupOrder) :
      Behind (.candidate data :: left)

theorem exists_behind (draws : List Draw) :
    ∃ before rest, draws = before ++ rest ∧ (∀ draw ∈ before, draw.IsOutOfRange)
      ∧ Behind rest := by
  induction draws with
  | nil => exact ⟨[], [], rfl, List.forall_mem_nil _, .nothing⟩
  | cons draw draws ih =>
      cases draw with
      | failure text => exact ⟨[], _, rfl, List.forall_mem_nil _, .failure text draws⟩
      | candidate data =>
          by_cases hrange : 1 ≤ Bytes.toNat data ∧ Bytes.toNat data < groupOrder
          · exact ⟨[], _, rfl, List.forall_mem_nil _, .scalar draws hrange⟩
          · obtain ⟨before, rest, rfl, hbefore, hbehind⟩ := ih
            refine ⟨.candidate data :: before, rest, rfl, ?_, hbehind⟩
            rw [List.forall_mem_cons]
            exact ⟨⟨data, rfl, hrange⟩, hbefore⟩

end

namespace Key

variable {P : Type} {backend : Backend P} {before : List Draw}

/-- Candidates out of range are wiped, and what comes of the draws is what comes of the rest. -/
theorem generate_append (h : ∀ draw ∈ before, draw.IsOutOfRange) (rest : List Draw) (v : Vault) :
    ∃ w, v.Kept w ∧ generate backend (before ++ rest) v = generate backend rest w := by
  -- On the candidates, for every vault: each one leaves a longer vault behind.
  induction before generalizing v with
  | nil => exact ⟨v, Vault.Kept.refl v, rfl⟩
  | cons draw before ih =>
      rw [List.forall_mem_cons] at h
      obtain ⟨⟨data, rfl, hout⟩, hbefore⟩ := h
      have hinvalid : isValidScalar (Bytes.toNat data) = false := by
        rw [Bool.eq_false_iff, Ne, isValidScalar_natCast]
        exact hout
      obtain ⟨w, hkept, hgen⟩ := ih hbefore ((v.put (.live data)).2.wipe v.cells.length)
      refine ⟨w, (Vault.kept_put_wipe v _).trans hkept, ?_⟩
      rw [List.cons_append, generate_of_invalid _ _ hinvalid, hgen]

end Key

namespace Keyring

variable {P : Type} {backend : Backend P} {ring : Keyring P}

/-! ## Keys of a script -/

/-- The key that is new in `after` was made of the candidate `data`. -/
structure MadeOf (backend : Backend P) (ring : Keyring P) (data : Bytes) (after : Keyring P) :
    Prop where
  added : ∃ k, after.keys = ring.keys ++ [k] ∧ k.compressed = false
  /-- Its container holds the very bytes that were drawn. -/
  held : ∃ h, after.secretAt ring.keys.length = some h ∧ after.vault.get h = .live data
  point : ∃ xy, generatorMultiple? (Bytes.toNat data) = some xy
    ∧ (after.perform backend (.publicPoint ring.keys.length)).1 = .ok (.point? (some xy))
  getPrivate : (after.perform backend (.getPrivate ring.keys.length)).1
    = .ok (.bytes? (some (Bytes.ofNat 32 (Bytes.toNat data))))
  kept : ∀ h < ring.vault.cells.length, after.vault.get h = ring.vault.get h

/-- What generating a key from a script comes to. -/
structure Sampled (backend : Backend P) (ring : Keyring P) (draws : List Draw) : Prop where
  /-- The first candidate in range becomes the scalar of a new key, and the draws behind it are
  left. -/
  made : OffersScalar draws → ∃ data left after, FirstScalar draws data left
    ∧ ring.perform backend (.generate draws) = (.ok (.made ring.keys.length left), after)
    ∧ MadeOf backend ring data after
  /-- Without one the first failure is reported, and there is no new key. -/
  failed : ¬ OffersScalar draws → ∃ e text after, FirstFailure draws text
    ∧ ring.perform backend (.generate draws) = (.error e, after)
    ∧ e.errorClass? = some .randomness ∧ e.message = "Error from entropy source: " ++ text
    ∧ after.keys = ring.keys ∧ ring.vault.Kept after.vault

/-- A candidate in range makes a key, in whatever vault the candidates before it left. -/
theorem madeOf_put {data : Bytes} {w : Vault} {R : P} (hkept : ring.vault.Kept w)
    (hrange : 1 ≤ Bytes.toNat data ∧ Bytes.toNat data < groupOrder)
    (hmultiple : generatorMultiple? (Bytes.toNat data) = some (backend.coordinates R)) :
    MadeOf backend ring data
      ⟨(w.put (.live data)).2, ring.keys ++ [⟨some w.cells.length, some R, false⟩]⟩ := by
  set after : Keyring P :=
    ⟨(w.put (.live data)).2, ring.keys ++ [⟨some w.cells.length, some R, false⟩]⟩
  have hk : after.keys[ring.keys.length]? = some ⟨some w.cells.length, some R, false⟩ :=
    List.getElem?_concat_length
  have hcell : after.vault.get w.cells.length = .live data := Vault.get_put_length w _
  constructor
  · exact ⟨_, rfl, rfl⟩
  · exact ⟨w.cells.length, secretAt_eq hk, hcell⟩
  · refine ⟨_, hmultiple, ?_⟩
    rw [perform, withKey, hk]
    rfl
  · have hget : (⟨some w.cells.length, some R, false⟩ : Key P).getPrivate after.vault
        = .ok (some (Bytes.ofNat 32 (Bytes.toNat data))) := by
      rw [Key.getPrivate]
      dsimp only
      rw [Key.toBytes_of_get hcell hrange.2]
      rfl
    rw [perform, withKey, hk]
    dsimp only
    rw [hget]
    rfl
  · intro h hlt
    have hlt' : h < w.cells.length := Nat.lt_of_lt_of_le hlt hkept.length_le
    exact (Vault.get_put_of_lt w _ hlt').trans (hkept.get_eq h)

/-- Generating a key takes the first candidate in range as it is, and fails only if the script
fails before it has one. -/
theorem sampled_generate (hmul : MultipliesGenerator backend) (ring : Keyring P)
    (draws : List Draw) : Sampled backend ring draws := by
  obtain ⟨before, rest, rfl, hbefore, hbehind⟩ := exists_behind draws
  have hcandidates : ∀ draw ∈ before, draw.IsCandidate :=
    fun draw hdraw => (hbefore draw hdraw).isCandidate
  obtain ⟨w, hkept, hgen⟩ : ∃ w, ring.vault.Kept w
      ∧ Key.generate backend (before ++ rest) ring.vault = Key.generate backend rest w :=
    Key.generate_append hbefore rest ring.vault
  have hperform : ring.perform backend (.generate (before ++ rest))
      = ring.making (Key.generate backend rest w) := by rw [perform, hgen]
  cases hbehind with
  | nothing =>
      have hno : ¬ OffersScalar (before ++ []) := by
        rw [offersScalar_append hbefore]
        exact not_offersScalar_nil
      refine ⟨fun hoffers => absurd hoffers hno, fun _ => ?_⟩
      refine ⟨_, exhausted, _, .exhausted ?_, hperform, rfl, rfl, rfl, hkept⟩
      rwa [List.append_nil]
  | failure text tail =>
      have hno : ¬ OffersScalar (before ++ .failure text :: tail) := by
        rw [offersScalar_append hbefore]
        exact not_offersScalar_failure text tail
      refine ⟨fun hoffers => absurd hoffers hno, fun _ => ?_⟩
      exact ⟨_, text, _, .failure hcandidates, hperform, rfl, rfl, rfl, hkept⟩
  | @scalar data left hrange =>
      obtain ⟨R, hR, hmultiple⟩ := hmul hrange
      have hyes : OffersScalar (before ++ .candidate data :: left) :=
        ⟨before, data, left, rfl, hcandidates, hrange⟩
      refine ⟨fun _ => ?_, fun hno => absurd hyes hno⟩
      rw [Key.generate_of_valid left w (isValidScalar_natCast.mpr hrange), hR] at hperform
      exact ⟨data, left, _, ⟨before, rfl, hbefore, hrange⟩, hperform,
        madeOf_put hkept hrange hmultiple⟩

/-- No bytes at all, the group order with a zero byte in front, and then the scalar two in forty
bytes; what stands behind it is left, also the failure. -/
def mixedScript : List Draw :=
  [.candidate [], .candidate (0x00 :: Bytes.ofNat 32 groupOrder),
   .candidate (Bytes.ofNat 40 2), .candidate [0x03], .failure "drained"]

theorem sampled_generate_mixed :
    MultipliesGenerator Backend.secp256k1 ∧ OffersScalar mixedScript
      ∧ FirstScalar mixedScript (Bytes.ofNat 40 2) [.candidate [0x03], .failure "drained"]
      ∧ ¬ OffersScalar [.candidate [], .failure "drained", .candidate [0x02]]
      ∧ Sampled Backend.secp256k1 (empty : Keyring Point) mixedScript
      ∧ Sampled Backend.secp256k1 (empty : Keyring Point)
          [.candidate [], .failure "drained", .candidate [0x02]] := by
  have hout : ∀ draw ∈ [Draw.candidate [], .candidate (0x00 :: Bytes.ofNat 32 groupOrder)],
      draw.IsOutOfRange := by
    rw [List.forall_mem_cons, List.forall_mem_singleton]
    exact ⟨⟨_, rfl, by decide⟩, ⟨_, rfl, by decide +kernel⟩⟩
  have hrange : 1 ≤ Bytes.toNat (Bytes.ofNat 40 2)
      ∧ Bytes.toNat (Bytes.ofNat 40 2) < groupOrder := by decide +kernel
  have hfails : ∀ draw ∈ [Draw.candidate []], draw.IsOutOfRange := by
    rw [List.forall_mem_singleton]
    exact ⟨_, rfl, by decide⟩
  have hno : ¬ OffersScalar ([Draw.candidate []] ++ [.failure "drained", .candidate [0x02]]) := by
    rw [offersScalar_append hfails]
    exact not_offersScalar_failure _ _
  exact ⟨multipliesGenerator_secp256k1,
    ⟨_, _, _, rfl, fun draw hdraw => (hout draw hdraw).isCandidate, hrange⟩,
    ⟨_, rfl, hout, hrange⟩, hno, sampled_generate multipliesGenerator_secp256k1 _ _,
    sampled_generate multipliesGenerator_secp256k1 _ _⟩

end Keyring

end SecpKey
