/-
  SecpKey.Proofs.Der.Object

  Object identifiers are read from their written form only, and from every written form.
  Contents are read one base-128 number after the other (`arcNumbers_eq_readArc`), they are
  the digits of these numbers (`arcNumbers_eq_ok_iff`), and the two arcs that the first
  number is split into are the ones it was put together from (`objectContents_splitFirst`,
  `splitFirst_of_firstArcsFit`).
-/
import SecpKey.Proofs.Der.Element

namespace SecpKey.Der

/-! ## Base-128 digits -/

theorem arcDigitsBefore_zero (tail : Bytes) : arcDigitsBefore 0 tail = tail := by
  rw [arcDigitsBefore, dif_pos rfl]

theorem arcDigitsBefore_of_ne {value : Nat} (h : value ≠ 0) (tail : Bytes) :
    arcDigitsBefore value tail
      = arcDigitsBefore (value / 128) (UInt8.ofNat (0x80 + value % 128) :: tail) := by
  rw [arcDigitsBefore, dif_neg h]

theorem arcDigitsBefore_eq_append (value : Nat) (tail : Bytes) :
    arcDigitsBefore value tail = arcDigitsBefore value [] ++ tail := by
  induction value using Nat.strongRecOn generalizing tail with
  | ind value ih =>
      by_cases h : value = 0
      · rw [h, arcDigitsBefore_zero, arcDigitsBefore_zero, List.nil_append]
      · have hlt : value / 128 < value := by omega
        rw [arcDigitsBefore_of_ne h, arcDigitsBefore_of_ne h, ih _ hlt, ih _ hlt [_],
          List.append_assoc, List.singleton_append]

/-- The digits of `p`, all with the continuation bit, go on with the digit `d`. -/
theorem arcDigitsBefore_step {p d : Nat} (hd : d < 128) (h : p * 128 + d ≠ 0) :
    arcDigitsBefore (p * 128 + d) [] = arcDigitsBefore p [] ++ [UInt8.ofNat (0x80 + d)] := by
  have hdiv : (p * 128 + d) / 128 = p := by omega
  have hmod : (p * 128 + d) % 128 = d := by omega
  rw [arcDigitsBefore_of_ne h, hdiv, hmod, arcDigitsBefore_eq_append]

theorem arcDigits_step {p d : Nat} (hd : d < 128) :
    arcDigits (p * 128 + d) = arcDigitsBefore p [] ++ [UInt8.ofNat d] := by
  have hdiv : (p * 128 + d) / 128 = p := by omega
  have hmod : (p * 128 + d) % 128 = d := by omega
  rw [arcDigits, hdiv, hmod, arcDigitsBefore_eq_append]

/-- Behind the digits of a number that is not finished yet, what is left to read is the rest
of the digits of all numbers. -/
theorem arcDigitsBefore_append_of_arcNumbers {pending : Option Nat} {contents : Bytes}
    {numbers : List Nat} (hpending : ∀ p, pending = some p → p ≠ 0)
    (h : arcNumbers pending contents = .ok numbers) :
    arcDigitsBefore (pending.getD 0) [] ++ contents = numbers.flatMap arcDigits := by
  -- On the contents: each byte ends the pending number or adds a digit to it.
  induction contents generalizing pending numbers with
  | nil =>
      cases pending with
      | none =>
          simp only [arcNumbers, Except.ok.injEq] at h
          rw [← h, Option.getD_none, arcDigitsBefore_zero]
          rfl
      | some p => simp [arcNumbers] at h
  | cons b rest ih =>
      have hb : b.toNat < 256 := b.toNat_lt
      rw [arcNumbers] at h
      split at h
      · simp at h
      next hmin =>
      split at h
      · next hlast =>
        rw [UInt8.lt_iff_toNat_lt] at hlast
        obtain ⟨tail, htail, h⟩ := bind_eq_ok.mp h
        obtain rfl := Except.ok.inj h
        have hnone : ∀ p, (none : Option Nat) = some p → p ≠ 0 := by simp
        have hrest := ih hnone htail
        rw [Option.getD_none, arcDigitsBefore_zero, List.nil_append] at hrest
        rw [List.flatMap_cons, arcDigits_step hlast, UInt8.ofNat_toNat, ← hrest, List.append_assoc]
        rfl
      · next hmore =>
        rw [UInt8.lt_iff_toNat_lt, show (0x80 : UInt8).toNat = 128 from rfl] at hmore
        -- A first digit of zero is refused, so the number behind it is never zero.
        have hne : pending.getD 0 * 128 + (b.toNat - 0x80) ≠ 0 := by
          cases pending with
          | none =>
              have hb0 : b ≠ 0x80 := fun h0 => hmin ⟨rfl, h0⟩
              have : b.toNat ≠ 128 := fun h0 => hb0 (UInt8.toNat_inj.mp h0)
              simp only [Option.getD_none]
              omega
          | some p =>
              have := hpending p rfl
              simp only [Option.getD_some]
              omega
        have hpending' : ∀ p, some (pending.getD 0 * 128 + (b.toNat - 0x80)) = some p → p ≠ 0 := by
          intro p hp
          rw [← Option.some.inj hp]
          exact hne
        have hnext := ih hpending' h
        have hdigit : 0x80 + (b.toNat - 0x80) = b.toNat := by omega
        rw [Option.getD_some, arcDigitsBefore_step (by omega) hne, hdigit, UInt8.ofNat_toNat,
          List.append_assoc, List.singleton_append] at hnext
        exact hnext

/-- Contents are read as numbers from the digits of these numbers only. -/
theorem eq_flatMap_of_arcNumbers {contents : Bytes} {numbers : List Nat}
    (h : arcNumbers none contents = .ok numbers) : contents = numbers.flatMap arcDigits := by
  have hdigits := arcDigitsBefore_append_of_arcNumbers (by simp) h
  rw [← hdigits, Option.getD_none, arcDigitsBefore_zero, List.nil_append]

/-- The digits of a number, all with the continuation bit, leave that number pending. -/
theorem arcNumbers_arcDigitsBefore {value : Nat} (h : value ≠ 0) (tail : Bytes) :
    arcNumbers none (arcDigitsBefore value [] ++ tail) = arcNumbers (some value) tail := by
  -- The first digit is read first, so the last one comes off: it goes on with the number above.
  induction value using Nat.strongRecOn generalizing tail with
  | ind value ih =>
      have hdigit : (UInt8.ofNat (0x80 + value % 128)).toNat = 0x80 + value % 128 := by
        rw [UInt8.toNat_ofNat']
        omega
      have hmore : ¬ UInt8.ofNat (0x80 + value % 128) < 0x80 := by
        rw [UInt8.lt_iff_toNat_lt, hdigit]
        exact Nat.not_lt.mpr (Nat.le_add_right _ _)
      have hlow : 0x80 + value % 128 - 0x80 = value % 128 := by omega
      rw [arcDigitsBefore_of_ne h, arcDigitsBefore_eq_append, List.append_assoc,
        List.singleton_append]
      by_cases hfirst : value / 128 = 0
      · have hne : UInt8.ofNat (0x80 + value % 128) ≠ 0x80 := by
          intro h0
          rw [h0, show (0x80 : UInt8).toNat = 128 from rfl] at hdigit
          omega
        have hvalue : 0 * 128 + value % 128 = value := by omega
        rw [hfirst, arcDigitsBefore_zero, List.nil_append, arcNumbers,
          if_neg fun hmin => hne hmin.2, if_neg hmore, hdigit, hlow, Option.getD_none, hvalue]
      · have hvalue : value / 128 * 128 + value % 128 = value := by omega
        rw [ih (value / 128) (by omega) hfirst, arcNumbers, if_neg (by simp), if_neg hmore, hdigit,
          hlow, Option.getD_some, hvalue]

/-- The digits of a number are read as that number, whatever follows. -/
theorem arcNumbers_arcDigits_append (n : Nat) (rest : Bytes) :
    arcNumbers none (arcDigits n ++ rest) = (arcNumbers none rest).map (n :: ·) := by
  have hdigit : (UInt8.ofNat (n % 128)).toNat = n % 128 := by
    rw [UInt8.toNat_ofNat']
    omega
  have hlast : UInt8.ofNat (n % 128) < 0x80 := by
    rw [UInt8.lt_iff_toNat_lt, hdigit]
    exact Nat.mod_lt n (by decide)
  have hne : UInt8.ofNat (n % 128) ≠ 0x80 := by
    intro h0
    rw [h0] at hlast
    exact absurd hlast (by decide)
  have hread : ∀ pending, arcNumbers pending (UInt8.ofNat (n % 128) :: rest)
      = (arcNumbers none rest).map ((pending.getD 0 * 128 + n % 128) :: ·) := by
    intro pending
    rw [arcNumbers, if_neg fun hmin => hne hmin.2, if_pos hlast, hdigit]
    cases arcNumbers none rest with
    | error e => rfl
    | ok numbers => rfl
  rw [arcDigits, arcDigitsBefore_eq_append, List.append_assoc, List.singleton_append]
  by_cases hshort : n / 128 = 0
  · have hvalue : 0 * 128 + n % 128 = n := by omega
    rw [hshort, arcDigitsBefore_zero, List.nil_append, hread, Option.getD_none, hvalue]
  · have hvalue : n / 128 * 128 + n % 128 = n := by omega
    rw [arcNumbers_arcDigitsBefore hshort, hread, Option.getD_some, hvalue]

/-- Contents are read as numbers exactly if they are the digits of these numbers. -/
theorem arcNumbers_eq_ok_iff {contents : Bytes} {numbers : List Nat} :
    arcNumbers none contents = .ok numbers ↔ contents = numbers.flatMap arcDigits := by
  constructor
  · exact eq_flatMap_of_arcNumbers
  · rintro rfl
    induction numbers with
    | nil => rfl
    | cons n numbers ih =>
        rw [List.flatMap_cons, arcNumbers_arcDigits_append, ih]
        rfl

/-! ## One number after the other -/

/-- The number that the contents start with, or that is finished next if one is pending. -/
def readArc : Option Nat → Reader Nat
  | _, [] => .error .arcUnfinished
  | pending, b :: rest =>
    if pending = none ∧ b = 0x80 then .error .arcNotMinimal
    else if b < 0x80 then .ok (pending.getD 0 * 128 + b.toNat, rest)
    else readArc (some (pending.getD 0 * 128 + (b.toNat - 0x80))) rest

theorem arcNumbers_eq_readArc {pending : Option Nat} {contents : Bytes}
    (h : pending.isSome = true ∨ contents ≠ []) :
    arcNumbers pending contents
      = readArc pending contents >>= fun (n, rest) => (arcNumbers none rest).map (n :: ·) := by
  induction contents generalizing pending with
  | nil =>
      obtain ⟨p, rfl⟩ := Option.isSome_iff_exists.mp (h.resolve_right (not_not.mpr rfl))
      rfl
  | cons b rest ih =>
      rw [arcNumbers, readArc]
      split
      · rfl
      split
      · -- The number ends with this byte.
        cases hrest : arcNumbers none rest with
        | error e => simp [bind, Except.bind, Except.map, hrest]
        | ok numbers => simp [bind, Except.bind, Except.map, hrest]
      · exact ih (.inl rfl)

/-- Every number takes a byte at least. -/
theorem length_lt_of_readArc {pending : Option Nat} {contents rest : Bytes} {n : Nat}
    (h : readArc pending contents = .ok (n, rest)) : rest.length < contents.length := by
  induction contents generalizing pending with
  | nil => cases h
  | cons b behind ih =>
      rw [List.length_cons]
      rw [readArc] at h
      split at h
      · cases h
      split at h
      · obtain ⟨-, rfl⟩ := Prod.mk.inj (Except.ok.inj h)
        exact Nat.lt_succ_self _
      · exact Nat.lt_succ_of_lt (ih h)

/-- Either a number is taken off the front, or there is nothing to read at all. -/
theorem readArc_cases {contents : Bytes} (h : contents ≠ []) :
    (∃ n rest, readArc none contents = .ok (n, rest) ∧ rest.length < contents.length
        ∧ arcNumbers none contents = (arcNumbers none rest).map (n :: ·))
      ∨ ∃ fault, readArc none contents = .error fault
        ∧ arcNumbers none contents = .error fault := by
  have hround : arcNumbers none contents = _ := arcNumbers_eq_readArc (.inr h)
  cases hread : readArc none contents with
  | error fault =>
      rw [hread] at hround
      exact .inr ⟨fault, rfl, hround⟩
  | ok read =>
      rw [hread] at hround
      exact .inl ⟨read.1, read.2, rfl, length_lt_of_readArc hread, hround⟩

/-- There are no more numbers than bytes. -/
theorem length_le_of_arcNumbers {contents : Bytes} {numbers : List Nat}
    (h : arcNumbers none contents = .ok numbers) : numbers.length ≤ contents.length := by
  induction numbers generalizing contents with
  | nil => exact Nat.zero_le _
  | cons n numbers ih =>
      have hne : contents ≠ [] := by
        rintro rfl
        cases h
      rcases readArc_cases hne with ⟨m, rest, -, hlt, hround⟩ | ⟨fault, -, hfault⟩
      · rw [hround] at h
        cases hnumbers : arcNumbers none rest with
        | error e =>
            rw [hnumbers] at h
            cases h
        | ok others =>
            rw [hnumbers] at h
            obtain ⟨rfl, rfl⟩ := List.cons.inj (Except.ok.inj h)
            exact Nat.lt_of_le_of_lt (ih hnumbers) hlt
      · rw [hfault] at h
        cases h

/-! ## Arcs -/

/-- Splitting the first number and putting the two arcs together again gives its contents. -/
theorem objectContents_splitFirst {n : Nat} {numbers : List Nat} :
    objectContents ((splitFirst (n :: numbers)).map Int.ofNat)
      = .ok ((n :: numbers).flatMap arcDigits) := by
  have hrest : (numbers.map Int.ofNat).all (0 ≤ ·) = true := by
    rw [List.all_eq_true]
    intro arc harc
    obtain ⟨m, -, rfl⟩ := List.mem_map.mp harc
    exact decide_eq_true (Int.natCast_nonneg m)
  have hdigits : (numbers.map Int.ofNat).flatMap (fun arc => arcDigits arc.toNat)
      = numbers.flatMap arcDigits := by
    rw [List.flatMap_map]
    rfl
  -- Numbers below 80 have a first arc of 0 or 1, all others one of 2.
  by_cases h : n < 80
  · have hfit : firstArcsFit (Int.ofNat (n / 40)) (Int.ofNat (n % 40)) = true := by
      simp only [firstArcsFit, Int.ofNat_eq_natCast, Bool.or_eq_true, Bool.and_eq_true,
        decide_eq_true_eq]
      omega
    have hval : (40 * Int.ofNat (n / 40) + Int.ofNat (n % 40)).toNat = n := by
      simp only [Int.ofNat_eq_natCast]
      omega
    simp only [splitFirst, if_pos h, List.map_cons, objectContents, hfit, hrest, Bool.and_self,
      if_true, hval, hdigits, List.flatMap_cons]
  · have hfit : firstArcsFit (Int.ofNat 2) (Int.ofNat (n - 80)) = true := by
      simp only [firstArcsFit, Int.ofNat_eq_natCast, Bool.or_eq_true, Bool.and_eq_true,
        decide_eq_true_eq, beq_iff_eq]
      omega
    have hval : (40 * Int.ofNat 2 + Int.ofNat (n - 80)).toNat = n := by
      simp only [Int.ofNat_eq_natCast]
      omega
    simp only [splitFirst, if_neg h, List.map_cons, objectContents, hfit, hrest, Bool.and_self,
      if_true, hval, hdigits, List.flatMap_cons]

/-- An object identifier is read from the written form of its arcs only. -/
theorem encodeObject_of_readObject {input rest : Bytes} {arcs : List Nat}
    (h : readObject input = .ok (arcs, rest)) :
    ∃ written, encodeObject (arcs.map Int.ofNat) = .ok written ∧ input = written ++ rest := by
  simp only [readObject, bind_eq_ok, Prod.exists, expect_eq_ok_iff, readLength_eq_ok_iff] at h
  obtain ⟨_, rfl, length, tail, ⟨rfl, -⟩, h⟩ := h
  split at h
  · simp at h
  next hnonempty =>
  split at h
  · simp at h
  next hfit =>
  obtain ⟨numbers, hnumbers, h⟩ := bind_eq_ok.mp h
  obtain ⟨rfl, rfl⟩ := by simpa using h
  have hcontents := eq_flatMap_of_arcNumbers hnumbers
  have hlen : (tail.take length).length = length := by
    rw [List.length_take]
    omega
  cases numbers with
  | nil => exact absurd hcontents hnonempty
  | cons n numbers =>
      refine ⟨encodeElement .object (tail.take length), ?_, ?_⟩
      · rw [encodeObject, objectContents_splitFirst, ← hcontents]
        rfl
      · rw [encodeElement, hlen, List.cons_append, List.append_assoc, List.take_append_drop]

/-- Two arcs that can share one number are split off it again. -/
theorem splitFirst_of_firstArcsFit {first second : Nat} (h : firstArcsFit first second = true)
    (numbers : List Nat) :
    splitFirst ((40 * first + second) :: numbers) = first :: second :: numbers := by
  simp only [firstArcsFit, Bool.or_eq_true, Bool.and_eq_true, decide_eq_true_eq, beq_iff_eq] at h
  rw [splitFirst]
  by_cases hlow : 40 * first + second < 80
  · have hdiv : (40 * first + second) / 40 = first := by omega
    have hmod : (40 * first + second) % 40 = second := by omega
    rw [if_pos hlow, hdiv, hmod]
  · obtain rfl : first = 2 := by omega
    rw [if_neg hlow, show 40 * 2 + second - 80 = second by omega]

/-- Natural arcs of which the first two can share one number have a written form. -/
theorem objectContents_natArcs {first second : Nat} (h : firstArcsFit first second = true)
    (numbers : List Nat) :
    objectContents ((first :: second :: numbers).map Int.ofNat)
      = .ok (((40 * first + second) :: numbers).flatMap arcDigits) := by
  rw [← splitFirst_of_firstArcsFit h numbers]
  exact objectContents_splitFirst

/-- Only such arcs have one. -/
theorem exists_natArcs_of_objectContents {arcs : List Int} {contents : Bytes}
    (h : objectContents arcs = .ok contents) :
    ∃ (first second : Nat) (numbers : List Nat),
      arcs = (first :: second :: numbers).map Int.ofNat ∧ firstArcsFit first second = true := by
  match arcs, h with
  | first :: second :: rest, h =>
      rw [objectContents] at h
      split at h
      · next hfit =>
        rw [Bool.and_eq_true, List.all_eq_true] at hfit
        obtain ⟨hfirst, hrest⟩ := hfit
        have hnat : 0 ≤ first ∧ 0 ≤ second := by
          simp only [firstArcsFit, Bool.or_eq_true, Bool.and_eq_true, decide_eq_true_eq,
            beq_iff_eq] at hfirst
          omega
        obtain ⟨m, rfl⟩ := Int.eq_ofNat_of_zero_le hnat.1
        obtain ⟨n, rfl⟩ := Int.eq_ofNat_of_zero_le hnat.2
        refine ⟨m, n, rest.map Int.toNat, ?_, hfirst⟩
        have hback : ∀ arc ∈ rest, (Int.ofNat ∘ Int.toNat) arc = id arc := fun arc harc =>
          Int.toNat_of_nonneg (of_decide_eq_true (hrest arc harc))
        rw [List.map_cons, List.map_cons, List.map_map, List.map_congr_left hback, List.map_id]
        rfl
      · cases h

/-- The written form of an object identifier is read back, whatever follows. -/
theorem readObject_of_encodeObject {arcs : List Int} {written : Bytes}
    (h : encodeObject arcs = .ok written) (hlen : written.length < lengthLimit) (rest : Bytes) :
    ∃ numbers : List Nat, readObject (written ++ rest) = .ok (numbers, rest)
      ∧ numbers.map Int.ofNat = arcs := by
  rw [encodeObject] at h
  cases hcontents : objectContents arcs with
  | error e =>
      rw [hcontents] at h
      cases h
  | ok contents =>
      rw [hcontents] at h
      obtain rfl := Except.ok.inj h
      obtain ⟨first, second, numbers, rfl, hfit⟩ := exists_natArcs_of_objectContents hcontents
      rw [objectContents_natArcs hfit] at hcontents
      have hdigits := Except.ok.inj hcontents
      have hread := arcNumbers_eq_ok_iff.mpr hdigits.symm
      have hnonempty : contents ≠ [] := by
        rw [← hdigits, List.flatMap_cons, arcDigits, arcDigitsBefore_eq_append]
        simp
      have hshort := (length_lt_encodeElement .object contents).trans hlen
      refine ⟨first :: second :: numbers, ?_, rfl⟩
      simp only [readObject, bind_eq_ok, Prod.exists, expect_eq_ok_iff, readLength_eq_ok_iff]
      refine ⟨_, rfl, contents.length, contents ++ rest, ⟨List.append_assoc _ _ _, hshort⟩, ?_⟩
      rw [List.take_left, List.drop_left, if_neg hnonempty,
        if_neg (by rw [List.length_append]; omega), bind_eq_ok]
      exact ⟨_, hread, by rw [splitFirst_of_firstArcsFit hfit]⟩

end SecpKey.Der
