/-
  SecpKey.Proofs.SecretScalar.Lifecycle

  What becomes of containers over every sequence of operations and every script with blocks.
  One operation looks, makes a container or wipes one (`effect`).  So at any later moment a
  container is wiped if one of the changes since then wiped it, and otherwise holds what it
  held (`get_replay`).  What a script does is a sequence of changes (`exec_eq_replay`), in
  which every block ends by wiping its container.  Names stay apart (`Sound`), so a container
  is never reached through a name that is not its own.
-/
import SecpKey.SecretScalar.Script
import SecpKey.Proofs.Vault

namespace SecpKey.SecretScalar

/-! ## Comparing -/

/-- Containers are equal if both are live and hold the same value. -/
theorem equals_iff {s t : SecretScalar} : s.equals t = true
    ↔ ∃ a b, s = .live a ∧ t = .live b ∧ Bytes.toNat a = Bytes.toNat b := by
  constructor
  · intro h
    cases s with
    | wiped => cases h
    | live a =>
        cases t with
        | wiped => cases h
        | live b => exact ⟨a, b, rfl, rfl, beq_iff_eq.mp h⟩
  · rintro ⟨a, b, rfl, rfl, h⟩
    exact beq_iff_eq.mpr h

theorem equals_trans {s t u : SecretScalar} (h : s.equals t = true) (h' : t.equals u = true) :
    s.equals u = true := by
  obtain ⟨a, b, rfl, rfl, hab⟩ := equals_iff.mp h
  obtain ⟨b', c, hb, rfl, hbc⟩ := equals_iff.mp h'
  obtain rfl := SecretScalar.live.inj hb
  exact equals_iff.mpr ⟨a, c, rfl, rfl, hab.trans hbc⟩

theorem equals_self_iff {s : SecretScalar} : s.equals s = true ↔ s.isWiped = false := by
  rw [equals_self, Bool.not_eq_true']

/-! ## One operation -/

/-- The name whose container an operation wipes. -/
def Step.released? : Step → Option String
  | .wipe slot | .useOnce slot => some slot
  | _ => none

/-- The name of the container that an operation reads the scalar of. -/
def Step.read? : Step → Option String
  | .value slot | .naturalSize slot | .toWidth slot _ | .copy slot _ => some slot
  | _ => none

namespace Bench

variable {bench : Bench} {slot : String} {h : Nat}

/-- The container with number `h` was made. -/
def Made (bench : Bench) (h : Nat) : Prop := h < bench.vault.cells.length

/-- The container that a change wipes. -/
def wiped? (bench : Bench) : Change → Option Nat
  | .step step => step.released?.bind bench.number?
  | .left h => some h

/-- What an operation can do, with its answer: nothing, make a container, or wipe one. -/
inductive Effect (bench : Bench) (step : Step) : Except Failure Answer × Bench → Prop
  | looked {answer : Except Failure Answer} (hw : bench.wiped? (.step step) = none) :
      Effect bench step (answer, bench)
  | made {slot : String} {s : SecretScalar} (hw : bench.wiped? (.step step) = none) :
      Effect bench step (.ok .done, bench.add slot s)
  | wiped {answer : Except Failure Answer} {h : Nat} (hw : bench.wiped? (.step step) = some h)
      (hfails : ∀ e, answer = .error e → ∃ slot, step = .useOnce slot) :
      Effect bench step (answer, bench.wipe h)

section

variable {step : Step}

theorem Effect.withSlot {act : Nat → Except Failure Answer × Bench}
    (hnone : bench.number? slot = none → bench.wiped? (.step step) = none)
    (hact : ∀ h, bench.number? slot = some h → Effect bench step (act h)) :
    Effect bench step (bench.withSlot slot act) := by
  rw [Bench.withSlot]
  cases hn : bench.number? slot with
  | none => exact .looked (hnone hn)
  | some h => exact hact h hn

theorem Effect.look (slot : String) (read : SecretScalar → Except Failure Answer)
    (hw : bench.wiped? (.step step) = none) : Effect bench step (bench.look slot read) :=
  .withSlot (fun _ => hw) fun _ _ => .looked hw

theorem Effect.store {s : Except Failure SecretScalar} (hw : bench.wiped? (.step step) = none) :
    Effect bench step (bench.store slot s) := by
  cases s with
  | error e => exact .looked hw
  | ok s => exact .made hw

end

theorem effect (bench : Bench) (step : Step) : Effect bench step (bench.perform step) := by
  cases step <;> rw [perform]
  case new | ofInt => exact .store rfl
  case copy slot target => exact .withSlot (fun _ => rfl) fun _ _ => .store rfl
  case value slot => exact .look slot _ rfl
  case naturalSize slot => exact .look slot _ rfl
  case toWidth slot width => exact .look slot _ rfl
  case wipe slot => exact .withSlot id fun h hn => .wiped hn nofun
  case describe slot => exact .look slot _ rfl
  case equals slot other => exact .withSlot (fun _ => rfl) fun _ _ => .look other _ rfl
  case equalsForeign slot => exact .look slot _ rfl
  case useOnce slot => exact .withSlot id fun h hn => .wiped hn fun _ _ => ⟨slot, rfl⟩

theorem withSlot_of_number? {act : Nat → Except Failure Answer × Bench}
    (hn : bench.number? slot = some h) : bench.withSlot slot act = act h := by
  rw [withSlot, hn]

theorem look_of_number? {read : SecretScalar → Except Failure Answer}
    (hn : bench.number? slot = some h) :
    bench.look slot read = (read (bench.vault.get h), bench) := withSlot_of_number? hn

/-- What is wiped has nothing that could be read. -/
theorem perform_of_wiped {step : Step} (hread : step.read? = some slot)
    (hn : bench.number? slot = some h) (hw : bench.vault.get h = .wiped) :
    bench.perform step = (.error (.fault .wiped), bench) := by
  cases step with
  | value | naturalSize | toWidth =>
      obtain rfl := Option.some.inj hread
      rw [perform, look_of_number? hn, hw]
      rfl
  | copy =>
      obtain rfl := Option.some.inj hread
      rw [perform, withSlot_of_number? hn, hw]
      rfl
  | _ => cases hread

/-- A failure changes nothing, except that a block still wipes. -/
theorem bench_of_error {step : Step} {e : Failure} {after : Bench}
    (herror : bench.perform step = (.error e, after)) :
    after = bench
      ∨ ∃ slot h, step = .useOnce slot ∧ bench.number? slot = some h ∧ after = bench.wipe h := by
  have heffect : Effect bench step (.error e, after) := herror ▸ effect bench step
  cases heffect with
  | looked => exact .inl rfl
  | wiped hw hfails =>
      obtain ⟨slot, rfl⟩ := hfails e rfl
      exact .inr ⟨slot, _, rfl, hw, rfl⟩

/-! ## Sequences of changes -/

/-- The containers that are wiped on the way. -/
def wipedBy (bench : Bench) : List Change → List Nat
  | [] => []
  | change :: rest => (bench.wiped? change).toList ++ (bench.apply change).wipedBy rest

theorem mem_wipedBy_cons {change : Change} {rest : List Change} :
    h ∈ bench.wipedBy (change :: rest)
      ↔ bench.wiped? change = some h ∨ h ∈ (bench.apply change).wipedBy rest := by
  rw [wipedBy, List.mem_append, Option.mem_toList]

theorem replay_cons (change : Change) (rest : List Change) :
    bench.replay (change :: rest) = (bench.apply change).replay rest := rfl

theorem replay_append (first second : List Change) :
    bench.replay (first ++ second) = (bench.replay first).replay second := List.foldl_append

/-- What every change keeps is kept by a sequence of them. -/
theorem replay_induction {p : Bench → Prop}
    (hchange : ∀ (b : Bench) (change : Change), p b → p (b.apply change)) (h : p bench)
    (changes : List Change) : p (bench.replay changes) := by
  induction changes generalizing bench with
  | nil => exact h
  | cons change rest ih => exact ih (hchange bench change h)

/-- What one change can do. -/
theorem apply_cases (bench : Bench) (change : Change) :
    (bench.apply change = bench ∧ bench.wiped? change = none)
      ∨ (∃ slot s, bench.apply change = bench.add slot s ∧ bench.wiped? change = none)
      ∨ ∃ h, bench.apply change = bench.wipe h ∧ bench.wiped? change = some h := by
  cases change with
  | left h => exact .inr (.inr ⟨h, rfl, rfl⟩)
  | step step =>
      have heffect := bench.effect step
      rw [apply]
      generalize bench.perform step = result at heffect
      cases heffect with
      | looked hw => exact .inl ⟨rfl, hw⟩
      | made hw => exact .inr (.inl ⟨_, _, rfl, hw⟩)
      | wiped hw => exact .inr (.inr ⟨_, rfl, hw⟩)

theorem Made.apply (hmade : bench.Made h) (change : Change) : (bench.apply change).Made h := by
  obtain ⟨heq, -⟩ | ⟨slot, s, heq, -⟩ | ⟨k, heq, -⟩ := bench.apply_cases change
  · rwa [heq]
  · rw [heq, Made, add, Vault.length_put]
    exact Nat.lt_succ_of_lt hmade
  · rwa [heq, Made, wipe, Vault.length_wipe]

/-- A change wipes the one container that it names and leaves the others as they are. -/
theorem get_apply (hmade : bench.Made h) (change : Change) :
    (bench.apply change).vault.get h
      = if bench.wiped? change = some h then .wiped else bench.vault.get h := by
  obtain ⟨heq, hw⟩ | ⟨slot, s, heq, hw⟩ | ⟨k, heq, hw⟩ := bench.apply_cases change
  · rw [heq, hw, if_neg nofun]
  · rw [heq, hw, if_neg nofun]
    exact Vault.get_put_of_lt bench.vault s hmade
  · rw [heq, hw, wipe, Vault.get_wipe]
    simp only [Option.some.injEq, eq_comm]

/-- At any later moment a container is wiped if it was wiped on the way, and is otherwise what it
was. -/
theorem get_replay (hmade : bench.Made h) (changes : List Change) :
    (bench.replay changes).vault.get h
      = if h ∈ bench.wipedBy changes then .wiped else bench.vault.get h := by
  -- On the changes, for every bench: the first one leaves a bench that still has the container.
  induction changes generalizing bench with
  | nil => exact (if_neg List.not_mem_nil).symm
  | cons change rest ih =>
      rw [replay_cons, ih (hmade.apply change), get_apply hmade]
      simp only [mem_wipedBy_cons]
      by_cases hrest : h ∈ (bench.apply change).wipedBy rest
      · rw [if_pos hrest, if_pos (.inr hrest)]
      · simp only [hrest, or_false, if_false]

theorem Made.replay (hmade : bench.Made h) (changes : List Change) :
    (bench.replay changes).Made h :=
  replay_induction (p := (Made · h)) (fun _ change hb => hb.apply change) hmade changes

theorem wiped_replay (hmade : bench.Made h) (hw : bench.vault.get h = .wiped)
    (changes : List Change) : (bench.replay changes).vault.get h = .wiped := by
  rw [get_replay hmade, hw, ite_self]

theorem live_of_replay {data : Bytes} (hmade : bench.Made h) {changes : List Change}
    (hlive : (bench.replay changes).vault.get h = .live data) : bench.vault.get h = .live data := by
  rw [get_replay hmade] at hlive
  split at hlive
  · cases hlive
  · exact hlive

/-! ## Names -/

/-- Names stand for containers that were made, and no two of them for the same one. -/
structure Sound (bench : Bench) : Prop where
  made {slot : String} {h : Nat} : bench.number? slot = some h → bench.Made h
  apart {slot other : String} {h : Nat} : bench.number? slot = some h →
    bench.number? other = some h → slot = other

theorem number?_add (bench : Bench) (slot other : String) (s : SecretScalar) :
    (bench.add slot s).number? other
      = if slot = other then some bench.vault.cells.length else bench.number? other :=
  Slots.get?_put bench.names slot other _

namespace Sound

theorem empty (memory : Memory) : Sound (.empty memory) := ⟨nofun, nofun⟩

theorem wipe (hs : bench.Sound) (h : Nat) : (bench.wipe h).Sound where
  made hn := (hs.made hn).apply (.left h)
  apart hn hn' := hs.apart hn hn'

/-- The number of a new container is not in use. -/
theorem add (hs : bench.Sound) (slot : String) (s : SecretScalar) : (bench.add slot s).Sound := by
  constructor
  · intro other k hk
    rw [Made, Bench.add, Vault.length_put]
    rw [number?_add] at hk
    split at hk
    · obtain rfl := Option.some.inj hk
      exact Nat.lt_succ_self _
    · exact Nat.lt_succ_of_lt (hs.made hk)
  · intro one other k hone hother
    -- Either both names are the new container's, or none is: what was made before has a smaller
    -- number.
    rw [number?_add] at hone hother
    split at hone <;> split at hother
    · next h1 h2 => exact h1.symm.trans h2
    · exact absurd (hs.made hother) (Option.some.inj hone ▸ Nat.lt_irrefl _)
    · exact absurd (hs.made hone) (Option.some.inj hother ▸ Nat.lt_irrefl _)
    · exact hs.apart hone hother

theorem apply (hs : bench.Sound) (change : Change) : (bench.apply change).Sound := by
  obtain ⟨heq, -⟩ | ⟨slot, s, heq, -⟩ | ⟨k, heq, -⟩ := bench.apply_cases change
  · rwa [heq]
  · rw [heq]
    exact hs.add slot s
  · rw [heq]
    exact hs.wipe k

theorem replay (hs : bench.Sound) (changes : List Change) : (bench.replay changes).Sound :=
  replay_induction (fun _ change hb => hb.apply change) hs changes

end Sound

/-! ## Scripts -/

theorem exec_eq_replay (bench : Bench) (script : Script) :
    (bench.exec script).2 = bench.replay (bench.changes script) := by
  -- On the script, for every bench: the parts behind the first start from what it left.
  induction script generalizing bench with
  | done => rfl
  | raise text => rfl
  | step step rest ih =>
      rw [exec, changes, replay_cons, apply]
      rcases bench.perform step with ⟨e | answer, next⟩
      · rfl
      · exact ih next
  | attempt body rest ihbody ihrest =>
      rw [exec, changes, replay_append, ← ihbody, ihrest]
  | block slot body rest ihbody ihrest =>
      rw [exec, changes]
      cases bench.number? slot with
      | none => rfl
      | some h =>
          dsimp only
          rw [replay_append, ← ihbody, replay_cons, apply]
          rcases bench.exec body with ⟨e | answer, next⟩
          · rfl
          · exact ihrest (next.wipe h)

/-- However a block is left, and whatever its body did with the name, the container it was
entered with is wiped from then on. -/
theorem get_exec_block (hs : bench.Sound) (hn : bench.number? slot = some h)
    (body rest : Script) : (bench.exec (.block slot body rest)).2.vault.get h = .wiped := by
  have hmade : (bench.exec body).2.Made h := by
    rw [exec_eq_replay]
    exact (hs.made hn).replay _
  -- The end of the block wipes the container, and after that it stays wiped like any other.
  have hwiped : ((bench.exec body).2.wipe h).vault.get h = .wiped := Vault.get_wipe_self _ h
  rw [exec, hn]
  dsimp only
  rcases hbody : bench.exec body with ⟨e | answer, next⟩
  · rwa [hbody] at hwiped
  · rw [hbody] at hmade hwiped
    dsimp only
    rw [exec_eq_replay]
    exact wiped_replay (hmade.apply (.left h)) hwiped _

/-- A block goes on as its body ended, and wipes nothing else. -/
theorem exec_block (hn : bench.number? slot = some h) (body : Script) :
    bench.exec (.block slot body .done) = ((bench.exec body).1, (bench.exec body).2.wipe h) := by
  rw [exec, hn]
  dsimp only
  rcases bench.exec body with ⟨e | answer, next⟩ <;> rfl

/-- Using a container once is reading it in a block. -/
theorem exec_block_value (bench : Bench) (slot : String) :
    bench.exec (.block slot (.step (.value slot) .done) .done)
      = ((bench.perform (.useOnce slot)).1.map fun _ => (), (bench.perform (.useOnce slot)).2) := by
  cases hn : bench.number? slot with
  | none =>
      rw [exec, perform, withSlot, hn]
      rfl
  | some h =>
      rw [exec_block hn, exec, perform, look_of_number? hn, perform, withSlot_of_number? hn]
      cases bench.vault.get h with
      | live data => rfl
      | wiped => rfl

/-! ## The whole life of containers -/

/-- The container under a name. -/
def container? (bench : Bench) (slot : String) : Option SecretScalar :=
  (bench.number? slot).map bench.vault.get

/-- A copy is a container of its own, and the original is as it was. -/
theorem perform_copy (hs : bench.Sound) {data : Bytes} (target : String)
    (hn : bench.number? slot = some h) (hlive : bench.vault.get h = .live data) :
    ∃ k after, ¬ bench.Made k ∧ bench.perform (.copy slot target) = (.ok .done, after)
      ∧ after.number? target = some k ∧ after.vault.get k = .live data
      ∧ after.vault.get h = .live data := by
  refine ⟨bench.vault.cells.length, bench.add target (.live data), Nat.lt_irrefl _, ?_, ?_, ?_, ?_⟩
  · rw [perform, withSlot_of_number? hn, hlive]
    rfl
  · rw [number?_add, if_pos rfl]
  · exact Vault.get_put_length bench.vault _
  · exact (Vault.get_put_of_lt bench.vault _ (hs.made hn)).trans hlive

/-- Wiping under one name is not seen under another. -/
theorem container?_wipe (hs : bench.Sound) (hn : bench.number? slot = some h) {other : String}
    (hne : other ≠ slot) : (bench.wipe h).container? other = bench.container? other := by
  show (bench.number? other).map (bench.wipe h).vault.get
    = (bench.number? other).map bench.vault.get
  cases hk : bench.number? other with
  | none => rfl
  | some k =>
      have hkh : h ≠ k := fun heq => hne (hs.apart hk (heq ▸ hn))
      exact congrArg some (Vault.get_wipe_of_ne bench.vault hkh)

/-- What holds of the containers of a bench, at once and after any further changes. -/
structure Lifecycle (bench : Bench) : Prop where
  /-- A container that is live later holds what it holds now. -/
  value_kept (changes : List Change) (h : Nat) (data : Bytes) : bench.Made h →
    (bench.replay changes).vault.get h = .live data → bench.vault.get h = .live data
  wiped_kept (changes : List Change) (h : Nat) : bench.Made h → bench.vault.get h = .wiped →
    (bench.replay changes).vault.get h = .wiped
  /-- A container is as it was unless it is wiped itself. -/
  spared (changes : List Change) (h : Nat) : bench.Made h → h ∉ bench.wipedBy changes →
    (bench.replay changes).vault.get h = bench.vault.get h
  unreadable (step : Step) (slot : String) (h : Nat) : step.read? = some slot →
    bench.number? slot = some h → bench.vault.get h = .wiped →
    bench.perform step = (.error (.fault .wiped), bench)
  wipes (slot : String) (h : Nat) : bench.number? slot = some h →
    bench.perform (.wipe slot) = (.ok .done, bench.wipe h)
      ∧ (bench.wipe h).vault.get h = .wiped
      ∧ ∀ other, other ≠ slot → (bench.wipe h).container? other = bench.container? other
  copies (slot target : String) (h : Nat) (data : Bytes) : bench.number? slot = some h →
    bench.vault.get h = .live data →
    ∃ k after, ¬ bench.Made k ∧ bench.perform (.copy slot target) = (.ok .done, after)
      ∧ after.number? target = some k ∧ after.vault.get k = .live data
      ∧ after.vault.get h = .live data
  failed (step : Step) (e : Failure) (after : Bench) : bench.perform step = (.error e, after) →
    after = bench
      ∨ ∃ slot h, step = .useOnce slot ∧ bench.number? slot = some h ∧ after = bench.wipe h
  compares (slot other : String) (h k : Nat) : bench.number? slot = some h →
    bench.number? other = some k →
    ∃ same, bench.perform (.equals slot other) = (.ok (.truth same), bench)
      ∧ (same = true ↔ ∃ a b, bench.vault.get h = .live a ∧ bench.vault.get k = .live b
          ∧ Bytes.toNat a = Bytes.toNat b)
  /-- A block wipes its container for good, however its body ends. -/
  block_wipes (slot : String) (h : Nat) (body rest : Script) : bench.number? slot = some h →
    (bench.exec (.block slot body rest)).2.vault.get h = .wiped
  /-- A block ends as its body does, and wipes nothing else. -/
  block_eq (slot : String) (h : Nat) (body : Script) : bench.number? slot = some h →
    bench.exec (.block slot body .done) = ((bench.exec body).1, (bench.exec body).2.wipe h)
  once_eq (slot : String) : bench.exec (.block slot (.step (.value slot) .done) .done)
    = ((bench.perform (.useOnce slot)).1.map fun _ => (), (bench.perform (.useOnce slot)).2)
  /-- Whatever a script does is a sequence of changes. -/
  script_eq (script : Script) : (bench.exec script).2 = bench.replay (bench.changes script)

theorem lifecycle_of_sound (hs : bench.Sound) : bench.Lifecycle where
  value_kept _ _ _ hmade hlive := live_of_replay hmade hlive
  wiped_kept changes _ hmade hw := wiped_replay hmade hw changes
  spared changes h hmade hmem := by rw [get_replay hmade, if_neg hmem]
  unreadable _ _ _ hread hn hw := perform_of_wiped hread hn hw
  wipes slot h hn := by
    refine ⟨?_, Vault.get_wipe_self bench.vault h, fun other hne => container?_wipe hs hn hne⟩
    rw [perform, withSlot_of_number? hn]
  copies _ target _ _ hn hlive := perform_copy hs target hn hlive
  failed _ _ _ herror := bench_of_error herror
  compares slot other h k hn hk := by
    refine ⟨(bench.vault.get h).equals (bench.vault.get k), ?_, equals_iff⟩
    rw [perform, withSlot_of_number? hn, look_of_number? hk]
  block_wipes _ _ body rest hn := get_exec_block hs hn body rest
  block_eq _ _ body hn := exec_block hn body
  once_eq := exec_block_value bench
  script_eq := exec_eq_replay bench

/-- At every moment of every sequence of operations and blocks: live containers keep their
values, wiped ones stay wiped, no container is touched through another, and containers are
equal exactly if both are live with one value. -/
theorem lifecycle_replay (memory : Memory) (changes : List Change) :
    ((empty memory).replay changes).Lifecycle
      ∧ (∀ s t : SecretScalar, s.equals t = t.equals s)
      ∧ (∀ s t u : SecretScalar, s.equals t = true → t.equals u = true → s.equals u = true)
      ∧ ∀ s : SecretScalar, s.equals s = true ↔ s.isWiped = false :=
  ⟨lifecycle_of_sound ((Sound.empty memory).replay changes), equals_comm, fun _ _ _ => equals_trans,
    fun _ => equals_self_iff⟩

/-- A block is left by a failure, after its name was given to another container: the container
it was entered with is wiped, and neither its copy nor the other one is. -/
example :
    ((empty .full).exec (.step (.ofInt "a" 5) (.attempt
      (.block "a" (.step (.copy "a" "b") (.step (.ofInt "a" 7) (.raise "stop"))) .done)
      .done))).2.entries = [("a", .live [7]), ("b", .live [5])] := by decide

end Bench

end SecpKey.SecretScalar
