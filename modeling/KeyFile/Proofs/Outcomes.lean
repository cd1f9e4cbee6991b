import Mathlib.Data.List.Forall2

/-!
# Checks that pass

An outcome of several checks in a row is taken apart at the first of them: it is a success exactly
if that check passes and the checks after it pass on what it gives.
-/
namespace KeyFile.Outcome

variable {ε ε' α β : Type}

theorem bind_eq_ok {first : Except ε α} {next : α → Except ε β} {b : β} :
    first >>= next = .ok b ↔ ∃ a, first = .ok a ∧ next a = .ok b := by
  cases first with
  | error e => simp [bind, Except.bind]
  | ok a => simp [bind, Except.bind]

theorem bind_of_ok {first : Except ε α} {next : α → Except ε β} {a : α} (done : first = .ok a) :
    first >>= next = next a := by
  rw [done]
  rfl

theorem map_eq_ok {f : α → β} {outcome : Except ε α} {b : β} :
    f <$> outcome = .ok b ↔ ∃ a, outcome = .ok a ∧ f a = b := by
  cases outcome with
  | error e => simp [Functor.map, Except.map]
  | ok a => simp [Functor.map, Except.map]

theorem pure_eq_ok {a b : α} : (pure a : Except ε α) = .ok b ↔ a = b := by
  simp only [pure, Except.pure, Except.ok.injEq]

theorem mapError_eq_ok {outcome : Except ε α} {rename : ε → ε'} {a : α} :
    outcome.mapError rename = .ok a ↔ outcome = .ok a := by
  constructor
  · intro done
    cases outcome <;> cases done
    rfl
  · rintro rfl
    rfl

theorem mapError_eq_error {outcome : Except ε α} {rename : ε → ε'} {e' : ε'} :
    outcome.mapError rename = .error e' ↔ ∃ e, outcome = .error e ∧ rename e = e' := by
  constructor
  · intro fault
    cases outcome <;> cases fault
    exact ⟨_, rfl, rfl⟩
  · rintro ⟨e, rfl, rfl⟩
    rfl

theorem toOption_eq_some {outcome : Except ε α} {a : α} :
    outcome.toOption = some a ↔ outcome = .ok a := by
  cases outcome <;> simp only [Except.toOption, reduceCtorEq, Option.some.injEq, Except.ok.injEq]

/-- A check that throws: what comes after it counts exactly if it does not. -/
theorem unless_eq_ok {c : Prop} [Decidable c] {e : ε} {next : Unit → Except ε α} {a : α} :
    (if c then throw e >>= next else next ()) = .ok a ↔ ¬ c ∧ next () = .ok a := by
  split
  next holds => simp [holds, bind, Except.bind, throw, throwThe, MonadExceptOf.throw]
  next fails => simp [fails]

/-! ## Lists -/

theorem mapM_cons_eq_ok {f : α → Except ε β} {item : α} {rest : List α} {results : List β} :
    (item :: rest).mapM f = .ok results ↔
      ∃ b, f item = .ok b ∧ ∃ others, rest.mapM f = .ok others ∧ b :: others = results := by
  rw [List.mapM_cons]
  constructor
  · intro done
    obtain ⟨b, first, done⟩ := bind_eq_ok.mp done
    obtain ⟨others, later, done⟩ := bind_eq_ok.mp done
    exact ⟨b, first, others, later, pure_eq_ok.mp done⟩
  · rintro ⟨b, first, others, later, rfl⟩
    exact bind_eq_ok.mpr ⟨b, first, bind_eq_ok.mpr ⟨others, later, rfl⟩⟩

theorem mapM_eq_ok_iff {f : α → Except ε β} {items : List α} {results : List β} :
    items.mapM f = .ok results ↔ items.map f = results.map .ok := by
  induction items generalizing results with
  | nil => cases results <;> simp [pure, Except.pure]
  | cons item rest ih =>
    rw [mapM_cons_eq_ok, List.map_cons]
    constructor
    · rintro ⟨b, first, others, later, rfl⟩
      rw [List.map_cons, first, ih.mp later]
    · intro same
      cases results with
      | nil => cases same
      | cons b others =>
        rw [List.map_cons, List.cons.injEq] at same
        exact ⟨b, same.1, others, ih.mpr same.2, rfl⟩

/-- A traversal gives one result for each item. -/
theorem mapM_eq_ok_iff_forall₂ {f : α → Except ε β} {items : List α} {results : List β} :
    items.mapM f = .ok results ↔ List.Forall₂ (fun item b => f item = .ok b) items results := by
  rw [mapM_eq_ok_iff, ← List.forall₂_eq_eq_eq, List.forall₂_map_left_iff,
    List.forall₂_map_right_iff]

/-- A traversal that words its errors otherwise succeeds on the same items. -/
theorem mapM_mapError_eq_ok {f : α → Except ε β} {rename : ε → ε'} {items : List α}
    {results : List β} :
    items.mapM (fun item => (f item).mapError rename) = .ok results ↔
      items.mapM f = .ok results := by
  induction items generalizing results with
  | nil => simp [pure, Except.pure]
  | cons item rest ih => simp only [mapM_cons_eq_ok, mapError_eq_ok, ih]

/-- A traversal that fails has the error of the first item that has one. -/
theorem exists_of_mapM_error {f : α → Except ε β} {items : List α} {e : ε}
    (fault : items.mapM f = .error e) :
    ∃ before item after, items = before ++ item :: after ∧
      (∀ other ∈ before, ∃ b, f other = .ok b) ∧ f item = .error e := by
  induction items with
  | nil => cases fault
  | cons first rest ih =>
    rw [List.mapM_cons] at fault
    cases given : f first with
    | error failed =>
      rw [given] at fault
      cases fault
      exact ⟨[], first, rest, rfl, nofun, given⟩
    | ok b =>
      -- The first item has passed, so the error is that of the rest.
      have later : rest.mapM f = .error e := by
        rw [given, bind_of_ok rfl] at fault
        cases found : rest.mapM f with
        | error _ =>
          rw [found] at fault
          cases fault
          rfl
        | ok others =>
          rw [found] at fault
          cases fault
      obtain ⟨before, item, after, rfl, passed, failed⟩ := ih later
      refine ⟨first :: before, item, after, rfl, ?_, failed⟩
      intro other member
      rcases List.mem_cons.mp member with rfl | member
      · exact ⟨b, given⟩
      · exact passed other member

/-- Two traversals agree if they agree on every item that the first of them reaches. -/
theorem mapM_congr_reached {f g : α → Except ε β} {items : List α}
    (same : ∀ before item after, items = before ++ item :: after →
      (∀ other ∈ before, ∃ b, f other = .ok b) → f item = g item) :
    items.mapM f = items.mapM g := by
  induction items with
  | nil => rfl
  | cons first rest ih =>
    have here : f first = g first := same [] first rest rfl nofun
    rw [List.mapM_cons, List.mapM_cons, ← here]
    cases given : f first with
    | error e => rfl
    | ok b =>
      have later : rest.mapM f = rest.mapM g := by
        refine ih fun before item after parts passed => ?_
        refine same (first :: before) item after (by rw [parts]; rfl) fun other member => ?_
        rcases List.mem_cons.mp member with rfl | member
        · exact ⟨b, given⟩
        · exact passed other member
      rw [later]

/-- Each result of a traversal comes from one of its items. -/
theorem exists_of_mem_mapM {f : α → Except ε β} {items : List α} {results : List β}
    (done : items.mapM f = .ok results) : ∀ b ∈ results, ∃ item ∈ items, f item = .ok b := by
  intro b member
  have given : .ok b ∈ items.map f := by
    rw [mapM_eq_ok_iff.mp done]
    exact List.mem_map_of_mem member
  exact List.mem_map.mp given

/-- A traversal of what has been written, where each item is read back. -/
theorem mapM_map_eq_ok {f : β → Except ε α} {g : α → β} {items : List α}
    (each : ∀ item ∈ items, f (g item) = .ok item) : (items.map g).mapM f = .ok items := by
  rw [mapM_eq_ok_iff, List.map_map]
  exact List.map_congr_left each

end KeyFile.Outcome
