import Mathlib.Data.List.Forall2

namespace RaceTracker.Lib

/-! Computations that end in a value or an error, as `do` blocks build them. -/

variable {ε α β : Type}

@[simp] theorem ok_bind (value : α) (next : α → Except ε β) :
    (Except.ok value >>= next) = next value := rfl

@[simp] theorem error_bind (raised : ε) (next : α → Except ε β) :
    ((Except.error raised : Except ε α) >>= next) = .error raised := rfl

@[simp] theorem pure_eq_ok (value : α) : (pure value : Except ε α) = .ok value := rfl

@[simp] theorem throw_eq_error (raised : ε) : (throw raised : Except ε α) = .error raised := rfl

/-- A block succeeds exactly when its first line does and the rest does after it. -/
theorem bind_eq_ok_iff {first : Except ε α} {next : α → Except ε β} {result : β} :
    (first >>= next) = .ok result ↔ ∃ value, first = .ok value ∧ next value = .ok result := by
  cases first with
  | error raised => simp
  | ok value => simp

/-- It fails as its first line does, or as the rest does after it. -/
theorem bind_eq_error_iff {first : Except ε α} {next : α → Except ε β} {raised : ε} :
    (first >>= next) = .error raised ↔
      first = .error raised ∨ ∃ value, first = .ok value ∧ next value = .error raised := by
  cases first with
  | error own => simp
  | ok value => simp

theorem ok_of_toOption {result : Except ε α} {value : α} (found : result.toOption = some value) :
    result = .ok value := by
  cases result with
  | error raised => cases found
  | ok value => exact congrArg Except.ok (Option.some.inj found)

theorem mapM_forall₂ {f : α → Except ε β} {P : α → β → Prop} {items : List α}
    (good : ∀ item ∈ items, ∃ value, f item = .ok value ∧ P item value) :
    ∃ values, items.mapM f = .ok values ∧ List.Forall₂ P items values := by
  induction items with
  | nil => exact ⟨[], rfl, .nil⟩
  | cons item rest ih =>
      obtain ⟨value, first, holds⟩ := good item (List.mem_cons_self ..)
      obtain ⟨values, mapped, all⟩ := ih fun item member => good item (List.mem_cons_of_mem _ member)
      refine ⟨value :: values, ?_, .cons holds all⟩
      simp only [List.mapM_cons, first, mapped, ok_bind, pure_eq_ok]

theorem mapM_eq_map {f : α → Except ε β} {g : α → β} {items : List α}
    (each : ∀ item ∈ items, f item = .ok (g item)) : items.mapM f = .ok (items.map g) := by
  induction items with
  | nil => rfl
  | cons item rest ih =>
      have first := each item (List.mem_cons_self ..)
      have mapped := ih fun item member => each item (List.mem_cons_of_mem _ member)
      simp only [List.mapM_cons, first, mapped, ok_bind, pure_eq_ok, List.map_cons]

theorem forall₂_append {R : α → β → Prop} {xs xs' : List α} {ys : List β}
    (each : List.Forall₂ R (xs ++ xs') ys) :
    ∃ zs zs', ys = zs ++ zs' ∧ List.Forall₂ R xs zs ∧ List.Forall₂ R xs' zs' := by
  refine ⟨ys.take xs.length, ys.drop xs.length, (List.take_append_drop ..).symm, ?_, ?_⟩
  · simpa using List.forall₂_take xs.length each
  · simpa using List.forall₂_drop xs.length each

theorem forall₂_exists {R : α → β → Prop} {xs : List α} {ys : List β}
    (each : List.Forall₂ R xs ys) {x : α} (member : x ∈ xs) : ∃ y ∈ ys, R x y := by
  induction each with
  | nil => cases member
  | cons first _ ih =>
      rcases List.mem_cons.mp member with rfl | later
      · exact ⟨_, List.mem_cons_self .., first⟩
      · obtain ⟨y, listed, related⟩ := ih later
        exact ⟨y, List.mem_cons_of_mem _ listed, related⟩

variable {σ τ : Type}

/-- A loop that keeps what it has done when an iteration raises. -/
def foldUntil (step : σ → α → σ × Option ε) (state : σ) : List α → σ × Option ε
  | [] => (state, none)
  | item :: rest =>
      match step state item with
      | (next, none) => foldUntil step next rest
      | (next, some error) => (next, some error)

theorem foldUntil_invariant {step : σ → α → σ × Option ε} {P : σ → Prop} {items : List α}
    (kept : ∀ state, ∀ item ∈ items, P state → P (step state item).1) {state : σ} (holds : P state) :
    P (foldUntil step state items).1 := by
  induction items generalizing state with
  | nil => exact holds
  | cons item rest ih =>
      have next := kept state item (List.mem_cons_self ..) holds
      rw [foldUntil]
      cases stepped : step state item with
      | mk after raised =>
          rw [stepped] at next
          cases raised with
          | none => exact ih (fun state item member => kept state item (List.mem_cons_of_mem _ member)) next
          | some error => exact next

theorem foldUntil_filter (step : σ → α → σ × Option ε) (keep : α → Bool) {items : List α}
    (idle : ∀ item ∈ items, keep item = false → ∀ state, step state item = (state, none))
    (state : σ) : foldUntil step state items = foldUntil step state (items.filter keep) := by
  induction items generalizing state with
  | nil => rfl
  | cons item rest ih =>
      have later := ih fun item member => idle item (List.mem_cons_of_mem _ member)
      cases kept : keep item with
      | false =>
          rw [List.filter_cons_of_neg (by simp [kept]), ← later, foldUntil,
            idle item (List.mem_cons_self ..) kept]
      | true =>
          rw [List.filter_cons_of_pos kept, foldUntil, foldUntil]
          split
          · exact later _
          · rfl

/-- A loop ends after its last item, or at one that raises; until there every iteration went well. -/
theorem foldUntil_cases (step : σ → α → σ × Option ε) (state : σ) {P : List α → σ → Prop}
    (start : P [] state)
    (next : ∀ {done item before after}, P done before → step before item = (after, none) →
      P (done ++ [item]) after) (items : List α) :
    (∃ last, foldUntil step state items = (last, none) ∧ P items last) ∨
      ∃ done item rest before last error, items = done ++ item :: rest ∧ P done before ∧
        step before item = (last, some error) ∧
          foldUntil step state items = (last, some error) := by
  have ends (rest : List α) {done : List α} {state : σ} (reached : P done state) :
      (∃ last, foldUntil step state rest = (last, none) ∧ P (done ++ rest) last) ∨
        ∃ more item later before last error, rest = more ++ item :: later ∧
          P (done ++ more) before ∧ step before item = (last, some error) ∧
            foldUntil step state rest = (last, some error) := by
    induction rest generalizing done state with
    | nil => exact .inl ⟨state, rfl, by rwa [List.append_nil]⟩
    | cons item rest ih =>
        cases stepped : step state item with
        | mk after raised =>
            cases raised with
            | some error =>
                refine .inr ⟨[], item, rest, state, after, error, rfl, ?_, stepped, ?_⟩
                · rwa [List.append_nil]
                · rw [foldUntil, stepped]
            | none =>
                have tail : foldUntil step state (item :: rest) = foldUntil step after rest := by
                  rw [foldUntil, stepped]
                rw [tail]
                rcases ih (next reached stepped) with ended | stopped
                · obtain ⟨last, same, holds⟩ := ended
                  exact .inl ⟨last, same, by simpa using holds⟩
                · obtain ⟨more, found, later, before, last, error, split, holds, failed, same⟩ := stopped
                  exact .inr ⟨item :: more, found, later, before, last, error,
                    congrArg (item :: ·) split, by simpa using holds, failed, same⟩
  simpa using ends items start

end RaceTracker.Lib
