import Mathlib.Data.List.Chain
import Mathlib.Data.List.Induction

namespace RaceTracker.Lib

/-! A fold that follows a source: it takes what is new to it, and starts afresh where a pass breaks off. -/

variable {α κ σ : Type}

section

variable [DecidableEq κ] (key : α → κ)

/-- The inputs whose key is not that of the one taken before them. -/
def taken (inputs : List α) : List α :=
  inputs.foldl (fun done input =>
    if done.getLast?.map key = some (key input) then done else done ++ [input]) []

theorem taken_concat (inputs : List α) (input : α) :
    taken key (inputs ++ [input]) =
      if (taken key inputs).getLast?.map key = some (key input) then taken key inputs
      else taken key inputs ++ [input] := by
  simp [taken]

theorem taken_sublist (inputs : List α) : List.Sublist (taken key inputs) inputs := by
  induction inputs using List.reverseRecOn with
  | nil => exact .refl _
  | append_singleton inputs input ih =>
      rw [taken_concat]
      split
      · exact ih.trans (List.sublist_append_left ..)
      · exact ih.append (.refl _)

end

section

variable (breaks : α → α → Prop) [DecidableRel breaks]

/-- The inputs since the last one that broke with the input before it. -/
def sinceBreak (inputs : List α) : List α :=
  inputs.foldl (fun pass input =>
    if ∃ last ∈ pass.getLast?, breaks last input then [input] else pass ++ [input]) []

theorem sinceBreak_concat (inputs : List α) (input : α) :
    sinceBreak breaks (inputs ++ [input]) =
      if ∃ last ∈ (sinceBreak breaks inputs).getLast?, breaks last input then [input]
      else sinceBreak breaks inputs ++ [input] := by
  simp [sinceBreak]

theorem getLast?_sinceBreak (inputs : List α) : (sinceBreak breaks inputs).getLast? = inputs.getLast? := by
  induction inputs using List.reverseRecOn with
  | nil => rfl
  | append_singleton inputs input ih =>
      rw [sinceBreak_concat, List.getLast?_concat]
      split
      · rfl
      · exact List.getLast?_concat ..

/-- A break is where the pass begins, and there is none within it. -/
theorem sinceBreak_spec (inputs : List α) : (sinceBreak breaks inputs).IsChain (fun last next => ¬ breaks last next) ∧
    ∃ before, inputs = before ++ sinceBreak breaks inputs ∧
      ∀ last ∈ before.getLast?, ∀ first ∈ (sinceBreak breaks inputs).head?, breaks last first := by
  induction inputs using List.reverseRecOn with
  | nil => exact ⟨List.isChain_nil, [], rfl, by simp⟩
  | append_singleton inputs input ih =>
      obtain ⟨unbroken, before, whole, opens⟩ := ih
      rw [sinceBreak_concat]
      split
      · rename_i broken
        rw [getLast?_sinceBreak] at broken
        obtain ⟨last, ends, breaks⟩ := broken
        refine ⟨List.isChain_singleton input, inputs, rfl, fun other ends' first starts => ?_⟩
        cases Option.mem_unique ends ends'
        cases starts
        exact breaks
      · rename_i continues
        refine ⟨?_, before, by rw [← List.append_assoc, ← whole], ?_⟩
        · rw [List.isChain_append]
          refine ⟨unbroken, List.isChain_singleton input, fun last ends first starts => ?_⟩
          cases starts
          exact fun broken => continues ⟨last, ends, broken⟩
        · intro last ends first starts
          cases pass : sinceBreak breaks inputs with
          | nil =>
              rw [pass, List.append_nil] at whole
              have none : inputs = [] := by
                rw [← List.getLast?_eq_none_iff, ← getLast?_sinceBreak breaks, pass]
                rfl
              rw [← whole, none] at ends
              cases ends
          | cons head rest =>
              rw [pass] at opens starts
              exact opens last ends first starts

end

variable {τ : Type}

/-- A follower with a state of its own: what it holds, the key of the last input that it has taken, and
what it knows of that input, enough to see a break. -/
structure Follower (α κ σ τ : Type) where
  step : τ → α → τ
  held : τ → σ
  key : τ → Option κ
  Knows : τ → α → Prop

variable [DecidableEq κ] {key : α → κ} {breaks : α → α → Prop} [DecidableRel breaks]
  {update : σ → α → σ} {initial : σ} {follower : Follower α κ σ τ}

/-- An input with the key it has is skipped, and any other is taken: by what is held, or afresh. -/
structure Follower.Follows (follower : Follower α κ σ τ) (key : α → κ) (breaks : α → α → Prop)
    [DecidableRel breaks] (update : σ → α → σ) (initial : σ) : Prop where
  skips : ∀ {state input}, follower.key state = some (key input) → follower.step state input = state
  takes : ∀ {state last input}, follower.Knows state last → follower.key state ≠ some (key input) →
    follower.held (follower.step state input) =
        update (if breaks last input then initial else follower.held state) input ∧
      follower.key (follower.step state input) = some (key input) ∧
      follower.Knows (follower.step state input) input

/-- What is held is the fold of the pass that is on. -/
theorem Follower.Follows.run (follows : follower.Follows key breaks update initial) {state : τ} {first : α}
    (fresh : follower.held state = initial) (unopened : follower.key state = none)
    (knows : follower.Knows state first) (whole : ¬ breaks first first) (rest : List α) :
    follower.held ((first :: rest).foldl follower.step state) =
      (sinceBreak breaks (taken key (first :: rest))).foldl update initial := by
  suffices reached : follower.held ((first :: rest).foldl follower.step state) =
        (sinceBreak breaks (taken key (first :: rest))).foldl update initial ∧
      ∃ last ∈ (taken key (first :: rest)).getLast?,
        follower.key ((first :: rest).foldl follower.step state) = some (key last) ∧
        follower.Knows ((first :: rest).foldl follower.step state) last from reached.1
  induction rest using List.reverseRecOn with
  | nil =>
      have new : follower.key state ≠ some (key first) := by simp [unopened]
      obtain ⟨held, took, known⟩ := follows.takes knows new
      rw [if_neg whole, fresh] at held
      exact ⟨held, first, rfl, took, known⟩
  | append_singleton rest input ih =>
      obtain ⟨held, last, ends, took, known⟩ := ih
      rw [← List.cons_append, List.foldl_append, List.foldl_cons, List.foldl_nil, taken_concat]
      by_cases same : (taken key (first :: rest)).getLast?.map key = some (key input)
      · have skipped : some (key last) = some (key input) := by
          rw [← same, Option.mem_def.mp ends, Option.map_some]
        rw [if_pos same, follows.skips (took.trans skipped)]
        exact ⟨held, last, ends, took, known⟩
      · have new : follower.key ((first :: rest).foldl follower.step state) ≠ some (key input) := by
          rw [took]
          rwa [Option.mem_def.mp ends, Option.map_some] at same
        obtain ⟨held', took', known'⟩ := follows.takes known new
        rw [if_neg same, sinceBreak_concat, getLast?_sinceBreak]
        refine ⟨?_, input, List.getLast?_concat .., took', known'⟩
        rw [held', held, Option.mem_def.mp ends]
        simp only [Option.mem_some_iff, exists_eq_left']
        split
        · rfl
        · rw [List.foldl_append]
          rfl

end RaceTracker.Lib
