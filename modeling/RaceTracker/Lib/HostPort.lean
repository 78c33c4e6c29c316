import RaceTracker.Lib.UrlQuery

namespace RaceTracker.Lib

/-! Go's `net.SplitHostPort`.

The port stands after the last colon.  A host that has colons of its own stands in brackets, and
no other bracket is accepted.  An error is `none`.
-/

/-- What stands before and after the last `c`. -/
def cutLast (c : Char) (text : Text) : Option (Text × Text) :=
  (cutAt c text.reverse).map fun parts => (parts.2.reverse, parts.1.reverse)

/-- What one pair of brackets around the whole text encloses. -/
def unbracket : Text → Option Text
  | '[' :: rest =>
      match cutAt ']' rest with
      | some (inside, []) => if '[' ∈ inside then none else some inside
      | _ => none
  | _ => none

def splitHostPort (hostport : Text) : Option (Text × Text) := do
  let (before, port) ← cutLast ':' hostport
  let host ← if before.head? = some '[' then unbracket before
    else if ':' ∈ before ∨ '[' ∈ before ∨ ']' ∈ before then none
    else some before
  if '[' ∈ port ∨ ']' ∈ port then none else some (host, port)

theorem cutAt_some {c : Char} {text front back : Text} (cut : cutAt c text = some (front, back)) :
    text = front ++ c :: back ∧ c ∉ front := by
  induction text generalizing front with
  | nil => cases cut
  | cons d rest ih =>
      rw [cutAt] at cut
      split at cut
      · rename_i same
        cases cut
        exact ⟨congrArg (· :: back) same, List.not_mem_nil⟩
      · rename_i other
        obtain ⟨⟨before, after⟩, later, parts⟩ := Option.map_eq_some_iff.mp cut
        cases parts
        obtain ⟨form, absent⟩ := ih later
        refine ⟨congrArg (d :: ·) form, ?_⟩
        rw [List.mem_cons, not_or]
        exact ⟨Ne.symm other, absent⟩

theorem cutLast_some {c : Char} {text front back : Text} (cut : cutLast c text = some (front, back)) :
    text = front ++ c :: back := by
  obtain ⟨⟨before, after⟩, found, parts⟩ := Option.map_eq_some_iff.mp cut
  cases parts
  have form := congrArg List.reverse (cutAt_some found).1
  simpa using form

theorem unbracket_some {text inside : Text} (inner : unbracket text = some inside) :
    text = '[' :: inside ++ [']'] := by
  rw [unbracket.eq_def] at inner
  split at inner
  · split at inner
    · rename_i cut
      split at inner
      · cases inner
      · cases inner
        exact congrArg ('[' :: ·) (cutAt_some cut).1
    · cases inner
  · cases inner

/-- A port is missing where the text ends with the bracket. -/
theorem splitHostPort_bracketed {text inside : Text} (inner : unbracket text = some inside) :
    splitHostPort text = none := by
  cases cut : cutLast ':' text with
  | none => rw [splitHostPort, cut]; rfl
  | some parts =>
      obtain ⟨before, port⟩ := parts
      have form := (unbracket_some inner).symm.trans (cutLast_some cut)
      have backward : ']' :: inside.reverse ++ ['['] = port.reverse ++ ':' :: before.reverse := by
        simpa using congrArg List.reverse form
      have closes : ']' ∈ port := by
        rw [← List.mem_reverse]
        cases turned : port.reverse with
        | nil =>
            rw [turned] at backward
            exact absurd (List.cons.inj backward).1 (by decide)
        | cons first rest =>
            rw [turned] at backward
            exact List.mem_cons.mpr (.inl (List.cons.inj backward).1)
      rw [splitHostPort, cut]
      simp [closes]

end RaceTracker.Lib
