import RaceTracker.App.Control
import RaceTracker.Lib.Ascii
import RaceTracker.Lib.HostPort

namespace RaceTracker.App

open RaceTracker.Lib

/-! The hosts that may switch the source.

The host of a request is compared in lower case, the configured entries as they were written.
An address in brackets keeps them unless a port follows.
-/

/-- `strings.ToLower` goes rune by rune; what it does outside ASCII is left open. -/
structure LowerCasing where
  rune : Char → Char
  ascii : ∀ c, c.toNat < 128 → rune c = c.toLower
  settled : ∀ c, rune (rune c) = rune c

def LowerCasing.toLower (casing : LowerCasing) (text : String) : String :=
  String.ofList (text.toList.map casing.rune)

/-- The host of `net.SplitHostPort`. -/
def splitHost (hostport : String) : Option String :=
  (splitHostPort hostport.toList).map fun parts => String.ofList parts.1

def setAllowedHosts (allowedHosts hosts : List String) : List String :=
  if hosts = [] then allowedHosts else hosts

def loopbackNames : List String := ["localhost", "127.0.0.1", "::1"]

/-- An address in brackets that no port follows. -/
def bracketed (reqHost : String) : Option String := (unbracket reqHost.toList).map String.ofList

/-- The host without its port, and without brackets whether or not there was one. -/
def hostPart (reqHost : String) : String := ((splitHost reqHost).or (bracketed reqHost)).getD reqHost

/-- A loopback name or an entry, without regard to case. -/
def Permitted (casing : LowerCasing) (hosts : List String) (host : String) : Prop :=
  ∃ name ∈ loopbackNames ++ hosts, casing.toLower name = casing.toLower host

/-- The entry a host equals is also there in lower case, for an address in brackets without a
port exactly then with the brackets. -/
def Spelled (casing : LowerCasing) (hosts : List String) (reqHost : String) : Prop :=
  match bracketed reqHost with
  | some inside => casing.toLower reqHost ∈ hosts ↔ Permitted casing hosts inside
  | none => ∀ entry ∈ hosts, casing.toLower entry = casing.toLower (hostPart reqHost) →
      casing.toLower (hostPart reqHost) ∈ loopbackNames ++ hosts

variable {casing : LowerCasing} {hosts : List String} {reqHost : String}

theorem LowerCasing.toLower_toLower (text : String) :
    casing.toLower (casing.toLower text) = casing.toLower text := by
  have settled : casing.rune ∘ casing.rune = casing.rune := funext casing.settled
  simp only [LowerCasing.toLower, String.toList_ofList, List.map_map, settled]

theorem toLower_loopback {name : String} (loop : name ∈ loopbackNames) : casing.toLower name = name := by
  have plain : name.toList.all (fun c => c.toNat < 128 ∧ c.toLower = c) = true := by
    rw [loopbackNames, List.mem_cons, List.mem_pair] at loop
    rcases loop with rfl | rfl | rfl <;> decide
  have kept : name.toList.map casing.rune = name.toList.map id := by
    refine List.map_congr_left fun c member => ?_
    obtain ⟨ascii, lower⟩ := of_decide_eq_true (List.all_eq_true.mp plain c member)
    rw [casing.ascii c ascii, lower, id]
  rw [LowerCasing.toLower, kept, List.map_id, String.ofList_toList]

theorem hostAllowed_iff : hostAllowed splitHost casing.toLower hosts reqHost = true ↔
    casing.toLower ((splitHost reqHost).getD reqHost) ∈ loopbackNames ++ hosts := by
  simp [hostAllowed, loopbackNames]

theorem setAllowedHosts_nil : setAllowedHosts [] hosts = hosts := by
  rw [setAllowedHosts]
  split
  · rename_i none
    exact none.symm
  · rfl

theorem bracketed_some {inside : String} (inner : bracketed reqHost = some inside) :
    splitHost reqHost = none ∧ reqHost.toList.head? = some '[' := by
  obtain ⟨chars, found, -⟩ := Option.map_eq_some_iff.mp inner
  exact ⟨by rw [splitHost, splitHostPort_bracketed found]; rfl, by rw [unbracket_some found]; rfl⟩

theorem hostPart_of_none (unbracketed : bracketed reqHost = none) :
    hostPart reqHost = (splitHost reqHost).getD reqHost := by
  rw [hostPart, unbracketed, Option.or_none]

theorem head?_toLower (opening : reqHost.toList.head? = some '[') :
    (casing.toLower reqHost).toList.head? = some '[' := by
  rw [LowerCasing.toLower, String.toList_ofList, List.head?_map, opening]
  exact congrArg some (casing.ascii '[' (by decide))

/-- No loopback name starts with a bracket. -/
theorem toLower_notMem_loopback (opening : reqHost.toList.head? = some '[') :
    casing.toLower reqHost ∉ loopbackNames := by
  intro loop
  have first : (casing.toLower reqHost).toList.head? = some '[' := head?_toLower opening
  generalize casing.toLower reqHost = name at loop first
  rw [loopbackNames, List.mem_cons, List.mem_pair] at loop
  rcases loop with rfl | rfl | rfl <;> exact absurd first (by decide)

/-- The allowlist does what it says exactly where no spelling gets in the way. -/
theorem hostAllowed_exact_iff (casing : LowerCasing) (hosts : List String) (reqHost : String) :
    (hostAllowed splitHost casing.toLower (setAllowedHosts [] hosts) reqHost = true ↔
      Permitted casing hosts (hostPart reqHost)) ↔ Spelled casing hosts reqHost := by
  rw [setAllowedHosts_nil, hostAllowed_iff, Spelled]
  cases inner : bracketed reqHost with
  | some inside =>
      obtain ⟨unsplit, opening⟩ := bracketed_some inner
      rw [hostPart, inner, unsplit]
      simp [toLower_notMem_loopback opening]
  | none =>
      rw [hostPart_of_none inner]
      generalize (splitHost reqHost).getD reqHost = host
      constructor
      · intro exact entry listed same
        exact exact.mpr ⟨entry, List.mem_append_right _ listed, same⟩
      · intro spelled
        constructor
        · intro found
          exact ⟨casing.toLower host, found, casing.toLower_toLower host⟩
        · rintro ⟨name, member, same⟩
          rcases List.mem_append.mp member with loop | listed
          · rw [← same, toLower_loopback loop]
            exact member
          · exact spelled name listed same

/-- The ASCII letters. -/
def asciiCasing : LowerCasing := ⟨Char.toLower, fun _ _ => rfl, toLower_toLower⟩

/-- The loopback address in brackets is refused without a port. -/
theorem hostAllowed_bracketed : ¬ (hostAllowed splitHost asciiCasing.toLower (setAllowedHosts [] [])
    "[::1]" = true ↔ Permitted asciiCasing [] (hostPart "[::1]")) := by
  have refused : hostAllowed splitHost asciiCasing.toLower (setAllowedHosts [] []) "[::1]" = false := by
    decide +kernel
  have part : hostPart "[::1]" = "::1" := by decide +kernel
  rw [refused, part]
  intro exact
  cases exact.mpr ⟨"::1", by decide, rfl⟩

end RaceTracker.App
