import RaceTracker.Lib.Priority
import RaceTracker.Web.DisplayGaps

namespace RaceTracker.Web

open RaceTracker.Lib

/-! Holding the tower's order still while someone points at it. -/

inductive Difference where
  | nan
  | finite (value : Int)
  | infinite
  | minusInfinite
deriving DecidableEq

/-- `a - b`, where a rank of `none` is Infinity. -/
def rankDifference : Option Nat → Option Nat → Difference
  | some a, some b => .finite (a - b)
  | some _, none => .minusInfinite
  | none, some _ => .infinite
  | none, none => .nan

structure Ranked where
  c : Json
  i : Nat
  r : Option Nat

/-- `a.r - b.r || a.i - b.i` -/
def heldDifference (a b : Ranked) : Difference :=
  let ranks := rankDifference a.r b.r
  if ranks = .nan ∨ ranks = .finite 0 then .finite (a.i - b.i) else ranks

def Difference.positive : Difference → Bool
  | .finite value => 0 < value
  | .infinite => true
  | _ => false

/-- Cars in a captured order, which the driver numbers give; the last place of a repeated driver counts. -/
def holdOrder (live : List Json) (held : List (Option Rat)) : List Json :=
  let rank := Dict.ofMembers held.zipIdx
  let rows := live.zipIdx.map fun (c, i) => ({ c, i, r := rank.get? (driverNum c) } : Ranked)
  (rows.mergeSort fun a b => !(heldDifference a b).positive).map Ranked.c

theorem rank_eq_some {held : List (Option Rat)} (once : held.Nodup) {driver : Option Rat} {place : Nat} :
    (Dict.ofMembers held.zipIdx).get? driver = some place ↔ held[place]? = some driver := by
  have entries : (Dict.ofMembers held.zipIdx).entries = held.zipIdx := by
    have written := Dict.foldl_set_entries .empty held.zipIdx (by simpa [Dict.empty] using once)
    simpa [Dict.ofMembers, Dict.empty] using written
  have listed : held[place]? = some driver ↔ (driver, place) ∈ (Dict.ofMembers held.zipIdx).entries := by
    rw [entries]
    exact List.mk_mem_zipIdx_iff_getElem?.symm
  rw [listed]
  exact ⟨Dict.mem_of_get?, Dict.get?_of_mem⟩

theorem rank_eq_none {held : List (Option Rat)} (once : held.Nodup) {driver : Option Rat} :
    (Dict.ofMembers held.zipIdx).get? driver = none ↔ driver ∉ held := by
  rw [Option.eq_none_iff_forall_ne_some]
  simp only [ne_eq, rank_eq_some once, List.mem_iff_getElem?, not_exists]

/-- The captured drivers that are there come first, in captured order; the others follow as they
stand live. -/
theorem holdOrder_eq {live : List Json} {held : List (Option Rat)} (distinct : (live.map driverNum).Nodup)
    (once : held.Nodup) : holdOrder live held = inOrder driverNum live held := by
  let rank := Dict.ofMembers held.zipIdx
  let rows := live.zipIdx.map fun (c, i) => ({ c, i, r := rank.get? (driverNum c) } : Ranked)
  have cars : rows.map Ranked.c = live := by
    simp [rows, List.map_map, Function.comp_def]
  have place {row : Ranked} (member : row ∈ rows) {k : Nat} :
      row.r = some k ↔ held[k]? = some (driverNum row.c) := by
    obtain ⟨entry, listed, rfl⟩ := List.mem_map.mp member
    exact rank_eq_some once
  have late {row : Ranked} (member : row ∈ rows) : row.r = none ↔ driverNum row.c ∉ held := by
    obtain ⟨entry, listed, rfl⟩ := List.mem_map.mp member
    exact rank_eq_none once
  have names : rows.map (driverNum ∘ Ranked.c) = live.map driverNum := by
    rw [← List.map_map, cars]
  have sorted : rows.mergeSort (fun a b => !(heldDifference a b).positive) =
      inOrder (driverNum ∘ Ranked.c) rows held := by
    apply mergeSort_eq_inOrder (names ▸ distinct) once
    · intro row
      cases own : row.r <;> simp [heldDifference, rankDifference, own, Difference.positive]
    · intro first second one two i j before first_place second_place
      have apart : (i : Int) - j ≠ 0 := by omega
      have apart' : (j : Int) - i ≠ 0 := by omega
      simp [heldDifference, rankDifference, (place one).mpr first_place, (place two).mpr second_place,
        apart, apart', Difference.positive]
      omega
    · intro first second one two captured missing
      obtain ⟨k, ranked⟩ := Option.isSome_iff_exists.mp
        (Option.isSome_iff_ne_none.mpr fun none => (late one).mp none captured)
      simp [heldDifference, rankDifference, ranked, (late two).mpr missing, Difference.positive]
    · rw [List.pairwise_map]
      have increasing : live.zipIdx.Pairwise fun first second => first.2 < second.2 := by
        rw [← List.pairwise_map (f := Prod.snd), List.zipIdx_map_snd]
        exact List.pairwise_lt_range'
      apply increasing.imp
      intro first second before one two
      have unranked : rank.get? (driverNum first.1) = none := (rank_eq_none once).mpr one
      have unranked' : rank.get? (driverNum second.1) = none := (rank_eq_none once).mpr two
      simp [heldDifference, rankDifference, unranked, unranked', Difference.positive]
      omega
  change (rows.mergeSort _).map Ranked.c = _
  rw [sorted, map_named_map, cars]

/-- Holding the order is a permutation: the captured drivers in captured order, then the others in
live order. -/
theorem holdOrder_resequences (live : List Json) (held : List (Option Rat))
    (distinct : (live.map driverNum).Nodup) (once : held.Nodup) :
    (holdOrder live held).Perm live ∧
      ∃ front back, holdOrder live held = front ++ back ∧
        front.map driverNum = held.filter (· ∈ live.map driverNum) ∧
        back = live.filter fun car => driverNum car ∉ held := by
  rw [holdOrder_eq distinct once]
  refine ⟨inOrder_perm distinct once, named driverNum live held, unnamed driverNum live held, rfl, ?_, ?_⟩
  · rw [map_named distinct]
    exact List.filter_congr fun _ _ => by simp
  · exact List.filter_congr fun _ _ => by simp

theorem holdOrder_resequences_late :
    let live := [Json.obj [("driverNum", .int 16)], .obj [("driverNum", .int 4)],
      .obj [("driverNum", .int 1)]]
    (holdOrder live [some 1, some 55, some 16]).Perm live ∧
      ∃ front back, holdOrder live [some 1, some 55, some 16] = front ++ back ∧
        front.map driverNum = [some 1, some 16] ∧ back.map driverNum = [some 4] := by
  intro live
  obtain ⟨perm, front, back, parts, captured, others⟩ := holdOrder_resequences live
    [some 1, some 55, some 16] (by decide +kernel) (by decide +kernel)
  refine ⟨perm, front, back, parts, captured.trans (by decide +kernel), ?_⟩
  rw [others]
  decide +kernel

end RaceTracker.Web
