import Mathlib.Data.List.Find
import RaceTracker.Lib.Ascii
import RaceTracker.Lib.Decimal
import RaceTracker.Web.Race
import RaceTracker.Web.Routing

namespace RaceTracker.Web

open RaceTracker.Lib

/-! Links to the overlay, from the driver they are made for to the driver they open on.

A driver without a published code goes by the car number.  The parser wants two characters at
least, and a lookup compares with what the driver goes by.
-/

/-- The code of a car; an empty one is none. -/
def publishedCode (cars : Dict String Json) (num : Int) : Option Text :=
  (((cars.get? (decimal num)).bind (·.get? "code")).bind asString).bind fun code =>
    if code = "" then none else some code.toList

/-- `cars[num]?.code || String(num)` -/
def driverCode (cars : Dict String Json) (num : Int) : Text :=
  (publishedCode cars num).getD (decimal num).toList

def findByCode (casing : CaseMapping) (cars : Dict String Json) (drivers : List Int) (code : Text) :
    Option Int :=
  let want := casing.toUpperCase code
  drivers.find? fun n => casing.toUpperCase (driverCode cars n) = want

def Letter (c : Char) : Prop := (65 ≤ c.toNat ∧ c.toNat ≤ 90) ∨ (97 ≤ c.toNat ∧ c.toNat ≤ 122)

/-- The drivers of one lane, each with a code of three letters or none yet. -/
structure OverlayLane where
  cars : Dict String Json
  drivers : List Int
  distinct : drivers.Nodup
  numbered : ∀ n ∈ drivers, 1 ≤ n ∧ n ≤ 99
  lettered : ∀ n ∈ drivers, ∀ code ∈ publishedCode cars n, code.length = 3 ∧ ∀ c ∈ code, Letter c

/-- One side of a link, before anyone has checked it. -/
structure LinkEnd where
  session : Text
  car : Text
  slug : isSessionSlug session = true
  wordy : ∀ c ∈ car, Wordy c

def LinkEnd.text (linkEnd : LinkEnd) : Text :=
  encodeURIComponent linkEnd.session ++ ':' :: encodeURIComponent linkEnd.car

def linkPairs (a b : LinkEnd) : List (Text × Text) := [("a".toList, a.text), ("b".toList, b.text)]

/-- What `buildHash` writes for two sides that need not be well formed. -/
def overlayHash (a b : LinkEnd) : Text :=
  '#' :: RouteName.ghost.text ++ '?' :: writeParams (linkPairs a b)

/-- A parsed side is of the session and its code is found as `n`. -/
def OverlayLane.Names (lane : OverlayLane) (casing : CaseMapping) (parsed : Option OverlaySide)
    (session : Text) (n : Int) : Prop :=
  ∃ side, parsed = some side ∧ side.session = session ∧
    findByCode casing lane.cars lane.drivers side.car.text = some n

/-- The link opens on `n`, whichever of its sides this is. -/
def OverlayLane.Resolves (lane : OverlayLane) (casing : CaseMapping) (linkEnd other : LinkEnd) (n : Int) :
    Prop :=
  lane.Names casing (parseHash casing (overlayHash linkEnd other)).a linkEnd.session n ∧
    lane.Names casing (parseHash casing (overlayHash other linkEnd)).b linkEnd.session n

section

variable {casing : CaseMapping} {c : Char} {text : Text}

theorem Letter.wordy (letter : Letter c) : Wordy c := by
  rcases letter with upper | lower
  · exact Or.inr (Or.inr (Or.inl upper))
  · exact Or.inr (Or.inr (Or.inr lower))

theorem Letter.toUpper (letter : Letter c) : 65 ≤ c.toUpper.toNat ∧ c.toUpper.toNat ≤ 90 := by
  rw [toNat_toUpper]
  rw [Letter] at letter
  split <;> omega

theorem Wordy.toUpper (wordy : Wordy c) : Wordy c.toUpper := by
  rw [Wordy] at *
  rw [toNat_toUpper]
  split <;> omega

theorem toUpperCase_wordy (wordy : ∀ c ∈ text, Wordy c) :
    casing.toUpperCase text = text.map Char.toUpper :=
  casing.upper_ascii text fun c member => (wordy c member).plain.1

theorem map_toUpper_wordy (wordy : ∀ c ∈ text, Wordy c) : ∀ c ∈ text.map Char.toUpper, Wordy c := by
  intro c member
  obtain ⟨own, listed, rfl⟩ := List.mem_map.mp member
  exact (wordy own listed).toUpper

theorem map_toUpper_toUpper : (text.map Char.toUpper).map Char.toUpper = text.map Char.toUpper := by
  rw [List.map_map]
  exact List.map_congr_left fun c _ => toUpper_toUpper c

end

section Number

variable {n : Int}

theorem number_toList (positive : 1 ≤ n) : (decimal n).toList = Nat.toDigits 10 n.toNat := by
  rw [decimal, String.toList_ofList, decimalChars, if_neg (by omega)]
  congr 1
  omega

theorem number_digit (positive : 1 ≤ n) {c : Char} (member : c ∈ (decimal n).toList) :
    48 ≤ c.toNat ∧ c.toNat ≤ 57 := by
  rw [number_toList positive] at member
  exact Char.isDigit_iff_toNat.mp (Nat.isDigit_of_mem_toDigits (by decide) (by decide) member)

theorem number_wordy (positive : 1 ≤ n) : ∀ c ∈ (decimal n).toList, Wordy c :=
  fun _ member => Or.inr (Or.inl (number_digit positive member))

theorem map_toUpper_number (positive : 1 ≤ n) :
    (decimal n).toList.map Char.toUpper = (decimal n).toList := by
  conv_rhs => rw [← List.map_id (decimal n).toList]
  refine List.map_congr_left fun c member => Char.toNat_inj.mp ?_
  have digit := number_digit positive member
  rw [toNat_toUpper, if_neg (by omega), id]

/-- The parser drops a number of one digit. -/
theorem isCarCode_number (positive : 1 ≤ n) (small : n ≤ 99) :
    isCarCode (decimal n).toList = true ↔ 10 ≤ n := by
  have digits : (decimal n).toList.all (fun c => c.isUpper || c.isDigit) = true :=
    List.all_eq_true.mpr fun c member =>
      Bool.or_eq_true_iff.mpr (Or.inr (Char.isDigit_iff_toNat.mpr (number_digit positive member)))
  have most : (decimal n).toList.length ≤ 2 := by
    rw [number_toList positive]
    exact (Nat.length_toDigits_le_iff (by decide) (by decide)).mpr (by omega)
  have single : (decimal n).toList.length ≤ 1 ↔ n < 10 := by
    rw [number_toList positive, Nat.length_toDigits_le_iff (by decide) (by decide)]
    omega
  rw [isCarCode, digits, Bool.and_true, Bool.and_eq_true, decide_eq_true_eq, decide_eq_true_eq]
  omega

end Number

section

variable {casing : CaseMapping} {lane : OverlayLane} {n : Int}

theorem LinkEnd.text_eq (linkEnd : LinkEnd) :
    linkEnd.text = linkEnd.session ++ ':' :: linkEnd.car := by
  rw [LinkEnd.text, encodeURIComponent_unreserved fun _ member => (linkEnd.wordy _ member).unreserved,
    encodeURIComponent_unreserved fun _ member => (slug_wordy linkEnd.slug member).unreserved]

theorem LinkEnd.chars (linkEnd : LinkEnd) {c : Char} (member : c ∈ linkEnd.text) :
    Plain c ∧ c ≠ '&' := by
  rw [linkEnd.text_eq, List.mem_append, List.mem_cons] at member
  rcases member with session | rfl | car
  · exact ⟨(slug_wordy linkEnd.slug session).plain, (slug_wordy linkEnd.slug session).ne_separator.1⟩
  · exact ⟨⟨by decide, by decide, by decide⟩, by decide⟩
  · exact ⟨(linkEnd.wordy _ car).plain, (linkEnd.wordy _ car).ne_separator.1⟩

theorem parseSide_text (linkEnd : LinkEnd) :
    parseSide casing (some linkEnd.text) =
      (parseCode casing (some linkEnd.car)).map fun car => ⟨linkEnd.session, car, linkEnd.slug⟩ := by
  have colon : ':' ∉ linkEnd.session := fun member => (slug_wordy linkEnd.slug member).ne_separator.2 rfl
  rw [linkEnd.text_eq, parseSide, cutAt_append colon]
  simp only [toLowerCase_slug linkEnd.slug, linkEnd.slug, dite_true]
  cases parseCode casing (some linkEnd.car) <;> rfl

theorem parseHash_overlayHash (a b : LinkEnd) :
    (parseHash casing (overlayHash a b)).a = parseSide casing (some a.text) ∧
      (parseHash casing (overlayHash a b)).b = parseSide casing (some b.text) := by
  have safe : ∀ pair ∈ linkPairs a b, SafePair pair := by
    intro pair member
    rcases List.mem_pair.mp member with rfl | rfl
    · exact ⟨safe_name (by simp), fun _ listed => a.chars listed⟩
    · exact ⟨safe_name (by simp), fun _ listed => b.chars listed⟩
  have given : linkPairs a b ≠ [] := List.cons_ne_nil _ _
  have other : "a".toList ≠ "b".toList := by decide
  rw [overlayHash, parseHash_query .ghost safe given]
  simp only [linkPairs, getParam, List.find?_cons, other, decide_true, decide_false, Option.map_some,
    and_self]

theorem names_parseSide {linkEnd : LinkEnd} :
    lane.Names casing (parseSide casing (some linkEnd.text)) linkEnd.session n ↔
      isCarCode (linkEnd.car.map Char.toUpper) = true ∧
        findByCode casing lane.cars lane.drivers (linkEnd.car.map Char.toUpper) = some n := by
  have upper : casing.toUpperCase linkEnd.car = linkEnd.car.map Char.toUpper :=
    toUpperCase_wordy linkEnd.wordy
  simp only [OverlayLane.Names, parseSide_text, parseCode, upper]
  split
  · rename_i code
    simp [code]
  · rename_i other
    simp [other]

/-- A link opens on a driver if its code passes the check and names that driver. -/
theorem resolves_iff {linkEnd other : LinkEnd} :
    lane.Resolves casing linkEnd other n ↔
      isCarCode (linkEnd.car.map Char.toUpper) = true ∧
        findByCode casing lane.cars lane.drivers (linkEnd.car.map Char.toUpper) = some n := by
  rw [OverlayLane.Resolves, (parseHash_overlayHash linkEnd other).1,
    (parseHash_overlayHash other linkEnd).2, and_self, names_parseSide]

theorem driverCode_wordy (driver : n ∈ lane.drivers) : ∀ c ∈ driverCode lane.cars n, Wordy c := by
  intro c member
  cases published : publishedCode lane.cars n with
  | some code =>
      rw [driverCode, published] at member
      exact ((lane.lettered n driver code published).2 c member).wordy
  | none =>
      rw [driverCode, published] at member
      exact number_wordy (lane.numbered n driver).1 c member

theorem findByCode_iff {code : Text} (wordy : ∀ c ∈ code, Wordy c) :
    findByCode casing lane.cars lane.drivers (code.map Char.toUpper) = some n ↔
      lane.drivers.find? (fun m => (driverCode lane.cars m).map Char.toUpper = code.map Char.toUpper) =
        some n := by
  have want : casing.toUpperCase (code.map Char.toUpper) = code.map Char.toUpper := by
    rw [toUpperCase_wordy (map_toUpper_wordy wordy), map_toUpper_toUpper]
  have same : lane.drivers.find? (fun m => casing.toUpperCase (driverCode lane.cars m) =
        code.map Char.toUpper) =
      lane.drivers.find? fun m => (driverCode lane.cars m).map Char.toUpper = code.map Char.toUpper := by
    refine List.find?_congr fun m driver => ?_
    rw [toUpperCase_wordy (driverCode_wordy driver)]
  rw [findByCode, want, same]

/-- A number is what only its own driver goes by, and only without a code. -/
theorem goesBy_number {m : Int} (driver : m ∈ lane.drivers) (positive : 1 ≤ n) :
    (driverCode lane.cars m).map Char.toUpper = (decimal n).toList ↔
      publishedCode lane.cars m = none ∧ m = n := by
  cases published : publishedCode lane.cars m with
  | some code =>
      obtain ⟨three, letters⟩ := lane.lettered m driver code published
      simp only [driverCode, published, Option.getD_some, reduceCtorEq, false_and, iff_false]
      intro same
      obtain ⟨first, rest, rfl⟩ := List.exists_cons_of_length_eq_add_one three
      have digit := number_digit positive (same ▸ List.mem_map_of_mem (List.mem_cons_self ..))
      have letter := (letters first (List.mem_cons_self ..)).toUpper
      omega
  | none =>
      simp only [driverCode, published, Option.getD_none, true_and,
        map_toUpper_number (lane.numbered m driver).1, String.toList_inj]
      exact decimal_injective.eq_iff

theorem find?_only {items : List Int} {holds : Int → Bool} (member : n ∈ items) (own : holds n = true)
    (only : ∀ m ∈ items, holds m = true → m = n) : items.find? holds = some n := by
  cases found : items.find? holds with
  | none => exact absurd own (List.find?_eq_none.mp found n member)
  | some m => rw [only m (List.mem_of_find?_eq_some found) (List.find?_some found)]

/-- The car number as a side of a link. -/
def OverlayLane.numberEnd (lane : OverlayLane) (driver : n ∈ lane.drivers) (session : Text)
    (slug : isSessionSlug session = true) : LinkEnd :=
  ⟨session, (decimal n).toList, slug, number_wordy (lane.numbered n driver).1⟩

/-- What a driver goes by as a side of a link. -/
def OverlayLane.codeEnd (lane : OverlayLane) (driver : n ∈ lane.drivers) (session : Text)
    (slug : isSessionSlug session = true) : LinkEnd :=
  ⟨session, driverCode lane.cars n, slug, driverCode_wordy driver⟩

variable {session : Text} {slug : isSessionSlug session = true} {other : LinkEnd}

/-- A number names a driver only while there is no code, and only from ten on. -/
theorem numberLink_iff (driver : n ∈ lane.drivers) :
    lane.Resolves casing (lane.numberEnd driver session slug) other n ↔
      publishedCode lane.cars n = none ∧ 10 ≤ n := by
  obtain ⟨positive, small⟩ := lane.numbered n driver
  have upper := map_toUpper_number positive
  rw [resolves_iff, findByCode_iff (lane.numberEnd driver session slug).wordy]
  change isCarCode ((decimal n).toList.map Char.toUpper) = true ∧ lane.drivers.find? (fun m =>
    (driverCode lane.cars m).map Char.toUpper = (decimal n).toList.map Char.toUpper) = some n ↔ _
  rw [upper, isCarCode_number positive small, and_comm]
  refine and_congr_left fun _ => ⟨fun found => ?_, fun unpublished => ?_⟩
  · have own := List.find?_some found
    exact ((goesBy_number driver positive).mp (of_decide_eq_true own)).1
  · refine find?_only driver (decide_eq_true ?_) fun m member own => ?_
    · exact (goesBy_number driver positive).mpr ⟨unpublished, rfl⟩
    · exact ((goesBy_number member positive).mp (of_decide_eq_true own)).2

/-- The links of a driver open on this driver, by code and by number, exactly if there is no
code yet and the number has two digits. -/
theorem overlayLinks_iff (casing : CaseMapping) (lane : OverlayLane) {n : Int}
    (driver : n ∈ lane.drivers) {session : Text} (slug : isSessionSlug session = true)
    (other : LinkEnd) :
    (lane.Resolves casing (lane.codeEnd driver session slug) other n ∧
      lane.Resolves casing (lane.numberEnd driver session slug) other n) ↔
      publishedCode lane.cars n = none ∧ 10 ≤ n := by
  rw [numberLink_iff]
  refine and_iff_right_of_imp fun ⟨unpublished, twoDigits⟩ => ?_
  have same : lane.codeEnd driver session slug = lane.numberEnd driver session slug := by
    simp only [OverlayLane.codeEnd, OverlayLane.numberEnd, driverCode, unpublished, Option.getD_none]
  rw [same, numberLink_iff]
  exact ⟨unpublished, twoDigits⟩

end

/-- Verstappen with his code and Hamilton before his is published. -/
def twoCars : Dict String Json :=
  Dict.ofMembers [("1", .obj [("code", .str "VER")]), ("44", .obj [("code", .str "")])]

theorem twoCars_codes :
    publishedCode twoCars 1 = some "VER".toList ∧ publishedCode twoCars 44 = none := by decide +kernel

def twoDrivers : OverlayLane where
  cars := twoCars
  drivers := [1, 44]
  distinct := by decide
  numbered := by decide
  lettered n driver code published := by
    rcases List.mem_pair.mp driver with rfl | rfl
    · rw [twoCars_codes.1] at published
      obtain rfl := Option.some.inj published
      refine ⟨rfl, fun c member => Or.inl ?_⟩
      have upper : ("VER".toList.all fun c => 65 ≤ c.toNat ∧ c.toNat ≤ 90) = true := by decide
      exact of_decide_eq_true (List.all_eq_true.mp upper c member)
    · rw [twoCars_codes.2] at published
      cases published

theorem mem_twoDrivers : (1 : Int) ∈ twoDrivers.drivers ∧ (44 : Int) ∈ twoDrivers.drivers := by
  simp [twoDrivers]

theorem isSessionSlug_monza : isSessionSlug "monza-2024".toList = true := by decide

/-- `monza-2024:1` -/
def verstappen : LinkEnd :=
  twoDrivers.numberEnd mem_twoDrivers.1 "monza-2024".toList isSessionSlug_monza

theorem overlayLinks_unpublished :
    twoDrivers.Resolves asciiCasing
        (twoDrivers.codeEnd mem_twoDrivers.2 "monza-2024".toList isSessionSlug_monza) verstappen 44 ∧
      twoDrivers.Resolves asciiCasing
        (twoDrivers.numberEnd mem_twoDrivers.2 "monza-2024".toList isSessionSlug_monza) verstappen 44 :=
  (overlayLinks_iff asciiCasing twoDrivers mem_twoDrivers.2 isSessionSlug_monza verstappen).mpr
    ⟨twoCars_codes.2, by decide⟩

/-- The link that names Verstappen by his number does not open on him. -/
theorem overlayLinks_by_number :
    ¬ (twoDrivers.Resolves asciiCasing
        (twoDrivers.codeEnd mem_twoDrivers.1 "monza-2024".toList isSessionSlug_monza) verstappen 1 ∧
      twoDrivers.Resolves asciiCasing verstappen verstappen 1) := by
  rintro ⟨-, byNumber⟩
  have unpublished := ((numberLink_iff mem_twoDrivers.1).mp byNumber).1
  cases twoCars_codes.1.symm.trans unpublished

end RaceTracker.Web
