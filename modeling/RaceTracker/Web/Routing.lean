import RaceTracker.Lib.UrlQuery

namespace RaceTracker.Web

open RaceTracker.Lib

/-! Hash routing: which view a URL names, which car it selects and which laps the overlay opens on. -/

/-- JavaScript's case mappings.  What they do outside ASCII is left open. -/
structure CaseMapping where
  toLowerCase : Text → Text
  toUpperCase : Text → Text
  lower_ascii : ∀ text, (∀ c ∈ text, c.toNat < 128) → toLowerCase text = text.map Char.toLower
  upper_ascii : ∀ text, (∀ c ∈ text, c.toNat < 128) → toUpperCase text = text.map Char.toUpper

inductive RouteName where
  | board
  | ghost
  | settings
deriving DecidableEq

def RouteName.text : RouteName → Text
  | board => "board".toList
  | ghost => "ghost".toList
  | settings => "settings".toList

/-- What a lookup of the route can give: a route, or what an object inherits under the name. -/
inductive Route where
  | known (name : RouteName)
  | inherited (member : Text)
deriving DecidableEq

/-- The names of the members that `Object.prototype` gives to every object. -/
def inheritedMembers : List Text :=
  ["constructor", "__proto__", "__defineGetter__", "__defineSetter__", "__lookupGetter__",
    "__lookupSetter__", "hasOwnProperty", "isPrototypeOf", "propertyIsEnumerable", "toLocaleString",
    "toString", "valueOf"].map String.toList

def routes : List RouteName := [.board, .ghost, .settings]

/-- `REDIRECTS[name] ?? 'board'` -/
def redirect (name : Text) : Route :=
  if name = "compare".toList then .known .ghost
  else if name ∈ inheritedMembers then .inherited name
  else .known .board

def routeOf (name : Text) : Route :=
  match routes.find? fun route => route.text = name with
  | some route => .known route
  | none => redirect name

def isCarCode (text : Text) : Bool :=
  2 ≤ text.length && text.length ≤ 4 && text.all fun c => c.isUpper || c.isDigit

def isSessionSlug (text : Text) : Bool :=
  (text.splitOn '-').all fun word => word ≠ [] && word.all fun c => c.isLower || c.isDigit

structure CarCode where
  text : Text
  valid : isCarCode text = true
deriving DecidableEq

structure OverlaySide where
  session : Text
  car : CarCode
  valid : isSessionSlug session = true
deriving DecidableEq

structure ParsedHash where
  route : Route
  car : Option CarCode
  a : Option OverlaySide
  b : Option OverlaySide
deriving DecidableEq

section

variable (casing : CaseMapping)

/-- `value?.toUpperCase() ?? ''`, if it is a code. -/
def parseCode (value : Option Text) : Option CarCode :=
  let code := match value with
    | some value => casing.toUpperCase value
    | none => []
  if valid : isCarCode code = true then some ⟨code, valid⟩ else none

def parseSide (value : Option Text) : Option OverlaySide :=
  match value with
  | none => none
  | some value =>
      -- An empty value has no colon either.
      match cutAt ':' value with
      | none => none
      | some (front, back) =>
          let session := casing.toLowerCase front
          match parseCode casing (some back) with
          | none => none
          | some car =>
              if valid : isSessionSlug session = true then some ⟨session, car, valid⟩ else none

/-- The hash without its first number sign. -/
def withoutNumberSign : Text → Text
  | '#' :: rest => rest
  | hash => hash

def routeName (hash : Text) : Text :=
  let raw := withoutNumberSign hash
  casing.toLowerCase (match cutAt '?' raw with
    | some (name, _) => name
    | none => raw)

def parseHash (hash : Text) : ParsedHash :=
  match cutAt '?' (withoutNumberSign hash) with
  | none => ⟨routeOf (routeName casing hash), none, none, none⟩
  | some (_, query) =>
      let params := searchParams query
      { route := routeOf (routeName casing hash)
        car := parseCode casing (getParam params "car".toList)
        a := parseSide casing (getParam params "a".toList)
        b := parseSide casing (getParam params "b".toList) }

end

def side (value : OverlaySide) : Text :=
  encodeURIComponent value.session ++ ':' :: encodeURIComponent value.car.text

/-- The pairs of the query: a selected car, and both sides of the overlay or neither. -/
def queryPairs (car : Option CarCode) (a b : Option OverlaySide) : List (Text × Text) :=
  (match car with
    | some car => [("car".toList, encodeURIComponent car.text)]
    | none => []) ++
  match a, b with
  | some a, some b => [("a".toList, side a), ("b".toList, side b)]
  | _, _ => []

def buildHash (route : RouteName) (car : Option CarCode) (a b : Option OverlaySide) : Text :=
  let pairs := queryPairs car a b
  let query := if pairs = [] then [] else '?' :: writeParams pairs
  if route = .board then if query = [] then ['#'] else "#board".toList ++ query
  else '#' :: route.text ++ query

section

variable {casing : CaseMapping}

theorem parseHash_route (hash : Text) :
    (parseHash casing hash).route = routeOf (routeName casing hash) := by
  rw [parseHash]
  cases cutAt '?' (withoutNumberSign hash) <;> rfl

theorem routeOf_text (route : RouteName) : routeOf route.text = .known route := by
  cases route <;> decide +kernel

theorem routeOf_known_iff {name : Text} : (∃ route, routeOf name = .known route) ↔ name ∉ inheritedMembers := by
  rw [routeOf]
  cases found : routes.find? fun route => route.text = name with
  | some route =>
      have named : route.text = name := by simpa using List.find?_some found
      have own : route.text ∉ inheritedMembers := by
        cases route <;> decide +kernel
      simp [← named, own]
  | none =>
      rw [redirect]
      by_cases retired : name = "compare".toList
      · have own : name ∉ inheritedMembers := by
          rw [retired]
          decide +kernel
        exact ⟨fun _ => own, fun _ => ⟨.ghost, if_pos retired⟩⟩
      · rw [if_neg retired]
        by_cases member : name ∈ inheritedMembers
        · rw [if_pos member]
          exact ⟨fun ⟨_, same⟩ => (nomatch same), fun absent => absurd member absent⟩
        · exact ⟨fun _ => member, fun _ => ⟨.board, if_neg member⟩⟩

/-- A hash opens one of the views exactly when its route is not the name of a member that every
object inherits. -/
theorem route_known_iff (casing : CaseMapping) (hash : Text) :
    (∃ route, (parseHash casing hash).route = .known route) ↔
      routeName casing hash ∉ inheritedMembers := by
  rw [parseHash_route]
  exact routeOf_known_iff

end

theorem isUpper_iff {c : Char} : c.isUpper = true ↔ 65 ≤ c.toNat ∧ c.toNat ≤ 90 := decide_eq_true_iff

theorem isLower_iff {c : Char} : c.isLower = true ↔ 97 ≤ c.toNat ∧ c.toNat ≤ 122 :=
  Bool.and_eq_true_iff.trans (and_congr decide_eq_true_iff decide_eq_true_iff)

theorem code_char {text : Text} (valid : isCarCode text = true) {c : Char} (member : c ∈ text) :
    (48 ≤ c.toNat ∧ c.toNat ≤ 57) ∨ (65 ≤ c.toNat ∧ c.toNat ≤ 90) := by
  simp only [isCarCode, Bool.and_eq_true, List.all_eq_true, Bool.or_eq_true] at valid
  rcases valid.2 c member with upper | digit
  · exact Or.inr (isUpper_iff.mp upper)
  · exact Or.inl (Char.isDigit_iff_toNat.mp digit)

theorem slug_char {text : Text} (valid : isSessionSlug text = true) {c : Char} (member : c ∈ text) :
    c.toNat = 45 ∨ (48 ≤ c.toNat ∧ c.toNat ≤ 57) ∨ (97 ≤ c.toNat ∧ c.toNat ≤ 122) := by
  rw [isSessionSlug, List.all_eq_true] at valid
  have whole : ['-'].intercalate (text.splitOn '-') = text := List.intercalate_splitOn '-'
  rw [← whole] at member
  rcases mem_intercalate member with rfl | ⟨word, listed, own⟩
  · exact Or.inl (by decide)
  · have checked := valid word listed
    rw [Bool.and_eq_true, List.all_eq_true] at checked
    rcases Bool.or_eq_true_iff.mp (checked.2 c own) with lower | digit
    · exact Or.inr (Or.inr (isLower_iff.mp lower))
    · exact Or.inr (Or.inl (Char.isDigit_iff_toNat.mp digit))

def Wordy (c : Char) : Prop :=
  c.toNat = 45 ∨ (48 ≤ c.toNat ∧ c.toNat ≤ 57) ∨ (65 ≤ c.toNat ∧ c.toNat ≤ 90) ∨
    (97 ≤ c.toNat ∧ c.toNat ≤ 122)

theorem ne_of_toNat {c d : Char} (differs : c.toNat ≠ d.toNat) : c ≠ d := by
  rintro rfl
  exact differs rfl

section

variable {c : Char}

theorem isUnreserved_of_alphanum (alphanum : c.isAlphanum = true) : isUnreserved c = true := by
  simp [isUnreserved, alphanum]

theorem Wordy.unreserved (wordy : Wordy c) : isUnreserved c = true := by
  rcases wordy with hyphen | digit | upper | lower
  · have own : c = '-' := Char.toNat_inj.mp hyphen
    rw [own]
    decide
  · exact isUnreserved_of_alphanum (Bool.or_eq_true_iff.mpr (Or.inr (Char.isDigit_iff_toNat.mpr digit)))
  · exact isUnreserved_of_alphanum (Bool.or_eq_true_iff.mpr
      (Or.inl (Bool.or_eq_true_iff.mpr (Or.inl (isUpper_iff.mpr upper)))))
  · exact isUnreserved_of_alphanum (Bool.or_eq_true_iff.mpr
      (Or.inl (Bool.or_eq_true_iff.mpr (Or.inr (isLower_iff.mpr lower)))))

theorem Wordy.plain (wordy : Wordy c) : Plain c := by
  rw [Wordy] at wordy
  refine ⟨by omega, ne_of_toNat ?_, ne_of_toNat ?_⟩
  · change c.toNat ≠ 37
    omega
  · change c.toNat ≠ 43
    omega

theorem Wordy.ne_separator (wordy : Wordy c) : c ≠ '&' ∧ c ≠ ':' := by
  rw [Wordy] at wordy
  refine ⟨ne_of_toNat ?_, ne_of_toNat ?_⟩
  · change c.toNat ≠ 38
    omega
  · change c.toNat ≠ 58
    omega

theorem CarCode.wordy (code : CarCode) (member : c ∈ code.text) : Wordy c := by
  rcases code_char code.valid member with digit | upper
  · exact Or.inr (Or.inl digit)
  · exact Or.inr (Or.inr (Or.inl upper))

theorem slug_wordy {text : Text} (valid : isSessionSlug text = true) (member : c ∈ text) : Wordy c := by
  rcases slug_char valid member with hyphen | digit | lower
  · exact Or.inl hyphen
  · exact Or.inr (Or.inl digit)
  · exact Or.inr (Or.inr (Or.inr lower))

end

theorem encode_code (code : CarCode) : encodeURIComponent code.text = code.text :=
  encodeURIComponent_unreserved fun _ member => (code.wordy member).unreserved

theorem side_eq (overlay : OverlaySide) : side overlay = overlay.session ++ ':' :: overlay.car.text := by
  rw [side, encode_code, encodeURIComponent_unreserved fun _ member => (slug_wordy overlay.valid member).unreserved]

theorem side_chars (overlay : OverlaySide) {c : Char} (member : c ∈ side overlay) : Plain c ∧ c ≠ '&' := by
  rw [side_eq, List.mem_append, List.mem_cons] at member
  rcases member with session | rfl | code
  · exact ⟨(slug_wordy overlay.valid session).plain, (slug_wordy overlay.valid session).ne_separator.1⟩
  · exact ⟨⟨by decide, by decide, by decide⟩, by decide⟩
  · exact ⟨(overlay.car.wordy code).plain, (overlay.car.wordy code).ne_separator.1⟩

theorem safe_name {name : Text} (listed : name ∈ ["car".toList, "a".toList, "b".toList]) :
    ∀ c ∈ name, Plain c ∧ c ≠ '&' ∧ c ≠ '=' ∧ c ≠ '?' := by
  have checked : (["car".toList, "a".toList, "b".toList].all fun name =>
      name.all fun c => Plain c ∧ c ≠ '&' ∧ c ≠ '=' ∧ c ≠ '?') = true := by
    decide +kernel
  intro c member
  exact of_decide_eq_true (List.all_eq_true.mp (List.all_eq_true.mp checked name listed) c member)

theorem queryPairs_safe (car : Option CarCode) (a b : Option OverlaySide) :
    ∀ pair ∈ queryPairs car a b, SafePair pair := by
  intro pair member
  rcases List.mem_append.mp member with selected | sides
  · cases car with
    | none => cases selected
    | some car =>
        rw [List.mem_singleton.mp selected]
        refine ⟨safe_name (by simp), ?_⟩
        intro c listed
        rw [encode_code] at listed
        exact ⟨(car.wordy listed).plain, (car.wordy listed).ne_separator.1⟩
  · cases a with
    | none => cases sides
    | some first =>
        cases b with
        | none => cases sides
        | some second =>
            rcases List.mem_pair.mp sides with rfl | rfl
            · exact ⟨safe_name (by simp), fun c listed => side_chars first listed⟩
            · exact ⟨safe_name (by simp), fun c listed => side_chars second listed⟩

section

variable {casing : CaseMapping}

theorem toUpper_code {code : CarCode} {c : Char} (member : c ∈ code.text) : c.toUpper = c := by
  have range := code_char code.valid member
  apply dif_neg
  rintro ⟨above, -⟩
  have letter : 97 ≤ c.toNat := above
  omega

theorem toLowerCase_slug {text : Text} (valid : isSessionSlug text = true) :
    casing.toLowerCase text = text := by
  have ascii : ∀ c ∈ text, c.toNat < 128 := fun c member => (slug_wordy valid member).plain.1
  have same : text.map Char.toLower = text.map id := by
    refine List.map_congr_left fun c member => ?_
    have range := slug_char valid member
    apply dif_neg
    rintro ⟨above, below⟩
    have letter : 65 ≤ c.toNat ∧ c.toNat ≤ 90 := ⟨above, below⟩
    omega
  rw [casing.lower_ascii _ ascii, same, List.map_id]

theorem parseCode_text (code : CarCode) : parseCode casing (some code.text) = some code := by
  have ascii : ∀ c ∈ code.text, c.toNat < 128 := fun c member => (code.wordy member).plain.1
  have upper : casing.toUpperCase code.text = code.text := by
    have same : code.text.map Char.toUpper = code.text.map id :=
      List.map_congr_left fun c member => toUpper_code member
    rw [casing.upper_ascii _ ascii, same, List.map_id]
  rw [parseCode]
  simp only [upper, code.valid, dite_true]

theorem parseSide_side (overlay : OverlaySide) : parseSide casing (some (side overlay)) = some overlay := by
  have colon : ':' ∉ overlay.session := fun member => (slug_wordy overlay.valid member).ne_separator.2 rfl
  rw [side_eq, parseSide, cutAt_append colon]
  simp only [parseCode_text, toLowerCase_slug overlay.valid, overlay.valid, dite_true]

theorem getParam_car (car : Option CarCode) (a b : Option OverlaySide) :
    getParam (queryPairs car a b) "car".toList = car.map CarCode.text := by
  have first : "a".toList ≠ "car".toList := by decide
  have second : "b".toList ≠ "car".toList := by decide
  cases car with
  | none =>
      cases a <;> cases b <;> simp only [queryPairs, getParam, List.nil_append, List.find?_nil,
        List.find?_cons, first, second, decide_false, Option.map_none]
  | some car =>
      simp only [queryPairs, getParam, List.cons_append, List.find?_cons, decide_true, Option.map_some,
        encode_code]

def bothSides (a b : Option OverlaySide) : Option OverlaySide × Option OverlaySide :=
  match a, b with
  | some a, some b => (some a, some b)
  | _, _ => (none, none)

theorem getParam_sides (car : Option CarCode) (a b : Option OverlaySide) :
    getParam (queryPairs car a b) "a".toList = (bothSides a b).1.map side ∧
      getParam (queryPairs car a b) "b".toList = (bothSides a b).2.map side := by
  have car_a : "car".toList ≠ "a".toList := by decide
  have car_b : "car".toList ≠ "b".toList := by decide
  have a_b : "a".toList ≠ "b".toList := by decide
  cases car <;> cases a <;> cases b <;> simp only [queryPairs, getParam, bothSides, List.nil_append,
    List.cons_append, List.append_nil, List.find?_nil, List.find?_cons, car_a, car_b, a_b, decide_false,
    decide_true, Option.map_none, Option.map_some, and_self]

theorem text_ascii (route : RouteName) : ∀ c ∈ route.text, c.toNat < 128 := by
  have checked : (route.text.all fun c => c.toNat < 128) = true := by
    cases route <;> decide +kernel
  exact fun c member => of_decide_eq_true (List.all_eq_true.mp checked c member)

theorem toLowerCase_route (route : RouteName) : casing.toLowerCase route.text = route.text := by
  rw [casing.lower_ascii route.text (text_ascii route)]
  cases route <;> decide +kernel

theorem toLowerCase_nil : casing.toLowerCase [] = [] := casing.lower_ascii [] nofun

theorem parseHash_query (route : RouteName) {pairs : List (Text × Text)}
    (safe : ∀ pair ∈ pairs, SafePair pair) (some : pairs ≠ []) :
    parseHash casing ('#' :: route.text ++ '?' :: writeParams pairs) =
      ⟨.known route, parseCode casing (getParam pairs "car".toList),
        parseSide casing (getParam pairs "a".toList), parseSide casing (getParam pairs "b".toList)⟩ := by
  have question : '?' ∉ route.text := by
    cases route <;> decide +kernel
  have cut : cutAt '?' (withoutNumberSign ('#' :: route.text ++ '?' :: writeParams pairs)) =
      Option.some (route.text, writeParams pairs) :=
    cutAt_append question (writeParams pairs)
  rw [parseHash, cut]
  simp only [routeName, cut, toLowerCase_route, routeOf_text, searchParams_writeParams safe some]

theorem parseHash_bare (route : RouteName) :
    parseHash casing (if route = .board then ['#'] else '#' :: route.text) =
      ⟨.known route, none, none, none⟩ := by
  have question : '?' ∉ route.text := by
    cases route <;> decide +kernel
  by_cases board : route = .board
  · subst board
    have read : routeOf [] = .known .board := by decide +kernel
    rw [if_pos rfl]
    change (⟨routeOf (casing.toLowerCase []), none, none, none⟩ : ParsedHash) = _
    rw [toLowerCase_nil, read]
  · have cut : cutAt '?' (withoutNumberSign ('#' :: route.text)) = none := cutAt_eq_none question
    rw [if_neg board, parseHash, cut]
    simp only [routeName, cut]
    change (⟨routeOf (casing.toLowerCase route.text), none, none, none⟩ : ParsedHash) = _
    rw [toLowerCase_route, routeOf_text]

/-- The parser reads what the builder writes; a side without the other is not written. -/
theorem parseHash_buildHash (route : RouteName) (car : Option CarCode) (a b : Option OverlaySide) :
    parseHash casing (buildHash route car a b) =
      ⟨.known route, car, (bothSides a b).1, (bothSides a b).2⟩ := by
  by_cases bare : queryPairs car a b = []
  · have built : buildHash route car a b = if route = .board then ['#'] else '#' :: route.text := by
      rw [buildHash, if_pos bare, if_pos rfl, List.append_nil]
    have nothing : car = none ∧ bothSides a b = (none, none) := by
      cases car <;> cases a <;> cases b <;> simp [queryPairs, bothSides] at bare ⊢
    rw [built, parseHash_bare, nothing.1, nothing.2]
  · have built : buildHash route car a b = '#' :: route.text ++ '?' :: writeParams (queryPairs car a b) := by
      rw [buildHash, if_neg bare, if_neg (List.cons_ne_nil _ _)]
      split
      · rename_i board
        rw [board]
        rfl
      · rfl
    have codes : parseCode casing (car.map CarCode.text) = car := by
      cases car with
      | none => rfl
      | some car => exact parseCode_text car
    have sides (overlay : Option OverlaySide) : parseSide casing (overlay.map side) = overlay := by
      cases overlay with
      | none => rfl
      | some overlay => exact parseSide_side overlay
    rw [built, parseHash_query route (queryPairs_safe car a b) bare, getParam_car, codes,
      (getParam_sides car a b).1, (getParam_sides car a b).2, sides, sides]

/-- Reading back a built hash gives what was parsed, with both sides of the overlay or none; and what
is built from that is the same hash. -/
theorem hash_round_trip (casing : CaseMapping) (hash : Text) (route : RouteName)
    (known : (parseHash casing hash).route = .known route) :
    let p := parseHash casing hash
    let built := buildHash route p.car p.a p.b
    let again := parseHash casing built
    (again = if p.a.isSome = p.b.isSome then p else { p with a := none, b := none }) ∧
      again.route = .known route ∧ buildHash route again.car again.a again.b = built := by
  generalize parseHash casing hash = p at known ⊢
  obtain ⟨own, car, a, b⟩ := p
  obtain rfl : own = .known route := known
  simp only [parseHash_buildHash]
  refine ⟨?_, trivial, ?_⟩
  · cases a <;> cases b <;> rfl
  · cases a <;> cases b <;> rfl

end

/-- Case mappings that leave everything outside ASCII alone. -/
def asciiCasing : CaseMapping :=
  ⟨List.map Char.toLower, List.map Char.toUpper, fun _ _ => rfl, fun _ _ => rfl⟩

/-- A link typed by hand, with one side of the overlay. -/
theorem hash_round_trip_typed :
    let p := parseHash asciiCasing "#Compare?car=ver&a=MONZA-2024:lec".toList
    let again := parseHash asciiCasing (buildHash .ghost p.car p.a p.b)
    again.route = .known .ghost ∧ buildHash .ghost again.car again.a again.b = buildHash .ghost p.car p.a p.b :=
  (hash_round_trip asciiCasing _ .ghost (by decide +kernel)).2

/-- The route of this hash is the function that every object inherits as its constructor. -/
theorem constructor_is_no_route :
    ¬ ∃ route, (parseHash asciiCasing "#Constructor".toList).route = .known route := by
  rintro ⟨route, known⟩
  have inherited : (parseHash asciiCasing "#Constructor".toList).route =
      .inherited "constructor".toList := by
    decide +kernel
  rw [inherited] at known
  cases known

end RaceTracker.Web
