import RaceTracker.Ingest.Lines

namespace RaceTracker.Ingest

open RaceTracker.Lib RaceTracker.Model

/-! Team radio captures on both lanes, the good ones and the others.

The number and the instant are read inside a `try`; the path is joined outside it.
-/

/-- What `urlparse` says about where a URL points. -/
structure Origin where
  scheme : String
  hostname : Option String

/-- Raise unless the URL is an https one on formula1.com or a subdomain. -/
def requireF1Host (urlparse : String → Except PyError Origin) (lower : String → String)
    (base : String) : Except PyError Unit := do
  let parsed ← urlparse base
  if parsed.scheme ≠ "https" then throw .valueError
  let host := lower (parsed.hostname.getD "")
  if host ≠ "formula1.com" ∧ ¬ ".formula1.com".toList <:+ host.toList then throw .valueError

/-- Half-open, like every window of the baker. -/
def inWindowMs (timeMs windowStart windowEnd : Int) : Bool :=
  windowStart * 1000 ≤ timeMs ∧ timeMs < windowEnd * 1000

section

variable {γ β : Type} (builtins : Builtins γ β)

/-- The ref of one capture, if its instant is wanted. -/
def resolved (admits : Int → Bool) (clip : String → String) (capture : List (String × Json)) :
    Except PyError (Option RadioRef) :=
  match present "Utc" capture, present "RacingNumber" capture, present "Path" capture with
  | some utc, some number, some path => do
      match ← readable builtins number utc with
      | none => return none
      | some (driverNum, timeMs) =>
          if admits timeMs then
            match path with
            | .str path => return some { timeMs, driverNum, clip := clip path }
            | _ => throw .attributeError
          else return none
  | _, _, _ => return none

/-- The built-ins of the baker, whose instants count from the start of the session. -/
def sessionClock (sessionMs : String → Except PyError Int) : Builtins γ β :=
  { builtins with epochMs := sessionMs }

/-- One capture of a session that is baked. -/
def windowRef (sessionMs : String → Except PyError Int) (windowStart windowEnd : Int)
    (base apiPath : String) : List (String × Json) → Except PyError (Option RadioRef) :=
  resolved (sessionClock builtins sessionMs) (inWindowMs · windowStart windowEnd)
    fun path => base ++ stripRight apiPath ++ "/" ++ stripLeft path

theorem captureRef_eq (base sessionPath : String) (capture : List (String × Json)) :
    captureRef builtins base sessionPath capture =
      resolved builtins (fun _ => true) (clipUrl base sessionPath) capture := rfl

def takeWindowRef (sessionMs : String → Except PyError Int) (windowStart windowEnd : Int)
    (base apiPath : String) (out : List RadioRef) (capture : List (String × Json)) :
    List RadioRef × Option PyError :=
  match windowRef builtins sessionMs windowStart windowEnd base apiPath capture with
  | .error error => (out, some error)
  | .ok none => (out, none)
  | .ok (some ref) => (out ++ [ref], none)

def byTime (refs : List RadioRef) : List RadioRef :=
  refs.mergeSort fun first second => first.timeMs ≤ second.timeMs

/-- The refs inside the window, by time. -/
def extractRadio (urlparse : String → Except PyError Origin) (lower : String → String)
    (sessionMs : String → Except PyError Int) (windowStart windowEnd : Int) (base apiPath : String)
    (captures : List (List (String × Json))) : Except PyError (List RadioRef) :=
  match requireF1Host urlparse lower base with
  | .error error => .error error
  | .ok () =>
      let take := takeWindowRef builtins sessionMs windowStart windowEnd base apiPath
      match foldUntil take [] captures with
      | (_, some error) => .error error
      | (out, none) => .ok (byTime out)

/-- `live_radio_refs` with the check that comes before its loop. -/
def checkedRadioRefs (urlparse : String → Except PyError Origin) (lower : String → String)
    (base sessionPath : String) (captures : List (List (String × Json))) (seen : List String) :
    List String × Except PyError (List RadioRef) :=
  match requireF1Host urlparse lower base with
  | .error error => (seen, .error error)
  | .ok () => liveRadioRefs builtins captures base sessionPath seen

def isText : Json → Bool
  | .str _ => true
  | _ => false

/-- A number, an instant and a path that can be read. -/
def wellFormedCapture (capture : List (String × Json)) : Bool :=
  match present "Utc" capture, present "RacingNumber" capture, present "Path" capture with
  | some utc, some number, some path =>
      (builtins.int number).isOk && (utcToEpochMs builtins utc).isOk && isText path
  | _, _, _ => false

/-- A capture that is read or passed over: no infinite number, no instant out of range, and no path
that is not a text once the rest has been read. -/
def quietCapture (admits : Int → Bool) (capture : List (String × Json)) : Bool :=
  match present "Utc" capture, present "RacingNumber" capture, present "Path" capture with
  | some utc, some number, some path =>
      !infinite number && (!(builtins.int number).isOk ||
        match utcToEpochMs builtins utc with
        | .ok timeMs => !admits timeMs || isText path
        | .error error => error ∈ [.attributeError, .typeError, .valueError])
  | _, _, _ => true

/-- `int` refuses a value for its text, its type or its size. -/
theorem int_error {value : Json} {error : PyError} (raised : builtins.int value = .error error) :
    error ∈ [.valueError, .typeError] ∧ infinite value = false ∨
      error = .overflowError ∧ infinite value = true := by
  cases value with
  | num number =>
      simp only [Builtins.int, pyInt] at raised
      cases plain : number.plain with
      | true => simp [plain] at raised
      | false =>
          cases read : Codec.readFloat64 number with
          | none =>
              rw [plain, read] at raised
              cases raised
              exact .inr ⟨rfl, by simp [infinite, plain, read]⟩
          | some float => simp [plain, read] at raised
  | str text =>
      simp only [Builtins.int, pyInt] at raised
      cases read : builtins.intText text with
      | none =>
          rw [read] at raised
          cases raised
          exact .inl ⟨by decide, rfl⟩
      | some number => simp [read] at raised
  | bool value => cases raised
  | _ =>
      cases raised
      exact .inl ⟨by decide, rfl⟩

theorem resolved_isOk (admits : Int → Bool) (clip : String → String)
    (capture : List (String × Json)) :
    (resolved builtins admits clip capture).isOk = quietCapture builtins admits capture := by
  unfold resolved quietCapture
  split
  · rename_i utc number path _ _ _
    cases int : builtins.int number with
    | error error =>
        rcases int_error builtins int with ⟨caught, finite⟩ | ⟨rfl, large⟩
        · rcases List.mem_cons.mp caught with rfl | last
          · simp [readable, int, finite, Except.isOk, Except.toBool]
          · obtain rfl := List.mem_singleton.mp last
            simp [readable, int, finite, Except.isOk, Except.toBool]
        · simp [readable, int, large, Except.isOk, Except.toBool]
    | ok driverNum =>
        have finite : infinite number = false := by
          have told := builtins.caught_isOk number
          rw [int] at told
          simpa [Builtins.caught, Except.isOk, Except.toBool] using told.symm
        cases instant : utcToEpochMs builtins utc with
        | error error =>
            cases error <;> simp [readable, int, instant, finite, Except.isOk, Except.toBool]
        | ok timeMs =>
            cases wanted : admits timeMs <;> cases path <;>
              simp [readable, int, instant, finite, wanted, isText, Except.isOk, Except.toBool]
  · rfl

theorem wellFormed_of_ref {admits : Int → Bool} {clip : String → String}
    {capture : List (String × Json)} {ref : RadioRef}
    (made : resolved builtins admits clip capture = .ok (some ref)) :
    wellFormedCapture builtins capture = true := by
  rw [resolved] at made
  rw [wellFormedCapture]
  split at made
  · rename_i utc number path _ _ _
    cases int : builtins.int number with
    | error error => cases error <;> simp [readable, int] at made
    | ok driverNum =>
        cases instant : utcToEpochMs builtins utc with
        | error error => cases error <;> simp [readable, int, instant] at made
        | ok timeMs =>
            cases wanted : admits timeMs <;> cases path <;>
              simp [readable, int, instant, wanted] at made
            rfl
  · cases made

theorem resolved_bad {admits : Int → Bool} {clip : String → String} {capture : List (String × Json)}
    (quiet : quietCapture builtins admits capture = true)
    (bad : wellFormedCapture builtins capture = false) :
    resolved builtins admits clip capture = .ok none := by
  have told := resolved_isOk builtins admits clip capture
  cases made : resolved builtins admits clip capture with
  | error error =>
      rw [made, quiet] at told
      cases told
  | ok ref =>
      cases ref with
      | none => rfl
      | some ref => cases (wellFormed_of_ref builtins made).symm.trans bad

theorem takeCapture_tells (base sessionPath : String) (state : List String × List RadioRef)
    (capture : List (String × Json)) :
    (takeCapture builtins base sessionPath state capture).2.isNone =
      quietCapture builtins (fun _ => true) capture := by
  rw [← resolved_isOk builtins _ (clipUrl base sessionPath), ← captureRef_eq]
  rw [takeCapture]
  cases captureRef builtins base sessionPath capture with
  | error error => rfl
  | ok ref =>
      cases ref with
      | none => rfl
      | some ref => by_cases old : ref.clip ∈ state.1 <;> simp [old, Except.isOk, Except.toBool]

theorem takeWindowRef_tells (sessionMs : String → Except PyError Int) (windowStart windowEnd : Int)
    (base apiPath : String) (out : List RadioRef) (capture : List (String × Json)) :
    (takeWindowRef builtins sessionMs windowStart windowEnd base apiPath out capture).2.isNone =
      quietCapture (sessionClock builtins sessionMs) (inWindowMs · windowStart windowEnd) capture := by
  unfold takeWindowRef windowRef
  rw [← resolved_isOk]
  cases resolved (sessionClock builtins sessionMs) _ _ capture with
  | error error => rfl
  | ok ref => cases ref <;> rfl

/-- What the baker returns for a list is what it returns for its good captures, by time. -/
def BakesGood (good : List (String × Json) → Bool)
    (extract : List (List (String × Json)) → Except PyError (List RadioRef))
    (captures : List (List (String × Json))) : Prop :=
  ∃ refs, extract captures = .ok refs ∧ extract (captures.filter good) = .ok refs ∧
    refs.Pairwise fun first second => first.timeMs ≤ second.timeMs

/-- The same of the live lane, where the refs are new and `seen` grows by their clips. -/
def StreamsGood (good : List (String × Json) → Bool)
    (live : List (List (String × Json)) → List String → List String × Except PyError (List RadioRef))
    (captures : List (List (String × Json))) (seen : List String) : Prop :=
  ∃ seen' refs, live captures seen = (seen', .ok refs) ∧
    live (captures.filter good) seen = (seen', .ok refs) ∧
    (refs.Pairwise fun first second => first.timeMs ≤ second.timeMs) ∧
    (refs.map RadioRef.clip).Nodup ∧ (∀ ref ∈ refs, ref.clip ∉ seen) ∧
    seen'.Perm (seen ++ refs.map RadioRef.clip)

theorem byTime_sorted (refs : List RadioRef) :
    (byTime refs).Pairwise fun first second => first.timeMs ≤ second.timeMs := by
  have sorted : (byTime refs).Pairwise fun first second =>
      decide (first.timeMs ≤ second.timeMs) = true := by
    refine List.pairwise_mergeSort ?_ ?_ refs
    · intro one two three before after
      simp only [decide_eq_true_eq] at *
      omega
    · intro one two
      simp only [Bool.or_eq_true, decide_eq_true_eq]
      omega
  exact sorted.imp of_decide_eq_true

/-- What the live loop keeps: `seen` is the clips from before and those of the refs, each new. -/
structure Fresh (seen : List String) (state : List String × List RadioRef) : Prop where
  grown : state.1 = seen ++ state.2.map RadioRef.clip
  distinct : (state.2.map RadioRef.clip).Nodup
  unseen : ∀ ref ∈ state.2, ref.clip ∉ seen

theorem takeCapture_fresh {base sessionPath : String} {seen : List String}
    {state : List String × List RadioRef} (fresh : Fresh seen state)
    (capture : List (String × Json)) :
    Fresh seen (takeCapture builtins base sessionPath state capture).1 := by
  rw [takeCapture]
  cases captureRef builtins base sessionPath capture with
  | error error => exact fresh
  | ok ref =>
      cases ref with
      | none => exact fresh
      | some ref =>
          by_cases old : ref.clip ∈ state.1
          · simpa [old] using fresh
          · simp only [old, if_false]
            rw [fresh.grown, List.mem_append, not_or] at old
            refine ⟨by simp [fresh.grown], ?_, ?_⟩
            · rw [List.map_append]
              refine List.nodup_append.mpr ⟨fresh.distinct, List.nodup_singleton _, ?_⟩
              intro clip member other new same
              rw [same, List.mem_singleton.mp new] at member
              exact old.2 member
            · intro other member
              rcases List.mem_append.mp member with before | new
              · exact fresh.unseen other before
              · rw [List.mem_singleton.mp new]
                exact old.1

theorem liveRadioRefs_good (base sessionPath : String) {captures : List (List (String × Json))}
    (seen : List String)
    (quiet : ∀ capture ∈ captures, quietCapture builtins (fun _ => true) capture = true) :
    StreamsGood (wellFormedCapture builtins)
      (fun captures => liveRadioRefs builtins captures base sessionPath) captures seen := by
  have fresh : Fresh seen (foldUntil (takeCapture builtins base sessionPath) (seen, []) captures).1 :=
    foldUntil_invariant (P := Fresh seen)
      (fun state capture _ fresh => takeCapture_fresh builtins fresh capture)
      ⟨by simp, List.nodup_nil, by simp⟩
  have idle : ∀ capture, quietCapture builtins (fun _ => true) capture = true →
      wellFormedCapture builtins capture = false →
      ∀ state, takeCapture builtins base sessionPath state capture = (state, none) := by
    intro capture calm bad state
    rw [takeCapture]
    rw [captureRef_eq, resolved_bad builtins calm bad]
  obtain ⟨state, whole, same⟩ :=
    foldUntil_quiet (takeCapture_tells builtins base sessionPath) _ idle quiet (seen, [])
  rw [whole] at fresh
  have reordered : (byTime state.2).Perm state.2 := List.mergeSort_perm ..
  refine ⟨state.1, byTime state.2, ?_, ?_, byTime_sorted state.2, ?_, ?_, ?_⟩
  · simp only [liveRadioRefs, whole, byTime]
  · simp only [liveRadioRefs, same, byTime]
  · exact (reordered.map _).nodup_iff.mpr fresh.distinct
  · exact fun ref member => fresh.unseen ref (reordered.mem_iff.mp member)
  · rw [fresh.grown]
    exact ((reordered.map _).symm).append_left _

theorem extractRadio_good (sessionMs : String → Except PyError Int) (windowStart windowEnd : Int)
    {urlparse : String → Except PyError Origin} {lower : String → String} {base : String}
    (apiPath : String) (allowed : requireF1Host urlparse lower base = .ok ())
    {captures : List (List (String × Json))}
    (quiet : ∀ capture ∈ captures, quietCapture (sessionClock builtins sessionMs)
      (inWindowMs · windowStart windowEnd) capture = true) :
    BakesGood (wellFormedCapture (sessionClock builtins sessionMs))
      (extractRadio builtins urlparse lower sessionMs windowStart windowEnd base apiPath) captures := by
  let take := takeWindowRef builtins sessionMs windowStart windowEnd base apiPath
  have idle : ∀ capture, quietCapture (sessionClock builtins sessionMs)
      (inWindowMs · windowStart windowEnd) capture = true →
      wellFormedCapture (sessionClock builtins sessionMs) capture = false →
      ∀ out, take out capture = (out, none) := by
    intro capture calm bad out
    simp only [take, takeWindowRef, windowRef, resolved_bad _ calm bad]
  obtain ⟨out, whole, same⟩ := foldUntil_quiet
    (takeWindowRef_tells builtins sessionMs windowStart windowEnd base apiPath) _ idle quiet []
  refine ⟨byTime out, ?_, ?_, byTime_sorted out⟩
  · simp only [extractRadio, allowed, whole]
  · simp only [extractRadio, allowed, same]

/-- A list comes out as its good captures do exactly if every capture is quiet; on the live lane a
capture may be in no window at all. -/
theorem bad_captures_cost_nothing_iff (urlparse : String → Except PyError Origin)
    (lower : String → String) (base : String) (allowed : requireF1Host urlparse lower base = .ok ())
    (sessionMs : String → Except PyError Int) (windowStart windowEnd : Int)
    (apiPath sessionPath : String) (captures : List (List (String × Json))) (seen : List String) :
    (BakesGood (wellFormedCapture (sessionClock builtins sessionMs))
        (extractRadio builtins urlparse lower sessionMs windowStart windowEnd base apiPath) captures ↔
      ∀ capture ∈ captures, quietCapture (sessionClock builtins sessionMs)
        (inWindowMs · windowStart windowEnd) capture = true) ∧
    (StreamsGood (wellFormedCapture builtins)
        (checkedRadioRefs builtins urlparse lower base sessionPath) captures seen ↔
      ∀ capture ∈ captures, quietCapture builtins (fun _ => true) capture = true) := by
  constructor
  · refine ⟨?_, extractRadio_good builtins sessionMs windowStart windowEnd apiPath allowed⟩
    rintro ⟨refs, went, _⟩
    refine (foldUntil_ends (takeWindowRef_tells builtins sessionMs windowStart windowEnd base apiPath)
      [] captures).mp ?_
    simp only [extractRadio, allowed] at went
    split at went
    · cases went
    · rename_i loop
      rw [loop]
  · have checked : checkedRadioRefs builtins urlparse lower base sessionPath =
        fun captures => liveRadioRefs builtins captures base sessionPath := by
      funext captures seen
      simp only [checkedRadioRefs, allowed]
    rw [checked]
    refine ⟨?_, liveRadioRefs_good builtins base sessionPath seen⟩
    rintro ⟨seen', refs, went, _⟩
    apply (foldUntil_ends (takeCapture_tells builtins base sessionPath) (seen, []) captures).mp
    simp only [liveRadioRefs] at went
    split at went
    · cases went
    · rename_i loop
      rw [loop]

end

/-- What `urlparse` says of the static host, and of nothing else. -/
def staticOrigin (url : String) : Except PyError Origin :=
  if url = staticBase then .ok ⟨"https", some "livetiming.formula1.com"⟩ else .error .valueError

def capture (number path : Json) : List (String × Json) :=
  [("Utc", .str "2024-09-01T13:00:00Z"), ("RacingNumber", number), ("Path", path)]

/-- A good capture, one without a number, and one more good one. -/
theorem bad_captures_cost_nothing_iff_mixed :
    let mixed := [capture (.str "44") (.str "b.mp3"), capture (.str "abc") (.str "c.mp3")]
    requireF1Host staticOrigin id staticBase = .ok () ∧
      (∀ capture ∈ mixed, quietCapture plainBuiltins (fun _ => true) capture = true) ∧
      StreamsGood (wellFormedCapture plainBuiltins)
        (checkedRadioRefs plainBuiltins staticOrigin id staticBase "/static/x/") mixed [] := by
  intro mixed
  have allowed : requireF1Host staticOrigin id staticBase = .ok () := by decide +kernel
  have quiet : ∀ capture ∈ mixed, quietCapture plainBuiltins (fun _ => true) capture = true := by
    decide +kernel
  have costs := bad_captures_cost_nothing_iff plainBuiltins staticOrigin id staticBase allowed
    plainBuiltins.epochMs 3300 3750 "" "/static/x/" mixed []
  exact ⟨allowed, quiet, costs.2.mpr quiet⟩

def spoiledCaptures : List (List (String × Json)) :=
  [capture (.str "44") (.str "a.mp3"), capture (.str "1") (.int 5)]

/-- A path that is a number, behind a good capture: the good ref is gone, and its clip is seen. -/
theorem numbered_path_raises :
    checkedRadioRefs plainBuiltins staticOrigin id staticBase "/static/x/" spoiledCaptures [] =
        (["https://livetiming.formula1.com/static/x/a.mp3"], .error .attributeError) ∧
      checkedRadioRefs plainBuiltins staticOrigin id staticBase "/static/x/"
          (spoiledCaptures.filter (wellFormedCapture plainBuiltins)) [] =
        (["https://livetiming.formula1.com/static/x/a.mp3"],
          .ok [⟨1725195600000, 44, "https://livetiming.formula1.com/static/x/a.mp3"⟩]) ∧
      ¬ StreamsGood (wellFormedCapture plainBuiltins)
        (checkedRadioRefs plainBuiltins staticOrigin id staticBase "/static/x/") spoiledCaptures [] := by
  have raised : checkedRadioRefs plainBuiltins staticOrigin id staticBase "/static/x/"
      spoiledCaptures [] =
        (["https://livetiming.formula1.com/static/x/a.mp3"], .error .attributeError) := by
    decide +kernel
  refine ⟨raised, by decide +kernel, ?_⟩
  rintro ⟨seen', refs, went, _⟩
  cases raised.symm.trans went

end RaceTracker.Ingest
