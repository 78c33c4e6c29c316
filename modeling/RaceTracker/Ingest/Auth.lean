import Mathlib.Data.List.DropRight
import Mathlib.Data.List.SplitBy
import Mathlib.Data.Rat.Floor
import RaceTracker.Lib.Base64
import RaceTracker.Lib.Decimal
import RaceTracker.Lib.Outcome

namespace RaceTracker.Ingest

open RaceTracker.Lib

/-! The status of the stored F1TV token.

The token goes through a file, a split, base64 and JSON under one `try`.  What comes after it, and
the exceptions that its handler does not list, leave `auth_status`.
-/

/-- The exceptions that can come up on the way. -/
inductive PyException where
  | osError
  | keyError
  | typeError
  | valueError
  | indexError
  | binasciiError
  | overflowError
  | recursionError
deriving DecidableEq

/-- `except (OSError, KeyError, TypeError, ValueError, IndexError, binascii.Error)` -/
def handled : PyException → Bool
  | .overflowError => false
  | .recursionError => false
  | _ => true

inductive PyFloat where
  | finite (value : Rat)
  | infinite (negative : Bool)
  | nan
deriving DecidableEq

/-- What `json.loads` can give. -/
inductive PyValue where
  | none
  | bool (value : Bool)
  | int (value : Int)
  | float (value : PyFloat)
  | str (text : String)
  | list (items : List PyValue)
  | dict (members : List (String × PyValue))

def PyValue.truthy : PyValue → Bool
  | .none => false
  | .bool value => value
  | .int value => value ≠ 0
  | .float value => value ≠ .finite 0
  | .str text => text ≠ ""
  | .list items => !items.isEmpty
  | .dict members => !members.isEmpty

/-- What the interpreter does that the code does not say. -/
structure Interpreter where
  /-- The text of a file; `none` is a `UnicodeDecodeError`. -/
  decode : List UInt8 → Option (List Char)
  isSpace : Char → Bool
  loads : List UInt8 → Except PyException PyValue
  /-- Malformed JSON is a `ValueError`; nesting can exhaust the stack. -/
  loads_raises : ∀ bytes raised, loads bytes = .error raised → raised = .valueError ∨ raised = .recursionError
  /-- `int` of a text; `none` is a `ValueError`. -/
  intText : String → Option Int
  isoformat : Int → String
  /-- What an instant outside the years of `datetime` raises. -/
  dateError : Int → PyException
  /-- `none` is a `RecursionError`. -/
  str : PyValue → Option String

/-- What the path leads to. -/
inductive TokenFile where
  /-- There is no path. -/
  | unlocated
  | unreadable
  | content (bytes : List UInt8)

inductive AuthState where
  | unlinked
  | linked
  | expired
deriving DecidableEq

structure AuthStatus where
  state : AuthState
  expiresUtc : Option String
  tier : Option String
  product : Option String
deriving DecidableEq

def AuthStatus.unlinked : AuthStatus := ⟨.unlinked, none, none, none⟩

def tierClaim : String := "SubscriptionStatus"

def productClaim : String := "SubscribedProduct"

/-- `claims[key]` -/
def subscript (claims : PyValue) (key : String) : Except PyException PyValue :=
  match claims with
  | .dict members =>
      match members.lookup key with
      | some value => .ok value
      | none => .error .keyError
  | _ => .error .typeError

/-- `claims.get(key)`, for a dict. -/
def PyValue.get (claims : PyValue) (key : String) : Option PyValue :=
  match claims with
  | .dict members => members.lookup key
  | _ => none

/-- The years 1 to 9999 in seconds. -/
def Dated (exp : Int) : Prop := -62135596800 ≤ exp ∧ exp ≤ 253402300799

instance (exp : Int) : Decidable (Dated exp) := inferInstanceAs (Decidable (_ ∧ _))

section

variable (python : Interpreter)

def strip (text : List Char) : List Char := (text.dropWhile python.isSpace).rdropWhile python.isSpace

/-- `path.read_text().strip()` -/
def readToken : TokenFile → Except PyException (List Char)
  | .content bytes =>
      match python.decode bytes with
      | some text => .ok (strip python text)
      | none => .error .valueError
  | _ => .error .osError

def decodeClaims (jwt : List Char) : Except PyException PyValue :=
  match (jwt.splitOn '.')[1]? with
  | none => .error .indexError
  | some payload =>
      match urlsafeB64decode (padded payload) with
      | .error .notAscii => .error .valueError
      | .error .invalid => .error .binasciiError
      | .ok bytes => python.loads bytes

/-- `int(value)` -/
def intOf : PyValue → Except PyException Int
  | .int value => .ok value
  | .bool value => .ok (if value then 1 else 0)
  | .float (.finite value) => .ok (if value < 0 then ⌈value⌉ else ⌊value⌋)
  | .float (.infinite _) => .error .overflowError
  | .float .nan => .error .valueError
  | .str text =>
      match python.intText text with
      | some value => .ok value
      | none => .error .valueError
  | _ => .error .typeError

/-- What stands under the `try`: the claims and their expiry, unless the file is empty. -/
def readClaims (file : TokenFile) : Except PyException (Option (PyValue × Int)) := do
  let token ← readToken python file
  if token = [] then return none
  else
    let claims ← decodeClaims python token
    let value ← subscript claims "exp"
    let exp ← intOf python value
    return some (claims, exp)

def fromtimestamp (exp : Int) : Except PyException String :=
  if Dated exp then .ok (python.isoformat exp) else .error (python.dateError exp)

/-- The text of a claim that is there and not falsy. -/
def claimText (claims : PyValue) (claim : String) : Except PyException (Option String) :=
  match claims.get claim with
  | some value =>
      if value.truthy then
        match python.str value with
        | some text => .ok (some text)
        | none => .error .recursionError
      else .ok none
  | none => .ok none

/-- What is reported once the claims and their expiry are known. -/
def tokenStatus (now : Rat) (claims : PyValue) (exp : Int) : Except PyException AuthStatus := do
  let expiresUtc ← fromtimestamp python exp
  if exp ≤ now then return ⟨.expired, some expiresUtc, none, none⟩
  else
    let tier ← claimText python claims tierClaim
    let product ← claimText python claims productClaim
    return ⟨.linked, some expiresUtc, tier, product⟩

def authStatus (now : Rat) (file : TokenFile) : Except PyException AuthStatus :=
  match file with
  | .unlocated => .ok .unlinked
  | file =>
      match readClaims python file with
      | .error raised => if handled raised then .ok .unlinked else .error raised
      | .ok none => .ok .unlinked
      | .ok (some (claims, exp)) => tokenStatus python now claims exp

/-- The claims a file holds. -/
def claimsOf (file : TokenFile) : Except PyException PyValue := do decodeClaims python (← readToken python file)

/-- The file holds claims, and they expire at `exp`. -/
def Expires (file : TokenFile) (claims : PyValue) (exp : Int) : Prop :=
  claimsOf python file = .ok claims ∧ ∃ value, subscript claims "exp" = .ok value ∧ intOf python value = .ok exp

/-- Only a token that is still valid is linked, and one that cannot be used is unlinked. -/
structure Describes (now : Rat) (file : TokenFile) (status : AuthStatus) : Prop where
  linked : status.state = .linked → ∃ claims exp, Expires python file claims exp ∧ now < exp
  unusable : (¬ ∃ claims exp, Expires python file claims exp) → status = .unlinked

/-- The text of a claim can be made. -/
def Printed (claims : PyValue) (claim : String) : Prop :=
  ∀ value ∈ claims.get claim, value.truthy → (python.str value).isSome

/-- Nothing in the file escapes the handler: the claims do not nest too deeply, they do not expire
at an infinity, and they expire in a year that a date can have. -/
structure Tractable (now : Rat) (file : TokenFile) : Prop where
  shallow : claimsOf python file ≠ .error .recursionError
  finite : ∀ claims, claimsOf python file = .ok claims →
    ∀ negative, subscript claims "exp" ≠ .ok (.float (.infinite negative))
  dated : ∀ claims exp, Expires python file claims exp → Dated exp
  printed : ∀ claims exp, Expires python file claims exp → now < exp →
    ∀ claim ∈ [tierClaim, productClaim], Printed python claims claim

end

variable {python : Interpreter} {file : TokenFile} {now : Rat} {raised : PyException}

theorem decodeClaims_error {jwt : List Char} (failed : decodeClaims python jwt = .error raised) :
    handled raised = true ∨ raised = .recursionError := by
  rw [decodeClaims] at failed
  split at failed
  · cases failed
    exact .inl rfl
  · split at failed
    · cases failed
      exact .inl rfl
    · cases failed
      exact .inl rfl
    · rcases python.loads_raises _ _ failed with rfl | rfl
      · exact .inl rfl
      · exact .inr rfl

theorem subscript_error {claims : PyValue} {key : String} (failed : subscript claims key = .error raised) :
    handled raised = true := by
  rw [subscript.eq_def] at failed
  split at failed
  · split at failed
    · cases failed
    · cases failed
      rfl
  · cases failed
    rfl

theorem intOf_error {value : PyValue} (failed : intOf python value = .error raised) :
    handled raised = true ∨ ∃ negative, value = .float (.infinite negative) := by
  rw [intOf.eq_def] at failed
  split at failed <;> try cases failed
  · exact .inr ⟨_, rfl⟩
  · exact .inl rfl
  · split at failed
    · cases failed
    · cases failed
      exact .inl rfl
  · exact .inl rfl

theorem readToken_error (failed : readToken python file = .error raised) : handled raised = true := by
  rw [readToken.eq_def] at failed
  split at failed
  · split at failed
    · cases failed
    · cases failed
      rfl
  · cases failed
    rfl

theorem readClaims_some_iff {claims : PyValue} {exp : Int} :
    readClaims python file = .ok (some (claims, exp)) ↔ Expires python file claims exp := by
  constructor
  · intro read
    obtain ⟨token, own, rest⟩ := bind_eq_ok_iff.mp read
    split at rest
    · cases rest
    obtain ⟨decoded, made, rest⟩ := bind_eq_ok_iff.mp rest
    obtain ⟨value, found, rest⟩ := bind_eq_ok_iff.mp rest
    obtain ⟨number, whole, rest⟩ := bind_eq_ok_iff.mp rest
    cases rest
    exact ⟨bind_eq_ok_iff.mpr ⟨token, own, made⟩, value, found, whole⟩
  · rintro ⟨decoded, value, found, whole⟩
    obtain ⟨token, own, made⟩ := bind_eq_ok_iff.mp decoded
    have given : token ≠ [] := by
      rintro rfl
      cases made
    rw [readClaims, own, ok_bind, if_neg given, made, ok_bind, found, ok_bind, whole]
    rfl

/-- What gets past the handler. -/
theorem readClaims_error (failed : readClaims python file = .error raised) :
    handled raised = true ∨ claimsOf python file = .error .recursionError ∨
      ∃ claims negative, claimsOf python file = .ok claims ∧
        subscript claims "exp" = .ok (.float (.infinite negative)) := by
  rcases bind_eq_error_iff.mp failed with unread | ⟨token, own, rest⟩
  · exact .inl (readToken_error unread)
  split at rest
  · cases rest
  rcases bind_eq_error_iff.mp rest with undecoded | ⟨claims, made, rest⟩
  · rcases decodeClaims_error undecoded with handled | rfl
    · exact .inl handled
    · exact .inr (.inl (by rw [claimsOf, own, ok_bind, undecoded]))
  rcases bind_eq_error_iff.mp rest with missing | ⟨value, found, rest⟩
  · exact .inl (subscript_error missing)
  rcases bind_eq_error_iff.mp rest with wrong | ⟨exp, _, rest⟩
  · rcases intOf_error wrong with handled | ⟨negative, rfl⟩
    · exact .inl handled
    · exact .inr (.inr ⟨claims, negative, by rw [claimsOf, own, ok_bind, made], found⟩)
  · cases rest

theorem readClaims_of_claimsOf {result : Except PyException PyValue}
    (decoded : claimsOf python file = result) (token : result ≠ .error .indexError) :
    readClaims python file = (do
      let claims ← result
      let value ← subscript claims "exp"
      let exp ← intOf python value
      return some (claims, exp)) := by
  subst decoded
  rw [readClaims, claimsOf] at *
  cases own : readToken python file with
  | error reason => rfl
  | ok text =>
      rw [own, ok_bind] at token
      rw [ok_bind, ok_bind, if_neg]
      rintro rfl
      exact token rfl

theorem authStatus_eq : authStatus python now file = match readClaims python file with
    | .error raised => if handled raised then .ok .unlinked else .error raised
    | .ok none => .ok .unlinked
    | .ok (some (claims, exp)) => tokenStatus python now claims exp := by
  cases file <;> rfl

theorem authStatus_of_expires {claims : PyValue} {exp : Int} (expires : Expires python file claims exp) :
    authStatus python now file = tokenStatus python now claims exp := by
  rw [authStatus_eq, readClaims_some_iff.mpr expires]

variable {claims : PyValue} {exp : Int}

theorem claimText_ok_iff {claim : String} :
    (∃ text, claimText python claims claim = .ok text) ↔ Printed python claims claim := by
  rw [claimText, Printed]
  cases claims.get claim with
  | none => simp
  | some value =>
      cases truthy : value.truthy <;> cases text : python.str value <;> simp [truthy, text]

/-- The state follows the expiry. -/
theorem tokenStatus_state {status : AuthStatus} (reported : tokenStatus python now claims exp = .ok status) :
    status.state = if exp ≤ now then .expired else .linked := by
  obtain ⟨expiresUtc, _, rest⟩ := bind_eq_ok_iff.mp reported
  split at rest
  · rename_i past
    cases rest
    exact (if_pos past).symm
  · rename_i live
    obtain ⟨tier, _, rest⟩ := bind_eq_ok_iff.mp rest
    obtain ⟨product, _, rest⟩ := bind_eq_ok_iff.mp rest
    cases rest
    exact (if_neg live).symm

theorem tokenStatus_ok_iff : (∃ status, tokenStatus python now claims exp = .ok status) ↔
    Dated exp ∧ (now < exp → ∀ claim ∈ [tierClaim, productClaim], Printed python claims claim) := by
  rw [tokenStatus, fromtimestamp]
  by_cases dated : Dated exp
  · rw [if_pos dated, ok_bind]
    by_cases past : exp ≤ now
    · simp [past, dated, not_lt.mpr past]
    · have live : now < exp := not_le.mp past
      simp only [if_neg past, dated, live, true_and, forall_true_left, List.forall_mem_cons,
        List.not_mem_nil, false_imp_iff, implies_true, and_true, bind_eq_ok_iff, ← claimText_ok_iff]
      constructor
      · rintro ⟨status, tier, first, product, second, -⟩
        exact ⟨⟨tier, first⟩, product, second⟩
      · rintro ⟨⟨tier, first⟩, product, second⟩
        exact ⟨_, tier, first, product, second, rfl⟩
  · simp [dated]

theorem tractable_of_ok {status : AuthStatus} (reported : authStatus python now file = .ok status) :
    Tractable python now file := by
  have tokens {claims : PyValue} {exp : Int} (expires : Expires python file claims exp) :=
    tokenStatus_ok_iff.mp ⟨status, (authStatus_of_expires expires).symm.trans reported⟩
  refine ⟨fun deep => ?_, fun claims decoded negative infinite => ?_, ?_, ?_⟩
  · rw [authStatus_eq, readClaims_of_claimsOf deep (by simp)] at reported
    cases reported
  · rw [authStatus_eq, readClaims_of_claimsOf decoded (by simp), ok_bind, infinite] at reported
    cases reported
  · exact fun claims exp expires => (tokens expires).1
  · exact fun claims exp expires live => (tokens expires).2 live

/-- A status comes back, and it says what the file allows, exactly if nothing in the file escapes. -/
theorem authStatus_total_iff (python : Interpreter) (now : Rat) (file : TokenFile) :
    (∃ status, authStatus python now file = .ok status ∧ Describes python now file status) ↔
      Tractable python now file := by
  refine ⟨fun ⟨status, reported, _⟩ => tractable_of_ok reported, fun tractable => ?_⟩
  rcases read : readClaims python file with raised | _ | ⟨claims, exp⟩
  · have escapes : handled raised = true := by
      rcases readClaims_error read with handled | deep | ⟨claims, negative, decoded, infinite⟩
      · exact handled
      · exact absurd deep tractable.shallow
      · exact absurd infinite (tractable.finite claims decoded negative)
    refine ⟨.unlinked, ?_, nofun, fun _ => rfl⟩
    rw [authStatus_eq, read]
    exact if_pos escapes
  · exact ⟨.unlinked, by rw [authStatus_eq, read], nofun, fun _ => rfl⟩
  · have expires := readClaims_some_iff.mp read
    obtain ⟨status, reported⟩ := tokenStatus_ok_iff.mpr
      ⟨tractable.dated claims exp expires, tractable.printed claims exp expires⟩
    refine ⟨status, (authStatus_of_expires expires).trans reported, fun linked => ?_, fun none => ?_⟩
    · rw [tokenStatus_state reported] at linked
      split at linked
      · cases linked
      · rename_i live
        exact ⟨claims, exp, expires, not_le.mp live⟩
    · exact absurd ⟨claims, exp, expires⟩ none

/-- The claims of a token are what its middle part was made from. -/
theorem decodeClaims_token {header signature : List Char} (first : '.' ∉ header)
    (last : '.' ∉ signature) (payload : List UInt8) :
    decodeClaims python (['.'].intercalate [header, urlsafeB64encode payload, signature]) =
      python.loads payload := by
  have pieces : (['.'].intercalate [header, urlsafeB64encode payload, signature]).splitOn '.' =
      [header, urlsafeB64encode payload, signature] := by
    apply List.splitOn_intercalate
    · intro piece member
      simp only [List.mem_cons, List.not_mem_nil, or_false] at member
      rcases member with rfl | rfl | rfl
      · exact first
      · exact notMem_urlsafeB64encode (by decide) payload
      · exact last
    · simp
  rw [decodeClaims, pieces]
  simp only [List.getElem?_cons_succ, List.getElem?_cons_zero, urlsafeB64decode_encode]

/-- `{"exp":1767225600000}`: milliseconds where seconds are meant. -/
def millisecondClaims : List UInt8 :=
  "\x7b\"exp\":1767225600000\x7d".toList.map fun c => UInt8.ofNat c.toNat

/-- An interpreter as far as one token needs it. -/
def oneToken : Interpreter where
  decode bytes := bytes.mapM fun byte => if byte < 128 then some (Char.ofNat byte.toNat) else none
  isSpace c := c = ' ' ∨ c = Char.ofNat 10
  loads bytes :=
    if bytes = millisecondClaims then .ok (.dict [("exp", .int 1767225600000)]) else .error .valueError
  loads_raises bytes raised failed := by
    split at failed
    · cases failed
    · cases failed
      exact .inl rfl
  intText := parseDecimal
  isoformat := decimal
  dateError _ := .valueError
  str _ := some ""

def millisecondToken : TokenFile :=
  .content ("h.eyJleHAiOjE3NjcyMjU2MDAwMDB9.s".toList.map fun c => UInt8.ofNat c.toNat)

/-- A token whose expiry lies beyond the year 9999 has no status. -/
theorem authStatus_milliseconds : ¬ ∃ status, authStatus oneToken 1767000000 millisecondToken = .ok status ∧
    Describes oneToken 1767000000 millisecondToken status := by
  rintro ⟨status, reported, -⟩
  have encoded : "h.eyJleHAiOjE3NjcyMjU2MDAwMDB9.s".toList =
      ['.'].intercalate [['h'], urlsafeB64encode millisecondClaims, ['s']] := by decide +kernel
  have read : readToken oneToken millisecondToken =
      .ok (['.'].intercalate [['h'], urlsafeB64encode millisecondClaims, ['s']]) := by
    rw [← encoded]
    decide +kernel
  have decoded : claimsOf oneToken millisecondToken = .ok (.dict [("exp", .int 1767225600000)]) := by
    rw [claimsOf, read, ok_bind, decodeClaims_token (by decide) (by decide)]
    simp [oneToken]
  have dated := (tractable_of_ok reported).dated _ 1767225600000 ⟨decoded, .int 1767225600000, rfl, rfl⟩
  exact absurd dated (by decide)

end RaceTracker.Ingest
