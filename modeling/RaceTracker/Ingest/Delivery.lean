import RaceTracker.Ingest.Feed

namespace RaceTracker.Ingest

open RaceTracker.Lib RaceTracker.Model

/-! Team radio from the feed to the frames.

A clip is queued once, waits, and rides the next frame.  The accounts below say
where every clip that was ever seen has gone.
-/

section

variable {γ β : Type} (builtins : Builtins γ β)

def radioCaptures : Json → List (List (String × Json))
  | .obj members => capturesOf builtins members
  | _ => []

/-- The clips of the captures that resolve; the other captures are passed over. -/
def clipsIn (sessionPath : String) (captures : List (List (String × Json))) : List String :=
  captures.filterMap fun capture => match captureRef builtins staticBase sessionPath capture with
    | .ok (some ref) => some ref.clip
    | _ => none

/-- Some capture raises. -/
def Raises (sessionPath : String) (captures : List (List (String × Json))) : Prop :=
  ∃ capture ∈ captures, ∃ error, captureRef builtins staticBase sessionPath capture = .error error

/-- `seen` grows by the clips of the refs that a batch of captures gives. -/
structure Takes (sessionPath : String) (captures : List (List (String × Json)))
    (seen seen' : List String) (refs : List RadioRef) : Prop where
  grows : seen'.Perm (seen ++ refs.map RadioRef.clip)
  distinct : seen.Nodup → seen'.Nodup
  found : ∀ ref ∈ refs, ref.clip ∈ clipsIn builtins sessionPath captures

/-- A batch that went well: all its clips are seen now. -/
structure TookAll (sessionPath : String) (captures : List (List (String × Json)))
    (seen seen' : List String) (refs : List RadioRef) : Prop
    extends Takes builtins sessionPath captures seen seen' refs where
  complete : ∀ clip ∈ clipsIn builtins sessionPath captures, clip ∈ seen'

/-- What handling a batch comes to.  When it raises, the refs it had found are gone. -/
def Took (sessionPath : String) (captures : List (List (String × Json))) (seen : List String) :
    List String × Except PyError (List RadioRef) → Prop
  | (seen', .ok refs) => TookAll builtins sessionPath captures seen seen' refs
  | (seen', .error _) => (∃ refs, Takes builtins sessionPath captures seen seen' refs) ∧
      Raises builtins sessionPath captures

end

section

variable {γ β : Type} {builtins : Builtins γ β} {sessionPath : String}
  {captures : List (List (String × Json))} {seen seen' : List String} {refs : List RadioRef}

theorem Takes.nothing : Takes builtins sessionPath captures seen seen [] where
  grows := by rw [List.map_nil, List.append_nil]
  distinct nodup := nodup
  found := nofun

theorem Takes.mono {more : List (List (String × Json))}
    (takes : Takes builtins sessionPath captures seen seen' refs)
    (within : ∀ clip ∈ clipsIn builtins sessionPath captures, clip ∈ clipsIn builtins sessionPath more) :
    Takes builtins sessionPath more seen seen' refs where
  grows := takes.grows
  distinct := takes.distinct
  found ref member := within _ (takes.found ref member)

theorem Takes.trans {seen'' : List String} {later : List RadioRef}
    (first : Takes builtins sessionPath captures seen seen' refs)
    (second : Takes builtins sessionPath captures seen' seen'' later) :
    Takes builtins sessionPath captures seen seen'' (refs ++ later) where
  grows := by
    rw [List.map_append, ← List.append_assoc]
    exact second.grows.trans (first.grows.append_right _)
  distinct nodup := second.distinct (first.distinct nodup)
  found ref member := (List.mem_append.mp member).elim (first.found ref) (second.found ref)

theorem Takes.one {ref : RadioRef} (new : ref.clip ∉ seen)
    (found : ref.clip ∈ clipsIn builtins sessionPath captures) :
    Takes builtins sessionPath captures seen (seen ++ [ref.clip]) [ref] where
  grows := List.Perm.refl _
  distinct nodup := List.nodup_append.mpr ⟨nodup, List.nodup_singleton _, by
    intro clip old other fresh same
    rw [same, List.mem_singleton.mp fresh] at old
    exact new old⟩
  found listed member := by
    rw [List.mem_singleton.mp member]
    exact found

theorem Takes.sorted (takes : Takes builtins sessionPath captures seen seen' refs)
    (le : RadioRef → RadioRef → Bool) :
    Takes builtins sessionPath captures seen seen' (refs.mergeSort le) where
  grows := takes.grows.trans (((List.mergeSort_perm refs le).map _).symm.append_left _)
  distinct := takes.distinct
  found ref member := takes.found ref (List.mem_mergeSort.mp member)

/-- Nothing is new to a batch whose clips have all been seen. -/
theorem Takes.stale (takes : Takes builtins sessionPath captures seen seen' refs)
    (nodup : seen.Nodup) (known : ∀ clip ∈ clipsIn builtins sessionPath captures, clip ∈ seen) :
    refs = [] := by
  have apart := takes.grows.nodup_iff.mp (takes.distinct nodup)
  apply List.eq_nil_iff_forall_not_mem.mpr
  intro ref member
  exact (List.nodup_append.mp apart).2.2 _ (known _ (takes.found ref member)) _
    (List.mem_map_of_mem member) rfl

theorem clipsIn_append (first second : List (List (String × Json))) :
    clipsIn builtins sessionPath (first ++ second) =
      clipsIn builtins sessionPath first ++ clipsIn builtins sessionPath second :=
  List.filterMap_append

theorem clipsIn_subset {some all : List (List (String × Json))} (within : some ⊆ all) :
    ∀ clip ∈ clipsIn builtins sessionPath some, clip ∈ clipsIn builtins sessionPath all := by
  intro clip member
  obtain ⟨capture, listed, resolved⟩ := List.mem_filterMap.mp member
  exact List.mem_filterMap.mpr ⟨capture, within listed, resolved⟩

theorem TookAll.then {more : List (List (String × Json))} {seen'' : List String}
    {later : List RadioRef} (first : TookAll builtins sessionPath captures seen seen' refs)
    (second : TookAll builtins sessionPath more seen' seen'' later) :
    TookAll builtins sessionPath (captures ++ more) seen seen'' (refs ++ later) where
  toTakes := (first.mono (clipsIn_subset (List.subset_append_left ..))).trans
    (second.mono (clipsIn_subset (List.subset_append_right ..)))
  complete clip member := by
    rw [clipsIn_append] at member
    rcases List.mem_append.mp member with old | new
    · exact second.grows.mem_iff.mpr (List.mem_append_left _ (first.complete clip old))
    · exact second.complete clip new

/-- One capture: it is passed over, it is old, or it is queued. -/
theorem takeCapture_took {out : List RadioRef} {capture : List (String × Json)}
    {after : List String × List RadioRef}
    (taken : takeCapture builtins staticBase sessionPath (seen, out) capture = (after, none)) :
    ∃ refs, after.2 = out ++ refs ∧ TookAll builtins sessionPath [capture] seen after.1 refs := by
  rw [takeCapture] at taken
  cases ref : captureRef builtins staticBase sessionPath capture with
  | error error => simp [ref] at taken
  | ok made =>
      cases made with
      | none =>
          have skipped : clipsIn builtins sessionPath [capture] = [] :=
            List.filterMap_cons_none (by rw [ref])
          simp only [ref] at taken
          cases taken
          exact ⟨[], (List.append_nil out).symm, Takes.nothing, by rw [skipped]; nofun⟩
      | some made =>
          have own : clipsIn builtins sessionPath [capture] = [made.clip] :=
            List.filterMap_cons_some (by rw [ref])
          simp only [ref] at taken
          by_cases old : made.clip ∈ seen
          · rw [if_pos old] at taken
            cases taken
            refine ⟨[], (List.append_nil out).symm, Takes.nothing, ?_⟩
            rw [own]
            intro clip member
            rwa [List.mem_singleton.mp member]
          · rw [if_neg old] at taken
            cases taken
            refine ⟨[made], rfl, Takes.one old (own ▸ List.mem_singleton_self _), ?_⟩
            rw [own]
            intro clip member
            exact List.mem_append_right _ member

theorem liveRadioRefs_took (captures : List (List (String × Json))) (seen : List String) :
    Took builtins sessionPath captures seen
      (liveRadioRefs builtins captures staticBase sessionPath seen) := by
  rw [liveRadioRefs]
  have loop := foldUntil_cases (takeCapture builtins staticBase sessionPath) (seen, [])
    (P := fun done state => TookAll builtins sessionPath done seen state.1 state.2)
    ⟨Takes.nothing, nofun⟩ (by
      intro done capture before after taken step
      obtain ⟨refs, same, took⟩ := takeCapture_took step
      rw [same]
      exact taken.then took) captures
  rcases loop with ended | stopped
  · obtain ⟨last, same, took⟩ := ended
    rw [same]
    exact ⟨took.sorted _, took.complete⟩
  · obtain ⟨done, capture, rest, before, last, error, split, took, failed, same⟩ := stopped
    rw [same]
    rw [takeCapture] at failed
    cases ref : captureRef builtins staticBase sessionPath capture with
    | ok made =>
        cases made with
        | none => simp [ref] at failed
        | some made =>
            simp only [ref] at failed
            split at failed <;> simp at failed
    | error raised =>
        simp only [ref] at failed
        cases failed
        subst split
        exact ⟨⟨before.2, took.mono (clipsIn_subset (List.subset_append_left ..))⟩,
          capture, by simp, error, ref⟩

theorem radioFromPayload_took (builtins : Builtins γ β) (known : sessionPath ≠ "") (payload : Json)
    (seen : List String) :
    Took builtins sessionPath (radioCaptures builtins payload) seen
      (radioFromPayload builtins payload sessionPath seen) := by
  unfold radioFromPayload radioCaptures
  cases payload with
  | obj members =>
      simp only
      rw [if_neg known]
      exact liveRadioRefs_took _ _
  | _ => exact ⟨Takes.nothing, nofun⟩

theorem drain_took (known : sessionPath ≠ "") (payloads : List Json) (seen : List String) :
    let batch := payloads.flatMap (radioCaptures builtins)
    (∃ seen' refs, foldUntil (drain builtins sessionPath) (seen, []) payloads = ((seen', refs), none) ∧
        TookAll builtins sessionPath batch seen seen' refs) ∨
      ∃ last error, foldUntil (drain builtins sessionPath) (seen, []) payloads = (last, some error) ∧
        (∃ refs, Takes builtins sessionPath batch seen last.1 refs) ∧
          Raises builtins sessionPath batch := by
  intro batch
  have loop := foldUntil_cases (drain builtins sessionPath) (seen, [])
    (P := fun done state =>
      TookAll builtins sessionPath (done.flatMap (radioCaptures builtins)) seen state.1 state.2)
    ⟨Takes.nothing, nofun⟩ (by
      intro done payload before after taken step
      have took := radioFromPayload_took builtins known payload before.1
      rw [drain] at step
      split at step
      · cases step
      · rename_i seen' refs same
        cases step
        rw [same] at took
        rw [List.flatMap_append, List.flatMap_singleton]
        exact taken.then took) payloads
  rcases loop with ended | stopped
  · obtain ⟨last, same, took⟩ := ended
    exact .inl ⟨last.1, last.2, same, took⟩
  · obtain ⟨done, payload, rest, before, last, error, split, taken, failed, same⟩ := stopped
    refine .inr ⟨last, error, same, ?_⟩
    have took := radioFromPayload_took builtins known payload before.1
    have within : done.flatMap (radioCaptures builtins) ++ radioCaptures builtins payload ⊆ batch := by
      intro capture member
      subst split
      simp only [batch, List.flatMap_append, List.flatMap_cons, List.mem_append] at member ⊢
      tauto
    rw [drain] at failed
    split at failed
    · rename_i seen' raised called
      cases failed
      rw [called] at took
      obtain ⟨⟨refs, takes⟩, capture, listed, error, raises⟩ := took
      exact ⟨⟨before.2 ++ refs,
        (taken.mono (clipsIn_subset fun _ member => within (List.mem_append_left _ member))).trans
          (takes.mono (clipsIn_subset fun _ member => within (List.mem_append_right _ member)))⟩,
        capture, within (List.mem_append_right _ listed), error, raises⟩
    · simp at failed

end

/-- Every clip that was seen has been shown, is waiting, or is lost. -/
structure Accounts (desk : RadioDesk) (shown lost : List String) : Prop where
  seen : desk.seenClips.Perm (shown ++ desk.pendingRadio.map RadioRef.clip ++ lost)
  distinct : desk.seenClips.Nodup

section

variable {γ β : Type} (builtins : Builtins γ β)

/-- A batch was handled at the desk: its refs are queued, or it raised and they are gone. -/
def Handled (sessionPath : String) (captures : List (List (String × Json)))
    (desk desk' : RadioDesk) : Prop :=
  (∃ refs, TookAll builtins sessionPath captures desk.seenClips desk'.seenClips refs ∧
      desk'.pendingRadio = desk.pendingRadio ++ refs) ∨
    (∃ refs, Takes builtins sessionPath captures desk.seenClips desk'.seenClips refs) ∧
      Raises builtins sessionPath captures ∧ desk'.pendingRadio = desk.pendingRadio

/-- The batch does not raise, or it has nothing new to lose. -/
def Harmless (sessionPath : String) (captures : List (List (String × Json)))
    (seen : List String) : Prop :=
  ¬ Raises builtins sessionPath captures ∨ ∀ clip ∈ clipsIn builtins sessionPath captures, clip ∈ seen

end

section

variable {γ β : Type} {builtins : Builtins γ β} {sessionPath : String}
  {captures : List (List (String × Json))} {desk desk' : RadioDesk} {shown lost : List String}

theorem Accounts.queue {refs : List RadioRef} (accounts : Accounts desk shown lost)
    (takes : Takes builtins sessionPath captures desk.seenClips desk'.seenClips refs)
    (pending : desk'.pendingRadio = desk.pendingRadio ++ refs) : Accounts desk' shown lost where
  seen := by
    rw [pending, List.map_append]
    refine takes.grows.trans ((accounts.seen.append_right _).trans ?_)
    simp only [List.append_assoc]
    exact (List.perm_append_comm.append_left _).append_left _
  distinct := takes.distinct accounts.distinct

theorem Accounts.handled (accounts : Accounts desk shown lost)
    (handled : Handled builtins sessionPath captures desk desk') :
    ∃ lost', Accounts desk' shown lost' := by
  rcases handled with queued | dropped
  · obtain ⟨refs, took, pending⟩ := queued
    exact ⟨lost, accounts.queue took.toTakes pending⟩
  · obtain ⟨⟨refs, takes⟩, _, pending⟩ := dropped
    refine ⟨lost ++ refs.map RadioRef.clip, ?_, takes.distinct accounts.distinct⟩
    rw [pending, ← List.append_assoc]
    exact takes.grows.trans (accounts.seen.append_right _)

theorem Handled.harmless (handled : Handled builtins sessionPath captures desk desk')
    (nodup : desk.seenClips.Nodup) (harmless : Harmless builtins sessionPath captures desk.seenClips) :
    ∃ refs, TookAll builtins sessionPath captures desk.seenClips desk'.seenClips refs ∧
      desk'.pendingRadio = desk.pendingRadio ++ refs := by
  rcases handled with queued | dropped
  · exact queued
  · obtain ⟨⟨refs, takes⟩, raises, pending⟩ := dropped
    have known := harmless.resolve_left (not_not_intro raises)
    obtain rfl := takes.stale nodup known
    refine ⟨[], ⟨takes, ?_⟩, by rw [pending, List.append_nil]⟩
    intro clip member
    exact takes.grows.mem_iff.mpr (List.mem_append_left _ (known clip member))

theorem TookAll.mem_iff {seen seen' : List String} {refs : List RadioRef}
    (took : TookAll builtins sessionPath captures seen seen' refs) {clip : String} :
    clip ∈ seen' ↔ clip ∈ seen ∨ clip ∈ clipsIn builtins sessionPath captures := by
  constructor
  · intro member
    rcases List.mem_append.mp (took.grows.mem_iff.mp member) with old | new
    · exact .inl old
    · obtain ⟨ref, queued, rfl⟩ := List.mem_map.mp new
      exact .inr (took.found ref queued)
  · intro member
    rcases member with old | new
    · exact took.grows.mem_iff.mpr (List.mem_append_left _ old)
    · exact took.complete clip new

theorem teamRadio_handled (builtins : Builtins γ β) (known : desk.sessionPath ≠ "")
    (payload : Json) :
    let desk' := (desk.teamRadio builtins payload).1
    Handled builtins desk.sessionPath (radioCaptures builtins payload) desk desk' ∧
      desk'.sessionPath = desk.sessionPath ∧ desk'.deferredRadio = desk.deferredRadio := by
  have took := radioFromPayload_took builtins known payload desk.seenClips
  rw [RadioDesk.teamRadio]
  rw [if_neg known]
  cases called : radioFromPayload builtins payload desk.sessionPath desk.seenClips with
  | mk seenClips result =>
      rw [called] at took
      cases result with
      | error error => exact ⟨.inr ⟨took.1, took.2, rfl⟩, rfl, rfl⟩
      | ok refs => exact ⟨.inl ⟨refs, took, rfl⟩, rfl, rfl⟩

theorem sessionInfo_handled (builtins : Builtins γ β) {payload : Json}
    (known : learnedPath desk.sessionPath payload ≠ "") :
    let path := learnedPath desk.sessionPath payload
    let batch := desk.deferredRadio.flatMap (radioCaptures builtins)
    let desk' := (desk.sessionInfo builtins payload).1
    Handled builtins path batch desk desk' ∧ desk'.sessionPath = path ∧
      (desk'.deferredRadio = [] ∨
        desk'.deferredRadio = desk.deferredRadio ∧ Raises builtins path batch) := by
  intro path batch
  rw [RadioDesk.sessionInfo]
  simp only
  by_cases empty : desk.deferredRadio = []
  · rw [if_pos (.inr empty)]
    have nothing : batch = [] := by
      simp only [batch, empty, List.flatMap_nil]
    rw [nothing]
    exact ⟨.inl ⟨[], ⟨Takes.nothing, nofun⟩, (List.append_nil _).symm⟩, rfl, .inl empty⟩
  · rw [if_neg (not_or_intro known empty)]
    rcases drain_took known desk.deferredRadio desk.seenClips with ended | stopped
    · obtain ⟨seen', refs, same, took⟩ := ended
      rw [same]
      exact ⟨.inl ⟨refs, took, rfl⟩, rfl, .inl rfl⟩
    · obtain ⟨last, error, same, takes, raises⟩ := stopped
      rw [same]
      exact ⟨.inr ⟨takes, raises, rfl⟩, rfl, .inr ⟨rfl, raises⟩⟩

end

def refClip (ref : Json) : Option String :=
  match ref.get? "clip" with
  | some (.str clip) => some clip
  | _ => none

/-- The clips of a frame's radio. -/
def carried (text : Json) : List String :=
  match text.get? "radio" with
  | some (.arr refs) => refs.filterMap refClip
  | _ => []

/-- The clips of the frames that were published, one after the other. -/
def deliveredClips (frames : List Publish) : List String :=
  (frames.filter fun frame => frame.bus = .delivered).flatMap fun frame => carried frame.text

theorem carried_frame {session : String} {rev now timeMs : Int} {cars : List Json}
    (refs : List RadioRef) : carried (.obj (Codec.members
      (frameEntries session rev now timeMs cars [] none (refs.map RadioRef.dumps)))) =
        refs.map RadioRef.clip := by
  have clips : (refs.map RadioRef.dumps).filterMap refClip = refs.map RadioRef.clip := by
    have clip : refClip ∘ RadioRef.dumps = some ∘ RadioRef.clip := by
      funext ref
      rfl
    rw [List.filterMap_map, clip, List.filterMap_eq_map]
  have listed : (.obj (Codec.members (frameEntries session rev now timeMs cars [] none
      (refs.map RadioRef.dumps))) : Json).get? "radio" =
        if refs.map RadioRef.dumps = [] then none else some (.arr (refs.map RadioRef.dumps)) :=
    get?_frame (by simp [frameEntries])
  rw [carried, listed]
  cases refs with
  | nil => rfl
  | cons ref rest => exact clips

section

variable {γ β : Type} {builtins : Builtins γ β} {feed : Feed β}

theorem records_desk (feed : Feed β) (entries : List (String × Car)) :
    (entries.foldl Feed.record feed).desk = feed.desk :=
  Feed.records_kept Feed.desk (fun _ _ => rfl) feed entries

theorem publish_carries (feed : Feed β) (message : Message) :
    carried (feed.publish message).2.text = feed.desk.pendingRadio.map RadioRef.clip :=
  carried_frame feed.desk.pendingRadio

theorem trailing_carries (run : LiveRun) (timeMs now : Int) (refs : List RadioRef) :
    carried (run.publishTrailingRadioFrame timeMs now (refs.map RadioRef.dumps)).2.2 =
      refs.map RadioRef.clip :=
  carried_frame refs

theorem position_desk (feed : Feed β) (message : Message) :
    ((feed.position builtins message).1.desk = feed.desk ∧
        (feed.position builtins message).2 = none) ∨
      ∃ frame, (feed.position builtins message).2 = some frame ∧ frame.bus = message.bus ∧
        carried frame.text = feed.desk.pendingRadio.map RadioRef.clip ∧
          (feed.position builtins message).1.desk = { feed.desk with pendingRadio := [] } := by
  rw [Feed.position]
  simp only
  split
  · exact .inl ⟨records_desk _ _, rfl⟩
  · refine .inr ⟨_, rfl, rfl, ?_, ?_⟩
    · rw [publish_carries, records_desk]
    · rw [Feed.publish]
      simp only [records_desk]

theorem dispatch_desk (builtins : Builtins γ β) (feed : Feed β) {message : Message}
    (info : message.topic ≠ .sessionInfo) (radio : message.topic ≠ .teamRadio) :
    ((feed.dispatch builtins message).1.desk = feed.desk ∧
        (feed.dispatch builtins message).2 = none) ∨
      ∃ frame, (feed.dispatch builtins message).2 = some frame ∧ frame.bus = message.bus ∧
        carried frame.text = feed.desk.pendingRadio.map RadioRef.clip ∧
          (feed.dispatch builtins message).1.desk = { feed.desk with pendingRadio := [] } := by
  obtain ⟨topic, payload, due, timeMs, now, bus⟩ := message
  rw [Feed.dispatch]
  simp only
  generalize Feed.decodePayload builtins payload = decoded
  cases topic with
  | sessionInfo => exact absurd rfl info
  | teamRadio => exact absurd rfl radio
  | driverList => cases decoded <;> exact .inl ⟨rfl, rfl⟩
  | timingData => cases decoded <;> exact .inl ⟨rfl, rfl⟩
  | timingAppData => cases decoded <;> exact .inl ⟨rfl, rfl⟩
  | other => exact .inl ⟨rfl, rfl⟩
  | position => exact position_desk feed _

end

/-- The session path, the payloads that wait for one, and the clips that resolved so far. -/
structure Caught where
  sessionPath : String
  parked : List Json
  clips : List String

def Caught.start : Caught := ⟨"", [], []⟩

section

variable {γ β : Type} (builtins : Builtins γ β)

def Caught.hear (caught : Caught) (message : Message) : Caught :=
  let payload := Feed.decodePayload builtins message.payload
  match message.topic with
  | .sessionInfo =>
      let path := learnedPath caught.sessionPath payload
      if path = "" then caught
      else
        let batch := caught.parked.flatMap (radioCaptures builtins)
        ⟨path, [], caught.clips ++ clipsIn builtins path batch⟩
  | .teamRadio =>
      if caught.sessionPath = "" then { caught with parked := caught.parked ++ [payload] }
      else
        let clips := clipsIn builtins caught.sessionPath (radioCaptures builtins payload)
        { caught with clips := caught.clips ++ clips }
  | _ => caught

def Caught.hearAll (caught : Caught) (messages : List Message) : Caught :=
  messages.foldl (hear builtins) caught

/-- The message drops no ref: a batch it handles is harmless, and a publish that has refs to carry
goes through. -/
def Feed.Safe (feed : Feed β) (message : Message) : Prop :=
  let payload := Feed.decodePayload builtins message.payload
  match message.topic with
  | .sessionInfo =>
      let path := learnedPath feed.desk.sessionPath payload
      let batch := feed.desk.deferredRadio.flatMap (radioCaptures builtins)
      path = "" ∨ Harmless builtins path batch feed.desk.seenClips
  | .teamRadio =>
      let path := feed.desk.sessionPath
      path = "" ∨ Harmless builtins path (radioCaptures builtins payload) feed.desk.seenClips
  | _ =>
      message.bus = .delivered ∨ feed.desk.pendingRadio = [] ∨
        (feed.dispatch builtins message).2 = none

def Feed.AllSafe (feed : Feed β) : List Message → Prop
  | [] => True
  | message :: rest => feed.Safe builtins message ∧ AllSafe (feed.dispatch builtins message).1 rest

/-- Nothing that resolved is lost, and nothing that is still parked will resolve. -/
structure Delivers (desk : RadioDesk) (caught : Caught) (shown : List String) : Prop where
  accounts : Accounts desk shown []
  sessionPath : desk.sessionPath = caught.sessionPath
  clips : ∀ clip, clip ∈ desk.seenClips ↔ clip ∈ caught.clips
  unopened : desk.sessionPath = "" → desk.seenClips = [] ∧ desk.deferredRadio = caught.parked
  opened : desk.sessionPath ≠ "" → caught.parked = [] ∧
    ∀ path, clipsIn builtins path (desk.deferredRadio.flatMap (radioCaptures builtins)) = []

end

section

variable {γ β : Type} {builtins : Builtins γ β} {feed : Feed β} {caught : Caught}
  {shown lost : List String}

/-- Whether a capture resolves has nothing to do with the path. -/
theorem captureRef_resolves {base path : String} {capture : List (String × Json)} {ref : RadioRef}
    (resolved : captureRef builtins base path capture = .ok (some ref)) (other : String) :
    ∃ ref', captureRef builtins base other capture = .ok (some ref') := by
  unfold captureRef at resolved ⊢
  split at resolved
  · rename_i utc number clip _ _ _
    cases read : readable builtins number utc with
    | error error =>
        rw [read] at resolved
        cases resolved
    | ok pair =>
        rw [read] at resolved
        cases pair with
        | none => cases resolved
        | some pair => cases clip with
            | str clip => exact ⟨_, rfl⟩
            | _ => cases resolved
  · cases resolved

theorem clipsIn_nil {path path' : String} {captures : List (List (String × Json))}
    (nothing : clipsIn builtins path captures = []) : clipsIn builtins path' captures = [] := by
  apply List.eq_nil_iff_forall_not_mem.mpr
  intro clip member
  obtain ⟨capture, listed, clips⟩ := List.mem_filterMap.mp member
  have skipped := List.filterMap_eq_nil_iff.mp nothing capture listed
  split at clips
  · rename_i ref resolved
    obtain ⟨ref', same⟩ := captureRef_resolves resolved path
    rw [same] at skipped
    cases skipped
  · cases clips

theorem delivers_start : Delivers builtins .start .start [] where
  accounts := ⟨List.Perm.refl _, List.nodup_nil⟩
  sessionPath := rfl
  clips _ := Iff.rfl
  unopened _ := ⟨rfl, rfl⟩
  opened open' := absurd rfl open'

theorem deliveredClips_nil : deliveredClips [] = [] := rfl

theorem deliveredClips_append (first second : List Publish) :
    deliveredClips (first ++ second) = deliveredClips first ++ deliveredClips second := by
  simp [deliveredClips]

theorem deliveredClips_one (frame : Publish) :
    deliveredClips [frame] = if frame.bus = .delivered then carried frame.text else [] := by
  by_cases delivered : frame.bus = .delivered <;> simp [deliveredClips, delivered]

/-- A publish moves the queue to the shown clips, or loses it. -/
theorem Accounts.published {desk : RadioDesk} (accounts : Accounts desk shown lost) {frame : Publish}
    (carries : carried frame.text = desk.pendingRadio.map RadioRef.clip) :
    ∃ lost', Accounts { desk with pendingRadio := [] } (shown ++ deliveredClips [frame]) lost' ∧
      (frame.bus = .delivered ∨ desk.pendingRadio = [] → lost' = lost) := by
  rw [deliveredClips_one, carries]
  by_cases delivered : frame.bus = .delivered
  · refine ⟨lost, ⟨?_, accounts.distinct⟩, fun _ => rfl⟩
    rw [if_pos delivered, List.map_nil, List.append_nil]
    exact accounts.seen
  · refine ⟨desk.pendingRadio.map RadioRef.clip ++ lost, ⟨?_, accounts.distinct⟩, ?_⟩
    · rw [if_neg delivered, List.map_nil, List.append_nil, List.append_nil, ← List.append_assoc]
      exact accounts.seen
    · intro kept
      rw [kept.resolve_left delivered]
      rfl

theorem dispatch_info {message : Message} (info : message.topic = .sessionInfo) :
    feed.dispatch builtins message = ({ feed with
      desk := (feed.desk.sessionInfo builtins (Feed.decodePayload builtins message.payload)).1 },
      none) := by
  obtain ⟨topic, payload, due, timeMs, now, bus⟩ := message
  cases info
  rfl

theorem dispatch_radio {message : Message} (radio : message.topic = .teamRadio) :
    feed.dispatch builtins message = ({ feed with
      desk := (feed.desk.teamRadio builtins (Feed.decodePayload builtins message.payload)).1 },
      none) := by
  obtain ⟨topic, payload, due, timeMs, now, bus⟩ := message
  cases radio
  rfl

theorem accounts_unopened {desk : RadioDesk} {payload : Json} (accounts : Accounts desk shown lost)
    (unknown : learnedPath desk.sessionPath payload = "") :
    Accounts (desk.sessionInfo builtins payload).1 shown lost := by
  rw [RadioDesk.sessionInfo]
  simp only
  rw [if_pos (.inl unknown)]
  exact ⟨accounts.seen, accounts.distinct⟩

theorem accounts_parked {desk : RadioDesk} {payload : Json} (accounts : Accounts desk shown lost)
    (unknown : desk.sessionPath = "") : Accounts (desk.teamRadio builtins payload).1 shown lost := by
  rw [RadioDesk.teamRadio]
  rw [if_pos unknown]
  exact ⟨accounts.seen, accounts.distinct⟩

/-- Whatever a message does to the feed, every clip is accounted for. -/
theorem accounts_dispatch (builtins : Builtins γ β) (accounts : Accounts feed.desk shown lost)
    (message : Message) :
    ∃ lost', Accounts (feed.dispatch builtins message).1.desk
      (shown ++ deliveredClips (feed.dispatch builtins message).2.toList) lost' := by
  by_cases info : message.topic = .sessionInfo
  · rw [dispatch_info info]
    simp only [Option.toList_none, deliveredClips_nil, List.append_nil]
    by_cases known : learnedPath feed.desk.sessionPath (Feed.decodePayload builtins message.payload) = ""
    · exact ⟨lost, accounts_unopened accounts known⟩
    · exact accounts.handled (sessionInfo_handled builtins known).1
  by_cases radio : message.topic = .teamRadio
  · rw [dispatch_radio radio]
    simp only [Option.toList_none, deliveredClips_nil, List.append_nil]
    by_cases known : feed.desk.sessionPath = ""
    · exact ⟨lost, accounts_parked accounts known⟩
    · exact accounts.handled (teamRadio_handled builtins known _).1
  rcases dispatch_desk builtins feed info radio with quiet | published
  · rw [quiet.1, quiet.2]
    exact ⟨lost, by simpa [deliveredClips_nil] using accounts⟩
  · obtain ⟨frame, sent, _, carries, desk⟩ := published
    obtain ⟨lost', moved, _⟩ := accounts.published carries
    rw [sent, desk]
    exact ⟨lost', moved⟩

theorem accounts_dispatchAll (builtins : Builtins γ β) (accounts : Accounts feed.desk shown lost)
    (messages : List Message) :
    ∃ lost', Accounts (feed.dispatchAll builtins messages).1.desk
      (shown ++ deliveredClips (feed.dispatchAll builtins messages).2) lost' := by
  induction messages generalizing feed shown lost with
  | nil => exact ⟨lost, by simpa [Feed.dispatchAll, deliveredClips_nil] using accounts⟩
  | cons message rest ih =>
      obtain ⟨lost', next⟩ := accounts_dispatch builtins accounts message
      have later := ih next
      rw [List.append_assoc, ← deliveredClips_append] at later
      exact later

theorem Delivers.batch {path : String} {captures : List (List (String × Json))}
    {desk desk' : RadioDesk} (delivers : Delivers builtins desk caught shown)
    (handled : Handled builtins path captures desk desk')
    (harmless : Harmless builtins path captures desk.seenClips) :
    Accounts desk' shown [] ∧
      ∀ clip, clip ∈ desk'.seenClips ↔ clip ∈ caught.clips ++ clipsIn builtins path captures := by
  obtain ⟨refs, took, pending⟩ := handled.harmless delivers.accounts.distinct harmless
  refine ⟨delivers.accounts.queue took.toTakes pending, ?_⟩
  intro clip
  rw [took.mem_iff, delivers.clips, List.mem_append]

theorem delivers_info {desk : RadioDesk} (delivers : Delivers builtins desk caught shown)
    {message : Message} (info : message.topic = .sessionInfo)
    (safe : learnedPath desk.sessionPath (Feed.decodePayload builtins message.payload) = "" ∨
      Harmless builtins (learnedPath desk.sessionPath (Feed.decodePayload builtins message.payload))
        (desk.deferredRadio.flatMap (radioCaptures builtins)) desk.seenClips) :
    Delivers builtins (desk.sessionInfo builtins (Feed.decodePayload builtins message.payload)).1
      (caught.hear builtins message) shown := by
  rw [Caught.hear]
  simp only [info, ← delivers.sessionPath]
  generalize Feed.decodePayload builtins message.payload = payload at safe ⊢
  by_cases known : learnedPath desk.sessionPath payload = ""
  · have unknown : desk.sessionPath = "" := by
      unfold learnedPath at known
      simp only at known
      split at known
      · exact known
      · contradiction
    have same : (desk.sessionInfo builtins payload).1 = desk := by
      rw [RadioDesk.sessionInfo]
      simp only
      rw [if_pos (.inl known), known, ← unknown]
    rw [if_pos known, same]
    exact delivers
  · have harmless := safe.resolve_left known
    obtain ⟨handled, told, parked⟩ := sessionInfo_handled builtins known
    obtain ⟨accounts, clips⟩ := delivers.batch handled harmless
    have waiting : clipsIn builtins (learnedPath desk.sessionPath payload)
          (caught.parked.flatMap (radioCaptures builtins)) =
        clipsIn builtins (learnedPath desk.sessionPath payload)
          (desk.deferredRadio.flatMap (radioCaptures builtins)) := by
      by_cases first : desk.sessionPath = ""
      · rw [(delivers.unopened first).2]
      · rw [(delivers.opened first).1, (delivers.opened first).2]
        rfl
    rw [if_neg known, waiting]
    refine ⟨accounts, told, clips, fun empty => absurd (told.symm.trans empty) known, ?_⟩
    intro _
    refine ⟨rfl, fun path => ?_⟩
    rcases parked with drained | stuck
    · rw [drained]
      rfl
    · rw [stuck.1]
      by_cases first : desk.sessionPath = ""
      · have nothing := harmless.resolve_left (not_not_intro stuck.2)
        rw [(delivers.unopened first).1] at nothing
        exact clipsIn_nil (List.eq_nil_iff_forall_not_mem.mpr fun clip member =>
          List.not_mem_nil (nothing clip member))
      · exact (delivers.opened first).2 path

theorem delivers_radio {desk : RadioDesk} (delivers : Delivers builtins desk caught shown)
    {message : Message} (radio : message.topic = .teamRadio)
    (safe : desk.sessionPath = "" ∨ Harmless builtins desk.sessionPath
      (radioCaptures builtins (Feed.decodePayload builtins message.payload)) desk.seenClips) :
    Delivers builtins (desk.teamRadio builtins (Feed.decodePayload builtins message.payload)).1
      (caught.hear builtins message) shown := by
  rw [Caught.hear]
  simp only [radio, ← delivers.sessionPath]
  by_cases known : desk.sessionPath = ""
  · have parked : (desk.teamRadio builtins (Feed.decodePayload builtins message.payload)).1 =
        { desk with deferredRadio :=
          desk.deferredRadio ++ [Feed.decodePayload builtins message.payload] } := by
      rw [RadioDesk.teamRadio]
      rw [if_pos known]
    rw [if_pos known, parked]
    refine ⟨⟨delivers.accounts.seen, delivers.accounts.distinct⟩, rfl, delivers.clips, ?_,
      fun opened => absurd known opened⟩
    intro _
    exact ⟨(delivers.unopened known).1, by rw [(delivers.unopened known).2]⟩
  · obtain ⟨handled, told, parked⟩ := teamRadio_handled builtins known
      (Feed.decodePayload builtins message.payload)
    obtain ⟨accounts, clips⟩ := delivers.batch handled (safe.resolve_left known)
    rw [if_neg known]
    refine ⟨accounts, told, clips, fun empty => absurd (told.symm.trans empty) known, ?_⟩
    intro _
    rw [parked]
    exact delivers.opened known

theorem Caught.hear_other {message : Message} (info : message.topic ≠ .sessionInfo)
    (radio : message.topic ≠ .teamRadio) : caught.hear builtins message = caught := by
  rw [Caught.hear]
  cases topic : message.topic with
  | sessionInfo => exact absurd topic info
  | teamRadio => exact absurd topic radio
  | _ => rfl

theorem Feed.Safe.publish {message : Message} (safe : feed.Safe builtins message)
    (info : message.topic ≠ .sessionInfo) (radio : message.topic ≠ .teamRadio) :
    message.bus = .delivered ∨ feed.desk.pendingRadio = [] ∨
      (feed.dispatch builtins message).2 = none := by
  rw [Feed.Safe] at safe
  cases topic : message.topic with
  | sessionInfo => exact absurd topic info
  | teamRadio => exact absurd topic radio
  | _ =>
      simp only [topic] at safe
      exact safe

theorem delivers_dispatch (delivers : Delivers builtins feed.desk caught shown) {message : Message}
    (safe : feed.Safe builtins message) :
    Delivers builtins (feed.dispatch builtins message).1.desk (caught.hear builtins message)
      (shown ++ deliveredClips (feed.dispatch builtins message).2.toList) := by
  by_cases info : message.topic = .sessionInfo
  · rw [Feed.Safe] at safe
    simp only [info] at safe
    rw [dispatch_info info]
    simp only [Option.toList_none, deliveredClips_nil, List.append_nil]
    exact delivers_info delivers info safe
  by_cases radio : message.topic = .teamRadio
  · rw [Feed.Safe] at safe
    simp only [radio] at safe
    rw [dispatch_radio radio]
    simp only [Option.toList_none, deliveredClips_nil, List.append_nil]
    exact delivers_radio delivers radio safe
  rw [Caught.hear_other info radio]
  rcases dispatch_desk builtins feed info radio with quiet | published
  · rw [quiet.1, quiet.2]
    simpa [deliveredClips_nil] using delivers
  · obtain ⟨frame, sent, bus, carries, desk⟩ := published
    obtain ⟨lost, accounts, kept⟩ := delivers.accounts.published carries
    have goes : frame.bus = .delivered ∨ feed.desk.pendingRadio = [] := by
      rcases safe.publish info radio with delivered | empty | quiet
      · exact .inl (bus.trans delivered)
      · exact .inr empty
      · rw [sent] at quiet
        cases quiet
    obtain rfl := kept goes
    rw [sent, desk]
    exact ⟨accounts, delivers.sessionPath, delivers.clips, delivers.unopened, delivers.opened⟩

theorem delivers_dispatchAll (delivers : Delivers builtins feed.desk caught shown)
    {messages : List Message} (safe : feed.AllSafe builtins messages) :
    Delivers builtins (feed.dispatchAll builtins messages).1.desk (caught.hearAll builtins messages)
      (shown ++ deliveredClips (feed.dispatchAll builtins messages).2) := by
  induction messages generalizing feed caught shown with
  | nil => simpa [Feed.dispatchAll, deliveredClips_nil, Caught.hearAll] using delivers
  | cons message rest ih =>
      have later := ih (delivers_dispatch delivers safe.1) safe.2
      rw [List.append_assoc, ← deliveredClips_append] at later
      exact later

/-- The trailing frame takes what is pending, unless its own publish fails. -/
theorem flush_delivers (feed : Feed β) (timeMs now : Int) (bus : Bus) :
    deliveredClips (feed.shutdownFlushRadio timeMs now bus).2.toList =
      if bus = .delivered then feed.desk.pendingRadio.map RadioRef.clip else [] := by
  rw [Feed.shutdownFlushRadio]
  simp only
  by_cases empty : feed.desk.pendingRadio = []
  · rw [if_pos empty, empty]
    exact (ite_self _).symm
  · rw [if_neg empty, Option.toList_some, deliveredClips_one]
    simp only
    rw [trailing_carries]

/-- No clip rides in two published frames, and if no message drops a ref every clip that resolved
rides in one. -/
theorem radio_rides_once {session label : String} {stored : Option Json} {dicts : Nat → Car}
    {bounds : β} {text : Json}
    (begun : Feed.start builtins session label stored dicts bounds = .ok (feed, text))
    (messages : List Message) (timeMs now : Int) :
    (∀ bus clip,
      (deliveredClips (feed.allFrames builtins messages timeMs now bus)).count clip ≤ 1) ∧
      (feed.AllSafe builtins messages → ∀ clip,
        (deliveredClips (feed.allFrames builtins messages timeMs now .delivered)).count clip =
          if clip ∈ (Caught.start.hearAll builtins messages).clips then 1 else 0) := by
  have desk : feed.desk = .start := by
    obtain ⟨_, _, built⟩ := bind_eq_ok_iff.mp begun
    cases built
    rfl
  have start : Delivers builtins feed.desk .start [] := desk ▸ delivers_start
  constructor
  · intro bus clip
    obtain ⟨lost, accounts⟩ := accounts_dispatchAll builtins start.accounts messages
    rw [Feed.allFrames, deliveredClips_append, flush_delivers]
    refine List.nodup_iff_count_le_one.mp ?_ clip
    have nodup := (accounts.seen.nodup_iff.mp accounts.distinct).sublist (List.sublist_append_left ..)
    by_cases delivered : bus = .delivered
    · rw [if_pos delivered]
      exact nodup
    · rw [if_neg delivered, List.append_nil]
      exact nodup.sublist (List.sublist_append_left ..)
  · intro safe clip
    have delivers := delivers_dispatchAll start safe
    have seen := delivers.accounts.seen
    rw [List.append_nil, List.nil_append] at seen
    rw [Feed.allFrames, deliveredClips_append, flush_delivers, if_pos rfl,
      (seen.nodup_iff.mp delivers.accounts.distinct).count]
    simp only [← seen.mem_iff, delivers.clips]

end

def monzaClip : String := "https://livetiming.formula1.com/static/2024/Monza/a.mp3"

/-- The radio comes before the path, and its frame goes out. -/
def parkedRadio : List Message := [
  plainMessage .teamRadio oneCapture,
  plainMessage .sessionInfo (.obj [("Path", .str "2024/Monza/")]),
  plainMessage .position bothCars]

theorem not_raises {γ β : Type} {builtins : Builtins γ β} {path : String}
    {captures : List (List (String × Json))}
    (fine : ∀ capture ∈ captures, (captureRef builtins staticBase path capture).isOk) :
    ¬ Raises builtins path captures := by
  intro ⟨capture, listed, error, raised⟩
  have ok := fine capture listed
  rw [raised] at ok
  cases ok

theorem radio_rides_once_parked :
    (deliveredClips (quietFeed.allFrames plainBuiltins parkedRadio 2000 2000 .delivered)).count
      monzaClip = 1 := by
  have safe : quietFeed.AllSafe plainBuiltins parkedRadio := by
    refine ⟨.inl rfl, .inr (.inl (not_raises ?_)), .inl rfl, trivial⟩
    decide +kernel
  rw [(radio_rides_once quietFeed_start parkedRadio 2000 2000).2 safe]
  decide +kernel

/-- The radio is queued, the publish that takes it fails, and the next one has nothing to carry. -/
def droppedRadio : List Message := [
  plainMessage .sessionInfo (.obj [("Path", .str "2024/Monza/")]),
  plainMessage .teamRadio oneCapture,
  { plainMessage .position bothCars with bus := .publishFails },
  plainMessage .position bothCars]

theorem radio_is_lost_with_its_frame :
    monzaClip ∈ (Caught.start.hearAll plainBuiltins droppedRadio).clips ∧
      (deliveredClips (quietFeed.allFrames plainBuiltins droppedRadio 2000 2000 .delivered)).count
        monzaClip = 0 := by
  decide +kernel

end RaceTracker.Ingest
