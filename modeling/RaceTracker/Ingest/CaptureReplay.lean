import RaceTracker.Ingest.Feed
import RaceTracker.Lib.Binary64
import RaceTracker.Lib.StableSort

namespace RaceTracker.Ingest

open RaceTracker.Lib RaceTracker.Model

/-! A saved capture, played through the handlers of the live feed.

The drivers are known before anything else, the other topics are merged by their time stamps, and
the clock is the capture's own.  What the live dispatcher logs and forgets ends a replay.
-/

/-- A loaded entry: the microseconds since the start of the session, and the content. -/
structure CaptureEntry where
  td : Int
  payload : Json

/-- The entries of each topic in the order of the file; without entries the capture has no such topic. -/
structure Capture where
  driverList : List CaptureEntry
  position : List CaptureEntry
  timingData : List CaptureEntry
  timingAppData : List CaptureEntry
  sessionInfo : List CaptureEntry
  teamRadio : List CaptureEntry

structure CaptureEvent where
  topic : Topic
  td : Int
  payload : Json

def CaptureEntry.event (entry : CaptureEntry) (topic : Topic) : CaptureEvent :=
  ⟨topic, entry.td, entry.payload⟩

/-- Python's sort is stable, so entries of one instant stand by topic and then as in the file. -/
def byStamp (first second : CaptureEvent) : Bool := first.td ≤ second.td

def Capture.merged (capture : Capture) : List CaptureEvent :=
  capture.position.map (·.event .position) ++ capture.timingData.map (·.event .timingData) ++
    capture.timingAppData.map (·.event .timingAppData) ++
    capture.sessionInfo.map (·.event .sessionInfo) ++ capture.teamRadio.map (·.event .teamRadio)

def Capture.events (capture : Capture) : List CaptureEvent := capture.merged.mergeSort byStamp

/-- `int(td.total_seconds() * 1000)`: two operations, each of them rounded. -/
def sessionMs (td : Int) : Int := truncate (toDouble (toDouble ((td : Rat) / 10 ^ 6) * 1000))

/-- What the clocks and the bus do while an event is handled. -/
structure Beat where
  due : Bool
  now : Int
  bus : Bus

def CaptureEvent.message (event : CaptureEvent) (beat : Beat) : Message where
  topic := event.topic
  payload := event.payload
  due := beat.due
  timeMs := sessionMs event.td
  now := beat.now
  bus := beat.bus

def Capture.messages (capture : Capture) (beats : Nat → Beat) : List Message :=
  capture.events.mapIdx fun index event => event.message (beats index)

/-- The DriverList entries as messages; no clock matters to them. -/
def Capture.drivers (capture : Capture) : List Message :=
  capture.driverList.map fun entry =>
    { topic := .driverList, payload := entry.payload, due := false, timeMs := 0, now := 0
      bus := .delivered }

/-- What ends a replay before its last event. -/
inductive Halt where
  | raised (error : PyError)
  | redis
deriving DecidableEq

def applyDrivers (info : Dict String DriverInfo) (entry : CaptureEntry) :
    Dict String DriverInfo × Option PyError :=
  match entry.payload with
  | .obj payload => applyDriverList info payload
  | _ => (info, none)

namespace Feed

variable {γ β : Type} (builtins : Builtins γ β) (feed : Feed β)

def replayPosition (message : Message) : (Feed β × Option Publish) × Option Halt :=
  let samples := builtins.decodePositionPayload message.payload
  let ((bounds, records), raised) :=
    applyPositionSamples builtins feed.reports feed.bounds samples
  let feed := records.foldl record { feed with bounds }
  match raised with
  | some error => ((feed, none), some (.raised error))
  | none =>
      if message.due = false ∨ feed.run.latestCars.entries = [] then ((feed, none), none)
      else
        let (feed, sent) := feed.publish message
        ((feed, some sent), if message.bus = .delivered then none else some .redis)

/-- One event of the loop. -/
def replayEvent (message : Message) : (Feed β × Option Publish) × Option Halt :=
  match message.topic, message.payload with
  | .timingData, .obj payload =>
      let ((positions, extra), raised) :=
        applyTimingData builtins feed.run.runningPositions feed.timingExtra payload
      (({ feed with
        run := { feed.run with runningPositions := positions }
        timingExtra := extra }, none), raised.map .raised)
  | .timingAppData, .obj payload =>
      let (extra, raised) := applyTyreData builtins feed.tyreExtra payload
      (({ feed with tyreExtra := extra }, none), raised.map .raised)
  | .sessionInfo, payload =>
      let (desk, raised) := feed.desk.sessionInfo builtins payload
      (({ feed with desk }, none), raised.map .raised)
  | .teamRadio, payload =>
      let (desk, raised) := feed.desk.teamRadio builtins payload
      (({ feed with desk }, none), raised.map .raised)
  | .position, _ => feed.replayPosition builtins message
  | _, _ => ((feed, none), none)

/-- The loop: the feed after it, the frames that went to the bus, and what ended it early. -/
def replayAll (feed : Feed β) : List Message → Feed β × List Publish × Option Halt
  | [] => (feed, [], none)
  | message :: rest =>
      match feed.replayEvent builtins message with
      | ((next, sent), some halt) => (next, sent.toList, some halt)
      | ((next, sent), none) =>
          let (last, later, halted) := replayAll next rest
          (last, sent.toList ++ later, halted)

/-- Nothing ends the loop: no event raises, and the bus takes every frame. -/
def PlaysOn (feed : Feed β) : List Message → Prop
  | [] => True
  | message :: rest =>
      (feed.replayEvent builtins message).2 = none ∧
        PlaysOn (feed.handleMessage builtins message).1 rest

/-- The refs left at the end of the capture ride a trailing frame, and nothing guards that. -/
def replayTrailing (message : Message) : Feed β × Option Publish × Option Halt :=
  let (last, sent) := feed.shutdownFlushRadio message.timeMs message.now message.bus
  (last, sent, if sent.isSome ∧ message.bus ≠ .delivered then some .redis else none)

/-- The live handler over messages whose payloads are loaded. -/
def handleAll (feed : Feed β) : List Message → Feed β × List Publish
  | [] => (feed, [])
  | message :: rest =>
      let (next, sent) := feed.handleMessage builtins message
      let (last, later) := handleAll next rest
      (last, sent.toList ++ later)

end Feed

section

variable {γ β : Type} (builtins : Builtins γ β)

/-- `_replay_capture`: the text stored at its start if it got that far, the feed at its end, its
frames, and what ended it early.  Without positions nothing is published. -/
def replayCapture (session label : String) (stored : Option Json) (dicts : Nat → Car) (bounds : β)
    (capture : Capture) (beats : Nat → Beat) (trailing : Beat) :
    Option (Feed β × Json) × List Publish × Option Halt :=
  match foldUntil applyDrivers .empty capture.driverList with
  | (_, some error) => (none, [], some (.raised error))
  | (driverInfo, none) =>
      if capture.position = [] then (none, [], none)
      else match Feed.start builtins session (if label = "" then "Live F1" else label) stored dicts
          bounds with
        | .error error => (none, [], some (.raised error))
        | .ok (feed, text) =>
            match { feed with driverInfo }.replayAll builtins (capture.messages beats) with
            | (last, frames, some halt) => (some (last, text), frames, some halt)
            | (last, frames, none) =>
                match capture.events.getLast? with
                | none => (some (last, text), frames, none)
                | some event =>
                    let (last, sent, halted) := last.replayTrailing (event.message trailing)
                    (some (last, text), frames ++ sent.toList, halted)

end

theorem byStamp_trans (one two three : CaptureEvent) (first : byStamp one two = true)
    (second : byStamp two three = true) : byStamp one three = true := by
  simp only [byStamp, decide_eq_true_eq] at first second ⊢
  exact first.trans second

theorem byStamp_total (first second : CaptureEvent) :
    (byStamp first second || byStamp second first) = true := by
  simp only [byStamp, Bool.or_eq_true, decide_eq_true_eq]
  exact Int.le_total ..

theorem sessionMs_mono {first second : Int} (ordered : first ≤ second) :
    sessionMs first ≤ sessionMs second := by
  have cast : (first : Rat) ≤ second := by exact_mod_cast ordered
  have seconds : (first : Rat) / 10 ^ 6 ≤ second / 10 ^ 6 :=
    div_le_div_of_nonneg_right cast (by norm_num)
  exact truncate_mono (toDouble_mono (mul_le_mul_of_nonneg_right (toDouble_mono seconds) (by norm_num)))

theorem events_sorted (capture : Capture) :
    capture.events.Pairwise fun first second => first.td ≤ second.td :=
  (List.pairwise_mergeSort byStamp_trans byStamp_total capture.merged).imp fun {first second} before => by
    simpa [byStamp] using before

theorem events_end {capture : Capture} (positions : capture.position ≠ []) :
    ∃ event, capture.events.getLast? = some event := by
  have perm : capture.events.Perm capture.merged := List.mergeSort_perm ..
  refine Option.ne_none_iff_exists'.mp fun nothing => ?_
  rw [List.getLast?_eq_none_iff.mp nothing] at perm
  simp [Capture.merged, positions] at perm

theorem messages_sorted (capture : Capture) (beats : Nat → Beat) :
    ((capture.messages beats).map Message.timeMs).Pairwise (· ≤ ·) := by
  have times : (capture.messages beats).map Message.timeMs =
      capture.events.map fun event => sessionMs event.td := by
    apply List.ext_getElem?
    intro index
    simp only [Capture.messages, List.getElem?_map, List.getElem?_mapIdx, Option.map_map]
    rfl
  rw [times, List.pairwise_map]
  exact (events_sorted capture).imp sessionMs_mono

theorem mem_merged_topic {capture : Capture} {event : CaptureEvent} (member : event ∈ capture.merged) :
    event.topic ≠ .driverList := by
  simp only [Capture.merged, List.mem_append, List.mem_map] at member
  rcases member with (((⟨_, _, rfl⟩ | ⟨_, _, rfl⟩) | ⟨_, _, rfl⟩) | ⟨_, _, rfl⟩) | ⟨_, _, rfl⟩ <;>
    simp [CaptureEntry.event]

theorem mem_messages_topic {capture : Capture} {beats : Nat → Beat} {message : Message}
    (member : message ∈ capture.messages beats) : message.topic ≠ .driverList := by
  obtain ⟨index, within, rfl⟩ := List.mem_mapIdx.mp member
  exact mem_merged_topic (List.mem_mergeSort.mp (List.getElem_mem within))

namespace Feed

variable {γ β : Type} {builtins : Builtins γ β} {feed : Feed β}

theorem handleAll_append (first second : List Message) :
    feed.handleAll builtins (first ++ second) =
      (((feed.handleAll builtins first).1.handleAll builtins second).1,
        (feed.handleAll builtins first).2 ++
          ((feed.handleAll builtins first).1.handleAll builtins second).2) := by
  induction first generalizing feed with
  | nil => rfl
  | cons message rest ih =>
      simp only [List.cons_append, handleAll, ih, List.append_assoc]

theorem replayPosition_eq (message : Message) :
    (feed.replayPosition builtins message).1 = feed.position builtins message := by
  rw [replayPosition, position]
  simp only
  cases raised : (applyPositionSamples builtins feed.reports feed.bounds
      (builtins.decodePositionPayload message.payload)).2 with
  | some error => simp
  | none =>
      simp only [Option.isSome_none, Bool.false_eq_true, false_or]
      split <;> rfl

/-- The loop does with an event what the live handler does, and sees what that raises. -/
theorem replayEvent_eq {message : Message} (known : message.topic ≠ .driverList) :
    (feed.replayEvent builtins message).1 = feed.handleMessage builtins message := by
  obtain ⟨topic, payload, due, timeMs, now, bus⟩ := message
  cases topic with
  | driverList => exact absurd rfl known
  | timingData | timingAppData => cases payload <;> rfl
  | sessionInfo | teamRadio | other => rfl
  | position => exact replayPosition_eq ..

theorem replayPosition_halts {message : Message} {halt : Halt}
    (halts : (feed.replayPosition builtins message).2 = some halt) :
    (halt = .redis ↔ (feed.replayPosition builtins message).1.2.isSome) ∧
      (halt = .redis → message.bus ≠ .delivered) := by
  rw [replayPosition] at halts ⊢
  simp only at halts ⊢
  cases raised : (applyPositionSamples builtins feed.reports feed.bounds
      (builtins.decodePositionPayload message.payload)).2 with
  | some error =>
      simp only [raised, Option.some.injEq] at halts
      subst halts
      simp
  | none =>
      simp only [raised] at halts ⊢
      split at halts
      · cases halts
      · rename_i loud
        rw [if_neg loud]
        by_cases delivered : message.bus = .delivered
        · simp [delivered] at halts
        · simp only [if_neg delivered, Option.some.injEq] at halts
          subst halts
          simp [delivered]

/-- What ends the loop is a frame that the bus refused, or an error, and then nothing was sent. -/
theorem replayEvent_halts {message : Message} (known : message.topic ≠ .driverList) {halt : Halt}
    (halts : (feed.replayEvent builtins message).2 = some halt) :
    (halt = .redis ↔ (feed.handleMessage builtins message).2.isSome) ∧
      (halt = .redis → message.bus ≠ .delivered) := by
  rw [← replayEvent_eq known]
  obtain ⟨topic, payload, due, timeMs, now, bus⟩ := message
  have silent {raised : Option PyError} (some : raised.map Halt.raised = some halt) : halt ≠ .redis := by
    obtain ⟨error, _, rfl⟩ := Option.map_eq_some_iff.mp some
    simp
  cases topic with
  | driverList => exact absurd rfl known
  | timingData | timingAppData =>
      cases payload with
      | obj members =>
          have error := silent halts
          exact ⟨⟨fun same => absurd same error, fun sent => by cases sent⟩, fun same => absurd same error⟩
      | null | bool | num | str | arr => cases halts
  | sessionInfo | teamRadio =>
      have error := silent halts
      exact ⟨⟨fun same => absurd same error, fun sent => by cases sent⟩, fun same => absurd same error⟩
  | other => cases halts
  | position => exact replayPosition_halts halts

theorem replayAll_handles {messages : List Message}
    (known : ∀ message ∈ messages, message.topic ≠ .driverList) {last : Feed β}
    {frames : List Publish} {halted : Option Halt}
    (played : feed.replayAll builtins messages = (last, frames, halted)) :
    ∃ done rest, messages = done ++ rest ∧ feed.handleAll builtins done = (last, frames) ∧
      (halted = none → rest = [] ∧ feed.PlaysOn builtins done) ∧
      ∀ halt, halted = some halt → ∃ earlier message, done = earlier ++ [message] ∧
        feed.PlaysOn builtins earlier ∧
        ((feed.handleAll builtins earlier).1.replayEvent builtins message).2 = some halt := by
  induction messages generalizing feed frames with
  | nil =>
      cases played
      exact ⟨[], [], rfl, rfl, fun _ => ⟨rfl, trivial⟩, fun _ halt => by cases halt⟩
  | cons message rest ih =>
      obtain ⟨first, later⟩ := List.forall_mem_cons.mp known
      have same := @replayEvent_eq _ _ builtins feed _ first
      rw [replayAll] at played
      cases event : feed.replayEvent builtins message with
      | mk state raised =>
          obtain ⟨next, sent⟩ := state
          rw [event] at played same
          cases raised with
          | some halt =>
              cases played
              refine ⟨[message], rest, rfl, ?_, (by simp), ?_⟩
              · simp only [handleAll, ← same, List.append_nil]
              · rintro _ ⟨⟩
                exact ⟨[], message, rfl, trivial, congrArg Prod.snd event⟩
          | none =>
              have quiet : (feed.replayEvent builtins message).2 = none := congrArg Prod.snd event
              have moved : (feed.handleMessage builtins message).1 = next := congrArg Prod.fst same.symm
              cases onward : next.replayAll builtins rest with
              | mk after tail =>
                  obtain ⟨more, ended⟩ := tail
                  simp only [onward] at played
                  cases played
                  obtain ⟨done, left, split, handled, finished, stopped⟩ := ih later onward
                  refine ⟨message :: done, left, congrArg (message :: ·) split, ?_, fun ended => ?_, ?_⟩
                  · simp only [handleAll, ← same, handled]
                  · obtain ⟨all, on⟩ := finished ended
                    exact ⟨all, quiet, moved ▸ on⟩
                  · intro halt now
                    obtain ⟨earlier, at_, parts, on, halts⟩ := stopped halt now
                    refine ⟨message :: earlier, at_, congrArg (message :: ·) parts, ⟨quiet, moved ▸ on⟩, ?_⟩
                    simp only [handleAll, ← same]
                    exact halts

theorem handleAll_drivers {entries : List CaptureEntry} {info : Dict String DriverInfo}
    (applied : foldUntil applyDrivers feed.driverInfo entries = (info, none)) :
    feed.handleAll builtins (entries.map fun entry =>
      { topic := .driverList, payload := entry.payload, due := false, timeMs := 0, now := 0
        bus := .delivered }) = ({ feed with driverInfo := info }, []) := by
  induction entries generalizing feed with
  | nil =>
      cases applied
      rfl
  | cons entry rest ih =>
      rw [foldUntil] at applied
      cases one : applyDrivers feed.driverInfo entry with
      | mk next raised =>
          rw [one] at applied
          cases raised with
          | some error => cases applied
          | none =>
              have step : feed.handleMessage builtins
                  { topic := .driverList, payload := entry.payload, due := false, timeMs := 0, now := 0
                    bus := .delivered } = ({ feed with driverInfo := next }, none) := by
                rw [applyDrivers] at one
                obtain ⟨td, payload⟩ := entry
                cases payload with
                | obj members =>
                    have first : (applyDriverList feed.driverInfo members).1 = next := congrArg Prod.fst one
                    simp only [handleMessage, first]
                | null | bool | num | str | arr =>
                    cases one
                    rfl
              have later := @ih { feed with driverInfo := next } applied
              simp only [List.map_cons, handleAll, step, later]
              rfl

/-- The frames that take the feed from `before` to `after`: each has the next revision, and their
clocks are some of the `times`, in order. -/
structure Ticks (times : List Int) (before : LiveRun) (frames : List Publish) (after : LiveRun) :
    Prop where
  rev : after.rev = before.rev + frames.length
  revs : frames.map (fun frame => frame.text.get? "rev") =
    (List.range frames.length).map fun index => some (.int (before.rev + 1 + index))
  clocks : ∃ shown : List Int, shown.Sublist times ∧
    frames.map (fun frame => frame.text.get? "timeMs") = shown.map fun time => some (.int time)

theorem Ticks.quiet {times : List Int} {before after : LiveRun} (same : after.rev = before.rev) :
    Ticks times before [] after where
  rev := by simp [same]
  revs := rfl
  clocks := ⟨[], List.nil_sublist _, rfl⟩

theorem Ticks.trans {first second : List Int} {before middle after : LiveRun} {frames more : List Publish}
    (one : Ticks first before frames middle) (two : Ticks second middle more after) :
    Ticks (first ++ second) before (frames ++ more) after where
  rev := by
    rw [two.rev, one.rev, List.length_append]
    push_cast
    exact Int.add_assoc ..
  revs := by
    rw [List.map_append, one.revs, two.revs, List.length_append, List.range_add, List.map_append,
      List.map_map, one.rev]
    refine congrArg _ (List.map_congr_left fun index _ => ?_)
    simp only [Function.comp_apply]
    push_cast
    congr 2
    omega
  clocks := by
    obtain ⟨early, within, read⟩ := one.clocks
    obtain ⟨late, within', read'⟩ := two.clocks
    exact ⟨early ++ late, within.append within', by rw [List.map_append, read, read', List.map_append]⟩

theorem records_rev (feed : Feed β) (entries : List (String × Car)) :
    (entries.foldl record feed).run.rev = feed.run.rev :=
  records_kept (fun feed => feed.run.rev) (fun _ _ => rfl) feed entries

theorem publish_ticks {before : LiveRun} {feed : Feed β} (same : feed.run.rev = before.rev)
    (message : Message) :
    Ticks [message.timeMs] before [(feed.publish message).2] (feed.publish message).1.run where
  rev := congrArg (· + 1) same
  revs := by
    have read : (feed.publish message).2.text.get? "rev" = some (.int (feed.run.rev + 1)) :=
      get?_frame (by simp [frameEntries])
    simp [read, same]
  clocks := by
    have read : (feed.publish message).2.text.get? "timeMs" = some (.int message.timeMs) :=
      get?_frame (by simp [frameEntries])
    exact ⟨[message.timeMs], List.Sublist.refl _, by simp [read]⟩

theorem position_ticks (feed : Feed β) (message : Message) :
    Ticks [message.timeMs] feed.run (feed.position builtins message).2.toList
      (feed.position builtins message).1.run := by
  rw [position]
  simp only
  split
  · exact .quiet (records_rev ..)
  · refine publish_ticks ?_ message
    exact records_rev ..

theorem handleMessage_ticks (feed : Feed β) (message : Message) :
    Ticks [message.timeMs] feed.run (feed.handleMessage builtins message).2.toList
      (feed.handleMessage builtins message).1.run := by
  obtain ⟨topic, payload, due, timeMs, now, bus⟩ := message
  cases topic with
  | driverList | timingData | timingAppData => cases payload <;> exact .quiet rfl
  | sessionInfo | teamRadio | other => exact .quiet rfl
  | position => exact position_ticks feed ⟨.position, payload, due, timeMs, now, bus⟩

theorem handleAll_ticks (feed : Feed β) (messages : List Message) :
    Ticks (messages.map Message.timeMs) feed.run (feed.handleAll builtins messages).2
      (feed.handleAll builtins messages).1.run := by
  induction messages generalizing feed with
  | nil => exact .quiet rfl
  | cons message rest ih => exact (handleMessage_ticks feed message).trans (ih _)

end Feed

section

variable {γ β : Type} {builtins : Builtins γ β} {session label : String} {stored : Option Json}
  {dicts : Nat → Car} {bounds : β} {capture : Capture} {beats : Nat → Beat} {trailing : Beat}
  {last : Feed β} {text : Json} {frames : List Publish} {halted : Option Halt}

/-- A replay that stores a snapshot knows the drivers, has positions and a lane, and its loop was
stopped or the trailing frame follows. -/
theorem replayCapture_ran
    (played : replayCapture builtins session label stored dicts bounds capture beats trailing =
      (some (last, text), frames, halted)) :
    ∃ info feed live published stopped,
      foldUntil applyDrivers .empty capture.driverList = (info, none) ∧ capture.position ≠ [] ∧
      Feed.start builtins session (if label = "" then "Live F1" else label) stored dicts bounds =
        .ok (feed, text) ∧
      Feed.replayAll builtins { feed with driverInfo := info } (capture.messages beats) =
        (live, published, stopped) ∧
      ((∃ halt, stopped = some halt ∧ halted = some halt ∧ last = live ∧ frames = published) ∨
        (stopped = none ∧ ∃ event sent, capture.events.getLast? = some event ∧
          live.replayTrailing (event.message trailing) = (last, sent, halted) ∧
          frames = published ++ sent.toList)) := by
  rw [replayCapture] at played
  rcases known : foldUntil applyDrivers .empty capture.driverList with ⟨info, _ | error⟩
  case some =>
    rw [known] at played
    cases played
  rw [known] at played
  by_cases positions : capture.position = []
  · simp [positions] at played
  simp only [if_neg positions] at played
  rcases begun : Feed.start builtins session (if label = "" then "Live F1" else label) stored dicts
      bounds with error | ⟨feed, written⟩
  · simp [begun] at played
  simp only [begun] at played
  rcases looped : Feed.replayAll builtins { feed with driverInfo := info } (capture.messages beats) with
    ⟨live, published, _ | halt⟩
  · obtain ⟨event, final⟩ := events_end positions
    rcases trailed : live.replayTrailing (event.message trailing) with ⟨after, sent, outcome⟩
    simp only [looped, final, trailed] at played
    cases played
    exact ⟨info, feed, live, published, none, rfl, positions, rfl, looped,
      .inr ⟨rfl, event, sent, final, trailed, rfl⟩⟩
  · simp only [looped] at played
    cases played
    exact ⟨info, feed, last, frames, some halt, rfl, positions, rfl, looped,
      .inl ⟨halt, rfl, rfl, rfl, rfl⟩⟩

/-- A replay that stores a snapshot went through its events up to one that stopped it, or through
all of them and the trailing frame. -/
theorem replayCapture_cases
    (played : replayCapture builtins session label stored dicts bounds capture beats trailing =
      (some (last, text), frames, halted)) :
    ∃ feed, Feed.start builtins session (if label = "" then "Live F1" else label) stored dicts bounds =
        .ok (feed, text) ∧ capture.position ≠ [] ∧
      ∃ done rest live published, capture.messages beats = done ++ rest ∧
        feed.handleAll builtins (capture.drivers ++ done) = (live, published) ∧
        ((∃ halt earlier message, halted = some halt ∧ last = live ∧ frames = published ∧
          done = earlier ++ [message] ∧
          (feed.handleAll builtins capture.drivers).1.PlaysOn builtins earlier ∧
          ((feed.handleAll builtins (capture.drivers ++ earlier)).1.replayEvent builtins message).2 =
            some halt) ∨
        (rest = [] ∧ (feed.handleAll builtins capture.drivers).1.PlaysOn builtins done ∧
          ∃ event sent, capture.events.getLast? = some event ∧
          live.replayTrailing (event.message trailing) = (last, sent, halted) ∧
          frames = published ++ sent.toList)) := by
  obtain ⟨info, feed, live, published, stopped, known, positions, begun, looped, outcome⟩ :=
    replayCapture_ran played
  obtain ⟨done, rest, split, handled, finished, halts⟩ :=
    Feed.replayAll_handles (fun _ => mem_messages_topic) looped
  have empty : feed.driverInfo = .empty := by
    obtain ⟨rev, rfl, _⟩ := Feed.start_eq begun
    rfl
  have told : feed.handleAll builtins capture.drivers = ({ feed with driverInfo := info }, []) :=
    Feed.handleAll_drivers (by rw [empty]; exact known)
  have joined (messages : List Message) : feed.handleAll builtins (capture.drivers ++ messages) =
      Feed.handleAll builtins { feed with driverInfo := info } messages := by
    rw [Feed.handleAll_append, told]
    rfl
  refine ⟨feed, begun, positions, done, rest, live, published, split, (joined done).trans handled, ?_⟩
  rcases outcome with ⟨halt, rfl, rfl, rfl, rfl⟩ | ⟨rfl, event, sent, final, trailed, rfl⟩
  · obtain ⟨earlier, message, parts, on, halted⟩ := halts halt rfl
    refine .inl ⟨halt, earlier, message, rfl, rfl, rfl, parts, by rw [told]; exact on, ?_⟩
    rw [joined]
    exact halted
  · obtain ⟨all, on⟩ := finished rfl
    exact .inr ⟨all, by rw [told]; exact on, event, sent, final, trailed, rfl⟩

theorem dispatchAll_loaded {feed : Feed β} {messages : List Message}
    (loaded : ∀ message ∈ messages, Feed.decodePayload builtins message.payload = message.payload) :
    feed.dispatchAll builtins messages = feed.handleAll builtins messages := by
  induction messages generalizing feed with
  | nil => rfl
  | cons message rest ih =>
      obtain ⟨first, later⟩ := List.forall_mem_cons.mp loaded
      simp only [Feed.dispatchAll, Feed.handleAll, Feed.dispatch, first, ih later]

/-- A capture whose payloads are loaded JSON plays as the live run over its messages, the drivers
first and then all topics merged in time, frame for frame: up to the first event that raises or whose
frame the bus refuses, or, when there is none, to the end with the trailing frame.  Entries that stand
in order keep it. -/
theorem capture_replays_the_live_run
    (played : replayCapture builtins session label stored dicts bounds capture beats trailing =
      (some (last, text), frames, halted))
    (loaded : ∀ message ∈ capture.drivers ++ capture.messages beats,
      Feed.decodePayload builtins message.payload = message.payload) :
    (capture.events.Perm capture.merged ∧
        capture.events.Pairwise (fun first second => first.td ≤ second.td) ∧
        ∀ kept : List CaptureEvent, kept.Sublist capture.merged →
          kept.Pairwise (fun first second => first.td ≤ second.td) → kept.Sublist capture.events) ∧
      ∃ feed event, Feed.start builtins session (if label = "" then "Live F1" else label) stored dicts
          bounds = .ok (feed, text) ∧ capture.events.getLast? = some event ∧
        ((∃ earlier message rest halt, capture.messages beats = earlier ++ message :: rest ∧
            (feed.dispatchAll builtins capture.drivers).1.PlaysOn builtins earlier ∧
            (∃ live, live = (feed.dispatchAll builtins (capture.drivers ++ earlier)).1 ∧
              (live.replayEvent builtins message).2 = some halt ∧
              (halt = .redis ↔ (live.dispatch builtins message).2.isSome) ∧
              (halt = .redis → message.bus ≠ .delivered)) ∧
            feed.dispatchAll builtins (capture.drivers ++ earlier ++ [message]) = (last, frames) ∧
            halted = some halt) ∨
          ((feed.dispatchAll builtins capture.drivers).1.PlaysOn builtins (capture.messages beats) ∧
            frames = feed.allFrames builtins (capture.drivers ++ capture.messages beats)
              (sessionMs event.td) trailing.now trailing.bus ∧
            ∃ live, live = (feed.dispatchAll builtins (capture.drivers ++ capture.messages beats)).1 ∧
              halted = if live.desk.pendingRadio ≠ [] ∧ trailing.bus ≠ .delivered then some .redis
                else none)) := by
  refine ⟨⟨List.mergeSort_perm .., events_sorted capture, fun kept within ordered => ?_⟩, ?_⟩
  · refine List.sublist_mergeSort byStamp_trans byStamp_total (ordered.imp fun {first second} before => ?_)
      within
    simpa [byStamp] using before
  obtain ⟨feed, begun, positions, done, rest, live, published, split, handled, outcome⟩ :=
    replayCapture_cases played
  have ran (messages : List Message) (within : messages ⊆ capture.drivers ++ capture.messages beats) :
      feed.dispatchAll builtins messages = feed.handleAll builtins messages :=
    dispatchAll_loaded fun message member => loaded message (within member)
  have drivers := ran capture.drivers (List.subset_append_left ..)
  rcases outcome with ⟨halt, earlier, message, rfl, rfl, rfl, parts, on, halts⟩ |
    ⟨rfl, on, event, sent, final, trailed, rfl⟩
  · obtain ⟨event, final⟩ := events_end positions
    rw [parts, List.append_assoc] at split
    have member : message ∈ capture.messages beats := by simp [split]
    have whole := ran (capture.drivers ++ earlier ++ [message]) (by rw [split]; simp)
    have known : Feed.decodePayload builtins message.payload = message.payload :=
      loaded message (List.mem_append_right _ member)
    obtain ⟨refused, lost⟩ := Feed.replayEvent_halts (mem_messages_topic member) halts
    refine ⟨feed, event, begun, final, .inl ⟨earlier, message, rest, halt, split, by rw [drivers]; exact on,
      ⟨_, rfl, ?_⟩, ?_, rfl⟩⟩
    · rw [ran (capture.drivers ++ earlier) (by rw [split]; simp), Feed.dispatch, known]
      exact ⟨halts, refused, lost⟩
    · rw [whole, List.append_assoc, ← parts]
      exact handled
  · rw [List.append_nil] at split
    subst split
    refine ⟨feed, event, begun, final, .inr ⟨by rw [drivers]; exact on, ?_⟩⟩
    rw [Feed.allFrames, ran _ (List.Subset.refl _), handled]
    simp only [Feed.replayTrailing] at trailed
    cases trailed
    refine ⟨rfl, live, rfl, ?_⟩
    by_cases silent : live.desk.pendingRadio = [] <;>
      simp [Feed.shutdownFlushRadio, silent, CaptureEvent.message]

theorem drivers_quiet (feed : Feed β) (capture : Capture) :
    (feed.handleAll builtins capture.drivers).2 = [] ∧
      (feed.handleAll builtins capture.drivers).1.run = feed.run := by
  rw [Capture.drivers]
  generalize capture.driverList = entries
  induction entries generalizing feed with
  | nil => exact ⟨rfl, rfl⟩
  | cons entry rest ih =>
      obtain ⟨td, payload⟩ := entry
      rw [List.map_cons, Feed.handleAll]
      cases payload with
      | obj members => exact ih { feed with driverInfo := (applyDriverList feed.driverInfo members).1 }
      | null | bool | num | str | arr => exact ih feed

theorem trailing_ticks {live : Feed β} {message : Message} {sent : Option Publish}
    (trailed : live.replayTrailing message = (last, sent, halted)) :
    ∃ clock, message.timeMs ≤ clock ∧ Feed.Ticks [clock] live.run sent.toList last.run := by
  rw [Feed.replayTrailing, Feed.shutdownFlushRadio] at trailed
  by_cases silent : live.desk.pendingRadio = []
  · simp only [silent, if_true] at trailed
    cases trailed
    exact ⟨message.timeMs, le_rfl, .quiet rfl⟩
  · simp only [silent, if_false] at trailed
    cases trailed
    refine ⟨if live.run.snapshot.timeMs < message.timeMs then message.timeMs
      else live.run.snapshot.timeMs, by split <;> omega, ?_⟩
    have read (name : String) (json : Option Json)
        (entry : (name, json) ∈ frameEntries live.run.session (live.run.rev + 1) message.now
          (if live.run.snapshot.timeMs < message.timeMs then message.timeMs
            else live.run.snapshot.timeMs)
          ((reconcile live.run.known).map fun car => car.2.dumps) [] none
          (live.desk.pendingRadio.map RadioRef.dumps)) :
        (live.run.publishTrailingRadioFrame message.timeMs message.now
          (live.desk.pendingRadio.map RadioRef.dumps)).2.2.get? name = json := get?_frame entry
    exact {
      rev := rfl
      revs := by
        simp only [Option.toList_some, List.map_cons, List.map_nil]
        rw [read "rev" (some (.int (live.run.rev + 1))) (by simp [frameEntries])]
        simp
      clocks := by
        refine ⟨_, List.Sublist.refl _, ?_⟩
        simp only [Option.toList_some, List.map_cons, List.map_nil, List.cons.injEq, and_true]
        exact read "timeMs" _ (by simp [frameEntries]) }

/-- Whatever the order of the file, the frames of a replay have the revisions that follow the stored
snapshot's, and their clock never goes back. -/
theorem replay_clock_never_rewinds
    (played : replayCapture builtins session label stored dicts bounds capture beats trailing =
      (some (last, text), frames, halted)) :
    ∃ (base : Int) (times : List Int), text.get? "rev" = some (.int base) ∧ times.Pairwise (· ≤ ·) ∧
      frames.map (fun frame => frame.text.get? "timeMs") = times.map (fun time => some (.int time)) ∧
      frames.map (fun frame => frame.text.get? "rev") =
        (List.range frames.length).map fun index => some (.int (base + 1 + index)) := by
  obtain ⟨feed, begun, _, done, rest, live, published, split, handled, outcome⟩ :=
    replayCapture_cases played
  obtain ⟨base, same, stored⟩ := Feed.start_eq begun
  have opening : text.get? "rev" = some (.int feed.run.rev) := by
    rw [stored, same]
    exact LiveSnapshot.get?_dumps (by simp [LiveSnapshot.entries, buildSnapshot])
  obtain ⟨silent, still⟩ := @drivers_quiet _ _ builtins feed capture
  have ticks := @Feed.handleAll_ticks _ _ builtins
    (feed.handleAll builtins capture.drivers).1 done
  rw [Feed.handleAll_append, silent, List.nil_append] at handled
  cases handled
  rw [still] at ticks
  have sorted := messages_sorted capture beats
  rw [split, List.map_append, List.pairwise_append] at sorted
  rcases outcome with ⟨halt, earlier, message, rfl, rfl, rfl, _⟩ |
    ⟨rfl, _, event, sent, final, trailed, rfl⟩
  · obtain ⟨shown, within, read⟩ := ticks.clocks
    exact ⟨feed.run.rev, shown, opening, sorted.1.sublist within, read, ticks.revs⟩
  · obtain ⟨clock, later, trail⟩ := trailing_ticks trailed
    have whole := ticks.trans trail
    obtain ⟨shown, within, read⟩ := whole.clocks
    refine ⟨feed.run.rev, shown, opening, List.Pairwise.sublist within ?_, read, whole.revs⟩
    refine List.pairwise_append.mpr ⟨sorted.1, List.pairwise_singleton .., fun time member other alone => ?_⟩
    rw [List.mem_singleton.mp alone]
    refine le_trans ?_ later
    -- Every event is at or before the last one.
    rw [List.append_nil] at split
    rw [← split, Capture.messages] at member
    obtain ⟨message, listed, rfl⟩ := List.mem_map.mp member
    obtain ⟨index, inside, rfl⟩ := List.mem_mapIdx.mp listed
    obtain ⟨before, ends⟩ := List.getLast?_eq_some_iff.mp final
    have ordered := events_sorted capture
    have here := List.getElem_mem inside
    rw [ends, List.pairwise_append] at ordered
    refine sessionMs_mono ?_
    generalize capture.events[index] = event' at here
    rw [ends] at here
    rcases List.mem_append.mp here with early | final
    · exact ordered.2.2 event' early event (List.mem_singleton_self _)
    · rw [List.mem_singleton.mp final]

end

/-- The later position stands first, and radio comes after the last position. -/
def shuffledCapture : Capture where
  driverList := [⟨0, .obj [("44", .obj [("Tla", .str "HAM")])]⟩]
  position := [⟨2000000, bothCars⟩, ⟨1000000, bothCars⟩]
  timingData := []
  timingAppData := []
  sessionInfo := [⟨0, .obj [("Path", .str "2024/Monza/")]⟩]
  teamRadio := [⟨2500000, oneCapture⟩]

def steadyBeat : Beat := ⟨true, 1000, .delivered⟩

theorem shuffledCapture_events : shuffledCapture.events = [
    ⟨.sessionInfo, 0, .obj [("Path", .str "2024/Monza/")]⟩, ⟨.position, 1000000, bothCars⟩,
    ⟨.position, 2000000, bothCars⟩, ⟨.teamRadio, 2500000, oneCapture⟩] := by
  simp [Capture.events, Capture.merged, shuffledCapture, CaptureEntry.event, byStamp, List.mergeSort]

def shuffledReplay : Option (Feed Unit × Json) × List Publish × Option Halt :=
  replayCapture plainBuiltins "live" "" none (fun _ => leaderCar) () shuffledCapture
    (fun _ => steadyBeat) steadyBeat

theorem shuffledReplay_ends : ∃ last text frames,
    shuffledReplay = (some (last, text), frames, none) ∧ frames.length = 3 := by
  have ran : shuffledReplay.1.isSome = true ∧ shuffledReplay.2.2.isNone = true ∧
      shuffledReplay.2.1.length = 3 := by
    rw [shuffledReplay, replayCapture, Capture.messages, shuffledCapture_events]
    decide +kernel
  generalize shuffledReplay = replay at ran
  obtain ⟨ending, frames, halted⟩ := replay
  obtain ⟨stored, finished, three⟩ := ran
  obtain ⟨⟨last, text⟩, rfl⟩ := Option.isSome_iff_exists.mp stored
  cases Option.isNone_iff_eq_none.mp finished
  exact ⟨last, text, frames, rfl, three⟩

theorem capture_replays_shuffled : ∃ feed text,
    Feed.start plainBuiltins "live" "Live F1" none (fun _ => leaderCar) () = .ok (feed, text) ∧
      shuffledReplay.2.1.length = 3 ∧
      shuffledReplay.2.1 = feed.allFrames plainBuiltins
        (shuffledCapture.drivers ++ shuffledCapture.messages fun _ => steadyBeat) (sessionMs 2500000)
        1000 .delivered := by
  obtain ⟨last, text, frames, played, three⟩ := shuffledReplay_ends
  have loaded : ∀ message ∈ shuffledCapture.drivers ++ shuffledCapture.messages fun _ => steadyBeat,
      Feed.decodePayload plainBuiltins message.payload = message.payload := by
    intro message _
    cases message.payload <;> rfl
  obtain ⟨_, feed, event, begun, final, stopped | ⟨_, whole, _⟩⟩ :=
    capture_replays_the_live_run played loaded
  · obtain ⟨_, _, _, _, _, _, _, _, ended⟩ := stopped
    cases ended
  · rw [shuffledCapture_events] at final
    cases final
    rw [played]
    exact ⟨feed, text, begun, three, whole⟩

theorem replay_clock_never_rewinds_shuffled : ∃ (base : Int) (times : List Int),
    times.length = 3 ∧ times.Pairwise (· ≤ ·) ∧
      shuffledReplay.2.1.map (fun frame => frame.text.get? "timeMs") =
        times.map (fun time => some (.int time)) ∧
      shuffledReplay.2.1.map (fun frame => frame.text.get? "rev") =
        (List.range 3).map fun index => some (.int (base + 1 + index)) := by
  obtain ⟨last, text, frames, played, three⟩ := shuffledReplay_ends
  obtain ⟨base, times, _, ordered, clocks, revs⟩ := replay_clock_never_rewinds played
  have counted := congrArg List.length clocks
  rw [List.length_map, List.length_map, three] at counted
  rw [played]
  exact ⟨base, times, counted.symm, ordered, clocks, three ▸ revs⟩

end RaceTracker.Ingest
