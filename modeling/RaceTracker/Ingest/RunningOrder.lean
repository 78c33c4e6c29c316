import RaceTracker.Ingest.Feed

namespace RaceTracker.Ingest

open RaceTracker.Lib RaceTracker.Model

/-! The running order on the wire, against what the feed has said.

`Heard` folds the same messages but publishes nothing, so no rank ever gets into it.
-/

structure Heard (β : Type) where
  reports : Reports
  bounds : β
  /-- Each driver's latest `Position.z` record, the drivers in the order first seen. -/
  records : Dict String Car

namespace Heard

variable {γ β : Type} (builtins : Builtins γ β)

def start (bounds : β) : Heard β := ⟨⟨.empty, .empty, .empty, .empty⟩, bounds, .empty⟩

/-- A `Position.z` message: each record takes the place of the driver's last one. -/
def position (heard : Heard β) (payload : Json) : Heard β :=
  let (bounds, records) := (applyPositionSamples builtins heard.reports heard.bounds
    (builtins.decodePositionPayload payload)).1
  { heard with
    bounds, records := records.foldl (fun dict entry => dict.set entry.1 entry.2) heard.records }

def hear (heard : Heard β) (message : Message) : Heard β :=
  let payload := Feed.decodePayload builtins message.payload
  match message.topic, payload with
  | .driverList, .obj payload =>
      { heard with reports := { heard.reports with
          driverInfo := (applyDriverList heard.reports.driverInfo payload).1 } }
  | .timingData, .obj payload =>
      let (runningPositions, timingExtra) := (applyTimingData builtins
        heard.reports.runningPositions heard.reports.timingExtra payload).1
      { heard with reports := { heard.reports with runningPositions, timingExtra } }
  | .timingAppData, .obj payload =>
      { heard with reports := { heard.reports with
          tyreExtra := (applyTyreData builtins heard.reports.tyreExtra payload).1 } }
  | .position, payload => heard.position builtins payload
  | _, _ => heard

def hearAll (heard : Heard β) (messages : List Message) : Heard β := messages.foldl (hear builtins) heard

/-- The known drivers, each with its latest raw position. -/
def cars (heard : Heard β) : List Car := heard.records.entries.map fun entry =>
  { entry.2 with pos := some ((heard.reports.runningPositions.get? entry.1).getD unknownPos) }

end Heard

/-- The publish's frame shows these cars, numbered 1..N. -/
def Shows (sent : Publish) (cars : List Car) : Prop :=
  cars.map Car.pos = (List.range cars.length).map (fun (index : Nat) => some ((index : Int) + 1)) ∧
    ∃ session rev now timeMs, sent.text = .obj (Codec.members (frameEntries session rev now timeMs
      (cars.map Car.dumps) [] none (sent.radio.map RadioRef.dumps)))

def leadNumber (text : Json) : Option Rat :=
  match text.get? "cars" with
  | some (.arr (car :: _)) => match car.get? "driverNum" with
      | some (.num number) => some number.value
      | _ => none
  | _ => none

theorem Shows.leadNumber_eq {sent : Publish} {cars : List Car} (shows : Shows sent cars) :
    leadNumber sent.text =
      (cars.head?.map Car.driverNum).map fun (number : Int) => (number : Rat) := by
  obtain ⟨_, session, rev, now, timeMs, text⟩ := shows
  have shown : sent.text.get? "cars" = some (.arr (cars.map Car.dumps)) := by
    rw [text]
    exact get?_frame (by simp [frameEntries])
  rw [leadNumber, shown]
  cases cars with
  | nil => rfl
  | cons car rest =>
      have number : car.dumps.get? "driverNum" = some (.int car.driverNum) :=
        Car.get?_dumps (List.mem_cons_self ..)
      simp only [List.map_cons, number, Json.int, List.head?_cons, Option.map_some]

/-- The feed knows the drivers that were heard of, whatever ranks their dicts were given. -/
structure Follows {β : Type} (feed : Feed β) (heard : Heard β) : Prop where
  reports : feed.reports = heard.reports
  bounds : feed.bounds = heard.bounds
  known : feed.run.latestCars.entries.map (fun entry => (entry.1, unranked (feed.run.dicts entry.2))) =
    heard.records.entries.map fun entry => (entry.1, unranked entry.2)
  apart : feed.run.Apart
  below : ∀ entry ∈ feed.run.latestCars.entries, entry.2 < feed.fresh

section

variable {γ β : Type} {builtins : Builtins γ β} {feed : Feed β} {heard : Heard β}

theorem Follows.cars (follows : Follows feed heard) :
    feed.run.restamped.map Prod.snd = heard.cars := by
  have positions : feed.run.runningPositions = heard.reports.runningPositions :=
    congrArg Reports.runningPositions follows.reports
  have placed := congrArg (List.map fun entry : String × Car => { entry.2 with
    pos := some ((feed.run.runningPositions.get? entry.1).getD unknownPos) }) follows.known
  rw [List.map_map, List.map_map] at placed
  rw [LiveRun.restamped, List.map_map, Heard.cars, ← positions]
  exact placed

theorem follows_start {session label : String} {stored : Option Json} {dicts : Nat → Car}
    {bounds : β} {text : Json}
    (begun : Feed.start builtins session label stored dicts bounds = .ok (feed, text)) :
    Follows feed (Heard.start bounds) := by
  obtain ⟨rev, rfl, rfl⟩ := Feed.start_eq begun
  exact ⟨rfl, rfl, rfl, List.nodup_nil, nofun⟩

theorem Follows.record (follows : Follows feed heard) (entry : String × Car) :
    Follows (feed.record entry)
      { heard with records := heard.records.set entry.1 entry.2 } where
  reports := follows.reports
  bounds := follows.bounds
  known := by
    have moved := congrArg Dict.entries (Dict.rename_set id Function.injective_id
      (fun id => unranked ((feed.record entry).run.dicts id)) feed.run.latestCars entry.1 feed.fresh)
    have renamed := congrArg Dict.entries (Dict.rename_set id Function.injective_id unranked
      heard.records entry.1 entry.2)
    have fresh : unranked ((feed.record entry).run.dicts feed.fresh) = unranked entry.2 := by
      rw [feed.record_fresh]
    have kept : feed.run.latestCars.entries.map
          (fun listed => (listed.1, unranked ((feed.record entry).run.dicts listed.2))) =
        feed.run.latestCars.entries.map
          fun listed => (listed.1, unranked (feed.run.dicts listed.2)) := by
      apply List.map_congr_left
      intro listed member
      rw [feed.record_other entry (follows.below listed member).ne]
    refine moved.trans (Eq.trans ?_ renamed.symm)
    change Dict.putEntry entry.1 (unranked ((feed.record entry).run.dicts feed.fresh))
        (feed.run.latestCars.entries.map
          fun listed => (listed.1, unranked ((feed.record entry).run.dicts listed.2))) =
      Dict.putEntry entry.1 (unranked entry.2)
        (heard.records.entries.map fun listed => (listed.1, unranked listed.2))
    rw [fresh, kept, follows.known]
  apart := by
    refine Dict.putEntry_values_nodup entry.1 ?_ follows.apart
    intro used
    obtain ⟨listed, member, same⟩ := List.mem_map.mp used
    exact (follows.below listed member).ne same
  below := feed.record_below entry follows.below

theorem Follows.records (follows : Follows feed heard) (entries : List (String × Car)) :
    Follows (entries.foldl Feed.record feed)
      { heard with records := entries.foldl (fun dict entry => dict.set entry.1 entry.2) heard.records } := by
  induction entries generalizing feed heard with
  | nil => exact follows
  | cons entry rest ih => exact ih (follows.record entry)

/-- A publish ranks the dicts and nothing else that matters here. -/
theorem Follows.published (follows : Follows feed heard) {cars : List (Nat × Car)}
    (tags : cars.map Prod.fst = feed.run.latestCars.entries.map Prod.snd)
    (own : ∀ entry ∈ cars, unranked entry.2 = unranked (feed.run.dicts entry.1))
    {after : Feed β} (reports : after.reports = feed.reports) (bounds : after.bounds = feed.bounds)
    (latest : after.run.latestCars = feed.run.latestCars) (fresh : after.fresh = feed.fresh)
    (dicts : after.run.dicts = writeDicts feed.run.dicts (reconcile cars)) : Follows after heard where
  reports := reports.trans follows.reports
  bounds := bounds.trans follows.bounds
  known := by
    rw [latest, dicts, ← follows.known]
    apply List.map_congr_left
    intro entry member
    rw [unranked_writeDicts (by rw [tags]; exact follows.apart) own]
  apart := by
    rw [LiveRun.Apart, latest]
    exact follows.apart
  below := by
    rw [latest, fresh]
    exact follows.below

theorem Follows.publish (follows : Follows feed heard) (message : Message) :
    Follows (feed.publish message).1 heard :=
  follows.published LiveRun.restamped_tags (fun _ => LiveRun.unranked_restamped) rfl rfl rfl rfl rfl

theorem shows_reconcile (cars : List (Nat × Car)) {sent : Publish} {session : String}
    {rev now timeMs : Int} (text : sent.text =
      (buildFrame session rev now timeMs cars [] none (sent.radio.map RadioRef.dumps)).2) :
    Shows sent (reconcilePositions (cars.map Prod.snd)) := by
  have length : (reconcilePositions (cars.map Prod.snd)).length = (cars.map Prod.snd).length := by
    simp [reconcilePositions, reconcile]
  refine ⟨?_, session, rev, now, timeMs, ?_⟩
  · rw [length]
    exact reconcilePositions_pos _
  · rw [text, ← reconcile_map_snd, List.map_map]
    rfl

theorem Follows.publish_shows (follows : Follows feed heard) (message : Message) :
    Shows (feed.publish message).2 (reconcilePositions heard.cars) := by
  rw [← follows.cars]
  exact shows_reconcile feed.run.restamped rfl

theorem trailing_shows {timeMs now : Int} {bus : Bus} {sent : Publish}
    (flushed : (feed.shutdownFlushRadio timeMs now bus).2 = some sent) :
    Shows sent (reconcilePositions (feed.run.known.map Prod.snd)) := by
  rw [Feed.shutdownFlushRadio_some flushed]
  exact shows_reconcile feed.run.known rfl

theorem Follows.trailing (follows : Follows feed heard) (kept : feed.run.OrderKept) :
    reconcilePositions (feed.run.known.map Prod.snd) = reconcilePositions heard.cars := by
  rw [← follows.cars, ← reconcile_map_snd, ← reconcile_map_snd, LiveRun.reconcile_known kept]

/-- The feed once a `Position.z` message's records are folded in. -/
theorem Follows.folded (builtins : Builtins γ β) (follows : Follows feed heard) (payload : Json) :
    let folded := (applyPositionSamples builtins feed.reports feed.bounds
      (builtins.decodePositionPayload payload)).1
    Follows (folded.2.foldl Feed.record { feed with bounds := folded.1 })
      (heard.position builtins payload) := by
  intro folded
  have told : Follows { feed with bounds := folded.1 }
      { heard with reports := feed.reports, bounds := folded.1 } :=
    ⟨rfl, rfl, follows.known, follows.apart, follows.below⟩
  rw [Heard.position]
  rw [← follows.reports, ← follows.bounds]
  exact told.records folded.2

theorem Follows.position (builtins : Builtins γ β) (follows : Follows feed heard)
    (message : Message) :
    Follows (feed.position builtins message).1 (heard.position builtins message.payload) := by
  have after := follows.folded builtins message.payload
  rw [Feed.position]
  simp only
  split
  · exact after
  · exact after.publish message

theorem Follows.position_shows (follows : Follows feed heard) {message : Message} {sent : Publish}
    (published : (feed.position builtins message).2 = some sent) :
    Shows sent (reconcilePositions (heard.position builtins message.payload).cars) := by
  have after := follows.folded builtins message.payload
  rw [Feed.position] at published
  simp only at published
  split at published
  · cases published
  · cases published
    exact after.publish_shows message

theorem Follows.dispatch (builtins : Builtins γ β) (follows : Follows feed heard)
    (message : Message) :
    Follows (feed.dispatch builtins message).1 (heard.hear builtins message) := by
  obtain ⟨topic, payload, due, timeMs, now, bus⟩ := message
  unfold Feed.dispatch Heard.hear
  simp only
  generalize Feed.decodePayload builtins payload = decoded
  have position := follows.position builtins ⟨topic, decoded, due, timeMs, now, bus⟩
  obtain ⟨reports, bounds, known, apart, below⟩ := follows
  have info : feed.driverInfo = heard.reports.driverInfo := congrArg Reports.driverInfo reports
  have positions : feed.run.runningPositions = heard.reports.runningPositions :=
    congrArg Reports.runningPositions reports
  have timing : feed.timingExtra = heard.reports.timingExtra := congrArg Reports.timingExtra reports
  have tyres : feed.tyreExtra = heard.reports.tyreExtra := congrArg Reports.tyreExtra reports
  cases topic with
  | driverList =>
      cases decoded with
      | obj patch =>
          refine ⟨?_, bounds, known, apart, below⟩
          simp only [Feed.handleMessage, Feed.reports, info, positions, timing, tyres]
      | _ => exact ⟨reports, bounds, known, apart, below⟩
  | timingData =>
      cases decoded with
      | obj patch =>
          refine ⟨?_, bounds, known, apart, below⟩
          simp only [Feed.handleMessage, Feed.reports, info, positions, timing, tyres]
      | _ => exact ⟨reports, bounds, known, apart, below⟩
  | timingAppData =>
      cases decoded with
      | obj patch =>
          refine ⟨?_, bounds, known, apart, below⟩
          simp only [Feed.handleMessage, Feed.reports, info, positions, timing, tyres]
      | _ => exact ⟨reports, bounds, known, apart, below⟩
  | position => exact position
  | _ => exact ⟨reports, bounds, known, apart, below⟩

theorem Follows.dispatch_shows (follows : Follows feed heard) {message : Message} {sent : Publish}
    (published : (feed.dispatch builtins message).2 = some sent) :
    Shows sent (reconcilePositions (heard.hear builtins message).cars) := by
  obtain ⟨topic, payload, due, timeMs, now, bus⟩ := message
  rw [Feed.dispatch] at published
  rw [Heard.hear]
  simp only at published ⊢
  generalize Feed.decodePayload builtins payload = decoded at published ⊢
  cases topic with
  | position =>
      have shows := follows.position_shows published
      exact shows
  | driverList => cases decoded <;> cases published
  | timingData => cases decoded <;> cases published
  | timingAppData => cases decoded <;> cases published
  | _ => cases published

theorem Follows.dispatchAll (follows : Follows feed heard) (messages : List Message) :
    Follows (feed.dispatchAll builtins messages).1 (heard.hearAll builtins messages) := by
  induction messages generalizing feed heard with
  | nil => exact follows
  | cons message rest ih => exact ih (follows.dispatch builtins message)

/-- Every frame shows the running order that the feed's own words give, the trailing one where its
stale ranks still order the cars as those words do. -/
theorem running_order_history_free {session label : String} {stored : Option Json}
    {dicts : Nat → Car} {bounds : β} {text : Json}
    (begun : Feed.start builtins session label stored dicts bounds = .ok (feed, text))
    (messages : List Message) :
    (∀ message sent,
      ((feed.dispatchAll builtins messages).1.dispatch builtins message).2 = some sent →
        Shows sent (reconcilePositions
          ((Heard.start bounds).hearAll builtins (messages ++ [message])).cars)) ∧
      ∀ timeMs now bus sent,
        ((feed.dispatchAll builtins messages).1.shutdownFlushRadio timeMs now bus).2 = some sent →
          (∃ cars, Shows sent cars) ∧ ((feed.dispatchAll builtins messages).1.run.OrderKept →
            Shows sent (reconcilePositions ((Heard.start bounds).hearAll builtins messages).cars)) := by
  have follows : Follows (feed.dispatchAll builtins messages).1
      ((Heard.start bounds).hearAll builtins messages) := (follows_start begun).dispatchAll messages
  constructor
  · intro message sent published
    rw [Heard.hearAll, List.foldl_append]
    exact follows.dispatch_shows published
  · intro timeMs now bus sent flushed
    have shows := trailing_shows flushed
    refine ⟨⟨_, shows⟩, ?_⟩
    intro kept
    rw [← follows.trailing kept]
    exact shows

end

def positionsLine (first second : String) : Json := .obj [("Lines", .obj [
  ("1", .obj [("Position", .str first)]), ("44", .obj [("Position", .str second)])])]

def opening : List Message := [
  plainMessage .sessionInfo (.obj [("Path", .str "2024/Monza/")]),
  plainMessage .timingData (positionsLine "1" "2")]

/-- Both cars are placed but no frame is due, and then there is radio. -/
def unpublished : List Message :=
  opening ++ [{ plainMessage .position bothCars with due := false }, plainMessage .teamRadio oneCapture]

theorem running_order_history_free_opening : ∃ sent flushed,
    ((quietFeed.dispatchAll plainBuiltins opening).1.dispatch plainBuiltins
      (plainMessage .position bothCars)).2 = some sent ∧
      Shows sent (reconcilePositions ((Heard.start ()).hearAll plainBuiltins
        (opening ++ [plainMessage .position bothCars])).cars) ∧
      ((quietFeed.dispatchAll plainBuiltins unpublished).1.shutdownFlushRadio 2000 2000
        .delivered).2 = some flushed ∧
      Shows flushed (reconcilePositions ((Heard.start ()).hearAll plainBuiltins unpublished).cars) := by
  have published : ((quietFeed.dispatchAll plainBuiltins opening).1.dispatch plainBuiltins
      (plainMessage .position bothCars)).2.isSome := by decide +kernel
  have flushed : ((quietFeed.dispatchAll plainBuiltins unpublished).1.shutdownFlushRadio 2000 2000
      .delivered).2.isSome := by decide +kernel
  have kept : (quietFeed.dispatchAll plainBuiltins unpublished).1.run.OrderKept := by
    rw [LiveRun.OrderKept]
    decide +kernel
  obtain ⟨sent, published⟩ := Option.isSome_iff_exists.mp published
  obtain ⟨last, flushed⟩ := Option.isSome_iff_exists.mp flushed
  refine ⟨sent, last, published, ?_, flushed, ?_⟩
  · exact (running_order_history_free quietFeed_start opening).1 _ sent published
  · exact ((running_order_history_free quietFeed_start unpublished).2 2000 2000 .delivered last
      flushed).2 kept

/-- 44 passes 1 after the last frame, and radio is still pending when the stream ends. -/
def lateSwap : List Message := opening ++ [
  plainMessage .position bothCars,
  plainMessage .timingData (positionsLine "2" "1"),
  plainMessage .teamRadio oneCapture]

/-- The run that `lateSwap` publishes. -/
def lateSwapRun : LiveRun :=
  (quietFeed.dispatchAll plainBuiltins
    (opening ++ [{ plainMessage .position bothCars with due := false }])).1.run

theorem leads_of_le {α : Type} {first second : α × Car}
    (stays : rankKey first.2 ≤ rankKey second.2) :
    ((reconcile [first, second]).map Prod.snd).head?.map Car.driverNum = some first.2.driverNum := by
  simp [reconcile, List.mergeSort, stays]

theorem leads_of_not_le {α : Type} {first second : α × Car}
    (passes : ¬ rankKey first.2 ≤ rankKey second.2) :
    ((reconcile [first, second]).map Prod.snd).head?.map Car.driverNum = some second.2.driverNum := by
  simp [reconcile, List.mergeSort, passes]

/-- The trailing frame still has 1 in front. -/
theorem stale_ranks_order_the_trailing_frame : ∃ sent,
    ((quietFeed.dispatchAll plainBuiltins lateSwap).1.shutdownFlushRadio 2000 2000 .delivered).2 =
        some sent ∧
      ¬ Shows sent (reconcilePositions ((Heard.start ()).hearAll plainBuiltins lateSwap).cars) := by
  have flushed : ((quietFeed.dispatchAll plainBuiltins lateSwap).1.shutdownFlushRadio 2000 2000
      .delivered).2.isSome := by decide +kernel
  obtain ⟨sent, flushed⟩ := Option.isSome_iff_exists.mp flushed
  refine ⟨sent, flushed, ?_⟩
  have ranked : (quietFeed.dispatchAll plainBuiltins lateSwap).1.run.known =
      (lateSwapRun.publishFrame 1000 1000 []).1.known := rfl
  have apart : lateSwapRun.Apart := by
    rw [LiveRun.Apart]
    decide +kernel
  have stale : ((reconcile lateSwapRun.restamped).map Prod.snd).head?.map Car.driverNum = some 1 :=
    leads_of_le (by decide +kernel)
  have raw : (reconcilePositions ((Heard.start ()).hearAll plainBuiltins lateSwap).cars).head?.map
      Car.driverNum = some 44 := leads_of_not_le (by decide +kernel)
  have shown := (trailing_shows flushed).leadNumber_eq
  rw [← reconcile_map_snd, ranked, LiveRun.reconcile_published apart, stale] at shown
  intro shows
  rw [shows.leadNumber_eq, raw] at shown
  exact absurd shown (by decide)

end RaceTracker.Ingest
