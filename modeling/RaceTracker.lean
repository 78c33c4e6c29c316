import RaceTracker.App.Constants
import RaceTracker.App.Control
import RaceTracker.App.Hosts
import RaceTracker.App.Payloads
import RaceTracker.App.Seeding
import RaceTracker.Bake.Centreline
import RaceTracker.Bake.Ghost
import RaceTracker.Bake.Pit
import RaceTracker.Bake.Progress
import RaceTracker.Bake.RaceControl
import RaceTracker.Bake.Timing
import RaceTracker.Bake.Tracking
import RaceTracker.Ingest.Auth
import RaceTracker.Ingest.UnitBox
import RaceTracker.Ingest.CaptureReplay
import RaceTracker.Ingest.Captures
import RaceTracker.Ingest.Delivery
import RaceTracker.Ingest.Isolation
import RaceTracker.Loadtest.Histogram
import RaceTracker.Model.History
import RaceTracker.Replay.Wallclock
import RaceTracker.Seam.ClipWriters
import RaceTracker.App.CompareHubs
import RaceTracker.Seam.DemoBoard
import RaceTracker.Seam.Gaps
import RaceTracker.Seam.LateJoiner
import RaceTracker.Seam.LiveFold
import RaceTracker.Seam.Minisectors
import RaceTracker.Seam.Readings
import RaceTracker.Seam.RecordedRace
import RaceTracker.Seam.Restarts
import RaceTracker.Seam.Standings
import RaceTracker.Web.CommsAttempts
import RaceTracker.Web.CommsReset
import RaceTracker.Web.LapHistory
import RaceTracker.Web.LongGap
import RaceTracker.Web.OverlayLinks
import RaceTracker.Web.Reconnect
import RaceTracker.Web.RollingHistory
import RaceTracker.Web.Routing
import RaceTracker.Web.TimingTower
import RaceTracker.Web.TowerRows
import RaceTracker.Web.Scrubbing
import RaceTracker.Web.SectorBests
import RaceTracker.Web.Sharing
import RaceTracker.Web.Validator
import RaceTracker.Ws.Streams
