import FacesService.Base.Prog
import FacesService.Base.Race
import FacesService.Base.Ways
import FacesService.Base.Tandem
import FacesService.Base.Probe
import FacesService.Base.Filling
import FacesService.Base.Fallible
import FacesService.Base.Lists
import FacesService.Base.Twin
import FacesService.Base.Monitor
import FacesService.Base.Triple
import FacesService.Base.CliqueCover
import FacesService.Base.HalfEven
import FacesService.Base.Binary64
import FacesService.Base.Decimal
import FacesService.Model.Schema
import FacesService.Model.Db
import FacesService.Model.Writes
import FacesService.Model.Clustering
import FacesService.Model.Service
import FacesService.Model.Infer
import FacesService.Model.Cascade
import FacesService.Model.Reader
import FacesService.Model.Assist
import FacesService.Model.CacheThreads
import FacesService.Model.Conn
import FacesService.Model.MergeTx
import FacesService.Store.Statements
import FacesService.Store.Specs
import FacesService.Store.Calls
import FacesService.Store.Merge
import FacesService.Store.Slots
import FacesService.Store.Invariant
import FacesService.Store.Lineage
import FacesService.Store.Conservation
import FacesService.Store.NudgeLoop
import FacesService.Store.Codec
import FacesService.Store.NameSearch
import FacesService.Store.MergeOrder
import FacesService.Store.MergeTx
import FacesService.Store.MergeRace
import FacesService.Store.Purge
import FacesService.Store.Cascade
import FacesService.Store.Bumps
import FacesService.Store.Keys
import FacesService.Store.Window
import FacesService.Store.WindowCalls
import FacesService.Store.SharedCalls
import FacesService.Store.Album
import FacesService.Store.Private
import FacesService.Store.PrivateCalls
import FacesService.Infer.Sampling
import FacesService.Infer.Matching
import FacesService.Infer.Loop
import FacesService.Infer.Abort
import FacesService.Infer.Simulation
import FacesService.Infer.Beside
import FacesService.Infer.Persist
import FacesService.Infer.RunningMean
import FacesService.Infer.Rerun
import FacesService.Infer.Curation
import FacesService.Infer.Accounting
import FacesService.Infer.Crops
import FacesService.Infer.Pictures
import FacesService.Grouping.Groups
import FacesService.Grouping.Guarantees
import FacesService.Matcher.Best
import FacesService.Matcher.Index
import FacesService.Matcher.Absorb
import FacesService.Reader.Steps
import FacesService.Reader.DeleteEmpty
import FacesService.Reader.Merge
import FacesService.Reader.Duplicates
import FacesService.Reader.ListFaces
import FacesService.Reader.Views
import FacesService.Reader.StreamFaces
import FacesService.Reader.Isolation
import FacesService.Reader.SuggestionCache
import FacesService.Reader.Epochs
import FacesService.Reader.Attach
import FacesService.Reader.Reattach
import FacesService.Reader.Serial
import FacesService.Reader.AttachWays
import FacesService.Reader.LostUpdate
import FacesService.Reader.Boxes
import FacesService.Reader.VideoSearch
import FacesService.Reader.SampleFrame
import FacesService.Reader.Purges
import FacesService.Reader.Pictures
import FacesService.Reader.CropHistory
import FacesService.Pool.Bounds
import FacesService.Pool.Leaks
import FacesService.Route.Retry
import FacesService.Route.Race
import FacesService.Base.Crew
import FacesService.Base.Budget
import FacesService.Model.Auth
import FacesService.Model.App
import FacesService.Model.Disconnect
import FacesService.Model.FaceModel
import FacesService.Store.Tenants
import FacesService.Store.Crops
import FacesService.System.Regime
import FacesService.System.Rules
import FacesService.System.Programs
import FacesService.System.Endpoints
import FacesService.System.Engine
import FacesService.System.Safety
import FacesService.System.Service
import FacesService.System.CropRules
import FacesService.System.CropSafety
import FacesService.System.Pictures
import FacesService.System.Watch
import FacesService.Reader.FastPath
import FacesService.Store.RenameRace
import FacesService.Infer.Undo
import FacesService.Reader.Backstop
import FacesService.Reader.Agreement
import FacesService.Base.Projection
import FacesService.Store.Removals
import FacesService.Store.Labels
import FacesService.Reader.Joined
import FacesService.Reader.Sweep
import FacesService.Store.Alone
