import HalfMesh.Foundations.GoMap
import HalfMesh.Foundations.KeyedStore
import HalfMesh.Foundations.Heap
import HalfMesh.Foundations.Outcome
import HalfMesh.Foundations.Transition
import HalfMesh.Model.Kube
import HalfMesh.Model.Xds
import HalfMesh.Model.MeshServices
import HalfMesh.Model.Memory
import HalfMesh.Model.GetResources
import HalfMesh.Mesh.View
import HalfMesh.Mesh.Realization
import HalfMesh.Mesh.Resolution
import HalfMesh.Mesh.Integrity
import HalfMesh.Mesh.Acceptance
import HalfMesh.Mesh.Locality
import HalfMesh.Mesh.Orders
import HalfMesh.Model.Snapshot
import HalfMesh.Process.Versions
import HalfMesh.Process.Restarts
import HalfMesh.Model.Informer
import HalfMesh.Model.Watcher
import HalfMesh.Process.Steps
import HalfMesh.Process.Startup
import HalfMesh.Process.Runs
import HalfMesh.Process.Rollback
import HalfMesh.Process.Refinement
import HalfMesh.Process.Updater
import HalfMesh.Process.Freshness
import HalfMesh.Process.Shutdown
import HalfMesh.Foundations.Progress
import HalfMesh.Process.Settling
import HalfMesh.Process.Healing
import HalfMesh.Process.Coalescing
import HalfMesh.Process.Crashes
import HalfMesh.Mesh.Decoding
import HalfMesh.Foundations.Loop
import HalfMesh.Foundations.Storage
import HalfMesh.Slides.Deck
import HalfMesh.Slides.Shown
import HalfMesh.Slides.Windows
import HalfMesh.Slides.Moving
import HalfMesh.Slides.Sync
import HalfMesh.Slides.Delivery
import HalfMesh.Slides.Playing
import HalfMesh.Slides.Clicks
import HalfMesh.Foundations.Markup
import HalfMesh.Foundations.Defer
import HalfMesh.Slides.Console
import HalfMesh.Slides.Transcript
import HalfMesh.Slides.Programs
import HalfMesh.Slides.HttpTransport
import HalfMesh.Slides.Playback
import HalfMesh.Slides.Screens
import HalfMesh.Slides.ProgramText
import HalfMesh.Demo.Shell
import HalfMesh.Demo.Cleanup
import HalfMesh.Demo.Signals
import HalfMesh.Client.Headers
