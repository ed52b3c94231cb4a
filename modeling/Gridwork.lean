import Gridwork.Domain.Ledger
import Gridwork.Cert.Completeness
import Gridwork.Context.Agreement
import Gridwork.Pty.Converge
import Gridwork.Pty.Publishing
import Gridwork.PtyHost.Publisher
import Gridwork.PtyHost.Replay
import Gridwork.PtyHost.Refusal
import Gridwork.Engine.Attach
import Gridwork.Kernel.Recovery
import Gridwork.Kernel.Paging
import Gridwork.Kernel.Controls
import Gridwork.Kernel.FactTables
import Gridwork.Kernel.RunLifecycle
import Gridwork.Kernel.SweepRace
import Gridwork.Kernel.SweepCover
import Gridwork.Blob.Opening
import Gridwork.Blob.Range
import Gridwork.Blob.Uploads
import Gridwork.Delivery.Order
import Gridwork.Tui.Clock
import Gridwork.Tui.Drilldown
import Gridwork.Tui.Arrange
import Gridwork.Wire.Frame
import Gridwork.Pty.RawAttach
import Gridwork.Pty.Represented
import Gridwork.PtyHost.BlankGrid
import Gridwork.Tui.SafeText
