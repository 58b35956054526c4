import ValueBridge.Proofs.Binary64.Nearest
import ValueBridge.Proofs.Bridge.Loading
import ValueBridge.Proofs.Config
import ValueBridge.Proofs.Decimal.Canonical
import ValueBridge.Proofs.Engine.Buffers
import ValueBridge.Proofs.Heap.Buffer
import ValueBridge.Proofs.Heap.BufferWrites
import ValueBridge.Proofs.Heap.StoredNumbers
import ValueBridge.Proofs.Heap.Writes
import ValueBridge.Proofs.Import.Arguments
import ValueBridge.Proofs.Import.Text
import ValueBridge.Proofs.Instance.Bounds
import ValueBridge.Proofs.Instance.Doubling
import ValueBridge.Proofs.Instance.Identity
import ValueBridge.Proofs.Instance.Linking
import ValueBridge.Proofs.Instance.Property
import ValueBridge.Proofs.Instance.RoundTrip
import ValueBridge.Proofs.Instance.Tracing
import ValueBridge.Proofs.Instance.Unbound
import ValueBridge.Proofs.Memory.Access
import ValueBridge.Proofs.Realm
import ValueBridge.Proofs.Table.Claims
import ValueBridge.Proofs.Table.Occupancy
import ValueBridge.Proofs.Table.Record
import ValueBridge.Proofs.Table.Recycling
import ValueBridge.Proofs.Text.Malformed
import ValueBridge.Proofs.Value.Equality
import ValueBridge.Proofs.Value.NumberText
import ValueBridge.Proofs.Value.TextNumber
import ValueBridge.Proofs.World.Separation
import ValueBridge.Table.Stats
