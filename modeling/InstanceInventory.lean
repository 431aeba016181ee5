import InstanceInventory.Main
import InstanceInventory.Proofs.Cloud.Listing
import InstanceInventory.Proofs.Document.Agreement
import InstanceInventory.Proofs.Document.Descent
import InstanceInventory.Proofs.Document.MapOpening
import InstanceInventory.Proofs.Document.Reported
import InstanceInventory.Proofs.Document.Separation
import InstanceInventory.Proofs.Document.Verified
import InstanceInventory.Proofs.Literal.Interpolation
import InstanceInventory.Proofs.Literal.Limited
import InstanceInventory.Proofs.Literal.Seam
import InstanceInventory.Proofs.Literal.Tiling
import InstanceInventory.Proofs.Literal.Unambiguous
import InstanceInventory.Proofs.Prompt.Collected
import InstanceInventory.Proofs.Record.Imported
import InstanceInventory.Proofs.Settings.Layers
import InstanceInventory.Proofs.System.Edits
