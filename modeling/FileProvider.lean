import FileProvider.Catalogue
import FileProvider.Descriptors
import FileProvider.Fs.Backend
import FileProvider.Fs.Bytes
import FileProvider.Fs.Entry
import FileProvider.Fs.Error
import FileProvider.Fs.Io
import FileProvider.Fs.Kind
import FileProvider.Fs.Monitored
import FileProvider.Fs.OpenMode
import FileProvider.Fs.Refusing
import FileProvider.Fs.Scheduled
import FileProvider.Fs.Stat
import FileProvider.Fs.SystemError
import FileProvider.Fs.Tree
import FileProvider.Host.Folder
import FileProvider.Host.OpenFile
import FileProvider.Host.System
import FileProvider.Host.Tree
import FileProvider.Json
import FileProvider.Memory.Backend
import FileProvider.Memory.OpenFile
import FileProvider.Memory.Session
import FileProvider.Memory.Store
import FileProvider.Path.Basic
import FileProvider.Path.Location
import FileProvider.Proofs.Catalogue
import FileProvider.Proofs.Fs.Scheduled
import FileProvider.Proofs.Fs.Tree
import FileProvider.Proofs.Memory.Agree
import FileProvider.Proofs.Memory.Appending
import FileProvider.Proofs.Memory.Atomic
import FileProvider.Proofs.Memory.Change
import FileProvider.Proofs.Memory.Conflict
import FileProvider.Proofs.Memory.Conserved
import FileProvider.Proofs.Memory.Consumed
import FileProvider.Proofs.Memory.Endless
import FileProvider.Proofs.Memory.Faults
import FileProvider.Proofs.Memory.Following
import FileProvider.Proofs.Memory.Lookup
import FileProvider.Proofs.Memory.Merge
import FileProvider.Proofs.Memory.Move
import FileProvider.Proofs.Memory.Numbers
import FileProvider.Proofs.Memory.Opening
import FileProvider.Proofs.Memory.Operations
import FileProvider.Proofs.Memory.Overlap
import FileProvider.Proofs.Memory.Passage
import FileProvider.Proofs.Memory.Presence
import FileProvider.Proofs.Memory.Relocation
import FileProvider.Proofs.Memory.Removal
import FileProvider.Proofs.Memory.Rename
import FileProvider.Proofs.Memory.Session
import FileProvider.Proofs.Memory.Sharing
import FileProvider.Proofs.Memory.Upwards
import FileProvider.Proofs.Memory.View
import FileProvider.Proofs.Memory.Walk
import FileProvider.Proofs.Memory.WellFormed
import FileProvider.Proofs.Memory.WriteBack
import FileProvider.Proofs.Path.Apart
import FileProvider.Proofs.Path.Location
import FileProvider.Proofs.Run
import FileProvider.Proofs.Service.Handed
import FileProvider.Proofs.Service.Move
import FileProvider.Proofs.Service.Opening
import FileProvider.Proofs.Service.Volumes
import FileProvider.Proofs.Text.Pieces
import FileProvider.Proofs.Text.Search
import FileProvider.Proofs.Text.Segments
import FileProvider.Proofs.Text.Offsets
import FileProvider.Proofs.Uri.Child
import FileProvider.Proofs.Uri.Place
import FileProvider.Run
import FileProvider.Service.Basic
import FileProvider.Service.Column
import FileProvider.Service.Document
import FileProvider.Service.Error
import FileProvider.Service.Listing
import FileProvider.Service.Move
import FileProvider.Service.Query
import FileProvider.Service.Reply
import FileProvider.Service.Root
import FileProvider.Settings
import FileProvider.Text.Class
import FileProvider.Text.Printable
import FileProvider.Text.Quoted
import FileProvider.Text.Search
import FileProvider.Uri.Addressing
import FileProvider.Uri.Basic
import FileProvider.Uri.Record
import FileProvider.Uri.Segments
import FileProvider.Uri.Strict
import FileProvider.Volume.Directory
import FileProvider.Volume.Event
import FileProvider.Volume.Hub
import FileProvider.Volume.Record
import FileProvider.Volume.Table
import FileProvider.Volume.Background
import FileProvider.Proofs.Volume.Table
import FileProvider.Proofs.Volume.Background
import FileProvider.Proofs.Volume.Settling
import FileProvider.Proofs.Volume.Delivery
import FileProvider.Volume.Watch
import FileProvider.Proofs.Volume.Directory
import FileProvider.Proofs.Volume.Watch
import FileProvider.Proofs.Volume.Baseline
import FileProvider.Volume.Call
import FileProvider.Volume.Wiring
import FileProvider.Proofs.Uri.Language
import FileProvider.Proofs.Uri.Addressed
import FileProvider.Proofs.Volume.Ordered
import FileProvider.Proofs.Service.Gate
import FileProvider.Proofs.Volume.Tasks
import FileProvider.Proofs.Volume.Retired
import FileProvider.Proofs.Volume.Shown
import FileProvider.Proofs.Volume.Simulation
import FileProvider.Proofs.Volume.Mirror
import FileProvider.Proofs.Service.Roots
import FileProvider.Proofs.Host.Looking
import FileProvider.Proofs.Service.Access
import FileProvider.Proofs.Host.WellFormed
import FileProvider.Proofs.Host.Changing
import FileProvider.Proofs.Host.Moving
import FileProvider.Proofs.Host.Opening
import FileProvider.Proofs.Host.Twins
import FileProvider.Proofs.Memory.Seeking
import FileProvider.Proofs.Service.Twins
import FileProvider.Proofs.Json.Reading
import FileProvider.Proofs.Json.Records
import FileProvider.Proofs.Memory.Renaming
import FileProvider.Proofs.Fs.Legible
import FileProvider.Proofs.Memory.Legible
import FileProvider.Proofs.Uri.Parts
import FileProvider.Proofs.Uri.Returning
import FileProvider.Proofs.Uri.Naming
import FileProvider.Proofs.Service.Listing
import FileProvider.Proofs.Service.Created
import FileProvider.Proofs.Steady
import FileProvider.Proofs.Descriptors
import FileProvider.Proofs.Memory.Pruning
import FileProvider.Proofs.Memory.Refusals
import FileProvider.Proofs.Service.Descriptors
import FileProvider.Proofs.Service.Windows
import FileProvider.Proofs.Service.Sizes
import FileProvider.Proofs.Path.Readings
import FileProvider.Proofs.Settings
import FileProvider.Proofs.Service.Devices
import FileProvider.Proofs.Memory.Elsewhere
import FileProvider.Proofs.Memory.ByteFile
