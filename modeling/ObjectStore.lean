import ObjectStore.Account.Environment
import ObjectStore.Bucket.Attributes
import ObjectStore.Bucket.Copy
import ObjectStore.Bucket.Listing
import ObjectStore.Bucket.Reader
import ObjectStore.Bucket.Signing
import ObjectStore.Bucket.Writer
import ObjectStore.Emulator.Client
import ObjectStore.Scripted
import ObjectStore.Proofs.Metadata
import ObjectStore.Proofs.Text.Search
import ObjectStore.Proofs.Emulator
import ObjectStore.Proofs.Key
import ObjectStore.Proofs.Session
import ObjectStore.Proofs.Upload
import ObjectStore.Proofs.Writer
import ObjectStore.Proofs.Objects
import ObjectStore.Proofs.Commands
import ObjectStore.Proofs.Refinement
import ObjectStore.Proofs.Interleaving
import ObjectStore.Proofs.Atomicity
import ObjectStore.Proofs.Schedule
import ObjectStore.Proofs.Listing
import ObjectStore.Proofs.Pages
import ObjectStore.Proofs.Pagination
import ObjectStore.Proofs.Directories
import ObjectStore.Proofs.Walk
import ObjectStore.Proofs.Error
import ObjectStore.Proofs.Refusal
import ObjectStore.Proofs.Waiting
import ObjectStore.Proofs.Pipe
import ObjectStore.Proofs.Denial
import ObjectStore.Proofs.Path
import ObjectStore.Proofs.Failure
import ObjectStore.Proofs.Report
import ObjectStore.Proofs.Recording
import ObjectStore.Proofs.Usage
import ObjectStore.Proofs.Aborted
import ObjectStore.Proofs.Text.Form
import ObjectStore.Proofs.Text.Base64
import ObjectStore.Proofs.Time.UtcText
import ObjectStore.Proofs.Signing
import ObjectStore.Proofs.Signature
import ObjectStore.Proofs.Beginnings
import ObjectStore.Proofs.Selection
import ObjectStore.Proofs.Attributes
import ObjectStore.Proofs.Delimiters
import ObjectStore.Proofs.Grouping
import ObjectStore.Proofs.Order
import ObjectStore.Proofs.Service
import ObjectStore.Proofs.Course
import ObjectStore.Proofs.Catalogue
import ObjectStore.Proofs.Recreation
import ObjectStore.Proofs.Pause
import ObjectStore.Proofs.Watch
import ObjectStore.Proofs.Alarm
import ObjectStore.Proofs.Cancellation
import ObjectStore.Proofs.Address
import ObjectStore.Proofs.ContentHash
import ObjectStore.Proofs.Copying
import ObjectStore.Proofs.Text.Decimal
import ObjectStore.Proofs.Sizes
import ObjectStore.Proofs.Ranges
import ObjectStore.Proofs.Readers
import ObjectStore.Proofs.Storable
import ObjectStore.Proofs.Collisions
import ObjectStore.Proofs.Classification
import ObjectStore.Proofs.Hierarchy
import ObjectStore.Proofs.Overrides
import ObjectStore.Proofs.Assembly
import ObjectStore.Proofs.Tags
import ObjectStore.Proofs.Body
import ObjectStore.Proofs.ServiceUrl
