import Multiview.Engine.Scripted
import Multiview.Nal.AccessUnit
import Multiview.Session.Operation
import Multiview.Session.Playback
import Multiview.Proofs.Pairing.Join
import Multiview.Proofs.Pool.Lookup
import Multiview.Proofs.Pairing.Perform
import Multiview.Proofs.Pairing.Schedule
import Multiview.Proofs.Engine.Simulated
import Multiview.Proofs.Pool.Tracks
import Multiview.Proofs.Session.Accounted
import Multiview.Proofs.Session.Custody
import Multiview.Proofs.Session.Exclusive
import Multiview.Proofs.Pool.Backing
import Multiview.Proofs.Session.Content
import Multiview.Proofs.Engine.Protocol
import Multiview.Proofs.Session.Serving
import Multiview.Proofs.Session.Talking
import Multiview.Proofs.Session.Attuned
import Multiview.Proofs.Session.Lockstep
import Multiview.Proofs.Nal.Scan
import Multiview.Proofs.Engine.Attentive
import Multiview.Proofs.Session.Delivery
import Multiview.Proofs.Nal.Written
import Multiview.Proofs.Session.Aligned
import Multiview.Proofs.Session.Streaming
import Multiview.Proofs.Session.Playing
import Multiview.Proofs.Session.Opening
import Multiview.Proofs.Session.Playthrough
import Multiview.Proofs.Memory.Device
import Multiview.Proofs.Memory.Furnished
import Multiview.Proofs.Pool.Tenancy
import Multiview.Proofs.Session.Tenure
import Multiview.Proofs.Session.Lifetime
import Multiview.Proofs.Session.Refusal
import Multiview.Proofs.Session.Draining
import Multiview.Proofs.Session.Tending
import Multiview.Proofs.Session.Backlog
import Multiview.Proofs.Config.Written
import Multiview.Proofs.Memory.Past
import Multiview.Proofs.Session.Guise
import Multiview.Proofs.Engine.Framings
import Multiview.Proofs.Session.Twins
import Multiview.Proofs.Session.Framings
import Multiview.Proofs.Session.Reframing
import Multiview.Proofs.Memory.Books
import Multiview.Proofs.Memory.Stores
import Multiview.Proofs.Memory.Division
import Multiview.Proofs.Memory.Service
import Multiview.Proofs.Engine.Progress
import Multiview.Proofs.Session.Faultless
import Multiview.Proofs.Session.Playlist
import Multiview.Proofs.Engine.Stages
import Multiview.Proofs.Session.Prospect
import Multiview.Proofs.Session.Busy
import Multiview.Proofs.Memory.Slices
import Multiview.Proofs.Memory.Correspondence
import Multiview.Proofs.Memory.Textures
import Multiview.Proofs.Nal.Visits
import Multiview.Proofs.Nal.Split
import Multiview.Proofs.Nal.Offsets
import Multiview.Proofs.Nal.Partition
import Multiview.Proofs.Nal.Complete
import Multiview.Proofs.Nal.Lengths
import Multiview.Proofs.Session.Malformed
import Multiview.Proofs.Session.Blanking
import Multiview.Proofs.Session.Configured
import Multiview.Proofs.Session.Statuses
import Multiview.Proofs.Memory.Cropping
import Multiview.Proofs.Rounding
import Multiview.Proofs.Nal.Headed
import Multiview.Proofs.Memory.Sizes
import Multiview.Proofs.Memory.Allocation
