import ObjectDepot.Config.Arguments
import ObjectDepot.KeyMap.Lemmas
import ObjectDepot.Release
import ObjectDepot.Service.Batch
import ObjectDepot.Service.Principal
import ObjectDepot.Service.Single
import ObjectDepot.Storage.Memory
import ObjectDepot.Proofs.FieldReading
import ObjectDepot.Proofs.EnvelopeFields
import ObjectDepot.Proofs.Overlay
import ObjectDepot.Proofs.Projection
import ObjectDepot.Proofs.Merging
import ObjectDepot.Proofs.Reachability
import ObjectDepot.Service.Run
import ObjectDepot.Proofs.Requests
import ObjectDepot.Proofs.LockedFields
import ObjectDepot.Proofs.ItemIsolation
import ObjectDepot.Proofs.AppRecords
import ObjectDepot.Proofs.Registration
import ObjectDepot.Proofs.Effects
import ObjectDepot.Proofs.RequestFrame
import ObjectDepot.Proofs.Locality
import ObjectDepot.Proofs.Noninterference
import ObjectDepot.Proofs.StoredNames
import ObjectDepot.Proofs.Identity
import ObjectDepot.Proofs.NewObjects
import ObjectDepot.Proofs.BatchCreates
import ObjectDepot.Proofs.TypedBodies
import ObjectDepot.Proofs.KeptValues
import ObjectDepot.Proofs.UpdatePaths
import ObjectDepot.Proofs.Principals
import ObjectDepot.Proofs.ShardKeys
import ObjectDepot.Proofs.RegisteredTypes
import ObjectDepot.Proofs.TypeGains
import ObjectDepot.Proofs.RegistrationOrder
import ObjectDepot.Proofs.RecordedTypes
import ObjectDepot.Proofs.JointRegistration
import ObjectDepot.Proofs.RecordNames
import ObjectDepot.Proofs.Availability
import ObjectDepot.Proofs.Discovery
import ObjectDepot.Proofs.FlatForm
import ObjectDepot.Proofs.NormalForm
import ObjectDepot.Proofs.Validity
import ObjectDepot.Proofs.StoredForms
import ObjectDepot.Proofs.WireNames
import ObjectDepot.Proofs.FieldSources
import ObjectDepot.Proofs.SameRequests
import ObjectDepot.Proofs.ServerFields
import ObjectDepot.Proofs.LastWrites
import ObjectDepot.Proofs.UpdatedFields
import ObjectDepot.Proofs.CreationTimes
import ObjectDepot.Proofs.CreationPaths
import ObjectDepot.Proofs.PartialObjects
import ObjectDepot.Proofs.BlamedFields
import ObjectDepot.Proofs.AllOrNothing
import ObjectDepot.Proofs.FailedMerges
import ObjectDepot.Proofs.RequestBodies
import ObjectDepot.Proofs.CoreTypes
import ObjectDepot.Proofs.BatchDeletes
import ObjectDepot.Proofs.UpdateLoops
import ObjectDepot.Proofs.BatchLoops
import ObjectDepot.Proofs.FormatGrammars
import ObjectDepot.Proofs.FormatMessages
import ObjectDepot.Proofs.SuccessiveChanges
