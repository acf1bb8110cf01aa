import SignatureCatalog.Description
import SignatureCatalog.KeyInfo.Order
import SignatureCatalog.Proofs.Der.Element
import SignatureCatalog.Proofs.Der.Exact
import SignatureCatalog.Proofs.Der.Length
import SignatureCatalog.Proofs.Engine.Machine
import SignatureCatalog.Proofs.Engine.Refinement
import SignatureCatalog.Proofs.Ensures
import SignatureCatalog.Proofs.KeyInfo.AlgorithmCodec
import SignatureCatalog.Proofs.KeyInfo.PublicKeyCodec
import SignatureCatalog.Proofs.Provider.Atomic
import SignatureCatalog.Proofs.Provider.Configure
import SignatureCatalog.Proofs.Provider.Holdings
import SignatureCatalog.Proofs.Provider.Honest
import SignatureCatalog.Proofs.Registry.Distinct
import SignatureCatalog.Proofs.Registry.Handshake
import SignatureCatalog.Proofs.Registry.Lookup
import SignatureCatalog.Provider.Publisher
import SignatureCatalog.Provider.Scripted
import SignatureCatalog.Registry.Routing
import SignatureCatalog.Sample.HashScheme
import SignatureCatalog.Sample.ScriptedAdapter
import SignatureCatalog.Sample.Sha256
import SignatureCatalog.Session.Run
import SignatureCatalog.Proofs.Engine.Session
import SignatureCatalog.Proofs.Oid.Decodable
import SignatureCatalog.Proofs.Provider.Republication
import SignatureCatalog.Proofs.Registry.Extension
import SignatureCatalog.Proofs.Registry.Ownership
import SignatureCatalog.Proofs.Registry.Routing
import SignatureCatalog.Proofs.Registry.Wire
import SignatureCatalog.Proofs.Routes
import SignatureCatalog.Proofs.Der.Integer
import SignatureCatalog.Proofs.Der.Order
import SignatureCatalog.Proofs.Der.SetOf
import SignatureCatalog.Proofs.KeyInfo.AttributeCodec
import SignatureCatalog.Proofs.KeyInfo.PrivateKeyCodec
import SignatureCatalog.Proofs.Registry.SameRecords
import SignatureCatalog.Proofs.Registry.Commutation
import SignatureCatalog.Proofs.Registry.Contract
import SignatureCatalog.Proofs.Provider.Resolution
import SignatureCatalog.Proofs.Provider.Reconfiguration
import SignatureCatalog.Proofs.Registry.Override
import SignatureCatalog.Proofs.Registry.Directed
import SignatureCatalog.Proofs.Engine.Rounds
import SignatureCatalog.Proofs.HashScheme.Marshalling
import SignatureCatalog.Proofs.HashScheme.Signing
import SignatureCatalog.Proofs.KeyInfo.Payload
import SignatureCatalog.Proofs.KeyInfo.Nesting
import SignatureCatalog.Proofs.Registry.Payload
import SignatureCatalog.Proofs.Registry.Registration
import SignatureCatalog.Proofs.Provider.Instantiation
import SignatureCatalog.Proofs.Provider.Obstacles
import SignatureCatalog.Proofs.Provider.Transcript
import SignatureCatalog.Proofs.Provider.Calls
import SignatureCatalog.Proofs.Provider.Propagation
import SignatureCatalog.Proofs.Provider.Tolerance
import SignatureCatalog.Proofs.KeyInfo.Orders
