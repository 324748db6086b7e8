import RemoteAgent.Dial.Basic
import RemoteAgent.Endpoint.Descriptor
import RemoteAgent.Json.Fields
import RemoteAgent.Json.Reader
import RemoteAgent.Json.Writer
import RemoteAgent.Main
import RemoteAgent.Rehearsal.Furnishing
import RemoteAgent.Rehearsal.Machine
import RemoteAgent.Stream.Script
import RemoteAgent.Proofs.Agent.Race
import RemoteAgent.Proofs.Agent.SafeRelocation
import RemoteAgent.Proofs.Agent.Serving
import RemoteAgent.Proofs.Bundle.Extract
import RemoteAgent.Proofs.Bundle.Selection
import RemoteAgent.Proofs.Config.Variables
import RemoteAgent.Proofs.Congruence
import RemoteAgent.Proofs.Connection.Bytes
import RemoteAgent.Proofs.Connection.Closing
import RemoteAgent.Proofs.Connection.Lifecycle
import RemoteAgent.Proofs.Dial.Agents
import RemoteAgent.Proofs.Dial.Budget
import RemoteAgent.Proofs.Dial.Composition
import RemoteAgent.Proofs.Dial.Congruence
import RemoteAgent.Proofs.Dial.Container
import RemoteAgent.Proofs.Dial.Kinds
import RemoteAgent.Proofs.Dial.LostMessage
import RemoteAgent.Proofs.Dial.Machine
import RemoteAgent.Proofs.Dial.Payload
import RemoteAgent.Proofs.Dial.Refusal
import RemoteAgent.Proofs.Dial.Shells
import RemoteAgent.Proofs.Dial.Sightings
import RemoteAgent.Proofs.Endpoint.Descriptor
import RemoteAgent.Proofs.Handshake.Agreement
import RemoteAgent.Proofs.Handshake.Receiving
import RemoteAgent.Proofs.Stream.Run
import RemoteAgent.Proofs.Transport.Docker
import RemoteAgent.Proofs.Transport.Environment
import RemoteAgent.Proofs.Transport.Home
import RemoteAgent.Proofs.Transport.Restart
import RemoteAgent.Proofs.Version.Codec
import RemoteAgent.Proofs.Version.Wire
import RemoteAgent.Proofs.Platform.Uname
import RemoteAgent.Proofs.Agent.Conversation
import RemoteAgent.Proofs.Dial.Probing
import RemoteAgent.Proofs.Transport.WindowsEnvironment
import RemoteAgent.Proofs.Connection.ErrorOutput
import RemoteAgent.Proofs.Bundle.EntryKinds
import RemoteAgent.Proofs.Transport.Ipfs
import RemoteAgent.Proofs.Config.KillDelay
import RemoteAgent.Proofs.Agent.VersionDirectories
