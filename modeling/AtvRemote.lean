import AtvRemote.FrameStreams
import AtvRemote.AlignedRuns
import AtvRemote.ReadPowerRuns
import AtvRemote.HandshakeRuns
import AtvRemote.PowerSafety
import AtvRemote.PowerReport
import AtvRemote.Freshness
import AtvRemote.WakeEffects
import AtvRemote.PairingAnswers
import AtvRemote.PressDiscipline
import AtvRemote.CredentialStore
import AtvRemote.ConcurrentIdentities
import AtvRemote.AuthRejection
import AtvRemote.HandshakeLoops
import AtvRemote.BigEndian
import AtvRemote.ConfirmationWait
import AtvRemote.PairingSecrets
import AtvRemote.KeyCodes
import AtvRemote.Cli
import AtvRemote.KeyNames
import AtvRemote.KeyDelivery
import AtvRemote.PingAnswers
import AtvRemote.Pieces
import AtvRemote.MacAddresses
import AtvRemote.KeySpellings
import AtvRemote.AddressTexts
import AtvRemote.Clocks
import AtvRemote.Discovery
import AtvRemote.LastWrites
import AtvRemote.DiscoveredDevices
import AtvRemote.Ipv4Preference
import AtvRemote.DiscoveryDeadline
import AtvRemote.JsonTexts
import AtvRemote.Main
import AtvRemote.Interruptions
import AtvRemote.ProcessRuns
import AtvRemote.Blame
import AtvRemote.ExitCodes
import AtvRemote.Callers
import AtvRemote.Confinement
import AtvRemote.Identities
import AtvRemote.Pacing
import AtvRemote.Cooperation
import AtvRemote.WakeWait
import AtvRemote.PairingAgreement
import AtvRemote.Successes
import AtvRemote.Connections
import AtvRemote.AddressParsing
import AtvRemote.Hosts
import AtvRemote.Approximations
import AtvRemote.Fuel
import AtvRemote.Conversations
import AtvRemote.FrameParts
import AtvRemote.ProcessBytes
import AtvRemote.HandlingDrivers
