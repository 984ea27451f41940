import SwmSdk.ByteText
import SwmSdk.Recency
import SwmSdk.FieldLines
import SwmSdk.ByteCodec
import SwmSdk.Base64Url
import SwmSdk.Types
import SwmSdk.DeviceIdentity
import SwmSdk.KeyRing
import SwmSdk.KeyRingPorts
import SwmSdk.AuthzEnvelope
import SwmSdk.JsonWrite
import SwmSdk.JavaText
import SwmSdk.Dpop
import SwmSdk.JsonText
import SwmSdk.Json
import SwmSdk.Nlohmann
import SwmSdk.JsonMember
import SwmSdk.Authz
import SwmSdk.Jackson
import SwmSdk.AuthzBinding
import SwmSdk.UpdateStream
import SwmSdk.Artifact
import SwmSdk.Download
import SwmSdk.DownloadJava
import SwmSdk.RootOfTrust
import SwmSdk.CSharpText
import SwmSdk.Smbios
import SwmSdk.SmbiosPorts
import SwmSdk.Rim2
import SwmSdk.Rim2JavaPython
import SwmSdk.Rim2Ports
import SwmSdk.Numeral
import SwmSdk.OfflineBudget
import SwmSdk.OfflineFile
import SwmSdk.OfflineRust
import SwmSdk.Schedule
import SwmSdk.Mutex
import SwmSdk.IdentityLock
import SwmSdk.TrustedClock
import SwmSdk.KeyRefresh
import SwmSdk.SendLoop
import SwmSdk.DownloadResume
import SwmSdk.AsyncTask
import SwmSdk.IdentityRace
import SwmSdk.ClientOptions
import SwmSdk.HostIntegrity
import SwmSdk.PolicyCache
import SwmSdk.ClientCalls
import SwmSdk.SessionLifetime
import SwmSdk.KeyRotation
import SwmSdk.HostIntegrityJava
import SwmSdk.RetryLoop
import SwmSdk.RetrySchedule
import SwmSdk.RetryAfter
import SwmSdk.LostResponse
import SwmSdk.AuthzSession
import SwmSdk.DownloadGo
import SwmSdk.Destination
import SwmSdk.UriReference
import SwmSdk.DownloadUrl
import SwmSdk.Redirect
import SwmSdk.EventLines
import SwmSdk.ServerSentEvents
import SwmSdk.EventStandard
import SwmSdk.PrimeModulus
import SwmSdk.ByteOrder
import SwmSdk.X25519Key
import SwmSdk.EventLimit
import SwmSdk.UpdateStreamGo
import SwmSdk.UpdateStreamJava
import SwmSdk.StoredNumbers
import SwmSdk.SignedIntegers
import SwmSdk.JsonGrammar
import SwmSdk.JsonSpan
import SwmSdk.JsonOffsets
import SwmSdk.Utf16
import SwmSdk.PackagePaths
import SwmSdk.Rim2Cut
import SwmSdk.HostIntegrityCSharp
import SwmSdk.KeyedMap
import SwmSdk.HostIntegrityPorts
import SwmSdk.EvidenceMaps
import SwmSdk.KeyMaterial
import SwmSdk.ContentRange
import SwmSdk.OptionalLines
import SwmSdk.HardwareEvidence
import SwmSdk.SmbiosOffsets
import SwmSdk.Multipart
import SwmSdk.FeedbackPayload
import SwmSdk.DeviceIdRust
import SwmSdk.BodyAadPython
import SwmSdk.DebugWatchJava
import SwmSdk.JsonDocument
import SwmSdk.ServiceErrors
import SwmSdk.TrustChain
import SwmSdk.SealedBox
import SwmSdk.Base64Text
import SwmSdk.KeyTexts
import SwmSdk.BodySealing
import SwmSdk.SealedRequests
import SwmSdk.DebugRequests
import SwmSdk.JsonDump
import SwmSdk.JsonParsed
import SwmSdk.OperationGrants
import SwmSdk.KeyRingsAgree
import SwmSdk.AuthzAgree
