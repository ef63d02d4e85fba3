import UnicoreTsi.Lib.Text
import UnicoreTsi.Lib.Regex
import UnicoreTsi.Runtime
import UnicoreTsi.Utils
import UnicoreTsi.Connector
import UnicoreTsi.BecomeUser
import UnicoreTsi.GroupConfinement
import UnicoreTsi.Io
import UnicoreTsi.Acl
import UnicoreTsi.BssCommon
import UnicoreTsi.BssNobatch
import UnicoreTsi.Uftp
import UnicoreTsi.Tsi
import UnicoreTsi.Runs
import UnicoreTsi.IdentityLifecycle
import UnicoreTsi.IdentityLines
import UnicoreTsi.Dispatch
import UnicoreTsi.Replies
import UnicoreTsi.OneStatus
import UnicoreTsi.ReplyFraming
import UnicoreTsi.Chunks
import UnicoreTsi.Parameters
import UnicoreTsi.UploadChannel
import UnicoreTsi.ChunkTransfer
import UnicoreTsi.Forwarder
import UnicoreTsi.Forwarding
import UnicoreTsi.BssScript
import UnicoreTsi.BssSlurm
import UnicoreTsi.BssLsf
import UnicoreTsi.BssTorque
import UnicoreTsi.Lib.KeyedMax
import UnicoreTsi.StatusListing
import UnicoreTsi.JobIds
import UnicoreTsi.Commands
import UnicoreTsi.DirectiveOrder
import UnicoreTsi.WallTime
import UnicoreTsi.Requests
import UnicoreTsi.NotSupplied
import UnicoreTsi.Submission
import UnicoreTsi.Config
import UnicoreTsi.PeerAccess
import UnicoreTsi.Server
import UnicoreTsi.Serving
import UnicoreTsi.CachedLookups
import UnicoreTsi.Lib.Forest
import UnicoreTsi.RecursiveListing
import UnicoreTsi.Lib.Shell
import UnicoreTsi.UftpLaunch
import UnicoreTsi.MessageStreams
import UnicoreTsi.Lib.Processes
import UnicoreTsi.PamSessions
import UnicoreTsi.StrictGroups
import UnicoreTsi.Lib.Overlay
import UnicoreTsi.ShortReads
import UnicoreTsi.UploadEnds
import UnicoreTsi.JobDetails
import UnicoreTsi.StatusLines
import UnicoreTsi.QstatLines
import UnicoreTsi.ChildCleanup
import UnicoreTsi.ListingEntries
import UnicoreTsi.Partitions
import UnicoreTsi.PortRotation
import UnicoreTsi.ScriptLines
import UnicoreTsi.AclRequests
import UnicoreTsi.AclSupport
import UnicoreTsi.ListingFailures
import UnicoreTsi.LsfScripts
import UnicoreTsi.Throttle
import UnicoreTsi.PropertyFile
import UnicoreTsi.Lib.Distinct
import UnicoreTsi.OldNames
import UnicoreTsi.ConfiguredNumbers
import UnicoreTsi.ExitCodes
import UnicoreTsi.Lib.Decimal
import UnicoreTsi.NobatchJobs
import UnicoreTsi.Lib.Base64
import UnicoreTsi.DataBlocks
import UnicoreTsi.RequestFraming
import UnicoreTsi.SessionChild
import UnicoreTsi.Lib.Pacing
import UnicoreTsi.RateLimit
import UnicoreTsi.Lib.Json
import UnicoreTsi.JsonReplies
import UnicoreTsi.BssDefaults
import UnicoreTsi.StartUp
import UnicoreTsi.NeverRoot
import UnicoreTsi.Survival
import UnicoreTsi.Lib.Patch
import UnicoreTsi.UftpClient
import UnicoreTsi.UftpTransfers
import UnicoreTsi.UftpParts
import UnicoreTsi.TableSteps
import UnicoreTsi.Footprint
import UnicoreTsi.ForwardingStart
import UnicoreTsi.UserReports
import UnicoreTsi.ForwardingEnds
import UnicoreTsi.Lib.Pieces
import UnicoreTsi.FileStore
import UnicoreTsi.OneShot
import UnicoreTsi.OneShotTransfers
