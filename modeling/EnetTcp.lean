import EnetTcp.Acceptance
import EnetTcp.Acquiring
import EnetTcp.AdcCells
import EnetTcp.AdcClaim
import EnetTcp.Batching
import EnetTcp.BitItems
import EnetTcp.BoardModel
import EnetTcp.Bounds
import EnetTcp.Bulk
import EnetTcp.Busy
import EnetTcp.Calibration
import EnetTcp.Closing
import EnetTcp.Failures
import EnetTcp.FirmwareUpdate
import EnetTcp.Footprints
import EnetTcp.Framing
import EnetTcp.Greeting
import EnetTcp.GuardText
import EnetTcp.Hostnames
import EnetTcp.Hosts
import EnetTcp.Joining
import EnetTcp.Lambdas
import EnetTcp.Loading
import EnetTcp.ModelString
import EnetTcp.OneReply
import EnetTcp.Partition
import EnetTcp.Paths
import EnetTcp.Ranges
import EnetTcp.Reduction
import EnetTcp.Reencoding
import EnetTcp.RegisterServer
import EnetTcp.Replies
import EnetTcp.Restoring
import EnetTcp.Resuming
import EnetTcp.RoundTrip
import EnetTcp.SafeQueue
import EnetTcp.SeedLoading
import EnetTcp.SyntaxErrors
import EnetTcp.Timing
import EnetTcp.UploadStates
import EnetTcp.Uploads
import EnetTcp.Validator
